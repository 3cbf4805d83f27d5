import RydTrip.EventConsumer

/-!
# Parking on the dead letter topic

`run`, `parkOnDlq` and `ensureDlqTopic` of `EventConsumer` with every await: the
calls of the handler, the admin client and the producer.  A parsed message can be
any JSON value, since the cast to `EventEnvelope` checks nothing, so the type of
envelopes is a parameter, and so is what `JSON.stringify` makes of a record.  Keys
and values are given by their text.

`eachMessage_eq` says that the consumer of `EventConsumer` is this one, with the
handler and the parking of its service put in.
-/

namespace RydTrip

namespace EventConsumer

namespace Kafka

open Process

variable {J S : Type}

/-! ## Records -/

structure DlqRecord (J : Type) where
  dlqReason : DlqReason
  consumerGroup : String
  originalTopic : String
  originalPartition : Nat
  originalOffset : String
  originalKey : Option String
  attempts : Nat
  errorMessage : String
  failedAt : Nat
  envelope : Option J
  rawValue : Option String
  deriving DecidableEq, Repr

/-- The fields of the record that `run` chooses. -/
structure ParkFields (J : Type) where
  dlqReason : DlqReason
  envelope : Option J
  rawValue : Option String
  attempts : Nat
  errorMessage : String
  deriving DecidableEq, Repr

/-- The record names the message it was made for. -/
def DlqRecord.Of (record : DlqRecord J) (groupId : String) (payload : KafkaMessage) : Prop :=
  record.consumerGroup = groupId ∧ record.originalTopic = payload.topic ∧
    record.originalPartition = payload.partition ∧ record.originalOffset = payload.offset ∧
    record.originalKey = payload.key

/-! ## Commands -/

/-- One await of the consumer, or an access to its `dlqTopicEnsured`. -/
inductive Cmd (J S : Type) where
  | handler (envelope : J)
  | dlqTopicEnsured
  | setDlqTopicEnsured
  | adminConnect
  | createTopics (topic : String)
  | adminDisconnect
  | now
  | send (topic : String) (key : Option String) (value : S)

@[reducible] def Reply : Cmd J S → Type
  | .handler _ => Except String Unit
  | .dlqTopicEnsured => Bool
  | .setDlqTopicEnsured => Unit
  | .adminConnect => Except String Unit
  | .createTopics _ => Except String Unit
  | .adminDisconnect => Except String Unit
  | .now => Nat
  | .send .. => Except String Unit

/-- The asynchronous code of the consumer.  An error is given by its message. -/
abbrev ConsumerProg (J S α : Type) : Type := Prog (Cmd J S) Reply String α

/-- Await a call that rejects with an error. -/
def orThrow {α : Type} : Except String α → ConsumerProg J S α
  | .ok a => pure a
  | .error message => throw message

/-! ## The consumer -/

def dlqTopic (groupId : String) : String := s!"{groupId}.dlt"

/-- The `finally` block disconnects whether or not the topic was created, and its
own error comes first. -/
def ensureDlqTopic (topic : String) : ConsumerProg J S Unit := do
  let ensured : Bool ← Prog.perform (Cmd.dlqTopicEnsured (J := J) (S := S))
  if ensured then return ()
  orThrow (← Prog.perform Cmd.adminConnect)
  let created : Except String Unit ← Prog.perform (Cmd.createTopics topic)
  orThrow (← Prog.perform Cmd.adminDisconnect)
  orThrow created
  Prog.perform Cmd.setDlqTopicEnsured

/-- `stringify` is `JSON.stringify`. -/
def parkOnDlq (groupId : String) (stringify : DlqRecord J → S) (payload : KafkaMessage)
    (fields : ParkFields J) : ConsumerProg J S Unit := do
  ensureDlqTopic (dlqTopic groupId)
  let failedAt : Nat ← Prog.perform Cmd.now
  let record : DlqRecord J :=
    { dlqReason := fields.dlqReason
      consumerGroup := groupId
      originalTopic := payload.topic
      originalPartition := payload.partition
      originalOffset := payload.offset
      originalKey := payload.key
      attempts := fields.attempts
      errorMessage := fields.errorMessage
      failedAt := failedAt
      envelope := fields.envelope
      rawValue := fields.rawValue }
  orThrow (← Prog.perform (Cmd.send (dlqTopic groupId) payload.key (stringify record)))

def callHandler (envelope : J) : ConsumerProg J S Unit := do
  orThrow (← Prog.perform (Cmd.handler envelope))

/-- The retry loop from attempt `attempt` on, with `left` attempts to go. -/
def attemptLoop (groupId : String) (stringify : DlqRecord J → S) (payload : KafkaMessage)
    (envelope : J) : (attempt left : Nat) → ConsumerProg J S Unit
  | _, 0 => pure ()
  | attempt, left + 1 =>
      try
        callHandler envelope
      catch err =>
        if left = 0 then
          parkOnDlq groupId stringify payload
            ⟨.handlerFailed, some envelope, none, attempt, err⟩
        else
          attemptLoop groupId stringify payload envelope (attempt + 1) left

/-- `eachMessage`.  `parse` is `JSON.parse`, with the message of its error. -/
def eachMessage (groupId : String) (parse : String → Except String J)
    (stringify : DlqRecord J → S) (maxAttempts : Nat) (payload : KafkaMessage) :
    ConsumerProg J S Unit :=
  match truthy payload.value with
  | none => pure ()
  | some raw =>
      match parse raw with
      | .error err =>
          parkOnDlq groupId stringify payload
            ⟨.malformedJson, none, some raw, 1, s!"Failed to parse event envelope: {err}"⟩
      | .ok envelope => attemptLoop groupId stringify payload envelope 1 maxAttempts

/-- The fields that a service parks. -/
def ParkFields.ofService (fields : DlqFields) : ParkFields EventEnvelope :=
  ⟨fields.dlqReason, fields.envelope, fields.rawValue, fields.attempts, fields.errorMessage⟩

theorem attemptLoop_eq (groupId : String) (stringify : DlqRecord EventEnvelope → S)
    (payload : KafkaMessage) (envelope : EventEnvelope) (attempt left : Nat) :
    attemptLoop groupId stringify payload envelope attempt left =
      EventConsumer.attemptLoop id
        (fun fields => parkOnDlq groupId stringify payload (.ofService fields))
        callHandler envelope attempt left := by
  induction left generalizing attempt with
  | zero => rfl
  | succ left ih =>
      unfold attemptLoop EventConsumer.attemptLoop
      rw [ih]
      rfl

/-- The consumer of `EventConsumer` is this one. -/
theorem eachMessage_eq (groupId : String) (parse : String → Except String EventEnvelope)
    (stringify : DlqRecord EventEnvelope → S) (maxAttempts : Nat) (payload : KafkaMessage) :
    eachMessage groupId parse stringify maxAttempts payload =
      EventConsumer.eachMessage parse id
        (fun fields => parkOnDlq groupId stringify payload (.ofService fields)) callHandler
        maxAttempts payload := by
  unfold eachMessage EventConsumer.eachMessage EventConsumer.deliver
  cases truthy payload.value with
  | none => rfl
  | some raw =>
      dsimp only
      cases parse raw with
      | error err => rfl
      | ok envelope => exact attemptLoop_eq groupId stringify payload envelope 1 maxAttempts

/-! ## Outcomes -/

/-- How the awaits of one `eachMessage` end.  `handler k` is the outcome of the
`k`-th call. -/
structure Outcomes where
  handler : Nat → Except String Unit
  adminConnect : Except String Unit
  createTopics : Except String Unit
  adminDisconnect : Except String Unit
  send : Fault
  time : Nat

structure DltMessage (S : Type) where
  topic : String
  key : Option String
  value : S
  deriving DecidableEq, Repr

/-- The consumer, the calls of its handler, and what is on the dead letter topic,
newest first. -/
structure Host (J S : Type) where
  dlqTopicEnsured : Bool
  handled : List J
  parked : List (DltMessage S)
  deriving DecidableEq, Repr

def answer (o : Outcomes) : (c : Cmd J S) → Host J S → Reply c × Host J S
  | .handler envelope, w =>
      (o.handler (w.handled.length + 1), { w with handled := envelope :: w.handled })
  | .dlqTopicEnsured, w => (w.dlqTopicEnsured, w)
  | .setDlqTopicEnsured, w => ((), { w with dlqTopicEnsured := true })
  | .adminConnect, w => (o.adminConnect, w)
  | .createTopics _, w => (o.createTopics, w)
  | .adminDisconnect, w => (o.adminDisconnect, w)
  | .now, w => (o.time, w)
  | .send topic key value, w =>
      o.send.settle w () { w with parked := ⟨topic, key, value⟩ :: w.parked }

/-- A consumer before a message. -/
def Host.start (dlqTopicEnsured : Bool) : Host J S := ⟨dlqTopicEnsured, [], []⟩

/-- The end of `eachMessage`, and what it has done. -/
def process (o : Outcomes) (groupId : String) (parse : String → Except String J)
    (stringify : DlqRecord J → S) (maxAttempts : Nat) (payload : KafkaMessage)
    (dlqTopicEnsured : Bool) : Except String Unit × Host J S :=
  (eachMessage groupId parse stringify maxAttempts payload).eval (answer o)
    (.start dlqTopicEnsured)

/-- The topic cannot be made sure of. -/
def EnsureFails (o : Outcomes) (dlqTopicEnsured : Bool) : Prop :=
  dlqTopicEnsured = false ∧ (o.adminConnect.isOk = false ∨ o.createTopics.isOk = false ∨
    o.adminDisconnect.isOk = false)

/-- An await of the parking fails. -/
def ParkFails (o : Outcomes) (dlqTopicEnsured : Bool) : Prop :=
  EnsureFails o dlqTopicEnsured ∨ o.send ≠ .none

/-! ## The three ends of a message -/

section Ends

variable (o : Outcomes) (groupId : String) (parse : String → Except String J)
  (stringify : DlqRecord J → S) (maxAttempts : Nat) (payload : KafkaMessage) (raw : String)
  (w : Host J S)

/-- The handler succeeded on its `k`-th call, and nothing was parked. -/
def Handled : Prop :=
  ∃ envelope k, parse raw = .ok envelope ∧ 1 ≤ k ∧ k ≤ maxAttempts ∧ o.handler k = .ok () ∧
    (∀ j, 1 ≤ j → j < k → (o.handler j).isOk = false) ∧
    w.handled = List.replicate k envelope ∧ w.parked = []

/-- Every attempt failed, and one record with the envelope was parked. -/
def HandlerFailed : Prop :=
  ∃ envelope record, parse raw = .ok envelope ∧
    (∀ j, 1 ≤ j → j ≤ maxAttempts → (o.handler j).isOk = false) ∧
    w.handled = List.replicate maxAttempts envelope ∧
    w.parked = [⟨dlqTopic groupId, payload.key, stringify record⟩] ∧ record.Of groupId payload ∧
    record.dlqReason = .handlerFailed ∧ record.envelope = some envelope ∧
    record.attempts = maxAttempts

/-- The handler was not called, and one record with the raw value was parked. -/
def MalformedJson : Prop :=
  ∃ err record, parse raw = .error err ∧ w.handled = [] ∧
    w.parked = [⟨dlqTopic groupId, payload.key, stringify record⟩] ∧ record.Of groupId payload ∧
    record.dlqReason = .malformedJson ∧ record.rawValue = some raw

/-- The message has to be parked. -/
def MustPark : Prop :=
  (parse raw).isOk = false ∨ ∀ j, 1 ≤ j → j ≤ maxAttempts → (o.handler j).isOk = false

end Ends

def ExactlyOne (a b c : Prop) : Prop :=
  (a ∧ ¬ b ∧ ¬ c) ∨ (¬ a ∧ b ∧ ¬ c) ∨ (¬ a ∧ ¬ b ∧ c)

/-! ## Parking -/

section Parking

variable {o : Outcomes} {groupId : String} {stringify : DlqRecord J → S}
  {payload : KafkaMessage} {w : Host J S}

theorem ensureDlqTopic_eval (topic : String) :
    (∃ b, (ensureDlqTopic topic).eval (answer o) w =
        (.ok (), ⟨b, w.handled, w.parked⟩) ∧ ¬ EnsureFails o w.dlqTopicEnsured) ∨
      (∃ message, (ensureDlqTopic topic).eval (answer o) w = (.error message, w) ∧
        EnsureFails o w.dlqTopicEnsured) := by
  obtain ⟨ensured, handled, parked⟩ := w
  cases ensured with
  | true => exact .inl ⟨true, rfl, fun h => Bool.noConfusion h.1⟩
  | false =>
      obtain ⟨handler, adminConnect, createTopics, adminDisconnect, send, time⟩ := o
      cases adminConnect with
      | error message => exact .inr ⟨message, rfl, rfl, .inl rfl⟩
      | ok connected =>
          cases adminDisconnect with
          | error message => exact .inr ⟨message, rfl, rfl, .inr (.inr rfl)⟩
          | ok disconnected =>
              cases createTopics with
              | error message => exact .inr ⟨message, rfl, rfl, .inr (.inl rfl)⟩
              | ok created =>
                  refine .inl ⟨true, rfl, fun ⟨_, hfails⟩ => ?_⟩
                  simp [Except.isOk, Except.toBool] at hfails

variable (o) (groupId) (stringify) (payload) in
/-- Parking puts one record on the topic, or it fails. -/
theorem parkOnDlq_eval (fields : ParkFields J) :
    (∃ b record, (parkOnDlq groupId stringify payload fields).eval (answer o) w =
        (.ok (), ⟨b, w.handled, ⟨dlqTopic groupId, payload.key, stringify record⟩ :: w.parked⟩) ∧
      ¬ ParkFails o w.dlqTopicEnsured ∧ record.Of groupId payload ∧
      record.dlqReason = fields.dlqReason ∧ record.envelope = fields.envelope ∧
      record.rawValue = fields.rawValue ∧ record.attempts = fields.attempts) ∨
    (∃ message w', (parkOnDlq groupId stringify payload fields).eval (answer o) w =
        (.error message, w') ∧ ParkFails o w.dlqTopicEnsured) := by
  unfold parkOnDlq
  rw [Prog.eval_bind]
  rcases ensureDlqTopic_eval (o := o) (w := w) (dlqTopic groupId) with
    ⟨b, heval, hensured⟩ | ⟨message, heval, hfails⟩
  · rw [heval]
    simp only [Prog.perform_bind, Prog.eval_call, answer]
    cases hsend : o.send with
    | none =>
        refine .inl ⟨b, _, rfl, ?_, ⟨rfl, rfl, rfl, rfl, rfl⟩, rfl, rfl, rfl, rfl⟩
        rintro (hfails | hfails)
        · exact hensured hfails
        · exact hfails hsend
    | refused message =>
        refine .inr ⟨message, _, rfl, .inr ?_⟩
        rw [hsend]
        exact fun h => by cases h
    | lost message =>
        refine .inr ⟨message, _, rfl, .inr ?_⟩
        rw [hsend]
        exact fun h => by cases h
  · rw [heval]
    exact .inr ⟨message, w, rfl, .inl hfails⟩

end Parking

/-! ## The retry loop -/

section Loop

variable {o : Outcomes} {groupId : String} {stringify : DlqRecord J → S}
  {payload : KafkaMessage} {envelope : J}

theorem callHandler_eval (w : Host J S) :
    (callHandler envelope).eval (answer o) w =
      (o.handler (w.handled.length + 1),
        ⟨w.dlqTopicEnsured, envelope :: w.handled, w.parked⟩) := by
  change (orThrow (o.handler (w.handled.length + 1))).eval (answer o) _ = _
  cases o.handler (w.handled.length + 1) with
  | error message => rfl
  | ok done => rfl

variable (o) (groupId) (stringify) (payload) (envelope) in
/-- What the attempts after the first `failed` ones can come to, when these have
failed. -/
theorem attemptLoop_eval (dlqTopicEnsured : Bool) (failed left : Nat)
    (hfailed : ∀ j, 1 ≤ j → j ≤ failed → (o.handler j).isOk = false) :
    (∃ k, 1 ≤ k ∧ k ≤ failed + (left + 1) ∧ o.handler k = .ok () ∧
        (∀ j, 1 ≤ j → j < k → (o.handler j).isOk = false) ∧
        (attemptLoop groupId stringify payload envelope (failed + 1) (left + 1)).eval (answer o)
          ⟨dlqTopicEnsured, List.replicate failed envelope, []⟩ =
          (.ok (), ⟨dlqTopicEnsured, List.replicate k envelope, []⟩)) ∨
      ((∀ j, 1 ≤ j → j ≤ failed + (left + 1) → (o.handler j).isOk = false) ∧
        ∃ err, (attemptLoop groupId stringify payload envelope (failed + 1) (left + 1)).eval
          (answer o) ⟨dlqTopicEnsured, List.replicate failed envelope, []⟩ =
          (parkOnDlq groupId stringify payload
            ⟨.handlerFailed, some envelope, none, failed + (left + 1), err⟩).eval (answer o)
            ⟨dlqTopicEnsured, List.replicate (failed + (left + 1)) envelope, []⟩) := by
  have hcall : (callHandler envelope : ConsumerProg J S Unit).eval (answer o)
      ⟨dlqTopicEnsured, List.replicate failed envelope, []⟩ =
      (o.handler (failed + 1), ⟨dlqTopicEnsured, List.replicate (failed + 1) envelope, []⟩) := by
    rw [callHandler_eval, List.length_replicate, List.replicate_succ]
  cases hout : o.handler (failed + 1) with
  | ok done =>
      refine .inl
        ⟨failed + 1, by omega, by omega, hout, fun j hj hlt => hfailed j hj (by omega), ?_⟩
      unfold attemptLoop
      rw [Prog.tryCatch_eq, Prog.eval_tryCatch, hcall, hout]
  | error err =>
      have hfailed' : ∀ j, 1 ≤ j → j ≤ failed + 1 → (o.handler j).isOk = false := by
        intro j hj hle
        by_cases heq : j = failed + 1
        · subst heq
          rw [hout]
          rfl
        · exact hfailed j hj (by omega)
      have hloop : (attemptLoop groupId stringify payload envelope (failed + 1) (left + 1)).eval
          (answer o) ⟨dlqTopicEnsured, List.replicate failed envelope, []⟩ =
          (if left = 0 then
            parkOnDlq groupId stringify payload
              ⟨.handlerFailed, some envelope, none, failed + 1, err⟩
          else attemptLoop groupId stringify payload envelope (failed + 1 + 1) left).eval (answer o)
            ⟨dlqTopicEnsured, List.replicate (failed + 1) envelope, []⟩ := by
        rw [attemptLoop, Prog.tryCatch_eq, Prog.eval_tryCatch, hcall, hout]
      rw [hloop]
      cases left with
      | zero => exact .inr ⟨hfailed', err, rfl⟩
      | succ left =>
          have hsum : failed + (left + 1 + 1) = failed + 1 + (left + 1) := by omega
          rw [if_neg (Nat.succ_ne_zero left), hsum]
          exact attemptLoop_eval dlqTopicEnsured (failed + 1) left hfailed'

variable (o) (groupId) (stringify) (payload) (envelope) in
/-- What all the attempts can come to. -/
theorem attempts_eval {maxAttempts : Nat} (dlqTopicEnsured : Bool) (hmax : 1 ≤ maxAttempts) :
    (∃ k, 1 ≤ k ∧ k ≤ maxAttempts ∧ o.handler k = .ok () ∧
        (∀ j, 1 ≤ j → j < k → (o.handler j).isOk = false) ∧
        (attemptLoop groupId stringify payload envelope 1 maxAttempts).eval (answer o)
          (.start dlqTopicEnsured) =
          (.ok (), ⟨dlqTopicEnsured, List.replicate k envelope, []⟩)) ∨
      ((∀ j, 1 ≤ j → j ≤ maxAttempts → (o.handler j).isOk = false) ∧
        ∃ err, (attemptLoop groupId stringify payload envelope 1 maxAttempts).eval (answer o)
          (.start dlqTopicEnsured) =
          (parkOnDlq groupId stringify payload
            ⟨.handlerFailed, some envelope, none, maxAttempts, err⟩).eval (answer o)
            ⟨dlqTopicEnsured, List.replicate maxAttempts envelope, []⟩) := by
  obtain ⟨left, rfl⟩ : ∃ left, maxAttempts = left + 1 := ⟨maxAttempts - 1, by omega⟩
  have h := attemptLoop_eval o groupId stringify payload envelope dlqTopicEnsured 0 left
    (fun j _ _ => by omega)
  simp only [Nat.zero_add] at h
  exact h

end Loop

/-! ## No message is lost -/

section NoLoss

variable {o : Outcomes} {groupId : String} {parse : String → Except String J}
  {stringify : DlqRecord J → S} {maxAttempts : Nat} {payload : KafkaMessage} {raw : String}
  {w : Host J S}

theorem Handled.only (h : Handled o parse maxAttempts raw w) :
    ExactlyOne (Handled o parse maxAttempts raw w)
      (HandlerFailed o groupId parse stringify maxAttempts payload raw w)
      (MalformedJson groupId parse stringify payload raw w) := by
  refine .inl ⟨h, fun hfailed => ?_, fun hmalformed => ?_⟩
  · obtain ⟨-, -, -, -, -, -, -, -, hnone⟩ := h
    obtain ⟨_, _, -, -, -, hone, -⟩ := hfailed
    rw [hnone] at hone
    cases hone
  · obtain ⟨-, -, -, -, -, -, -, -, hnone⟩ := h
    obtain ⟨_, _, -, -, hone, -⟩ := hmalformed
    rw [hnone] at hone
    cases hone

theorem HandlerFailed.only (h : HandlerFailed o groupId parse stringify maxAttempts payload raw w) :
    ExactlyOne (Handled o parse maxAttempts raw w)
      (HandlerFailed o groupId parse stringify maxAttempts payload raw w)
      (MalformedJson groupId parse stringify payload raw w) := by
  refine .inr (.inl ⟨fun hhandled => ?_, h, fun hmalformed => ?_⟩)
  · obtain ⟨_, _, -, -, -, hone, -⟩ := h
    obtain ⟨-, -, -, -, -, -, -, -, hnone⟩ := hhandled
    rw [hnone] at hone
    cases hone
  · obtain ⟨envelope, -, hparse, -⟩ := h
    obtain ⟨err, -, herr, -⟩ := hmalformed
    rw [hparse] at herr
    cases herr

theorem MalformedJson.only (h : MalformedJson groupId parse stringify payload raw w) :
    ExactlyOne (Handled o parse maxAttempts raw w)
      (HandlerFailed o groupId parse stringify maxAttempts payload raw w)
      (MalformedJson groupId parse stringify payload raw w) := by
  obtain ⟨err, record, herr, hrest⟩ := h
  refine .inr (.inr ⟨fun hhandled => ?_, fun hfailed => ?_, err, record, herr, hrest⟩)
  · obtain ⟨envelope, k, hparse, -⟩ := hhandled
    rw [hparse] at herr
    cases herr
  · obtain ⟨envelope, record', hparse, -⟩ := hfailed
    rw [hparse] at herr
    cases herr

theorem process_eq (hvalue : payload.value = some raw) (hraw : raw ≠ "") (dlqTopicEnsured : Bool) :
    process o groupId parse stringify maxAttempts payload dlqTopicEnsured =
      match parse raw with
      | .error err =>
          (parkOnDlq groupId stringify payload
            ⟨.malformedJson, none, some raw, 1, s!"Failed to parse event envelope: {err}"⟩).eval
            (answer o) (.start dlqTopicEnsured)
      | .ok envelope =>
          (attemptLoop groupId stringify payload envelope 1 maxAttempts).eval (answer o)
            (.start dlqTopicEnsured) := by
  unfold process eachMessage
  rw [truthy_eq_some.mpr ⟨hvalue, hraw⟩]
  dsimp only
  cases parse raw with
  | error err => rfl
  | ok envelope => rfl

/-- A message is handled once, or parked once after every attempt has failed, or
parked once unhandled, and `eachMessage` does not resolve if parking fails. -/
theorem eachMessage_noLoss (o : Outcomes) (groupId : String) (parse : String → Except String J)
    (stringify : DlqRecord J → S) (maxAttempts : Nat) (payload : KafkaMessage) (raw : String)
    (dlqTopicEnsured : Bool) (hvalue : payload.value = some raw) (hraw : raw ≠ "")
    (hmax : 1 ≤ maxAttempts) :
    (∀ w, process o groupId parse stringify maxAttempts payload dlqTopicEnsured = (.ok (), w) →
      ExactlyOne (Handled o parse maxAttempts raw w)
        (HandlerFailed o groupId parse stringify maxAttempts payload raw w)
        (MalformedJson groupId parse stringify payload raw w)) ∧
      (MustPark o parse maxAttempts raw → ParkFails o dlqTopicEnsured →
        ∃ message w, process o groupId parse stringify maxAttempts payload dlqTopicEnsured =
          (.error message, w)) := by
  rw [process_eq hvalue hraw]
  cases hparse : parse raw with
  | error err =>
      dsimp only
      rcases parkOnDlq_eval o groupId stringify payload
        (w := .start dlqTopicEnsured)
        ⟨.malformedJson, none, some raw, 1, s!"Failed to parse event envelope: {err}"⟩ with
        ⟨b, record, heval, hparks, hof, hreason, -, hrawValue, -⟩ | ⟨message, w', heval, -⟩
      · rw [heval]
        refine ⟨fun w heq => ?_, fun _ hfails => absurd hfails hparks⟩
        cases heq
        exact MalformedJson.only ⟨err, record, hparse, rfl, rfl, hof, hreason, hrawValue⟩
      · rw [heval]
        refine ⟨fun w heq => ?_, fun _ _ => ⟨message, w', rfl⟩⟩
        cases heq
  | ok envelope =>
      dsimp only
      rcases attempts_eval o groupId stringify payload envelope dlqTopicEnsured hmax with
        ⟨k, hk, hle, hok, hbefore, heval⟩ | ⟨hfailed, err, heval⟩
      · rw [heval]
        refine ⟨fun w heq => ?_, fun hmust _ => ?_⟩
        · cases heq
          exact Handled.only ⟨envelope, k, hparse, hk, hle, hok, hbefore, rfl, rfl⟩
        · rcases hmust with hbad | hall
          · rw [hparse] at hbad
            cases hbad
          · have hkfail := hall k hk hle
            rw [hok] at hkfail
            cases hkfail
      · rw [heval]
        rcases parkOnDlq_eval o groupId stringify payload
          (w := ⟨dlqTopicEnsured, List.replicate maxAttempts envelope, []⟩)
          ⟨.handlerFailed, some envelope, none, maxAttempts, err⟩ with
          ⟨b, record, hpark, hparks, hof, hreason, henvelope, -, hattempts⟩ |
            ⟨message, w', hpark, -⟩
        · rw [hpark]
          refine ⟨fun w heq => ?_, fun _ hfails => absurd hfails hparks⟩
          cases heq
          exact HandlerFailed.only
            ⟨envelope, record, hparse, hfailed, rfl, rfl, hof, hreason, henvelope, hattempts⟩
        · rw [hpark]
          refine ⟨fun w heq => ?_, fun _ _ => ⟨message, w', rfl⟩⟩
          cases heq

/-- A poison message: the value is JSON, and all three attempts fail. -/
def poison : Outcomes := ⟨fun _ => .error "boom", .ok (), .ok (), .ok (), .none, 7⟩

/-- The text of the record that is parked for the value `[]`. -/
def poisonText : String :=
  "\x7b\"dlqReason\":\"handler-failed\",\"envelope\":[],\"rawValue\":null,\"attempts\":3," ++
    "\"errorMessage\":\"boom\",\"consumerGroup\":\"trip-service\",\"originalTopic\":\"t\"," ++
    "\"originalPartition\":0,\"originalOffset\":\"5\",\"originalKey\":null," ++
    "\"failedAt\":\"1970-01-01T00:00:00.007Z\"\x7d"

theorem eachMessage_noLoss_poison :
    ∃ w, process poison "trip-service" (fun raw => .ok raw) (fun _ => poisonText) 3
        ⟨"t", 0, "5", none, some "[]"⟩ false = (.ok (), w) ∧
      w.handled = ["[]", "[]", "[]"] ∧ w.parked = [⟨"trip-service.dlt", none, poisonText⟩] ∧
      ExactlyOne (Handled poison (fun raw => .ok raw) 3 "[]" w)
        (HandlerFailed poison "trip-service" (fun raw => .ok raw) (fun _ => poisonText) 3
          ⟨"t", 0, "5", none, some "[]"⟩ "[]" w)
        (MalformedJson "trip-service" (fun raw => .ok raw) (fun _ => poisonText)
          ⟨"t", 0, "5", none, some "[]"⟩ "[]" w) :=
  ⟨_, rfl, rfl, rfl,
    (eachMessage_noLoss poison "trip-service" (fun raw => .ok raw) (fun _ => poisonText) 3
      ⟨"t", 0, "5", none, some "[]"⟩ "[]" false rfl (by decide) (by decide)).1 _ rfl⟩

end NoLoss

end Kafka

end EventConsumer

end RydTrip
