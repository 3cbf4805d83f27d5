import RydTrip.Process.Pool
import RydTrip.EventSchema

/-!
# The Kafka consumer wrapper

`EventConsumer.run` from `libraries/event-schema/src/kafka/consumer.ts`, for any
handler and any way of parking.  A message without a value is skipped, one that
is not JSON is parked at once, and the handler is retried until an attempt
succeeds or the last one fails and the message is parked.  The backoff between
attempts has no effect on state and is left out.

`deliver` is the part after a successful parse.  Envelopes published by the
services parse, so models of message flow between services start there.
-/

namespace RydTrip

open Process

inductive DlqReason where
  | malformedJson | handlerFailed
  deriving DecidableEq, Repr

/-- The message handed to `eachMessage`. -/
structure KafkaMessage where
  topic : String
  partition : Nat
  offset : String
  key : Option String
  value : Option String
  deriving DecidableEq, Repr

/-- The fields of a dead letter record that `run` chooses. -/
structure DlqFields where
  dlqReason : DlqReason
  envelope : Option EventEnvelope
  rawValue : Option String
  attempts : Nat
  errorMessage : String
  deriving DecidableEq, Repr

namespace EventConsumer

/-- The default of `maxAttempts`. -/
def defaultMaxAttempts : Nat := 3

variable {C : Type} {R : C → Type} {ε : Type}

/-- The retry loop from attempt `attempt` on, with `left` attempts to go. -/
def attemptLoop (message : ε → String) (park : DlqFields → Prog C R ε Unit)
    (handler : EventEnvelope → Prog C R ε Unit) (envelope : EventEnvelope) :
    (attempt left : Nat) → Prog C R ε Unit
  | _, 0 => pure ()
  | attempt, left + 1 =>
      try
        handler envelope
      catch err =>
        if left = 0 then
          park ⟨.handlerFailed, some envelope, none, attempt, message err⟩
        else
          attemptLoop message park handler envelope (attempt + 1) left

/-- What `eachMessage` does with a parsed envelope. -/
def deliver (message : ε → String) (park : DlqFields → Prog C R ε Unit)
    (handler : EventEnvelope → Prog C R ε Unit) (maxAttempts : Nat) (envelope : EventEnvelope) :
    Prog C R ε Unit :=
  attemptLoop message park handler envelope 1 maxAttempts

/-- A specification that the handler and the parking meet from every log is met
by all the attempts together. -/
theorem deliver_obeys {message : ε → String} {park : DlqFields → Prog C R ε Unit}
    {handler : EventEnvelope → Prog C R ε Unit} {maxAttempts : Nat} {envelope : EventEnvelope}
    {pre : (c : C) → Log C R → Prop} {post : (c : C) → R c → Prop}
    (hhandler : ∀ log, (handler envelope).Obeys pre post log)
    (hpark : ∀ fields log, (park fields).Obeys pre post log) (log : Log C R) :
    (deliver message park handler maxAttempts envelope).Obeys pre post log := by
  unfold deliver
  generalize 1 = attempt
  induction maxAttempts generalizing attempt log with
  | zero => trivial
  | succ left ih =>
      refine Prog.Obeys.tryCatch (hhandler log) fun err log => ?_
      split
      · exact hpark _ log
      · exact ih log _

section Wp

variable {G : Type} {Φ : (c : C) → (R c → G → Prop) → G → Prop} {message : ε → String}
  {park : DlqFields → Prog C R ε Unit} {handler : EventEnvelope → Prog C R ε Unit}
  {envelope : EventEnvelope} {I : G → Prop} {Q : Unit → G → Prop} {E : ε → G → Prop} {g : G}

theorem attemptLoop_wp (hΦ : ∀ c K K' g, (∀ r g, K r g → K' r g) → Φ c K g → Φ c K' g)
    (hhandler : ∀ g, I g → (handler envelope).wp Φ Q (fun _ g => I g) g)
    (hpark : ∀ fields g, fields.envelope = some envelope → I g → (park fields).wp Φ Q E g)
    (hg : I g) (attempt left : Nat) :
    (attemptLoop message park handler envelope attempt (left + 1)).wp Φ Q E g := by
  induction left generalizing attempt g with
  | zero =>
      refine Prog.wp_try (Prog.wp_mono hΦ (fun _ _ h => h) (fun err g hI => ?_) (hhandler g hg))
      exact hpark _ g rfl hI
  | succ left ih =>
      refine Prog.wp_try (Prog.wp_mono hΦ (fun _ _ h => h) (fun err g hI => ?_) (hhandler g hg))
      exact ih hI _

/-- The rule for all the attempts together, over a ghost state.  A failed
attempt leaves the state fit for the next one or for parking. -/
theorem deliver_wp (hΦ : ∀ c K K' g, (∀ r g, K r g → K' r g) → Φ c K g → Φ c K' g)
    (hhandler : ∀ g, I g → (handler envelope).wp Φ Q (fun _ g => I g) g)
    (hpark : ∀ fields g, fields.envelope = some envelope → I g → (park fields).wp Φ Q E g)
    (hg : I g) (left : Nat) : (deliver message park handler (left + 1) envelope).wp Φ Q E g :=
  attemptLoop_wp hΦ hhandler hpark hg 1 left

/-- The rule for all the attempts together, when what holds depends on how many
have failed. -/
theorem deliver_wp_indexed {J : Nat → G → Prop} {maxAttempts : Nat}
    (hΦ : ∀ c K K' g, (∀ r g, K r g → K' r g) → Φ c K g → Φ c K' g)
    (hhandler : ∀ m g, m < maxAttempts → J m g →
      (handler envelope).wp Φ Q (fun _ g => J (m + 1) g) g)
    (hpark : ∀ fields g, J maxAttempts g → (park fields).wp Φ Q E g) (hmax : 0 < maxAttempts)
    (hg : J 0 g) : (deliver message park handler maxAttempts envelope).wp Φ Q E g := by
  have hloop (left m : Nat) (g : G) (hsum : m + (left + 1) = maxAttempts) (hg : J m g) :
      (attemptLoop message park handler envelope (m + 1) (left + 1)).wp Φ Q E g := by
    induction left generalizing m g with
    | zero =>
        refine Prog.wp_try (Prog.wp_mono hΦ (fun _ _ h => h) (fun err g hJ => ?_)
          (hhandler m g (by omega) hg))
        exact hpark _ g (hsum ▸ hJ)
    | succ left ih =>
        refine Prog.wp_try (Prog.wp_mono hΦ (fun _ _ h => h) (fun err g hJ => ?_)
          (hhandler m g (by omega) hg))
        exact ih (m + 1) g (by omega) hJ
  obtain ⟨left, rfl⟩ : ∃ left, maxAttempts = left + 1 := ⟨maxAttempts - 1, by omega⟩
  exact hloop left 0 g (Nat.zero_add _) hg

end Wp

/-- `eachMessage`.  `parse` is `JSON.parse`, with the message of its error. -/
def eachMessage (parse : String → Except String EventEnvelope) (message : ε → String)
    (park : DlqFields → Prog C R ε Unit) (handler : EventEnvelope → Prog C R ε Unit)
    (maxAttempts : Nat) (payload : KafkaMessage) : Prog C R ε Unit :=
  match truthy payload.value with
  | none => pure ()
  | some raw =>
      match parse raw with
      | .error err =>
          park ⟨.malformedJson, none, some raw, 1, s!"Failed to parse event envelope: {err}"⟩
      | .ok envelope => deliver message park handler maxAttempts envelope

end EventConsumer

end RydTrip
