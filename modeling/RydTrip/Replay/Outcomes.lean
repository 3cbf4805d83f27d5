import RydTrip.Replay.Cluster

/-!
# One outcome for each event

A copy of an event that comes while its key is alive is skipped.  So whatever is
parked and replayed, and how often, an event is dispatched once as long as every
check of the ledger comes before the key expires.  `Phase` is how far the
handling of a message has come, and `Sound` is the invariant: an event that has
an outcome has a key, or is about to get it.
-/

namespace RydTrip

namespace Replay

open Process

/-! ## The handling of a message -/

/-- How far a delivery to dispatch-service has come. -/
inductive Phase where
  /-- Nothing is under way. -/
  | waiting
  /-- The ledger does not know the event, and it will be dispatched. -/
  | checked
  /-- The outcome is published, and the event will be marked. -/
  | published
  | over
  deriving DecidableEq, Repr

def Phase.next : (c : Cmd) → Reply c → Phase → Phase
  | .dispatch (.wasProcessed ..), .ok false, _ => .checked
  | .dispatch (.publish ..), _, _ => .published
  | .dispatch (.markProcessed ..), _, _ => .waiting
  | .ack .., _, _ => .over
  | _, _, g => g

/-- What a delivery to dispatch-service may issue. -/
def MessageAllows (eventId : Nat) : (c : Cmd) → Phase → Prop
  | .dispatch (.wasProcessed consumerName eventId'), g =>
      g = .waiting ∧ consumerName = Dispatch.RideRequestedConsumer.consumerName ∧ eventId' = eventId
  | .dispatch (.publish ..), g => g = .checked
  | .dispatch (.markProcessed consumerName eventId'), g =>
      g = .published ∧ consumerName = Dispatch.RideRequestedConsumer.consumerName ∧
        eventId' = eventId
  | .dispatch (.park _), g => g = .waiting
  | .dispatch _, g => g = .checked
  | .ack group _, g => group = .dispatch ∧ g = .waiting
  | _, _ => False

/-- What a call may issue.  Only deliveries to dispatch-service use its commands. -/
def Call.Allows : Call → (c : Cmd) → Phase → Prop
  | .deliver .dispatch _ message, c, g => MessageAllows message.envelope.eventId c g
  | _, .dispatch _, _ => False
  | _, .ack group _, _ => group = .trip
  | _, _, _ => True

/-- Redis and Kafka answer to a dispatch that has started. -/
def Completes : (c : Cmd) → Reply c → Prop
  | .dispatch (.enter .redis), r => r = true
  | .dispatch (.findNearby ..), r => ∃ candidates, r = .ok candidates
  | .dispatch (.tryReserve ..), r => ∃ won, r = .ok won
  | .dispatch (.publish ..), r => r = .ok ()
  | .dispatch (.markProcessed ..), r => r = .ok ()
  | _, _ => True

/-- The meaning of the commands of dispatch-service for the message. -/
abbrev Handles (eventId : Nat) (c : Dispatch.Cmd) (K : Dispatch.Reply c → Phase → Prop)
    (g : Phase) : Prop :=
  typestateSpec (MessageAllows eventId) Completes Phase.next (Cmd.dispatch c) K g

theorem handles_mono {eventId : Nat} (c : Dispatch.Cmd) (K K' : Dispatch.Reply c → Phase → Prop)
    (g : Phase) (hK : ∀ r g, K r g → K' r g) (h : Handles eventId c K g) : Handles eventId c K' g :=
  ⟨h.1, fun r hr => hK r _ (h.2 r hr)⟩

section Specs

open Dispatch

variable {eventId : Nat} {cfg : Config} {rideId correlationId : String} {α : Type}
  {E : DispatchError → Phase → Prop}

/-- A call through the Redis breaker, which lets it through and sees it succeed. -/
theorem handles_execute {fn : DispatchProg α} {Q : α → Phase → Prop}
    (hfn : fn.wp (Handles eventId) (fun a g => g = .checked ∧ Q a .checked) (fun _ _ => False)
      .checked) :
    (DispatchService.execute .redis fn).wp (Handles eventId) Q E .checked := by
  unfold DispatchService.execute
  rw [Prog.perform_bind]
  refine ⟨rfl, fun invoked hinvoked => ?_⟩
  cases hinvoked
  simp only [if_true]
  refine Prog.wp_seq (Prog.wp_try (Prog.wp_mono handles_mono ?_ (fun _ _ h => h.elim) hfn))
  rintro a g ⟨rfl, hQ⟩
  exact ⟨rfl, fun _ _ => hQ⟩

theorem handles_sync {driverId : String} {Q : Unit → Phase → Prop} (hQ : Q () .checked) :
    (DispatchService.syncDriverStatusBestEffort driverId).wp (Handles eventId) Q E .checked := by
  rw [DispatchService.syncDriverStatusBestEffort_eq]
  refine ⟨rfl, fun invoked _ => ?_⟩
  cases invoked with
  | false => exact hQ
  | true => exact ⟨rfl, fun res _ => ⟨rfl, fun _ _ => hQ⟩⟩

theorem handles_publish {outcome : Outcome} {key : String} :
    (DispatchService.publish outcome correlationId key).wp (Handles eventId)
      (fun _ g => g = .published) E .checked := by
  refine ⟨rfl, fun r hr => ?_⟩
  cases hr
  rfl

theorem handles_reserveFirst (candidates : List NearbyDriver) :
    (DispatchService.reserveFirst cfg rideId correlationId candidates).wp (Handles eventId)
      (fun _ g => g = .published) E .checked := by
  induction candidates with
  | nil => exact handles_publish
  | cons candidate candidates ih =>
      refine Prog.wp_seq (handles_execute ⟨rfl, fun r hr => ?_⟩)
      obtain ⟨won, rfl⟩ := hr
      refine ⟨rfl, ?_⟩
      cases won with
      | false => exact ih
      | true => exact Prog.wp_seq (handles_sync handles_publish)

/-- A dispatch publishes its outcome. -/
theorem handles_handleRideRequested {pickup : GeoPoint} :
    (DispatchService.handleRideRequested cfg rideId pickup correlationId).wp (Handles eventId)
      (fun _ g => g = .published) E .checked := by
  refine Prog.wp_seq (handles_execute ⟨rfl, fun r hr => ?_⟩)
  obtain ⟨candidates, rfl⟩ := hr
  exact ⟨rfl, handles_reserveFirst candidates⟩

theorem handles_handler {envelope : EventEnvelope} (hid : envelope.eventId = eventId) :
    (RideRequestedConsumer.handler cfg envelope).wp (Handles eventId) (fun _ g => g = .waiting)
      (fun _ g => g = .waiting) .waiting := by
  subst hid
  unfold RideRequestedConsumer.handler
  split
  · rfl
  · rw [Prog.perform_bind]
    refine ⟨⟨rfl, rfl, rfl⟩, fun r _ => ?_⟩
    cases r with
    | error message => rfl
    | ok alreadyProcessed =>
        cases alreadyProcessed with
        | true => rfl
        | false =>
            refine Prog.wp_seq ?_
            change Prog.wp (Handles envelope.eventId) (fun _ g => g = .waiting)
              (fun _ g => g = .waiting)
              (DispatchService.handleRideRequested cfg _ _ _ >>= _) .checked
            refine Prog.wp_seq (Prog.wp_mono handles_mono ?_ (fun _ _ h => h)
              handles_handleRideRequested)
            rintro u g rfl
            rw [Prog.perform_bind]
            refine ⟨⟨rfl, rfl, rfl⟩, fun r hr => ?_⟩
            cases hr
            rfl

theorem handles_consume {left : Nat} {envelope : EventEnvelope}
    (hid : envelope.eventId = eventId) :
    (RideRequestedConsumer.consume cfg (left + 1) envelope).wp (Handles eventId)
      (fun _ g => g = .waiting) (fun _ g => g = .waiting) .waiting := by
  refine EventConsumer.deliver_wp (I := (· = .waiting)) handles_mono ?_ ?_ rfl left
  · rintro g rfl
    exact handles_handler hid
  · rintro fields g - rfl
    unfold RideRequestedConsumer.park
    rw [Prog.perform_bind]
    refine ⟨rfl, fun r _ => ?_⟩
    cases r with
    | ok u => rfl
    | error message => rfl

end Specs

/-- Commands of the other parties may be issued at any time. -/
theorem others_wp {C : Type} {R : C → Type} {ε α : Type} {call : Call}
    {f : (c : C) → Prog Cmd Reply ε (R c)} {Q : α → Phase → Prop} {E : ε → Phase → Prop}
    (hf : ∀ c K g, (∀ r g, K r g) → (f c).wp
      (typestateSpec call.Allows Completes Phase.next) K (fun _ _ => True) g)
    (hQ : ∀ a g, Q a g) (hE : ∀ e g, E e g) (p : Prog C R ε α) (g : Phase) :
    (p.expand f).wp (typestateSpec call.Allows Completes Phase.next) Q E g := by
  induction p generalizing g with
  | ret a => exact hQ a g
  | throw e => exact hE e g
  | call c k ih =>
      rw [Prog.expand_call]
      refine Prog.wp_seq ?_
      exact Prog.wp_mono typestateSpec_mono (fun r g h => h) (fun e g _ => hE e g)
        (hf c _ g fun r g => ih r g)

/-- A delivery to dispatch-service ends with its acknowledgement. -/
def Call.Ends (call : Call) (g : Phase) : Prop :=
  ∀ topic message, call = .deliver .dispatch topic message → g = .over

theorem prog_phases (cfg : Dispatch.Config) (call : Call) :
    (call.prog cfg).wp (typestateSpec call.Allows Completes Phase.next) (fun _ => call.Ends)
      (fun _ => call.Ends) .waiting := by
  cases call with
  | replay args deliveries =>
      have hend (g : Phase) : (Call.replay args deliveries).Ends g := by rintro topic message ⟨⟩
      refine others_wp (f := serveScript) (fun c K g hK => ?_) (fun _ => hend) (fun _ => hend) _ _
      exact ⟨trivial, fun r _ => hK r _⟩
  | deliver group topic message =>
      cases group with
      | trip =>
          have hend (g : Phase) : (Call.deliver .trip topic message).Ends g := by
            rintro topic message ⟨⟩
          refine Prog.wp_seq ?_
          rw [Prog.wp_attempt]
          refine others_wp (f := serveTrip) (fun c K g hK => ?_) (fun _ _ => ?_) (fun _ _ => ?_) _ _
          · exact ⟨trivial, fun r _ => hK r _⟩
          · exact ⟨rfl, fun _ _ => hend _⟩
          · exact ⟨rfl, fun _ _ => hend _⟩
      | dispatch =>
          refine Prog.wp_seq ?_
          rw [Prog.wp_attempt, Prog.wp_expand]
          refine Prog.wp_mono (@handles_mono message.envelope.eventId) ?_ ?_
            (handles_consume rfl)
          · rintro u g rfl
            exact ⟨⟨rfl, rfl⟩, fun _ _ _ _ _ => rfl⟩
          · rintro err g rfl
            exact ⟨⟨rfl, rfl⟩, fun _ _ _ _ _ => rfl⟩

/-! ## Outcomes and keys -/

/-- The ledger, the outcomes and the event in hand, with its phase.  An event
with an outcome has a key, unless it is about to be marked. -/
structure Accounted (w : Cluster) (current : Option (Nat × Phase)) : Prop where
  once : AtMostOnce w
  unpublished : ∀ eventId, current = some (eventId, .checked) → w.outcomesFor eventId = []
  marked : ∀ eventId, w.outcomesFor eventId ≠ [] →
    (w.ledger.expiresAt Dispatch.RideRequestedConsumer.consumerName eventId).isSome ∨
      current = some (eventId, .published)

section Accounts

variable {w w' : Cluster} {eventId : Nat} {g : Phase} {current : Option (Nat × Phase)}

theorem outcomesFor_of_eq (h : w'.outcomes = w.outcomes) (id : Nat) :
    w'.outcomesFor id = w.outcomesFor id := by
  unfold Cluster.outcomesFor
  rw [h]

theorem outcomesFor_cons {outcome : Dispatch.Outcome}
    (h : w'.outcomes = (eventId, outcome) :: w.outcomes) (id : Nat) :
    w'.outcomesFor id = if id = eventId then outcome :: w.outcomesFor id else w.outcomesFor id := by
  unfold Cluster.outcomesFor
  rw [h]
  by_cases hid : id = eventId
  · subst hid
    simp
  · simp [hid, Ne.symm hid]

theorem Accounted.same (h : Accounted w current) (houtcomes : w'.outcomes = w.outcomes)
    (hledger : w'.ledger = w.ledger) : Accounted w' current := by
  have hfor := outcomesFor_of_eq houtcomes
  constructor
  · intro id
    rw [hfor]
    exact h.once id
  · intro id hcur
    rw [hfor]
    exact h.unpublished id hcur
  · intro id hne
    rw [hfor] at hne
    rw [hledger]
    exact h.marked id hne

/-- A message that is taken or put down with nothing under way. -/
theorem Accounted.change (h : Accounted w current) {current' : Option (Nat × Phase)}
    (hold : ∀ id, current ≠ some (id, .published)) (hnew : ∀ id, current' ≠ some (id, .checked)) :
    Accounted w current' where
  once := h.once
  unpublished id hcur := absurd hcur (hnew id)
  marked id hne := .inl ((h.marked id hne).resolve_right (hold id))

/-- A check of the ledger that comes in time knows whether there is an outcome. -/
theorem Accounted.check (h : Accounted w (some (eventId, .waiting)))
    (htime : ∀ deadline, w.ledger.expiresAt Dispatch.RideRequestedConsumer.consumerName eventId =
      some deadline → w.now < deadline)
    (hnot :
      w.ledger.wasProcessed w.now Dispatch.RideRequestedConsumer.consumerName eventId = false) :
    Accounted w (some (eventId, .checked)) where
  once := h.once
  unpublished id hcur := by
    cases hcur
    by_contra hne
    rcases h.marked eventId hne with hkey | hcur
    · obtain ⟨deadline, hkey⟩ := Option.isSome_iff_exists.mp hkey
      rw [IdempotencyStore.wasProcessed_eq_true hkey (htime deadline hkey)] at hnot
      cases hnot
    · cases hcur
  marked id hne := by
    rcases h.marked id hne with hkey | hcur
    · exact .inl hkey
    · cases hcur

theorem Accounted.publish (h : Accounted w (some (eventId, .checked)))
    {outcome : Dispatch.Outcome} (houtcomes : w'.outcomes = (eventId, outcome) :: w.outcomes)
    (hledger : w'.ledger = w.ledger) : Accounted w' (some (eventId, .published)) := by
  have hfor := outcomesFor_cons houtcomes
  have hnil := h.unpublished eventId rfl
  constructor
  · intro id
    rw [hfor]
    split
    next hid =>
      rw [hid, hnil]
      exact Nat.le_refl 1
    next => exact h.once id
  · intro id hcur
    cases hcur
  · intro id hne
    by_cases hid : id = eventId
    · subst hid
      exact .inr rfl
    · rw [hfor, if_neg hid] at hne
      rcases h.marked id hne with hkey | hcur
      · rw [hledger]
        exact .inl hkey
      · cases hcur

theorem Accounted.mark (h : Accounted w (some (eventId, .published))) {now : Nat}
    (houtcomes : w'.outcomes = w.outcomes)
    (hledger : w'.ledger =
      w.ledger.markProcessed now Dispatch.RideRequestedConsumer.consumerName eventId) :
    Accounted w' (some (eventId, .waiting)) := by
  have hfor := outcomesFor_of_eq houtcomes
  constructor
  · intro id
    rw [hfor]
    exact h.once id
  · intro id hcur
    cases hcur
  · intro id hne
    left
    rw [hledger, IdempotencyStore.expiresAt_markProcessed]
    split
    next => rfl
    next hid =>
      rw [hfor] at hne
      rcases h.marked id hne with hkey | hcur
      · exact hkey
      · cases hcur
        exact absurd rfl hid

/-- A command of the delivery in hand. -/
theorem Accounted.exec {o : Oracle} {c : Dispatch.Cmd} {r : Dispatch.Reply c} {topic : KafkaTopic}
    {message : Message} (h : Accounted w (some (message.envelope.eventId, g)))
    (hallows : MessageAllows message.envelope.eventId (.dispatch c) g)
    (hhand : w.inHand .dispatch = some (topic, message))
    (htime : ∀ consumerName id deadline, c = .wasProcessed consumerName id →
      w.ledger.expiresAt consumerName id = some deadline → w.now < deadline)
    (hx : w.execDispatch o c = (r, w')) :
    w'.inHand = w.inHand ∧
      Accounted w' (some (message.envelope.eventId, Phase.next (.dispatch c) r g)) := by
  cases c with
  | wasProcessed consumerName id =>
      obtain ⟨rfl, rfl, rfl⟩ := hallows
      change o.fault.settle w (w.ledger.wasProcessed w.now _ _) w = (r, w') at hx
      cases hfault : o.fault with
      | refused m =>
          rw [hfault] at hx
          cases hx
          exact ⟨rfl, h⟩
      | lost m =>
          rw [hfault] at hx
          cases hx
          exact ⟨rfl, h⟩
      | none =>
          rw [hfault] at hx
          cases hx
          refine ⟨rfl, ?_⟩
          cases hp : w.ledger.wasProcessed w.now
              Dispatch.RideRequestedConsumer.consumerName message.envelope.eventId with
          | true => exact h
          | false => exact h.check (fun deadline hkey => htime _ _ deadline rfl hkey) hp
  | publish outcome correlationId key =>
      cases hallows
      cases hx
      unfold Cluster.publish
      rw [hhand]
      exact ⟨rfl, h.publish rfl rfl⟩
  | markProcessed consumerName id =>
      obtain ⟨rfl, rfl, rfl⟩ := hallows
      cases hx
      exact ⟨rfl, h.mark rfl rfl⟩
  | park fields =>
      have hpark : (w.parkOnDlq .dispatch fields).inHand = w.inHand ∧
          (w.parkOnDlq .dispatch fields).outcomes = w.outcomes ∧
          (w.parkOnDlq .dispatch fields).ledger = w.ledger := by
        unfold Cluster.parkOnDlq
        rw [hhand]
        exact ⟨rfl, rfl, rfl⟩
      obtain rfl : (o.fault.settle w () (w.parkOnDlq .dispatch fields)).2 = w' :=
        congrArg Prod.snd hx
      refine ⟨Fault.settle_world _ _ hpark.1, ?_⟩
      exact h.same (Fault.settle_world _ _ hpark.2.1) (Fault.settle_world _ _ hpark.2.2)
  | enter b =>
      cases b with
      | redis =>
          cases hx
          exact ⟨rfl, h⟩
      | driverService =>
          cases hx
          exact ⟨rfl, h⟩
  | settle b success =>
      cases hx
      exact ⟨rfl, h⟩
  | findNearby pickup radiusKm limit =>
      cases hx
      exact ⟨rfl, h⟩
  | tryReserve driverId rideId ttlSeconds =>
      cases hx
      exact ⟨rfl, h⟩
  | patch driverId status =>
      cases hx
      exact ⟨rfl, h⟩

end Accounts

/-! ## Steps -/

/-- Thread `i` is handling a message for dispatch-service. -/
def Handling (s : ClusterPool) (i : Nat) (message : Message) (g : Phase) : Prop :=
  ∃ th topic, s.threads i = some th ∧ th.call = .deliver .dispatch topic message ∧ th.Live ∧
    track Phase.next .waiting th.log = g

/-- The delivery to dispatch-service that is under way, if there is one.  There
is no other, and its message is in hand. -/
def Current (s : ClusterPool) : Option (Nat × Message × Phase) → Prop
  | none => ∀ i message g, ¬ Handling s i message g
  | some (i, message, g) =>
      Handling s i message g ∧ (∃ topic, s.world.inHand .dispatch = some (topic, message)) ∧
        ∀ j message' g', Handling s j message' g' → j = i

/-- The event and the phase of a delivery. -/
def accountOf : Option (Nat × Message × Phase) → Option (Nat × Phase) :=
  Option.map fun (_, message, g) => (message.envelope.eventId, g)

structure Sound (s : ClusterPool) : Prop where
  meets : ∀ i th, s.threads i = some th →
    th.Meets Call.Allows Completes Phase.next .waiting Call.Ends
  account : ∃ current, Current s current ∧ Accounted s.world (accountOf current)

/-- The key of an event has not expired when the ledger is asked for it. -/
def InTime (s : ClusterPool) (a : ClusterAction) (_ : ClusterPool) : Prop :=
  ∀ i o call consumerName eventId k log deadline, a = .run i o →
    s.threads i = some ⟨call, .call (.dispatch (.wasProcessed consumerName eventId)) k, log⟩ →
    s.world.ledger.expiresAt consumerName eventId = some deadline → s.world.now < deadline

section Steps

variable {cfg : Dispatch.Config} {s t : ClusterPool} {a : ClusterAction} {i j : Nat}
  {message : Message} {g : Phase}

theorem completes_exec {o : Oracle} {c : Cmd} {w w' : Cluster} {r : Reply c}
    (h : w.exec o c = some (r, w')) : Completes c r := by
  cases c with
  | dispatch c =>
      cases c with
      | enter b =>
          cases b with
          | redis =>
              cases h
              rfl
          | driverService => trivial
      | findNearby pickup radiusKm limit =>
          cases h
          exact ⟨_, rfl⟩
      | tryReserve driverId rideId ttlSeconds =>
          cases h
          exact ⟨_, rfl⟩
      | publish outcome correlationId key =>
          cases h
          rfl
      | markProcessed consumerName eventId =>
          cases h
          rfl
      | _ => trivial
  | _ => trivial

/-- A command that is not for dispatch-service. -/
theorem exec_frame {o : Oracle} {c : Cmd} {w w' : Cluster} {r : Reply c}
    (h : w.exec o c = some (r, w')) (hc : ∀ c', c ≠ .dispatch c')
    (hack : ∀ group resolved, c = .ack group resolved → group = .trip) :
    w'.inHand .dispatch = w.inHand .dispatch ∧ w'.outcomes = w.outcomes ∧ w'.ledger = w.ledger := by
  cases c with
  | dispatch c => exact absurd rfl (hc c)
  | ack group resolved =>
      obtain rfl := hack group resolved rfl
      cases h
      unfold Cluster.acknowledge
      split
      · exact ⟨rfl, rfl, rfl⟩
      · exact ⟨rfl, rfl, rfl⟩
  | script c =>
      cases c with
      | fetchTopicOffsets topic =>
          cases h
          exact ⟨rfl, rfl, rfl⟩
      | nextMessage topic offset =>
          obtain ⟨record, -, heq⟩ := Option.map_eq_some_iff.mp h
          cases heq
          exact ⟨rfl, rfl, rfl⟩
      | send topic message =>
          obtain rfl : (o.fault.settle w () (w.produce topic message)).2 = w' :=
            congrArg Prod.snd (Option.some.inj h)
          exact ⟨Fault.settle_world (f := fun w : Cluster => w.inHand .dispatch) _ _ rfl,
            Fault.settle_world _ _ rfl, Fault.settle_world _ _ rfl⟩
  | trip c =>
      cases h
      unfold Cluster.afterTrip
      split
      · unfold Cluster.parkOnDlq
        split
        · exact ⟨rfl, rfl, rfl⟩
        · exact ⟨rfl, rfl, rfl⟩
      · exact ⟨rfl, rfl, rfl⟩

theorem handling_update {w : Cluster} {th : ClusterThread}
    (h : Handling ⟨w, Function.update s.threads i (some th)⟩ j message g) :
    (j = i ∧ (∃ topic, th.call = .deliver .dispatch topic message) ∧ th.Live ∧
        track Phase.next .waiting th.log = g) ∨ (j ≠ i ∧ Handling s j message g) := by
  obtain ⟨th', topic, hj, hcall, hlive, hg⟩ := h
  rcases update_eq_some hj with ⟨hji, rfl⟩ | ⟨hji, hj⟩
  · exact .inl ⟨hji, ⟨topic, hcall⟩, hlive, hg⟩
  · exact .inr ⟨hji, th', topic, hj, hcall, hlive, hg⟩

theorem Handling.update {w : Cluster} {th : ClusterThread} (h : Handling s j message g)
    (hji : j ≠ i) : Handling ⟨w, Function.update s.threads i (some th)⟩ j message g := by
  obtain ⟨th', topic, hj, hcall, hlive, hg⟩ := h
  exact ⟨th', topic, (Function.update_of_ne hji _ _).trans hj, hcall, hlive, hg⟩

/-- The thread of a delivery decides its message and its phase. -/
theorem Handling.unique {message' : Message} {g' : Phase} (h : Handling s i message g)
    (h' : Handling s i message' g') : message' = message ∧ g' = g := by
  obtain ⟨th, topic, hi, hcall, -, hg⟩ := h
  obtain ⟨th', topic', hi', hcall', -, hg'⟩ := h'
  rw [hi] at hi'
  cases hi'
  rw [hcall] at hcall'
  cases hcall'
  exact ⟨rfl, hg'.symm.trans hg⟩

/-- A thread that is not a delivery to dispatch-service starts or moves. -/
theorem Current.others {w : Cluster} {th : ClusterThread}
    {current : Option (Nat × Message × Phase)} (h : Current s current)
    (hth : ∀ topic message, th.call ≠ .deliver .dispatch topic message)
    (hold : ∀ message g, ¬ Handling s i message g)
    (hhand : w.inHand .dispatch = s.world.inHand .dispatch) :
    Current ⟨w, Function.update s.threads i (some th)⟩ current := by
  have hback {j : Nat} {message : Message} {g : Phase}
      (hj : Handling ⟨w, Function.update s.threads i (some th)⟩ j message g) :
      Handling s j message g := by
    rcases handling_update hj with ⟨-, ⟨topic, hcall⟩, -⟩ | ⟨-, hj⟩
    · exact absurd hcall (hth topic message)
    · exact hj
  cases current with
  | none => exact fun j message g hj => h j message g (hback hj)
  | some current =>
      obtain ⟨j, message, g⟩ := current
      obtain ⟨hj, ⟨topic, hmessage⟩, halone⟩ := h
      have hji : j ≠ i := by
        rintro rfl
        exact hold message g hj
      exact ⟨hj.update hji, ⟨topic, hhand.trans hmessage⟩,
        fun j' message' g' hj' => halone j' message' g' (hback hj')⟩

/-- The only delivery starts, moves or ends. -/
theorem current_update {w : Cluster} {th : ClusterThread} {topic : KafkaTopic}
    (hcall : th.call = .deliver .dispatch topic message)
    (hmeets : th.Meets Call.Allows Completes Phase.next .waiting Call.Ends)
    (hothers : ∀ j message g, j ≠ i → ¬ Handling s j message g)
    (hhand : ∃ topic, w.inHand .dispatch = some (topic, message))
    (haccount : Accounted w
      (some (message.envelope.eventId, track Phase.next .waiting th.log))) :
    ∃ current, Current ⟨w, Function.update s.threads i (some th)⟩ current ∧
      Accounted w (accountOf current) := by
  have hothers' {j : Nat} {message' : Message} {g' : Phase}
      (hj : Handling ⟨w, Function.update s.threads i (some th)⟩ j message' g') :
      j = i ∧ th.Live := by
    rcases handling_update hj with ⟨hji, -, hlive, -⟩ | ⟨hji, hj⟩
    · exact ⟨hji, hlive⟩
    · exact absurd hj (hothers j message' g' hji)
  by_cases hlive : th.Live
  · refine ⟨some (i, message, track Phase.next .waiting th.log), ⟨?_, hhand, ?_⟩, haccount⟩
    · exact ⟨th, topic, Function.update_self .., hcall, hlive, rfl⟩
    · exact fun j message' g' hj => (hothers' hj).1
  · refine ⟨none, fun j message' g' hj => hlive (hothers' hj).2, ?_⟩
    have hover := hmeets.ended hlive topic message hcall
    rw [hover] at haccount
    exact haccount.change (fun id h => by cases h) fun id h => by cases h

/-- An acknowledgement is the last thing a delivery does. -/
theorem not_live_of_over {th : ClusterThread} {topic : KafkaTopic}
    (hcall : th.call = .deliver .dispatch topic message)
    (hmeets : th.Meets Call.Allows Completes Phase.next .waiting Call.Ends)
    (hover : track Phase.next .waiting th.log = .over) : ¬ th.Live := by
  rintro ⟨c, k, hprog⟩
  obtain ⟨call, p, log⟩ := th
  obtain rfl : p = .call c k := hprog
  obtain rfl : call = .deliver .dispatch topic message := hcall
  have hallows : MessageAllows message.envelope.eventId c (track Phase.next .waiting log) :=
    hmeets.allows
  rw [hover] at hallows
  cases c with
  | dispatch c =>
      cases c with
      | wasProcessed consumerName eventId => cases hallows.1
      | markProcessed consumerName eventId => cases hallows.1
      | _ => cases hallows
  | ack group resolved => cases hallows.2
  | trip c => exact hallows
  | script c => exact hallows

theorem allows_dispatch {call : Call} {c : Dispatch.Cmd}
    (hcall : ∀ topic message, call ≠ .deliver .dispatch topic message)
    (h : call.Allows (.dispatch c) g) : False := by
  cases call with
  | replay args deliveries => exact h
  | deliver group topic message =>
      cases group with
      | trip => exact h
      | dispatch => exact hcall topic message rfl

theorem allows_ack {call : Call} {group : Group} {resolved : Bool}
    (hcall : ∀ topic message, call ≠ .deliver .dispatch topic message)
    (h : call.Allows (.ack group resolved) g) : group = .trip := by
  cases call with
  | replay args deliveries => exact h
  | deliver group' topic message =>
      cases group' with
      | trip => exact h
      | dispatch => exact absurd rfl (hcall topic message)

theorem initial_sound (ttlSeconds : Nat) : Sound (initial ttlSeconds) where
  meets := by rintro i th ⟨⟩
  account := by
    refine ⟨none, ?_, ?_⟩
    · rintro i message g ⟨th, topic, ⟨⟩, -⟩
    · refine ⟨fun eventId => Nat.zero_le 1, fun eventId h => ?_, fun eventId h => absurd rfl h⟩
      cases h

/-- Every thread goes on keeping to its phases. -/
theorem meets_step (hs : Sound s) (hstep : (machine cfg).Step s a t) :
    ∀ i th, t.threads i = some th →
      th.Meets Call.Allows Completes Phase.next .waiting Call.Ends := by
  refine Machine.typestate_step ?_ (fun i o c r w' _ h => completes_exec h) hs.meets hstep
  intro i call w p w' _ hstart
  obtain ⟨w₁, -, heq⟩ := Option.map_eq_some_iff.mp hstart
  cases heq
  exact prog_phases cfg call

theorem not_handling_of_none (h : s.threads i = none) : ¬ Handling s i message g := by
  rintro ⟨th, topic, hi, -⟩
  rw [h] at hi
  cases hi

/-- A call starts. -/
theorem account_spawn {call : Call} {w : Cluster} (hs : Sound s) (hi : s.threads i = none)
    (hw : s.world.start call = some w)
    (hmeets : Thread.Meets Call.Allows Completes Phase.next .waiting Call.Ends
      (⟨call, call.prog cfg, []⟩ : ClusterThread)) :
    ∃ current,
      Current ⟨w, Function.update s.threads i (some ⟨call, call.prog cfg, []⟩)⟩ current ∧
        Accounted w (accountOf current) := by
  obtain ⟨current, hcur, hacc⟩ := hs.account
  have hfree (message : Message) (g : Phase) : ¬ Handling s i message g := not_handling_of_none hi
  cases call with
  | replay args deliveries =>
      cases hw
      exact ⟨current, hcur.others (by rintro topic message ⟨⟩) hfree rfl, hacc⟩
  | deliver group topic message =>
      unfold Cluster.start at hw
      dsimp only at hw
      split at hw
      next hok =>
        cases hw
        cases group with
        | trip =>
            exact ⟨current, hcur.others (by rintro topic message ⟨⟩) hfree rfl, hacc.same rfl rfl⟩
        | dispatch =>
            have hnone : current = none := by
              cases current with
              | none => rfl
              | some current =>
                  obtain ⟨-, ⟨topic', hhand⟩, -⟩ := hcur
                  rw [hok.2.1] at hhand
                  cases hhand
            subst hnone
            refine current_update rfl hmeets (fun j message' g' _ => hcur j message' g')
              ⟨topic, rfl⟩ ?_
            change Accounted _ (some (message.envelope.eventId, .waiting))
            refine Accounted.same (w := s.world) (hacc.change ?_ ?_) rfl rfl
            · rintro id ⟨⟩
            · rintro id ⟨⟩
      next => cases hw

/-- A command that is not of the delivery in hand. -/
theorem account_run_other {o : Oracle} {call : Call} {c : Cmd}
    {k : Reply c → Prog Cmd Reply String Unit} {log : Log Cmd Reply} {r : Reply c} {w : Cluster}
    (hs : Sound s) (hi : s.threads i = some ⟨call, .call c k, log⟩)
    (hx : s.world.exec o c = some (r, w))
    (hcall : ∀ topic message, call ≠ .deliver .dispatch topic message) :
    ∃ current,
      Current ⟨w, Function.update s.threads i (some ⟨call, k r, ⟨c, r⟩ :: log⟩)⟩ current ∧
        Accounted w (accountOf current) := by
  obtain ⟨current, hcur, hacc⟩ := hs.account
  have hallows := (hs.meets i _ hi).allows
  have hfree (message : Message) (g : Phase) : ¬ Handling s i message g := by
    rintro ⟨th, topic, hi', hth, -⟩
    rw [hi] at hi'
    cases hi'
    exact hcall topic message hth
  obtain ⟨hhand, houtcomes, hledger⟩ := exec_frame hx (fun c' hc => by
    subst hc
    exact allows_dispatch hcall hallows) (fun group resolved hc => by
    subst hc
    exact allows_ack hcall hallows)
  exact ⟨current, hcur.others hcall hfree hhand, hacc.same houtcomes hledger⟩

/-- A thread issues a command. -/
theorem account_run {o : Oracle} {call : Call} {c : Cmd} {k : Reply c → Prog Cmd Reply String Unit}
    {log : Log Cmd Reply} {r : Reply c} {w : Cluster} (hs : Sound s)
    (htime : InTime s (.run i o) t) (hi : s.threads i = some ⟨call, .call c k, log⟩)
    (hx : s.world.exec o c = some (r, w))
    (hmeets : Thread.Meets Call.Allows Completes Phase.next .waiting Call.Ends
      (⟨call, k r, ⟨c, r⟩ :: log⟩ : ClusterThread)) :
    ∃ current,
      Current ⟨w, Function.update s.threads i (some ⟨call, k r, ⟨c, r⟩ :: log⟩)⟩ current ∧
        Accounted w (accountOf current) := by
  obtain ⟨current, hcur, hacc⟩ := hs.account
  have hallows := (hs.meets i _ hi).allows
  by_cases hdispatch : ∃ topic message, call = .deliver .dispatch topic message
  · obtain ⟨topic, message, rfl⟩ := hdispatch
    have hhandling : Handling s i message (track Phase.next .waiting log) :=
      ⟨_, topic, hi, rfl, ⟨c, k, rfl⟩, rfl⟩
    cases current with
    | none => exact absurd hhandling (hcur i message _)
    | some current =>
        obtain ⟨i', message', g'⟩ := current
        obtain ⟨hcurrent, ⟨topic', hhand⟩, halone⟩ := hcur
        obtain rfl := halone i message _ hhandling
        obtain ⟨rfl, rfl⟩ := hhandling.unique hcurrent
        have hothers (j : Nat) (message : Message) (g : Phase) (hne : j ≠ i) :
            ¬ Handling s j message g := fun hj => hne (halone j message g hj)
        cases c with
        | trip c => exact absurd hallows id
        | script c => exact absurd hallows id
        | dispatch c =>
            have hx : s.world.execDispatch o c = (r, w) := Option.some.inj hx
            have hkeys (consumerName : String) (id deadline : Nat)
                (hc : c = .wasProcessed consumerName id)
                (hkey : s.world.ledger.expiresAt consumerName id = some deadline) :
                s.world.now < deadline := by
              subst hc
              exact htime i o _ consumerName id k log deadline rfl hi hkey
            obtain ⟨hsame, hacc⟩ := hacc.exec hallows hhand hkeys hx
            refine current_update rfl hmeets hothers ?_ hacc
            rw [hsame]
            exact ⟨topic', hhand⟩
        | ack group resolved =>
            obtain ⟨rfl, hwaiting⟩ := hallows
            cases hx
            have hnot := not_live_of_over rfl hmeets rfl
            refine ⟨none, fun j message g hj => ?_, ?_⟩
            · rcases handling_update hj with ⟨-, -, hlive, -⟩ | ⟨hne, hj⟩
              · exact hnot hlive
              · exact hothers j message g hne hj
            · change Accounted s.world (some (_, track Phase.next .waiting log)) at hacc
              rw [hwaiting] at hacc
              refine Accounted.change (hacc.same ?_ ?_)
                (fun id h => by cases h) fun id h => by cases h
              · unfold Cluster.acknowledge
                rw [hhand]
              · unfold Cluster.acknowledge
                rw [hhand]
  · exact account_run_other hs hi hx fun topic message h => hdispatch ⟨topic, message, h⟩

theorem Sound.step (hs : Sound s) (htime : InTime s a t) (hstep : (machine cfg).Step s a t) :
    Sound t := by
  have hmeets := meets_step hs hstep
  refine ⟨hmeets, ?_⟩
  cases hstep with
  | @spawn i call p w hi hp =>
      obtain ⟨w₁, hw, heq⟩ := Option.map_eq_some_iff.mp hp
      cases heq
      exact account_spawn hs hi hw (hmeets i _ (Function.update_self ..))
  | run hi hx => exact account_run hs htime hi hx (hmeets _ _ (Function.update_self ..))
  | @env e w hw =>
      obtain ⟨current, hcur, hacc⟩ := hs.account
      obtain rfl : s.world.env e = w := Option.some.inj hw
      have hframe : (s.world.env e).inHand = s.world.inHand ∧
          (s.world.env e).outcomes = s.world.outcomes ∧
          (s.world.env e).ledger = s.world.ledger := by
        cases e with
        | produce topic message => exact ⟨rfl, rfl, rfl⟩
        | elapse ms => exact ⟨rfl, rfl, rfl⟩
      refine ⟨current, ?_, hacc.same hframe.2.1 hframe.2.2⟩
      cases current with
      | none => exact hcur
      | some current =>
          obtain ⟨j, message, g⟩ := current
          obtain ⟨hj, ⟨topic, hhand⟩, halone⟩ := hcur
          refine ⟨hj, ⟨topic, ?_⟩, halone⟩
          rw [hframe.1]
          exact hhand

end Steps

/-! ## Runs -/

/-- Whatever is parked and replayed, no event is dispatched to an outcome twice
if every check of the ledger comes before the key of its event expires. -/
theorem dispatched_at_most_once {cfg : Dispatch.Config} {ttlSeconds : Nat}
    {acts : List ClusterAction} {s : ClusterPool}
    (hrun : (machine cfg).run (initial ttlSeconds) acts = some s)
    (htime : (machine cfg).Along InTime (initial ttlSeconds) acts) : AtMostOnce s.world := by
  have hs : Sound s :=
    Machine.run_invariant (initial_sound ttlSeconds) (fun _ _ _ hs htime h => hs.step htime h)
      hrun htime
  obtain ⟨current, -, hacc⟩ := hs.account
  exact hacc.once

/-- The test of `InTime`. -/
def checkInTime (s : ClusterPool) : ClusterAction → Bool
  | .run i _ =>
      match s.threads i with
      | some ⟨_, .call (.dispatch (.wasProcessed consumerName eventId)) _, _⟩ =>
          (s.world.ledger.expiresAt consumerName eventId).all fun deadline => s.world.now < deadline
      | _ => true
  | _ => true

theorem inTime_of_check (s : ClusterPool) (a : ClusterAction) (t : ClusterPool)
    (h : checkInTime s a = true) : InTime s a t := by
  rintro i o call consumerName eventId k log deadline rfl hi hkey
  simp only [checkInTime, hi, hkey, Option.all_some, decide_eq_true_eq] at h
  exact h

/-- The request of a ride. -/
def rideRequested : Message where
  key := some "r"
  envelope :=
    { eventId := 1
      eventType := .rideRequested
      correlationId := "c"
      payload := some { Payload.empty with
        rideId := some "r", riderId := some "u", pickup := some ⟨0, 0⟩
        destination := some ⟨1, 1⟩ } }

/-- A statement that the database of trip-service refuses. -/
def databaseDown : Oracle := { trip := { fault := .refused "connection lost" } }

/-- The request is dispatched, which finds no driver, and trip-service parks it.
The dead letter topic is replayed after `ms`, and the copy gets `steps` steps of
dispatch-service. -/
def parkAndReplay (ms steps : Nat) : List ClusterAction :=
  [.env (.produce "ride.requested" rideRequested),
    .spawn 0 (.deliver .dispatch .rideRequested rideRequested)] ++ List.replicate 7 (.run 0 {}) ++
  [.spawn 1 (.deliver .trip .rideRequested rideRequested), .run 1 databaseDown,
    .run 1 databaseDown, .run 1 databaseDown, .run 1 {}, .run 1 {}, .env (.elapse ms),
    .spawn 2 (.replay ⟨"trip-service.dlt", false⟩ 1), .run 2 {}, .run 2 {}, .run 2 {},
    .spawn 3 (.deliver .dispatch .rideRequested rideRequested)] ++ List.replicate steps (.run 3 {})

/-- A replay on the same day is skipped. -/
theorem dispatched_at_most_once_sameDay : ∃ s,
    (machine .defaults).run (initial IdempotencyStore.defaultTtlSeconds) (parkAndReplay 1000 2) =
      some s ∧ s.world.topics "ride.requested" = [rideRequested, rideRequested] ∧
      AtMostOnce s.world := by
  have hrun : (machine .defaults).run (initial IdempotencyStore.defaultTtlSeconds)
      (parkAndReplay 1000 2) = some _ := rfl
  have htime : (machine .defaults).Along InTime (initial IdempotencyStore.defaultTtlSeconds)
      (parkAndReplay 1000 2) := Machine.along_of_checks inTime_of_check rfl
  exact ⟨_, hrun, rfl, dispatched_at_most_once hrun htime⟩

/-- A replay on the next day is dispatched again. -/
theorem not_atMostOnce_nextDay : ∃ s,
    (machine .defaults).run (initial IdempotencyStore.defaultTtlSeconds)
      (parkAndReplay (24 * 60 * 60 * 1000) 5) = some s ∧ ¬ AtMostOnce s.world :=
  ⟨_, rfl, fun h => absurd (h 1) (by decide)⟩

end Replay

end RydTrip
