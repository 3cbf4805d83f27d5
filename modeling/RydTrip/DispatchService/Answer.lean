import RydTrip.DispatchService.Pending

/-!
# One answer to every request

As long as Redis and Kafka answer, a dispatch gives every new event one answer.
It publishes one outcome, for the ride and under the correlation id of the
event, and marks the event only after that.  Driver-service does not matter.
-/

namespace RydTrip

namespace Dispatch

open Process RideRequestedConsumer

/-- How far a dispatch has come with the answer to its event. -/
inductive Answer where
  | awaited
  /-- The event had been answered before. -/
  | skipped
  | given (outcome : Outcome) (correlationId : String)
  deriving DecidableEq, Repr

def Answer.next : (c : Cmd) → Reply c → Answer → Answer
  | .wasProcessed .., .ok true, _ => .skipped
  | .publish outcome correlationId _, .ok (), _ => .given outcome correlationId
  | _, _, g => g

/-- The ride that an event asks a driver for. -/
def requestedRide (envelope : EventEnvelope) : Option String :=
  (rideRequestedPayload envelope.payload).map (·.rideId)

/-- What a dispatch may issue, given how far it has come with its event. -/
def Answer.Allows (envelope : EventEnvelope) : (c : Cmd) → Answer → Prop
  | .wasProcessed consumer eventId, g =>
      g = .awaited ∧ consumer = consumerName ∧ eventId = envelope.eventId
  | .markProcessed consumer eventId, g =>
      (∃ outcome correlationId, g = .given outcome correlationId) ∧ consumer = consumerName ∧
        eventId = envelope.eventId
  | .tryReserve _ rideId _, g => g = .awaited ∧ requestedRide envelope = some rideId
  | .publish outcome correlationId _, g =>
      g = .awaited ∧ requestedRide envelope = some outcome.rideId ∧
        correlationId = envelope.correlationId
  | .settle .redis success, _ => success = true
  | .park _, _ => False
  | _, _ => True

/-- What replies are known to satisfy: Redis and Kafka answer, and the breaker
in front of Redis lets calls through. -/
def Responds : (c : Cmd) → Reply c → Prop
  | .enter .redis, r => r = true
  | .findNearby .., r => ∃ candidates, r = .ok candidates
  | .tryReserve .., r => ∃ won, r = .ok won
  | .publish .., r => r = .ok ()
  | .wasProcessed .., r => ∃ processed, r = .ok processed
  | .markProcessed .., r => r = .ok ()
  | _, _ => True

/-- From `g` on, the dispatch only issues what it may, and the program ends in
`Q` without an error. -/
abbrev AnswerSpec {α : Type} (envelope : EventEnvelope) (Q : α → Answer → Prop)
    (p : DispatchProg α) (g : Answer) : Prop :=
  p.wp (typestateSpec (Answer.Allows envelope) Responds Answer.next) Q (fun _ _ => False) g

/-- The dispatch is over. -/
def Answer.Over (g : Answer) : Prop := g ≠ .awaited

section Specs

variable {α : Type} {cfg : Config} {envelope : EventEnvelope} {rideId correlationId : String}
  {g : Answer} {Q : α → Answer → Prop}

/-- The Redis breaker is entered, and settled with a success. -/
theorem answer_execute {fn : DispatchProg α} (hfn : AnswerSpec envelope Q fn g) :
    AnswerSpec envelope Q (DispatchService.execute .redis fn) g := by
  unfold DispatchService.execute
  rw [Prog.perform_bind]
  refine ⟨trivial, fun invoked hinvoked => ?_⟩
  cases hinvoked
  refine Prog.wp_seq (Prog.wp_try (Prog.wp_mono typestateSpec_mono ?_ ?_ hfn))
  · intro a g h
    exact ⟨rfl, fun _ _ => h⟩
  · intro err g h
    exact h.elim

/-- The sync has no part in the answer. -/
theorem answer_syncDriverStatusBestEffort {driverId : String} {Q : Unit → Answer → Prop}
    (hQ : Q () g) :
    AnswerSpec envelope Q (DispatchService.syncDriverStatusBestEffort driverId) g := by
  rw [DispatchService.syncDriverStatusBestEffort_eq]
  refine ⟨trivial, fun invoked _ => ?_⟩
  cases invoked with
  | false => exact hQ
  | true => exact ⟨trivial, fun res _ => ⟨trivial, fun _ _ => hQ⟩⟩

theorem answer_publish {outcome : Outcome} {key : String}
    (hride : requestedRide envelope = some outcome.rideId) :
    AnswerSpec envelope (fun _ g => g = .given outcome envelope.correlationId)
      (DispatchService.publish outcome envelope.correlationId key) .awaited := by
  refine ⟨⟨rfl, hride, rfl⟩, fun r hr => ?_⟩
  cases hr
  rfl

theorem answer_tryReserve {driverId : String} {ttlSeconds : Nat}
    (hride : requestedRide envelope = some rideId) :
    AnswerSpec envelope (fun _ g => g = .awaited)
      (DispatchService.tryReserve driverId rideId ttlSeconds) .awaited := by
  refine ⟨⟨rfl, hride⟩, fun r hr => ?_⟩
  obtain ⟨won, rfl⟩ := hr
  rfl

/-- The outcome comes after the last attempt, whichever that is. -/
theorem answer_reserveFirst (hride : requestedRide envelope = some rideId)
    (candidates : List NearbyDriver) :
    AnswerSpec envelope (fun _ g => ∃ outcome, g = .given outcome envelope.correlationId)
      (DispatchService.reserveFirst cfg rideId envelope.correlationId candidates) .awaited := by
  induction candidates with
  | nil =>
      have hpublish : AnswerSpec envelope
          (fun _ g => g = .given (.rejected rideId .noDriversAvailable) envelope.correlationId)
          (DispatchService.publish (.rejected rideId .noDriversAvailable)
            envelope.correlationId rideId) .awaited := answer_publish hride
      exact Prog.wp_mono typestateSpec_mono (fun _ g hg => ⟨_, hg⟩) (fun _ _ h => h) hpublish
  | cons candidate candidates ih =>
      refine Prog.wp_seq (Prog.wp_mono typestateSpec_mono (fun won g hg => ?_) (fun _ _ h => h)
        (answer_execute (answer_tryReserve hride)))
      cases hg
      cases won with
      | false => exact ih
      | true =>
          have hpublish : AnswerSpec envelope
              (fun _ g => g = .given (.reserved rideId candidate.driverId) envelope.correlationId)
              (DispatchService.publish (.reserved rideId candidate.driverId)
                envelope.correlationId rideId) .awaited := answer_publish hride
          refine Prog.wp_seq (answer_syncDriverStatusBestEffort ?_)
          exact Prog.wp_mono typestateSpec_mono (fun _ g hg => ⟨_, hg⟩) (fun _ _ h => h) hpublish

theorem answer_handleRideRequested {pickup : GeoPoint}
    (hride : requestedRide envelope = some rideId) :
    AnswerSpec envelope (fun _ g => ∃ outcome, g = .given outcome envelope.correlationId)
      (DispatchService.handleRideRequested cfg rideId pickup envelope.correlationId) .awaited := by
  have hfind : AnswerSpec envelope (fun _ g => g = .awaited)
      (DispatchService.findNearby pickup cfg.searchRadiusKm cfg.candidateLimit) .awaited := by
    refine ⟨trivial, fun r hr => ?_⟩
    obtain ⟨candidates, rfl⟩ := hr
    rfl
  refine Prog.wp_seq (Prog.wp_mono typestateSpec_mono (fun candidates g hg => ?_)
    (fun _ _ h => h) (answer_execute hfind))
  cases hg
  exact answer_reserveFirst hride candidates

theorem answer_handler (hride : requestedRide envelope = some rideId) :
    AnswerSpec envelope (fun _ g => g.Over) (handler cfg envelope) .awaited := by
  obtain ⟨p, hp, rfl⟩ := Option.map_eq_some_iff.mp hride
  unfold handler
  rw [hp]
  dsimp only
  rw [Prog.perform_bind]
  refine ⟨⟨rfl, rfl, rfl⟩, fun r hr => ?_⟩
  obtain ⟨processed, rfl⟩ := hr
  refine Prog.wp_seq ?_
  cases processed with
  | true => exact nofun
  | false =>
      refine Prog.wp_seq (p := DispatchService.handleRideRequested ..)
        (Prog.wp_mono typestateSpec_mono (fun _ g hg => ?_) (fun _ _ h => h)
          (answer_handleRideRequested hride))
      obtain ⟨outcome, rfl⟩ := hg
      rw [Prog.perform_bind]
      refine ⟨⟨⟨_, _, rfl⟩, rfl, rfl⟩, fun r hr => ?_⟩
      cases hr
      exact nofun

/-- One attempt is enough for a request that names its ride. -/
theorem answer_consume {left : Nat} (hride : requestedRide envelope = some rideId) :
    AnswerSpec envelope (fun _ g => g.Over) (consume cfg (left + 1) envelope) .awaited :=
  Prog.wp_try (Prog.wp_mono typestateSpec_mono (fun _ _ h => h) (fun _ _ h => h.elim)
    (answer_handler hride))

end Specs

end Dispatch

end RydTrip
