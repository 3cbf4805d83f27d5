import RydTrip.EventSchema

/-!
# The ride state machine

`services/trip-service/src/trips/ride-state-machine.ts`.
-/

namespace RydTrip

/-- `ALLOWED_TRANSITIONS`. -/
def RideStatus.allowedTransitions : RideStatus → List RideStatus
  | .requested => [.matching]
  | .matching => [.matched, .cancelled]
  | .matched => [.driverArriving, .cancelled]
  | .driverArriving => [.driverArrived, .cancelled]
  | .driverArrived => [.inProgress, .cancelled]
  | .inProgress => [.completed]
  | .completed => []
  | .cancelled => []

def canTransitionRideStatus (src tgt : RideStatus) : Bool :=
  src.allowedTransitions.contains tgt

/-- The message of `InvalidRideTransitionError`. -/
def invalidRideTransitionMessage (src tgt : RideStatus) : String :=
  s!"Invalid ride status transition: {src.text} -> {tgt.text}"

namespace RideStatus

/-- A driver is assigned and the trip has not started. -/
def Assigned : RideStatus → Prop
  | .matched | .driverArriving | .driverArrived => True
  | _ => False

/-- A driver is working on the ride. -/
def Active : RideStatus → Prop
  | .matched | .driverArriving | .driverArrived | .inProgress => True
  | _ => False

/-- No transition leaves the status. -/
def Terminal : RideStatus → Prop
  | .completed | .cancelled => True
  | _ => False

/-- A cancellation is allowed from the status. -/
def Cancellable (s : RideStatus) : Prop := canTransitionRideStatus s .cancelled = true

instance : DecidablePred Assigned := fun s => by cases s <;> unfold Assigned <;> infer_instance
instance : DecidablePred Active := fun s => by cases s <;> unfold Active <;> infer_instance
instance : DecidablePred Terminal := fun s => by cases s <;> unfold Terminal <;> infer_instance
instance : DecidablePred Cancellable := fun s => by unfold Cancellable; infer_instance

/-- Every target but `cancelled` has one status it can be reached from, so once
a guarded transition is overtaken it can only be harmless if it is a
cancellation or writes the status that is already there. -/
theorem overtaken_iff {seen tgt : RideStatus} (cur : RideStatus)
    (h : canTransitionRideStatus seen tgt = true) :
    (cur ≠ tgt → canTransitionRideStatus cur tgt = true) ↔
      (cur = seen ∨ cur = tgt ∨ (tgt = .cancelled ∧ cur.Cancellable)) := by
  revert h
  cases seen <;> cases tgt <;> cases cur <;> decide

theorem not_transition_of_terminal {s tgt : RideStatus} (h : s.Terminal) :
    canTransitionRideStatus s tgt = false := by
  cases s <;> simp_all [Terminal, canTransitionRideStatus, allowedTransitions]

end RideStatus

end RydTrip
