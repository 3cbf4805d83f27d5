import RydTrip.Backend.System

/-!
# What the threads of the backend do

The typestates of trip-service and dispatch-service, carried over to the
signature of the backend.  A PATCH is two commands here, and a sync that is due
stays due until driver-service has refused it or written it.
-/

namespace RydTrip

namespace Backend

open Process

/-! ## The typestate -/

structure Track where
  trip : TripService.Progress
  pending : Dispatch.Pending

namespace Track

def start : Track := ⟨.start, none⟩

/-- After driver-service has read the driver: a change that it will refuse is
not due any more. -/
def afterFind (g : Track) (row : Option DriverStatus) : Track :=
  { g with
    trip :=
      { g.trip with
        due := g.trip.due.filter fun (_, status) =>
          row.any fun src => canTransitionDriverStatus src status } }

def settled (g : Track) : Track := { g with trip := { g.trip with due := none } }

def next : (c : Cmd) → Reply c → Track → Track
  | .db c, r, g => { g with trip := g.trip.next (.db c) r }
  | .tripPark fields, r, g => { g with trip := g.trip.next (.park fields) r }
  | .dispatch c, r, g => { g with pending := Dispatch.Pending.next c r g.pending }
  | .drivers (.findUnique _), row, g => g.afterFind row
  | .drivers (.update ..), _, g => g.settled

end Track

/-- The operation of trip-service that a call runs. -/
def Call.op : Call → Option TripService.Op
  | .http op => some op
  | .tripEvent envelope => some (consume envelope)
  | _ => none

/-- The PATCH that a call may have under way. -/
def Call.Sends : Call → Track → String → DriverStatus → Prop
  | .updateStatus driverId' status', _, driverId, status => driverId = driverId' ∧ status = status'
  | .dispatchEvent _, g, driverId, status =>
      status = .reserved ∧ ∃ rideId, g.pending = some (rideId, driverId)
  | _, g, driverId, status => g.trip.due = some (driverId, status)

/-- An operation of trip-service sends the sync that is due. -/
theorem Call.Sends.due {call : Call} {op : TripService.Op} {g : Track} {driverId : String}
    {status : DriverStatus} (h : call.Sends g driverId status) (hop : call.op = some op) :
    g.trip.due = some (driverId, status) := by
  cases call with
  | http op' => exact h
  | tripEvent envelope => exact h
  | dispatchEvent envelope => cases hop
  | updateStatus driverId' status' => cases hop

/-- What a call may issue, given where it is. -/
def Call.Allows (call : Call) : (c : Cmd) → Track → Prop
  | .db c, g => ∃ op, call.op = some op ∧ op.Allows (.db c) g.trip
  | .tripPark fields, g => ∃ op, call.op = some op ∧ op.Allows (.park fields) g.trip
  | .dispatch c, g =>
      (∃ envelope, call = .dispatchEvent envelope) ∧ Dispatch.Pending.Allows c g.pending
  | .drivers (.findUnique driverId), g => ∃ status, call.Sends g driverId status
  | .drivers (.update driverId status), g => call.Sends g driverId status

/-- What replies are known to satisfy. -/
def Answered : (c : Cmd) → Reply c → Prop
  | .db c, r => TripService.Answered (.db c) r
  | .tripPark fields, r => TripService.Answered (.park fields) r
  | .dispatch c, r => Dispatch.Delivers c r
  | .drivers _, _ => True

/-- What holds at the end of a call. -/
def Call.Finished : Call → Track → Prop
  | .http op, g => op.Finished g.trip
  | .tripEvent envelope, g => (consume envelope).Finished g.trip
  | .dispatchEvent _, g => g.pending = none
  | .updateStatus .., _ => True

abbrev BackendSpec (call : Call) : (c : Cmd) → (Reply c → Track → Prop) → Track → Prop :=
  typestateSpec call.Allows Answered Track.next

/-! ## PATCH requests -/

section Patch

variable {ε : Type} {call : Call} {g : Track} {driverId : String} {status : DriverStatus}

/-- A change that driver-service accepts is still under way. -/
theorem Call.Sends.afterFind (h : call.Sends g driverId status) {src : DriverStatus}
    (hcan : canTransitionDriverStatus src status = true) :
    call.Sends (g.afterFind (some src)) driverId status := by
  have hdue (hdue : g.trip.due = some (driverId, status)) :
      (g.afterFind (some src)).trip.due = some (driverId, status) := by
    simp [Track.afterFind, hdue, hcan]
  cases call with
  | http op => exact hdue h
  | tripEvent envelope => exact hdue h
  | dispatchEvent envelope => exact h
  | updateStatus driverId' status' => exact h

/-- A change that driver-service refuses is not due any more. -/
theorem Track.afterFind_refused {row : Option DriverStatus}
    (hrow : (row.any fun src => canTransitionDriverStatus src status) = false)
    (hdue : g.trip.due = some (driverId, status)) : g.afterFind row = g.settled := by
  simp [Track.afterFind, Track.settled, hdue, hrow]

/-- A PATCH ends with the sync of its sender settled, and changes nothing else
that the sender knows. -/
theorem patchStatus_wp {Q : PatchReply → Track → Prop} {E : ε → Track → Prop}
    (hsend : call.Sends g driverId status)
    (hQ : ∀ r g', g'.pending = g.pending →
      (g.trip.due = some (driverId, status) → g' = g.settled) → Q r g') :
    (patchStatus driverId status).wp (BackendSpec call) Q E g := by
  unfold patchStatus
  refine Prog.wp_seq ?_
  rw [Prog.wp_attempt, Prog.wp_expand, Drivers.DriversService.updateStatus_eq]
  refine ⟨⟨status, hsend⟩, fun row _ => ?_⟩
  cases row with
  | none => exact hQ _ _ rfl (Track.afterFind_refused rfl)
  | some src =>
      simp only [Prog.wp_ret]
      split
      next hcan =>
        refine ⟨hsend.afterFind hcan, fun row _ => ?_⟩
        cases row with
        | none => exact hQ _ _ rfl fun _ => rfl
        | some status' => exact hQ _ _ rfl fun _ => rfl
      next hcan =>
        exact hQ _ _ rfl (Track.afterFind_refused (Bool.eq_false_iff.mpr hcan))

end Patch

/-! ## Programs -/

section Programs

variable {ε α : Type} {call : Call} {g : Track}

/-- What trip-service may do, the thread that runs it may do. -/
theorem serveTrip_wp {op : TripService.Op} (hop : call.op = some op) (c : TripService.Cmd)
    (K : TripService.Reply c → TripService.Progress → Prop)
    (E : TripService.TripError → Track → Prop) (g : Track)
    (h : typestateSpec op.Allows TripService.Answered TripService.Progress.next c K g.trip) :
    (serveTrip c).wp (BackendSpec call) (fun r g => K r g.trip) E g := by
  cases c with
  | db c => exact ⟨⟨op, hop, h.1⟩, h.2⟩
  | park fields => exact ⟨⟨op, hop, h.1⟩, h.2⟩
  | patch driverId status =>
      have hdue : g.trip.due = some (driverId, status) := h.1
      have hsend : call.Sends g driverId status := by
        cases call with
        | http op => exact hdue
        | tripEvent envelope => exact hdue
        | dispatchEvent envelope => cases hop
        | updateStatus driverId' status' => cases hop
      refine patchStatus_wp hsend fun r g' _ hg' => ?_
      rw [hg' hdue]
      exact h.2 r trivial

/-- What dispatch-service may do, the thread that runs it may do. -/
theorem serveDispatch_wp {envelope : EventEnvelope} (hcall : call = .dispatchEvent envelope)
    (c : Dispatch.Cmd) (K : Dispatch.Reply c → Dispatch.Pending → Prop)
    (E : Dispatch.DispatchError → Track → Prop) (g : Track)
    (h : typestateSpec Dispatch.Pending.Allows Dispatch.Delivers Dispatch.Pending.next c K
      g.pending) : (serveDispatch c).wp (BackendSpec call) (fun r g => K r g.pending) E g := by
  cases c with
  | patch driverId status =>
      subst hcall
      refine patchStatus_wp h.1 fun r g' hpending _ => ?_
      rw [hpending]
      exact h.2 r trivial
  | _ => exact ⟨⟨⟨envelope, hcall⟩, h.1⟩, h.2⟩

theorem settled_wp {p : Prog Cmd Reply ε α} {Q : Track → Prop} {E : Empty → Track → Prop}
    (h : p.wp (BackendSpec call) (fun _ => Q) (fun _ => Q) g) :
    (settled p).wp (BackendSpec call) (fun _ => Q) E g := by
  refine Prog.wp_seq ?_
  rw [Prog.wp_attempt]
  exact h

/-- Every call does only what it may, and ends with nothing owed. -/
theorem prog_wp (cfg : Dispatch.Config) (haversineKm : GeoPoint → GeoPoint → Option Rat)
    (call : Call) :
    (call.prog cfg haversineKm).wp (BackendSpec call) (fun _ => call.Finished)
      (fun _ => call.Finished) .start := by
  have htrip {op : TripService.Op} (hop : call.op = some op) :
      ((TripService.TripsService.program haversineKm op).expand serveTrip).wp (BackendSpec call)
        (fun _ g => op.Finished g.trip) (fun _ g => op.Finished g.trip) .start :=
    Prog.wp_expand_view typestateSpec_mono Track.trip
      (fun c K g => serveTrip_wp hop c K _ g) (TripService.program_progress haversineKm op)
  cases call with
  | http op => exact settled_wp (htrip rfl)
  | tripEvent envelope => exact settled_wp (htrip rfl)
  | dispatchEvent envelope =>
      have h : ((Dispatch.RideRequestedConsumer.consume cfg EventConsumer.defaultMaxAttempts
          envelope).expand serveDispatch).wp (BackendSpec (.dispatchEvent envelope))
          (fun _ g => g.pending = none) (fun _ g => g.pending = none) .start :=
        Prog.wp_expand_view (Q := fun _ g => g = none) (E := fun _ g => g = none)
          typestateSpec_mono Track.pending (fun c K g => serveDispatch_wp rfl c K _ g)
          Dispatch.pending_consume
      exact settled_wp h
  | updateStatus driverId status =>
      exact settled_wp (patchStatus_wp ⟨rfl, rfl⟩ fun _ _ _ _ => trivial)

end Programs

end Backend

end RydTrip
