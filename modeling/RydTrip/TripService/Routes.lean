import RydTrip.Process.Resume
import RydTrip.TripService.Progress
import RydTrip.TripService.Steps

/-!
# What a route asks for

An HTTP operation reads, and either answers from what it has read or makes one
transition and answers with the row that the transition returns.  `route_spec`
says which reads come before which command, and what an answer is made of.
-/

namespace RydTrip

namespace TripService

open Process

/-! ## Logs of routes -/

/-- The operation is one of `trips.controller.ts`. -/
def Op.IsRoute (op : Op) : Bool := op.event.isNone && !op.IsConsume

/-- The ride that a route moves, and where to. -/
def Op.target : Op → Option (String × RideStatus)
  | .accept id _ => some (id, .driverArriving)
  | .decline id => some (id, .cancelled)
  | .driverArrived id => some (id, .driverArrived)
  | .start id _ _ => some (id, .inProgress)
  | .complete id => some (id, .completed)
  | .cancel id _ => some (id, .cancelled)
  | _ => none

/-- The row that the transition of a route returned. -/
def committedRow : TripLog → Option RideRow
  | [] => none
  | ⟨.db (.transact _), .ok row⟩ :: _ => some row
  | _ :: log => committedRow log

/-- No database call was rejected. -/
def Clean (log : TripLog) : Prop :=
  ∀ c err, (⟨.db c, .error err⟩ : Σ c : Cmd, Reply c) ∉ log

/-- What a route has read when it asks for more. -/
inductive Stage (op : Op) : TripLog → Prop where
  | unread : Stage op []
  | owner {id : String} {caller : Option String} {row : RideRow} :
      op = .getOtp id caller →
      Stage op [⟨.db (.findRide id), .ok (some row)⟩]
  | guarded {id : String} {tgt : RideStatus} {row : RideRow} :
      op.target = some (id, tgt) →
      canTransitionRideStatus row.status tgt = true →
      Stage op [⟨.db (.findRide id), .ok (some row)⟩]
  | code {id otp : String} {caller : Option String} {row : RideRow} {code : Option String} :
      op = .start id otp caller →
      canTransitionRideStatus row.status .inProgress = true →
      Stage op [⟨.db (.getOtp id), .ok code⟩, ⟨.db (.findRide id), .ok (some row)⟩]

/-- What a route may ask for. -/
def Op.Asks (op : Op) : Cmd → TripLog → Prop
  | .db (.begin _), _ => False
  | .db (.exec ..), _ => False
  | .db (.commit _), _ => False
  | .db (.transact e), log => Stage op log ∧ op.Transacts e
  | .db _, log => Stage op log
  | .patch .., log => Clean log ∧ ∃ row, committedRow log = some row
  | .park _, _ => False

/-- A transition is answered with the row that it returned. -/
def Op.Returns (op : Op) (r : Response) (log : TripLog) : Prop :=
  Clean log ∧ (op.target.isSome = true →
    ∃ row, committedRow log = some row ∧ r = .ride (some (toDomain row)))

/-- An error means that nothing was committed, or that a call was rejected. -/
def Fails (err : TripError) (log : TripLog) : Prop :=
  committedRow log = none ∧ (Clean log ∨ ∃ e, err = .prisma e)

abbrev RouteSpec {α : Type} (op : Op) (Q : α → TripLog → Prop) (p : Trip α) (log : TripLog) :
    Prop :=
  p.wp (logSpec op.Asks fun _ _ => True) Q Fails log

theorem clean_nil : Clean [] := fun _ _ => List.not_mem_nil

theorem Clean.ok {log : TripLog} {c : DbCmd} {v : DbValue c} (h : Clean log) :
    Clean (⟨.db c, .ok v⟩ :: log) := by
  intro c' err hmem
  rcases List.mem_cons.mp hmem with heq | hmem
  · cases heq
  · exact h c' err hmem

theorem Clean.patch {log : TripLog} {driverId : String} {status : DriverStatus} {r : PatchReply}
    (h : Clean log) : Clean (⟨.patch driverId status, r⟩ :: log) := by
  intro c err hmem
  rcases List.mem_cons.mp hmem with heq | hmem
  · cases heq
  · exact h c err hmem

theorem not_clean_error {log : TripLog} {c : DbCmd} {err : PrismaError} :
    ¬ Clean (⟨.db c, .error err⟩ :: log) := fun h => h c err (.head _)

theorem committedRow_error {log : TripLog} {c : DbCmd} {err : PrismaError} :
    committedRow (⟨.db c, .error err⟩ :: log) = committedRow log := by
  cases c <;> rfl

theorem committedRow_read {log : TripLog} {c : DbCmd} {v : DbValue c}
    (hc : (Cmd.db c).commits = none) : committedRow (⟨.db c, .ok v⟩ :: log) = committedRow log := by
  cases c <;> first | rfl | cases hc

theorem Op.event_of_isRoute {op : Op} (h : op.IsRoute = true) : op.event = none :=
  Option.isNone_iff_eq_none.mp (Bool.and_eq_true_iff.mp h).1

section Stage

variable {op : Op} {log : TripLog}

theorem Stage.clean (h : Stage op log) : Clean log := by
  cases h with
  | unread => exact clean_nil
  | owner _ => exact clean_nil.ok
  | guarded _ _ => exact clean_nil.ok
  | code _ _ => exact clean_nil.ok.ok

theorem Stage.uncommitted (h : Stage op log) : committedRow log = none := by
  cases h <;> rfl

/-- A database call is issued on reads. -/
theorem Op.Asks.stage {c : DbCmd} (h : op.Asks (.db c) log) : Stage op log := by
  cases c with
  | begin key => exact h.elim
  | exec tx e => exact h.elim
  | commit tx => exact h.elim
  | transact e => exact h.1
  | findRide id => exact h
  | getOtp id => exact h
  | findActive driverId => exact h
  | findByRider riderId limit => exact h
  | findByDriver driverId limit => exact h

/-- No command follows a rejected call. -/
theorem Op.Asks.clean {c : Cmd} (h : op.Asks c log) : Clean log := by
  cases c with
  | db c => exact h.stage.clean
  | patch driverId status => exact h.1
  | park fields => exact h.elim

end Stage

/-! ## One specification for each function -/

section Specs

variable {α : Type} {op : Op} {log : TripLog}

theorem route_query {c : DbCmd} {Q : DbValue c → TripLog → Prop} (hc : op.Asks (.db c) log)
    (hQ : ∀ v, Q v (⟨.db c, .ok v⟩ :: log)) : RouteSpec op Q (query c) log := by
  refine ⟨hc, fun r _ => ?_⟩
  cases r with
  | ok v => exact hQ v
  | error err => exact ⟨committedRow_error.trans hc.stage.uncommitted, .inr ⟨err, rfl⟩⟩

/-- A read of the repository. -/
theorem route_read {c : DbCmd} {f : DbValue c → α} (hc : op.Asks (.db c) []) :
    RouteSpec op (fun _ => Clean) (query c >>= fun v => .ret (f v)) [] :=
  Prog.wp_seq (route_query hc fun _ => clean_nil.ok)

theorem route_findById {id : String} {Q : Ride → TripLog → Prop}
    (hQ : ∀ row, Q (toDomain row) [⟨.db (.findRide id), .ok (some row)⟩]) :
    RouteSpec op Q (TripsService.findById id) [] := by
  refine Prog.wp_seq (Prog.wp_seq (route_query Stage.unread fun found => ?_))
  cases found with
  | none => exact ⟨rfl, .inl clean_nil.ok⟩
  | some row => exact hQ row

/-- The read and the guard together. -/
theorem route_guarded {id : String} {tgt : RideStatus} {f : Ride → Trip α}
    {Q : α → TripLog → Prop}
    (hQ : ∀ row, canTransitionRideStatus row.status tgt = true →
      RouteSpec op Q (f (toDomain row)) [⟨.db (.findRide id), .ok (some row)⟩]) :
    RouteSpec op Q (do
      let ride ← TripsService.findById id
      TripsService.guardTransition ride.status tgt
      f ride) [] := by
  refine Prog.wp_seq (route_findById fun row => Prog.wp_seq ?_)
  unfold TripsService.guardTransition
  split
  next hcan => exact hQ row hcan
  next => exact ⟨rfl, .inl clean_nil.ok⟩

theorem route_guardCaller {ride : Ride} {caller : Option String} {Q : Unit → TripLog → Prop}
    (hrow : committedRow log = none) (hclean : Clean log) (hQ : Q () log) :
    RouteSpec op Q (TripsService.guardCaller ride caller) log := by
  unfold TripsService.guardCaller
  split
  · split
    · exact ⟨hrow, .inl hclean⟩
    · exact hQ
  · exact hQ

theorem route_guardOtp {storedOtp : Option String} {otp : String} {Q : Unit → TripLog → Prop}
    (hrow : committedRow log = none) (hclean : Clean log) (hQ : Q () log) :
    RouteSpec op Q (TripsService.guardOtp storedOtp otp) log := by
  unfold TripsService.guardOtp
  split
  · split
    · exact ⟨hrow, .inl hclean⟩
    · exact hQ
  · exact ⟨hrow, .inl hclean⟩

/-- The transition of the route. -/
theorem route_transact {e : Exec} {Q : Ride × Option Tx → TripLog → Prop} (hlog : Stage op log)
    (he : op.Transacts e)
    (hQ : ∀ row log', Clean log' → committedRow log' = some row → Q (toDomain row, none) log') :
    RouteSpec op Q (TripsRepository.runExec e none) log :=
  Prog.wp_seq (route_query ⟨hlog, he⟩ fun row => hQ row _ hlog.clean.ok rfl)

theorem route_syncRideDriver {ride : Ride} {status : DriverStatus} {row : RideRow}
    {Q : Unit → TripLog → Prop} (hclean : Clean log) (hrow : committedRow log = some row)
    (hQ : ∀ log', Clean log' → committedRow log' = some row → Q () log') :
    RouteSpec op Q (TripsService.syncRideDriver ride status) log := by
  unfold TripsService.syncRideDriver
  split
  · rw [TripsService.syncDriverStatusBestEffort_eq]
    exact ⟨⟨hclean, row, hrow⟩, fun r _ => hQ _ hclean.patch hrow⟩
  · exact hQ log hclean hrow

/-! ## The routes -/

/-- A route that answers with the row of its transition. -/
abbrev Moved (ride : Ride) (log : TripLog) : Prop :=
  Clean log ∧ ∃ row, committedRow log = some row ∧ ride = toDomain row

theorem route_cancel {id : String} {reason : JsText} (hop : op.target = some (id, .cancelled))
    (he : op.Transacts (cancelExec id reason)) :
    RouteSpec op (fun r log => Moved r.1 log) (TripsService.cancel id reason none) [] := by
  refine route_guarded fun row hcan => ?_
  refine Prog.wp_seq (route_transact (.guarded hop hcan) he fun row' log' hclean hrow => ?_)
  exact Prog.wp_seq (route_syncRideDriver hclean hrow fun log hclean hrow =>
    ⟨hclean, row', hrow, rfl⟩)

theorem route_accept {id : String} {draw : Fin 10000} :
    RouteSpec (.accept id draw) Moved (TripsService.accept id draw) [] := by
  refine route_guarded fun row hcan => ?_
  exact Prog.wp_seq (route_transact (.guarded rfl hcan) rfl fun row' log' hclean hrow =>
    ⟨hclean, row', hrow, rfl⟩)

theorem route_markDriverArrived {id : String} :
    RouteSpec (.driverArrived id) Moved (TripsService.markDriverArrived id) [] := by
  refine route_guarded fun row hcan => ?_
  exact Prog.wp_seq (route_transact (.guarded rfl hcan) rfl fun row' log' hclean hrow =>
    ⟨hclean, row', hrow, rfl⟩)

theorem route_start {id otp : String} {caller : Option String} :
    RouteSpec (.start id otp caller) Moved (TripsService.start id otp caller) [] := by
  refine route_guarded fun row hcan => ?_
  have hread : Stage (.start id otp caller) [⟨.db (.findRide id), .ok (some row)⟩] :=
    .guarded rfl hcan
  refine Prog.wp_seq (route_guardCaller hread.uncommitted hread.clean ?_)
  refine Prog.wp_seq (route_query hread fun code => ?_)
  have hcode : Stage (.start id otp caller)
      [⟨.db (.getOtp id), .ok code⟩, ⟨.db (.findRide id), .ok (some row)⟩] := .code rfl hcan
  refine Prog.wp_seq (route_guardOtp hcode.uncommitted hcode.clean ?_)
  refine Prog.wp_seq (route_transact hcode rfl fun row' log' hclean hrow => ?_)
  exact Prog.wp_seq (route_syncRideDriver hclean hrow fun log hclean hrow =>
    ⟨hclean, row', hrow, rfl⟩)

theorem route_complete {haversineKm : GeoPoint → GeoPoint → Option Rat} {id : String} :
    RouteSpec (.complete id) Moved (TripsService.complete haversineKm id) [] := by
  refine route_guarded fun row hcan => ?_
  refine Prog.wp_seq (route_transact (.guarded rfl hcan) ⟨_, _, rfl⟩
    fun row' log' hclean hrow => ?_)
  exact Prog.wp_seq (route_syncRideDriver hclean hrow fun log hclean hrow =>
    ⟨hclean, row', hrow, rfl⟩)

theorem route_getOtpForRider {id : String} {caller : Option String} :
    RouteSpec (.getOtp id caller) (fun _ => Clean) (TripsService.getOtpForRider id caller) [] := by
  refine Prog.wp_seq (route_findById fun row => ?_)
  have hget : RouteSpec (.getOtp id caller) (fun _ => Clean) (TripsRepository.getOtp id)
      [⟨.db (.findRide id), .ok (some row)⟩] :=
    route_query (Stage.owner rfl) fun _ => clean_nil.ok.ok
  split
  · split
    · exact ⟨rfl, .inl clean_nil.ok⟩
    · exact hget
  · exact hget

theorem route_starts (haversineKm : GeoPoint → GeoPoint → Option Rat) {op : Op}
    (hop : op.IsRoute = true) :
    ∃ c k, TripsService.program haversineKm op = .call (.db c) k := by
  cases op with
  | handleRideRequested input eventId => cases hop
  | handleRideCancelled rideId reason eventId => cases hop
  | handleDriverReserved rideId driverId eventId => cases hop
  | handleDriverRejected rideId eventId => cases hop
  | consume maxAttempts envelope => cases (Bool.and_eq_true_iff.mp hop).2
  | _ => exact ⟨_, _, rfl⟩

/-- Every route asks and answers as it may. -/
theorem route_spec (haversineKm : GeoPoint → GeoPoint → Option Rat) {op : Op}
    (hop : op.IsRoute = true) :
    RouteSpec op op.Returns (TripsService.program haversineKm op) [] := by
  have hmoved {β : Type} {p : Trip β} {f : β → Ride}
      (hp : RouteSpec op (fun b => Moved (f b)) p []) :
      RouteSpec op op.Returns (p >>= fun b => .ret (.ride (some (f b)))) [] := by
    refine Prog.wp_seq (Prog.wp_mono logSpec_mono (fun b log hQ => ?_) (fun _ _ h => h) hp)
    obtain ⟨hclean, row, hrow, heq⟩ := hQ
    exact ⟨hclean, fun _ => ⟨row, hrow, by rw [heq]⟩⟩
  have hread {β : Type} {p : Trip β} {f : β → Response} (hnone : op.target = none)
      (hp : RouteSpec op (fun _ => Clean) p []) :
      RouteSpec op op.Returns (p >>= fun b => .ret (f b)) [] := by
    refine Prog.wp_seq (Prog.wp_mono logSpec_mono (fun b log hclean => ⟨hclean, fun h => ?_⟩)
      (fun _ _ h => h) hp)
    rw [hnone] at h
    cases h
  cases op with
  | findActiveForDriver driverId => exact hread rfl (route_read Stage.unread)
  | findHistoryForRider riderId limit => exact hread rfl (route_read Stage.unread)
  | findHistoryForDriver driverId limit => exact hread rfl (route_read Stage.unread)
  | findOne id => exact hread rfl (route_findById fun _ => clean_nil.ok)
  | accept id draw => exact hmoved route_accept
  | decline id => exact hmoved (Prog.wp_seq (route_cancel rfl rfl))
  | driverArrived id => exact hmoved route_markDriverArrived
  | start id otp caller => exact hmoved route_start
  | getOtp id caller => exact hread rfl route_getOtpForRider
  | complete id => exact hmoved route_complete
  | cancel id reason => exact hmoved (route_cancel rfl rfl)
  | handleRideRequested input eventId => cases hop
  | handleRideCancelled rideId reason eventId => cases hop
  | handleDriverReserved rideId driverId eventId => cases hop
  | handleDriverRejected rideId eventId => cases hop
  | consume maxAttempts envelope => cases (Bool.and_eq_true_iff.mp hop).2

end Specs

end TripService

end RydTrip
