import RydTrip.Process.Typestate
import RydTrip.TripService.Writes

/-!
# How far an operation has come

`Writes` says what operations commit.  When other services take part it also
matters what an operation still owes: after a transition that ends or starts a
trip the driver's status has to be synced, and an event has to be committed,
found handled, or parked.  `Progress` is this typestate, and `program_progress`
is the induction over the code.
-/

namespace RydTrip

namespace TripService

open Process

/-! ## The typestate -/

structure Progress where
  /-- The newest row that was read, with the id that was asked for. -/
  seen : Option (String × RideRow)
  /-- The statements of the open transaction. -/
  staged : List Exec
  /-- The status sync that is owed. -/
  due : Option (String × DriverStatus)
  /-- A write is committed, or the event is known to be handled, or parked. -/
  done : Bool

/-- The status that the driver gets when his ride enters the status. -/
def syncStatus : RideStatus → Option DriverStatus
  | .inProgress => some .onTrip
  | .completed => some .available
  | .cancelled => some .available
  | _ => none

/-- The sync that a transition makes due, given the row it returns. -/
def syncOf (tgt : RideStatus) (row : RideRow) : Option (String × DriverStatus) := do
  return (← truthy row.driverId, ← syncStatus tgt)

def Exec.sync : Exec → RideRow → Option (String × DriverStatus)
  | .create _, _ => none
  | .transition _ tgt _, row => syncOf tgt row

theorem syncOf_eq_some {tgt : RideStatus} {row : RideRow} {driverId : String}
    {status : DriverStatus} : syncOf tgt row = some (driverId, status) ↔
      truthy row.driverId = some driverId ∧ syncStatus tgt = some status := by
  unfold syncOf
  cases truthy row.driverId <;> cases syncStatus tgt <;> simp

theorem syncOf_eq_none {tgt : RideStatus} (h : syncStatus tgt = none) (row : RideRow) :
    syncOf tgt row = none := by
  unfold syncOf
  rw [h]
  cases truthy row.driverId <;> rfl

namespace Progress

def start : Progress := ⟨none, [], none, false⟩

/-- Nothing is staged, due or done. -/
structure Idle (g : Progress) : Prop where
  staged : g.staged = []
  due : g.due = none
  open' : g.done = false

/-- A lone transition is allowed by the newest read. -/
def Permits (g : Progress) (es : List Exec) : Prop :=
  ∀ id tgt options, es = [.transition id tgt options] →
    ∃ row, g.seen = some (id, row) ∧ canTransitionRideStatus row.status tgt = true

/-- After a database call that succeeds. -/
def afterValue : (c : DbCmd) → DbValue c → Progress → Progress
  | .findRide id, some row, g => { g with seen := some (id, row) }
  | .exec tx e, row, g => { g with staged := tx.staged ++ [e], due := e.sync row }
  | .commit _, _, g => { g with staged := [], done := true }
  | .transact e, row, g => { g with due := e.sync row, done := true }
  | _, _, g => g

/-- After a database call that is rejected.  P2002 means that the event has been
handled. -/
def afterError (err : PrismaError) (g : Progress) : Progress :=
  { g with staged := [], done := g.done || decide (err = .uniqueConstraint) }

def next : (c : Cmd) → Reply c → Progress → Progress
  | .db c, .ok v, g => g.afterValue c v
  | .db _, .error err, g => g.afterError err
  | .patch .., _, g => { g with due := none }
  | .park _, _, g => { g with done := true }

end Progress

/-- What an operation may issue, given how far it has come. -/
def Op.Allows (op : Op) : (c : Cmd) → Progress → Prop
  | .db (.begin key), g =>
      g.Idle ∧ ∃ event eventId, op.event = some (event, eventId) ∧ key = ⟨eventId, consumerName⟩
  | .db (.exec tx e), g =>
      g.due = none ∧ g.done = false ∧ g.staged = tx.staged ∧
        ∃ event eventId, op.event = some (event, eventId) ∧ tx.key = ⟨eventId, consumerName⟩ ∧
          tx.staged ++ [e] <+: event.writes ∧ g.Permits event.writes
  | .db (.commit tx), g =>
      g.due = none ∧ g.done = false ∧ g.staged = tx.staged ∧
        ∃ event eventId, op.event = some (event, eventId) ∧ tx.key = ⟨eventId, consumerName⟩ ∧
          tx.staged = event.writes ∧ g.Permits event.writes
  | .db (.transact e), g => g.Idle ∧ op.Transacts e ∧ g.Permits [e]
  | .db _, g => g.due = none ∧ g.done = false
  | .patch driverId status, g => g.due = some (driverId, status)
  | .park fields, g => g.Idle ∧ ∃ n envelope, op = .consume n envelope ∧
      fields.envelope = some envelope

/-- No database call is issued while a sync is due, or after the operation is
done. -/
theorem Op.Allows.idle {op : Op} {c : DbCmd} {g : Progress} (h : op.Allows (.db c) g) :
    g.due = none ∧ g.done = false := by
  cases c with
  | begin key => exact ⟨h.1.due, h.1.open'⟩
  | exec tx e => exact ⟨h.1, h.2.1⟩
  | commit tx => exact ⟨h.1, h.2.1⟩
  | transact e => exact ⟨h.1.due, h.1.open'⟩
  | findRide id => exact h
  | getOtp id => exact h
  | findActive driverId => exact h
  | findByRider riderId limit => exact h
  | findByDriver driverId limit => exact h

/-- What replies are known to satisfy: reads and parking do not fail, and an
insert returns the row it inserted. -/
def Answered : (c : Cmd) → Reply c → Prop
  | .db (.findRide _), r => ∃ row, r = .ok row
  | .db (.exec _ (.create input)), .ok row => row.id = input.id
  | .park _, r => r = .ok ()
  | _, _ => True

/-- The operation is the delivery of an envelope. -/
def Op.IsConsume : Op → Bool
  | .consume .. => true
  | _ => false

/-- Nothing is owed at the end, and a delivered event is dealt with. -/
def Op.Finished (op : Op) (g : Progress) : Prop :=
  g.due = none ∧ ∀ n envelope, op = .consume (n + 1) envelope →
    (RideEvent.ofEnvelope envelope).isSome → g.done = true

theorem finished_of_due {op : Op} {g : Progress} (hop : op.IsConsume = false)
    (hdue : g.due = none) : op.Finished g := by
  refine ⟨hdue, fun n envelope h => ?_⟩
  rw [h] at hop
  cases hop

/-! ## One specification for each function -/

/-- From `g` on, the operation only issues what it may, and the program ends in
`Q` or `E`. -/
abbrev ProgressSpec {α : Type} (op : Op) (Q : α → Progress → Prop)
    (E : TripError → Progress → Prop) (p : Trip α) (g : Progress) : Prop :=
  p.wp (typestateSpec op.Allows Answered Progress.next) Q E g

/-- The work on an event has failed, and it was not because the event had been
handled. -/
structure Failed (err : TripError) (g : Progress) : Prop where
  staged : g.staged = []
  due : g.due = none
  done : g.done = decide (err = .prisma .uniqueConstraint)

section Specs

variable {α : Type} {op : Op} {g : Progress} {E : TripError → Progress → Prop}

theorem progress_query {c : DbCmd} {Q : DbValue c → Progress → Prop} (hc : op.Allows (.db c) g)
    (hQ : ∀ v, Answered (.db c) (.ok v) → Q v (g.afterValue c v))
    (hE : ∀ err, Answered (.db c) (.error err) → E (.prisma err) (g.afterError err)) :
    ProgressSpec op Q E (query c) g := by
  refine ⟨hc, fun r hr => ?_⟩
  cases r with
  | ok v => exact hQ v hr
  | error err => exact hE err hr

/-- A rejected call in an operation that is not done. -/
theorem failed_afterError {err : PrismaError} (hdue : g.due = none) (hdone : g.done = false) :
    Failed (.prisma err) (g.afterError err) := by
  refine ⟨rfl, hdue, ?_⟩
  simp [Progress.afterError, hdone]

/-- An exception of the service itself. -/
theorem Progress.Idle.failed {err : TripError} (h : g.Idle)
    (herr : err ≠ .prisma .uniqueConstraint) :
    Failed err g :=
  ⟨h.staged, h.due, by rw [h.open', decide_eq_false herr]⟩

/-- The read and the guard together. -/
theorem progress_guarded {id : String} {tgt : RideStatus} {f : Ride → Trip α}
    {Q : α → Progress → Prop} (hdue : g.due = none) (hdone : g.done = false)
    (hQ : ∀ row, canTransitionRideStatus row.status tgt = true →
      ProgressSpec op Q E (f (toDomain row)) { g with seen := some (id, row) })
    (hE : ∀ err seen, err ≠ .prisma .uniqueConstraint → E err { g with seen := seen }) :
    ProgressSpec op Q E (do
      let ride ← TripsService.findById id
      TripsService.guardTransition ride.status tgt
      f ride) g := by
  refine Prog.wp_seq (Prog.wp_seq (Prog.wp_seq (progress_query ⟨hdue, hdone⟩ (fun found _ => ?_)
    fun err hr => ?_)))
  · cases found with
    | none => exact hE _ g.seen nofun
    | some row =>
        refine Prog.wp_seq ?_
        unfold TripsService.guardTransition
        split
        next hcan => exact hQ row hcan
        next => exact hE _ _ nofun
  · obtain ⟨row, hrow⟩ := hr
    cases hrow

theorem progress_sync {driverId : String} {status : DriverStatus} {Q : Unit → Progress → Prop}
    (hdue : g.due = some (driverId, status)) (hQ : Q () { g with due := none }) :
    ProgressSpec op Q E (TripsService.syncDriverStatusBestEffort driverId status) g := by
  rw [TripsService.syncDriverStatusBestEffort_eq]
  exact ⟨hdue, fun _ _ => hQ⟩

/-- The sync that the returned row makes due is the one that is sent. -/
theorem progress_syncRideDriver {tgt : RideStatus} {row : RideRow} {status : DriverStatus}
    {Q : Unit → Progress → Prop} (hstatus : syncStatus tgt = some status)
    (hdue : g.due = syncOf tgt row) (hQ : Q () { g with due := none }) :
    ProgressSpec op Q E (TripsService.syncRideDriver (toDomain row) status) g := by
  unfold TripsService.syncRideDriver
  split
  next driverId hd =>
    exact progress_sync (hdue.trans (syncOf_eq_some.mpr ⟨hd, hstatus⟩)) hQ
  next hd =>
    have hnone : g.due = none := by
      rw [hdue, syncOf, show truthy row.driverId = none from hd]
      rfl
    have hg : { g with due := none } = g := by rw [← hnone]
    rw [hg] at hQ
    exact hQ

/-- A statement in a transaction of its own. -/
theorem progress_transact {e : Exec} {Q : Ride × Option Tx → Progress → Prop} (hg : g.Idle)
    (he : op.Transacts e) (hp : g.Permits [e])
    (hQ : ∀ row, Q (toDomain row, none) { g with due := e.sync row, done := true })
    (hE : ∀ err done, E err { g with staged := [], done := done }) :
    ProgressSpec op Q E (TripsRepository.runExec e none) g :=
  Prog.wp_seq (progress_query ⟨hg, he, hp⟩ (fun row _ => hQ row) fun _ _ => hE _ _)

/-- A statement of an open transaction. -/
theorem progress_stage {tx : Tx} {e : Exec} {Q : Ride × Option Tx → Progress → Prop}
    (hpre : op.Allows (.db (.exec tx e)) g)
    (hQ : ∀ row, Answered (.db (.exec tx e)) (.ok row) →
      Q (toDomain row, some { tx with staged := tx.staged ++ [e] })
        { g with staged := tx.staged ++ [e], due := e.sync row })
    (hE : ∀ err, E (.prisma err) (g.afterError err)) :
    ProgressSpec op Q E (TripsRepository.runExec e (some tx)) g :=
  Prog.wp_seq (progress_query hpre hQ fun err _ => hE err)

/-- `runIdempotent` around work that stages the writes of its event. -/
theorem progress_runIdempotent {event : RideEvent} {eventId : Nat}
    {work : Option Tx → Trip (α × Option Tx)} (hg : g.Idle)
    (hop : op.event = some (event, eventId))
    (hwork : ProgressSpec op
      (fun r g => g.due = none ∧ g.done = false ∧ g.Permits event.writes ∧
        ∃ tx, r.2 = some tx ∧ tx.key = ⟨eventId, consumerName⟩ ∧ g.staged = tx.staged ∧
          tx.staged = event.writes)
      Failed (work (some ⟨⟨eventId, consumerName⟩, []⟩)) g) :
    ProgressSpec op (fun _ g => g.due = none ∧ g.done = true) (fun _ g => g.Idle)
      (TripsRepository.runIdempotent eventId consumerName work) g := by
  refine Prog.wp_try (Prog.wp_mono typestateSpec_mono (fun _ _ h => h) (fun err g herr => ?_)
    (E := Failed) ?_)
  · have hdone := herr.done
    split
    · exact ⟨herr.due, hdone⟩
    next hne =>
      exact ⟨herr.staged, herr.due, hdone.trans (decide_eq_false hne)⟩
  · refine Prog.wp_seq (progress_query ⟨hg, event, eventId, hop, rfl⟩ (fun _ _ => ?_)
      fun err _ => failed_afterError hg.due hg.open')
    refine Prog.wp_seq (Prog.wp_mono typestateSpec_mono ?_ (fun _ _ h => h) hwork)
    rintro ⟨result, tx⟩ g' ⟨hdue, hdone, hpermits, tx, rfl, hkey, hstaged, hwrites⟩
    exact Prog.wp_seq (progress_query
      ⟨hdue, hdone, hstaged, event, eventId, hop, hkey, hwrites, hpermits⟩
      (fun _ _ => ⟨hdue, rfl⟩) fun err _ => failed_afterError hdue hdone)

/-! ## Event handlers -/

/-- The state after reading the row that the lone transition of an event needs. -/
theorem permits_of_seen {id : String} {row : RideRow} {tgt : RideStatus}
    {options : TransitionOptions} (hseen : g.seen = some (id, row))
    (hcan : canTransitionRideStatus row.status tgt = true) :
    g.Permits [.transition id tgt options] := by
  rintro id' tgt' options' ⟨⟩
  exact ⟨row, hseen, hcan⟩

/-- `cancel` in the transaction of an event. -/
theorem progress_cancel_staged {event : RideEvent} {eventId : Nat} {id : String} {reason : JsText}
    (hg : g.Idle) (hop : op.event = some (event, eventId))
    (hwrites : event.writes = [cancelExec id reason]) :
    ProgressSpec op
      (fun r g => g.due = none ∧ g.done = false ∧ g.Permits event.writes ∧
        ∃ tx, r.2 = some tx ∧ tx.key = ⟨eventId, consumerName⟩ ∧ g.staged = tx.staged ∧
          tx.staged = event.writes)
      Failed (TripsService.cancel id reason (some ⟨⟨eventId, consumerName⟩, []⟩)) g := by
  refine progress_guarded hg.due hg.open' (fun row hcan => ?_) fun err seen herr =>
    Progress.Idle.failed ⟨hg.staged, hg.due, hg.open'⟩ herr
  have hpermits : Progress.Permits { g with seen := some (id, row) } event.writes :=
    hwrites ▸ permits_of_seen rfl hcan
  have hpre : [] ++ [cancelExec id reason] <+: event.writes := hwrites ▸ List.prefix_refl _
  refine Prog.wp_seq (progress_stage
    ⟨hg.due, hg.open', hg.staged, event, eventId, hop, rfl, hpre, hpermits⟩
    (fun row' _ => ?_) fun err => failed_afterError hg.due hg.open')
  refine Prog.wp_seq (progress_syncRideDriver rfl rfl ?_)
  exact ⟨rfl, hg.open', hpermits, _, rfl, rfl, rfl, hwrites.symm⟩

/-- The handler of an event deals with it or fails with nothing done. -/
theorem progress_handle {event : RideEvent} {eventId : Nat} (hg : g.Idle)
    (hop : op.event = some (event, eventId)) :
    ProgressSpec op (fun _ g => g.due = none ∧ g.done = true) (fun _ g => g.Idle)
      (event.handle eventId) g := by
  cases event with
  | requested input =>
      refine Prog.wp_seq (progress_runIdempotent hg hop ?_)
      have hpermits (g : Progress) : g.Permits (RideEvent.requested input).writes := by
        intro id tgt options h
        cases h
      refine Prog.wp_seq (progress_stage
        ⟨hg.due, hg.open', hg.staged, _, _, hop, rfl, ⟨_, rfl⟩, hpermits _⟩
        (fun row hrow => ?_) fun err => failed_afterError hg.due hg.open')
      change row.id = input.id at hrow
      change ProgressSpec op _ _ (TripsRepository.runExec (.transition row.id .matching {}) _) _
      rw [hrow]
      refine progress_stage ⟨rfl, hg.open', rfl, _, _, hop, rfl, List.prefix_refl _, hpermits _⟩
        (fun row' _ => ?_) fun err => failed_afterError rfl hg.open'
      exact ⟨syncOf_eq_none rfl row', hg.open', hpermits _, _, rfl, rfl, rfl, rfl⟩
  | cancelled rideId reason =>
      exact Prog.wp_seq (progress_runIdempotent hg hop (progress_cancel_staged hg hop rfl))
  | rejected rideId =>
      exact Prog.wp_seq (progress_runIdempotent hg hop (progress_cancel_staged hg hop rfl))
  | reserved rideId driverId =>
      refine progress_guarded hg.due hg.open' (fun row hcan => ?_) fun err seen _ =>
        ⟨hg.staged, hg.due, hg.open'⟩
      have hpermits : Progress.Permits { g with seen := some (rideId, row) }
          (RideEvent.reserved rideId driverId).writes := permits_of_seen rfl hcan
      refine Prog.wp_seq (progress_runIdempotent ⟨hg.staged, hg.due, hg.open'⟩ hop ?_)
      refine progress_stage
        ⟨hg.due, hg.open', hg.staged, _, _, hop, rfl, List.prefix_refl _, hpermits⟩
        (fun row' _ => ?_) fun err => failed_afterError hg.due hg.open'
      exact ⟨syncOf_eq_none rfl row', hg.open', hpermits, _, rfl, rfl, rfl, rfl⟩

/-! ## The operations -/

/-- An HTTP operation that changes a ride: read, guard, write and sync. -/
theorem progress_cancel {id : String} {reason : JsText} (hg : g.Idle)
    (he : op.Transacts (cancelExec id reason)) :
    ProgressSpec op (fun _ g => g.due = none) (fun _ g => g.due = none)
      (TripsService.cancel id reason none) g := by
  refine progress_guarded hg.due hg.open' (fun row hcan => ?_) fun _ _ _ => hg.due
  refine Prog.wp_seq (progress_transact ⟨hg.staged, hg.due, hg.open'⟩ he
    (permits_of_seen rfl hcan) (fun row' => ?_) fun _ _ => hg.due)
  exact Prog.wp_seq (progress_syncRideDriver rfl rfl rfl)

theorem progress_accept {id : String} {draw : Fin 10000} (hg : g.Idle)
    (he : op.Transacts (.transition id .driverArriving { otp := some (padOtp draw) })) :
    ProgressSpec op (fun _ g => g.due = none) (fun _ g => g.due = none)
      (TripsService.accept id draw) g := by
  refine progress_guarded hg.due hg.open' (fun row hcan => ?_) fun _ _ _ => hg.due
  exact Prog.wp_seq (progress_transact ⟨hg.staged, hg.due, hg.open'⟩ he
    (permits_of_seen rfl hcan) (fun row' => syncOf_eq_none rfl row') fun _ _ => hg.due)

theorem progress_markDriverArrived {id : String} (hg : g.Idle)
    (he : op.Transacts (.transition id .driverArrived {})) :
    ProgressSpec op (fun _ g => g.due = none) (fun _ g => g.due = none)
      (TripsService.markDriverArrived id) g := by
  refine progress_guarded hg.due hg.open' (fun row hcan => ?_) fun _ _ _ => hg.due
  exact Prog.wp_seq (progress_transact ⟨hg.staged, hg.due, hg.open'⟩ he
    (permits_of_seen rfl hcan) (fun row' => syncOf_eq_none rfl row') fun _ _ => hg.due)

theorem progress_guardCaller {ride : Ride} {callerDriverId : Option String}
    {Q : Unit → Progress → Prop} (hQ : Q () g) (hE : ∀ err, E err g) :
    ProgressSpec op Q E (TripsService.guardCaller ride callerDriverId) g := by
  unfold TripsService.guardCaller
  split
  · split
    · exact hE _
    · exact hQ
  · exact hQ

theorem progress_guardOtp {storedOtp : Option String} {otp : String}
    {Q : Unit → Progress → Prop} (hQ : Q () g) (hE : ∀ err, E err g) :
    ProgressSpec op Q E (TripsService.guardOtp storedOtp otp) g := by
  unfold TripsService.guardOtp
  split
  · split
    · exact hE _
    · exact hQ
  · exact hE _

theorem progress_start {id otp : String} {callerDriverId : Option String} (hg : g.Idle)
    (he : op.Transacts (.transition id .inProgress { clearOtp := true })) :
    ProgressSpec op (fun _ g => g.due = none) (fun _ g => g.due = none)
      (TripsService.start id otp callerDriverId) g := by
  refine progress_guarded hg.due hg.open' (fun row hcan => ?_) fun _ _ _ => hg.due
  refine Prog.wp_seq (progress_guardCaller ?_ fun _ => hg.due)
  refine Prog.wp_seq (progress_query ⟨hg.due, hg.open'⟩ (fun storedOtp _ => ?_)
    fun _ _ => hg.due)
  refine Prog.wp_seq (progress_guardOtp ?_ fun _ => hg.due)
  refine Prog.wp_seq (progress_transact ⟨hg.staged, hg.due, hg.open'⟩ he
    (permits_of_seen rfl hcan) (fun row' => ?_) fun _ _ => hg.due)
  exact Prog.wp_seq (progress_syncRideDriver rfl rfl rfl)

theorem progress_complete {haversineKm : GeoPoint → GeoPoint → Option Rat} {id : String}
    (hg : g.Idle)
    (he : ∀ fare distanceKm, op.Transacts
      (.transition id .completed { fare := some fare, distanceKm := some distanceKm })) :
    ProgressSpec op (fun _ g => g.due = none) (fun _ g => g.due = none)
      (TripsService.complete haversineKm id) g := by
  refine progress_guarded hg.due hg.open' (fun row hcan => ?_) fun _ _ _ => hg.due
  refine Prog.wp_seq (progress_transact ⟨hg.staged, hg.due, hg.open'⟩ (he _ _)
    (permits_of_seen rfl hcan) (fun row' => ?_) fun _ _ => hg.due)
  exact Prog.wp_seq (progress_syncRideDriver rfl rfl rfl)

/-- A read of the database. -/
theorem progress_read {c : DbCmd} {f : DbValue c → α} (hc : op.Allows (.db c) g)
    (hdue : g.due = none) (hsame : ∀ v, (g.afterValue c v).due = none) :
    ProgressSpec op (fun _ g => g.due = none) (fun _ g => g.due = none)
      (query c >>= fun v => .ret (f v)) g :=
  Prog.wp_seq (progress_query hc (fun v _ => hsame v) fun _ _ => hdue)

theorem progress_findById {id : String} {f : Ride → Trip α} (hdue : g.due = none)
    (hdone : g.done = false)
    (hf : ∀ ride g, g.due = none → g.done = false →
      ProgressSpec op (fun _ g => g.due = none) (fun _ g => g.due = none) (f ride) g) :
    ProgressSpec op (fun _ g => g.due = none) (fun _ g => g.due = none)
      (TripsService.findById id >>= f) g := by
  refine Prog.wp_seq (Prog.wp_seq (Prog.wp_seq (progress_query ⟨hdue, hdone⟩
    (fun found _ => ?_) fun _ _ => hdue)))
  cases found with
  | none => exact hdue
  | some row => exact hf (toDomain row) _ hdue hdone

theorem progress_getOtpForRider {id : String} {callerRiderId : Option String}
    (hdue : g.due = none) (hdone : g.done = false) :
    ProgressSpec op (fun _ g => g.due = none) (fun _ g => g.due = none)
      (TripsService.getOtpForRider id callerRiderId) g := by
  have hget (g : Progress) (hdue : g.due = none) (hdone : g.done = false) :
      ProgressSpec op (fun _ g => g.due = none) (fun _ g => g.due = none)
        (TripsRepository.getOtp id) g :=
    progress_query ⟨hdue, hdone⟩ (fun _ _ => hdue) fun _ _ => hdue
  refine progress_findById hdue hdone fun ride g hdue hdone => ?_
  split
  · split
    · exact hdue
    · exact hget g hdue hdone
  · exact hget g hdue hdone

/-- A delivered envelope is dealt with: the handler succeeds, or the event is
known to be handled, or it is parked. -/
theorem progress_consume {left n : Nat} {envelope : EventEnvelope} (hg : g.Idle)
    (hop : op = .consume n envelope) :
    ProgressSpec op
      (fun _ g => g.due = none ∧ ((RideEvent.ofEnvelope envelope).isSome → g.done = true))
      (fun _ _ => False) (RideEventsConsumer.consume (left + 1) envelope) g := by
  refine EventConsumer.deliver_wp (I := Progress.Idle) typestateSpec_mono (fun g hg => ?_)
    (fun fields g hfields hg => ?_) hg left
  · cases h : RideEvent.ofEnvelope envelope with
    | some event =>
        rw [RideEvent.handler_of_ofEnvelope h]
        have hevent : op.event = some (event, envelope.eventId) := by
          rw [hop, Op.event, h]
          rfl
        exact Prog.wp_mono typestateSpec_mono (fun _ _ hQ => ⟨hQ.1, fun _ => hQ.2⟩)
          (fun _ _ hE => hE) (progress_handle hg hevent)
    | none =>
        rcases RideEvent.handler_of_ofEnvelope_none h with h | h
        · rw [h]
          exact hg
        · rw [h]
          exact ⟨hg.due, fun h => absurd h Bool.false_ne_true⟩
  · refine ⟨⟨hg, n, envelope, hop, hfields⟩, fun r hr => ?_⟩
    cases hr
    exact ⟨hg.due, fun _ => rfl⟩

/-- Every operation issues only what it may and finishes what it owes. -/
theorem program_progress (haversineKm : GeoPoint → GeoPoint → Option Rat) (op : Op) :
    ProgressSpec op (fun _ => op.Finished) (fun _ => op.Finished)
      (TripsService.program haversineKm op) .start := by
  have hg : Progress.start.Idle := ⟨rfl, rfl, rfl⟩
  have hend {β : Type} {p : Trip β} {f : β → Response} (hop : op.IsConsume = false)
      (hp : ProgressSpec op (fun _ g => g.due = none) (fun _ g => g.due = none) p .start) :
      ProgressSpec op (fun _ => op.Finished) (fun _ => op.Finished)
        (p >>= fun b => .ret (f b)) .start :=
    Prog.wp_seq (Prog.wp_mono typestateSpec_mono (fun _ _ => finished_of_due hop)
      (fun _ _ => finished_of_due hop) hp)
  have hhandle {event : RideEvent} {eventId : Nat} (hop : op.event = some (event, eventId)) :
      ProgressSpec op (fun _ g => g.due = none) (fun _ g => g.due = none)
        (event.handle eventId) .start :=
    Prog.wp_mono typestateSpec_mono (fun _ _ h => h.1) (fun _ _ h => h.due) (progress_handle hg hop)
  cases op with
  | findActiveForDriver driverId =>
      exact hend rfl (progress_read ⟨rfl, rfl⟩ rfl fun _ => rfl)
  | findHistoryForRider riderId limit =>
      exact hend rfl (progress_read ⟨rfl, rfl⟩ rfl fun _ => rfl)
  | findHistoryForDriver driverId limit =>
      exact hend rfl (progress_read ⟨rfl, rfl⟩ rfl fun _ => rfl)
  | findOne id =>
      exact Prog.wp_mono typestateSpec_mono (fun _ _ => finished_of_due rfl)
        (fun _ _ => finished_of_due rfl) (progress_findById rfl rfl fun _ _ h _ => h)
  | accept id draw => exact hend rfl (progress_accept hg rfl)
  | decline id =>
      exact hend rfl (Prog.wp_seq (progress_cancel hg rfl))
  | driverArrived id => exact hend rfl (progress_markDriverArrived hg rfl)
  | start id otp callerDriverId => exact hend rfl (progress_start hg rfl)
  | getOtp id callerRiderId => exact hend rfl (progress_getOtpForRider rfl rfl)
  | complete id => exact hend rfl (progress_complete hg fun fare distanceKm => ⟨_, _, rfl⟩)
  | cancel id reason => exact hend rfl (progress_cancel hg rfl)
  | handleRideRequested input eventId => exact hend rfl (hhandle rfl)
  | handleRideCancelled rideId reason eventId => exact hend rfl (hhandle rfl)
  | handleDriverReserved rideId driverId eventId => exact hend rfl (hhandle rfl)
  | handleDriverRejected rideId eventId => exact hend rfl (hhandle rfl)
  | consume maxAttempts envelope =>
      cases maxAttempts with
      | zero =>
          refine ⟨rfl, fun n e h => ?_⟩
          injection h with h
          cases h
      | succ left =>
          refine Prog.wp_seq (Prog.wp_mono typestateSpec_mono (fun _ g hQ => ?_)
            (fun _ _ hE => hE.elim) (progress_consume hg rfl))
          refine ⟨hQ.1, fun n e h hsome => ?_⟩
          injection h with _ h
          subst h
          exact hQ.2 hsome

end Specs

end TripService

end RydTrip
