import Mathlib.Data.List.Induction
import RydTrip.TripService.Machine

/-!
# One message at a time

The consumer alone: envelopes are consumed one after the other, and the database
answers every call.  What an event does then depends on the status and the
driver of its ride only.  `RideView` keeps these two, `RideEvent.next` is the
effect of an event on them, and `deliverAll_view` says that the consumer
refines it.
-/

namespace RydTrip

namespace TripService

open Process

/-! ## The abstract ride -/

/-- What the handlers look at and change of a ride. -/
structure RideView where
  status : RideStatus
  driverId : Option String
  deriving DecidableEq, Repr

def RideRow.view (row : RideRow) : RideView := ⟨row.status, row.driverId⟩

def TripDb.view (db : TripDb) (id : String) : Option RideView := (db.findRide id).map (·.view)

def RideEvent.rideId : RideEvent → String
  | .requested input => input.id
  | .cancelled rideId _ => rideId
  | .reserved rideId _ => rideId
  | .rejected rideId => rideId

/-- The ride after an event that is applied, and `none` for one that is not. -/
def RideEvent.next : RideEvent → Option RideView → Option RideView
  | .requested _, none => some ⟨.matching, none⟩
  | .requested _, some _ => none
  | .reserved _ driverId, some ride =>
      if canTransitionRideStatus ride.status .matched then
        some ⟨.matched, (truthy driverId).or ride.driverId⟩
      else none
  | .cancelled _ reason, some ride =>
      if canTransitionRideStatus ride.status .cancelled ∧ reason ≠ .other then
        some ⟨.cancelled, ride.driverId⟩
      else none
  | .rejected _, some ride =>
      if canTransitionRideStatus ride.status .cancelled then some ⟨.cancelled, ride.driverId⟩
      else none
  | _, none => none

/-! ## Statements that succeed -/

theorem createRide_success {db : TripDb} {input : CreateRideInput}
    (h : db.findRide input.id = none) :
    ∃ row db', (Exec.create input).apply db = .ok (row, db') := by
  simp only [Exec.apply, TripDb.createRide, h]
  exact ⟨_, _, rfl⟩

theorem transition_success {db : TripDb} {id : String} {tgt : RideStatus}
    (options : TransitionOptions) {row : RideRow} {reason : Option (Option String)}
    (hrow : db.findRide id = some row)
    (hreason : storedReason options.cancellationReason = .ok reason) :
    ∃ row' db', (Exec.transition id tgt options).apply db = .ok (row', db') := by
  simp only [Exec.apply, TripDb.updateRide, hrow, hreason]
  exact ⟨_, _, rfl⟩

theorem createProcessedEvent_success {db : TripDb} {key : ProcessedEventRow}
    (h : key ∉ db.processedEvents) : ∃ db', db.createProcessedEvent key = .ok db' ∧
      (∀ id, db'.findRide id = db.findRide id) ∧
      db'.processedEvents = db.processedEvents ++ [key] := by
  have hp : db.processed key = false := by simp [TripDb.processed, h]
  refine ⟨{ db with processedEvents := db.processedEvents ++ [key] }, ?_, fun _ => rfl, rfl⟩
  simp [TripDb.createProcessedEvent, hp]

/-- The transaction of one transition commits. -/
theorem commit_transition {db : TripDb} {key : ProcessedEventRow} {id : String} {tgt : RideStatus}
    (options : TransitionOptions) {row : RideRow} {reason : Option (Option String)}
    (hkey : key ∉ db.processedEvents) (hrow : db.findRide id = some row)
    (hreason : storedReason options.cancellationReason = .ok reason) :
    ∃ db', Tx.commit ⟨key, [.transition id tgt options]⟩ db = .ok db' ∧
      db'.processedEvents = db.processedEvents ++ [key] ∧
      ∀ id', db'.view id' =
        if id' = id then some ⟨tgt, (truthy options.driverId).or row.driverId⟩
        else db.view id' := by
  obtain ⟨db₁, hpe, hfind₁, hproc⟩ := createProcessedEvent_success hkey
  obtain ⟨row', db₂, happ⟩ := transition_success options ((hfind₁ id).trans hrow) hreason
  obtain ⟨row₁, reason', hrow₁, -, rfl, hfind₂, -, hpe₂, -⟩ := Exec.transition_ok happ
  rw [hfind₁, hrow] at hrow₁
  cases hrow₁
  refine ⟨db₂, Tx.commit_ok.mpr ⟨db₁, hpe, applyAll_cons.mpr ⟨_, db₂, happ, rfl⟩⟩,
    hpe₂.trans hproc, fun id' => ?_⟩
  unfold TripDb.view
  rw [hfind₂]
  by_cases hid : id' = id
  · rw [if_pos hid, if_pos hid]
    rfl
  · rw [if_neg hid, if_neg hid, hfind₁]

/-- The transaction of a new ride commits. -/
theorem commit_create {db : TripDb} {key : ProcessedEventRow} {input : CreateRideInput}
    (hkey : key ∉ db.processedEvents) (hnone : db.findRide input.id = none) :
    ∃ db', Tx.commit ⟨key, [.create input, .transition input.id .matching {}]⟩ db = .ok db' ∧
      db'.processedEvents = db.processedEvents ++ [key] ∧
      ∀ id', db'.view id' = if id' = input.id then some ⟨.matching, none⟩ else db.view id' := by
  obtain ⟨db₁, hpe, hfind₁, hproc⟩ := createProcessedEvent_success hkey
  obtain ⟨row, db₂, hcreate⟩ := createRide_success ((hfind₁ input.id).trans hnone)
  obtain ⟨-, -, -, hdriver, hfind₂, -, hpe₂, -⟩ := Exec.create_ok hcreate
  have hrow : db₂.findRide input.id = some row := by rw [hfind₂, if_pos rfl]
  obtain ⟨row', db₃, htrans⟩ := transition_success {} hrow rfl
  obtain ⟨row₁, reason, hrow₁, -, rfl, hfind₃, -, hpe₃, -⟩ := Exec.transition_ok htrans
  rw [hrow] at hrow₁
  cases hrow₁
  refine ⟨db₃, Tx.commit_ok.mpr ⟨db₁, hpe, applyAll_cons.mpr
    ⟨_, db₂, hcreate, applyAll_cons.mpr ⟨_, db₃, htrans, rfl⟩⟩⟩,
    (hpe₃.trans hpe₂).trans hproc, fun id' => ?_⟩
  unfold TripDb.view
  rw [hfind₃]
  by_cases hid : id' = input.id
  · rw [if_pos hid, if_pos hid]
    have hd : (RideUpdate.apply (TransitionOptions.data {} .matching reason) db₂.now row).driverId =
        none := by
      simp [RideUpdate.apply, TransitionOptions.data, hdriver]
    exact congrArg some (congrArg (RideView.mk .matching) hd)
  · rw [if_neg hid, if_neg hid, hfind₂, if_neg hid, hfind₁]

/-! ## Handlers alone -/

/-- Every command is answered; `reply` is how driver-service answers. -/
def answer (reply : PatchReply) (c : Cmd) (w : TripHost) : Reply c × TripHost :=
  w.exec { patchReply := reply } c

section Alone

variable {reply : PatchReply} {w : TripHost}

theorem eval_query_ok {c : DbCmd} {v : DbValue c} {d : TripDb} (h : w.db.exec c = .ok (v, d)) :
    (query c).eval (answer reply) w = (.ok v, { w with db := d }) := by
  simp [query, answer, TripHost.exec, h, settle]

theorem eval_query_error {c : DbCmd} {err : PrismaError} (h : w.db.exec c = .error err) :
    (query c).eval (answer reply) w = (.error (.prisma err), w) := by
  simp [query, answer, TripHost.exec, h, settle]

theorem eval_findById_none {id : String} (h : w.db.findRide id = none) :
    (TripsService.findById id).eval (answer reply) w =
      (.error (.notFound s!"Ride {id} not found"), w) := by
  have hq : (query (.findRide id)).eval (answer reply) w = (.ok none, w) := by
    rw [eval_query_ok (v := none) (d := w.db) (by simp [TripDb.exec, h])]
  simp [TripsService.findById, TripsRepository.findById, Prog.eval_bind, hq]

theorem eval_findById_some {id : String} {row : RideRow} (h : w.db.findRide id = some row) :
    (TripsService.findById id).eval (answer reply) w = (.ok (toDomain row), w) := by
  have hq : (query (.findRide id)).eval (answer reply) w = (.ok (some row), w) := by
    rw [eval_query_ok (v := some row) (d := w.db) (by simp [TripDb.exec, h])]
  simp [TripsService.findById, TripsRepository.findById, Prog.eval_bind, hq]

theorem eval_syncRideDriver (reply : PatchReply) (w : TripHost) (ride : Ride)
    (status : DriverStatus) :
    ∃ w', (TripsService.syncRideDriver ride status).eval (answer reply) w = (.ok (), w') ∧
      w'.db = w.db ∧ w'.parked = w.parked := by
  unfold TripsService.syncRideDriver
  split
  · rw [TripsService.syncDriverStatusBestEffort_eq]
    exact ⟨_, rfl, rfl, rfl⟩
  · exact ⟨w, rfl, rfl, rfl⟩

theorem eval_stage {tx : Tx} {e : Exec} {row : RideRow} (h : tx.exec e w.db = .ok row) :
    (TripsRepository.runExec e (some tx)).eval (answer reply) w =
      (.ok (toDomain row, some { tx with staged := tx.staged ++ [e] }), w) := by
  have hq : (query (.exec tx e)).eval (answer reply) w = (.ok row, w) := by
    rw [eval_query_ok (v := row) (d := w.db) (by simp [TripDb.exec, h, Except.map])]
  simp [TripsRepository.runExec, Prog.eval_bind, hq]

/-- A transaction whose work succeeds is committed. -/
theorem eval_runIdempotent_ok {α : Type} {eventId : Nat} {name : String} {r : α} {tx : Tx}
    {u : TripHost} {db' : TripDb} {f : Option Tx → Trip (α × Option Tx)}
    (hkey : ⟨eventId, name⟩ ∉ w.db.processedEvents)
    (hwork : (f (some ⟨⟨eventId, name⟩, []⟩)).eval (answer reply) w =
      (.ok (r, some tx), u))
    (hcommit : tx.commit u.db = .ok db') :
    (TripsRepository.runIdempotent eventId name f).eval (answer reply) w =
      (.ok (.processed r), { u with db := db' }) := by
  have hbegin : (query (.begin ⟨eventId, name⟩)).eval (answer reply) w = (.ok (), w) := by
    rw [eval_query_ok (v := ())]
    simp [TripDb.exec, TripDb.beginProcessed, TripDb.processed, hkey, Except.map]
  have hend : (query (.commit tx)).eval (answer reply) u = (.ok (), { u with db := db' }) := by
    rw [eval_query_ok (v := ())]
    simp [TripDb.exec, hcommit, Except.map]
  simp [TripsRepository.runIdempotent, Prog.eval_tryCatch, Prog.eval_bind, hbegin, hwork, hend]

/-- Work that throws anything but P2002 makes the delivery throw. -/
theorem eval_runIdempotent_error {α : Type} {eventId : Nat} {name : String} {err : TripError}
    {w' : TripHost} {work : Option Tx → Trip (α × Option Tx)}
    (hkey : ⟨eventId, name⟩ ∉ w.db.processedEvents)
    (hwork : (work (some ⟨⟨eventId, name⟩, []⟩)).eval (answer reply) w = (.error err, w')) :
    (TripsRepository.runIdempotent eventId name work).eval (answer reply) w =
      if err = .prisma .uniqueConstraint then (.ok .duplicate, w') else (.error err, w') := by
  have hbegin : (query (.begin ⟨eventId, name⟩)).eval (answer reply) w = (.ok (), w) := by
    rw [eval_query_ok (v := ())]
    simp [TripDb.exec, TripDb.beginProcessed, TripDb.processed, hkey, Except.map]
  simp only [TripsRepository.runIdempotent, Prog.tryCatchThe_eq, Prog.eval_tryCatch,
    Prog.eval_bind, hbegin, hwork]
  split
  · rfl
  · next h => rw [if_neg (fun he => h he)]; rfl

theorem eval_guardTransition {src tgt : RideStatus} :
    (TripsService.guardTransition src tgt).eval (answer reply) w =
      if canTransitionRideStatus src tgt then (.ok (), w)
      else (.error (.conflict (invalidRideTransitionMessage src tgt)), w) := by
  unfold TripsService.guardTransition
  split <;> rfl

/-- A cancellation that goes through, inside a transaction. -/
theorem eval_cancel_ok {id : String} {reason : JsText} (tx : Tx) {row : RideRow}
    (htx : tx.staged = []) (hrow : w.db.findRide id = some row)
    (hcan : canTransitionRideStatus row.status .cancelled = true)
    {stored : Option (Option String)}
    (hreason : storedReason (TripsService.cancelReason reason) = .ok stored) :
    ∃ ride w', (TripsService.cancel id reason (some tx)).eval (answer reply) w =
        (.ok (ride, some { tx with staged := [.transition id .cancelled
          { cancellationReason := TripsService.cancelReason reason }] }), w') ∧
      w'.db = w.db ∧ w'.parked = w.parked := by
  obtain ⟨row', db', happ⟩ := transition_success
    { cancellationReason := TripsService.cancelReason reason } hrow hreason
  have hexec : tx.exec (.transition id .cancelled
      { cancellationReason := TripsService.cancelReason reason }) w.db = .ok row' :=
    Tx.exec_ok.mpr ⟨w.db, db', by rw [htx]; rfl, happ⟩
  obtain ⟨w', hsync, hdb, hparked⟩ := eval_syncRideDriver reply w (toDomain row')
    .available
  refine ⟨toDomain row', w', ?_, hdb, hparked⟩
  have hst : (toDomain row).status = row.status := rfl
  simp [TripsService.cancel, TripsRepository.transition, Prog.eval_bind, eval_findById_some hrow,
    eval_guardTransition, hst, hcan, eval_stage hexec, hsync, htx]

/-- A cancellation that does not go through changes nothing. -/
theorem eval_cancel_error {id : String} {reason : JsText} (tx : Tx) (htx : tx.staged = [])
    (h : ∀ row, w.db.findRide id = some row →
      canTransitionRideStatus row.status .cancelled = true → reason = .other) :
    ∃ err, err ≠ .prisma .uniqueConstraint ∧
      (TripsService.cancel id reason (some tx)).eval (answer reply) w = (.error err, w) := by
  cases hrow : w.db.findRide id with
  | none =>
      refine ⟨_, ?_, by simp [TripsService.cancel, Prog.eval_bind, eval_findById_none hrow]; rfl⟩
      simp
  | some row =>
      have hst : (toDomain row).status = row.status := rfl
      by_cases hcan : canTransitionRideStatus row.status .cancelled = true
      · have hexec : tx.exec (.transition id .cancelled { cancellationReason := .other }) w.db =
            .error (.other "Argument cancellationReason: Invalid value provided.") := by
          simp only [Tx.exec, htx, applyAll]
          rfl
        have hstage : (TripsRepository.runExec (.transition id .cancelled
            { cancellationReason := .other }) (some tx)).eval (answer reply) w =
            (.error (.prisma (.other "Argument cancellationReason: Invalid value provided.")), w)
          := by
          have hq : (query (.exec tx (.transition id .cancelled
              { cancellationReason := .other }))).eval (answer reply) w = _ :=
            eval_query_error (by simp only [TripDb.exec, hexec]; rfl)
          simp [TripsRepository.runExec, Prog.eval_bind, hq]
        refine
          ⟨.prisma (.other "Argument cancellationReason: Invalid value provided."), by simp, ?_⟩
        rw [h row hrow hcan]
        simp [TripsService.cancel, TripsRepository.transition, TripsService.cancelReason,
          Prog.eval_bind, eval_findById_some hrow, eval_guardTransition, hst, hcan, hstage]
      · refine ⟨.conflict (invalidRideTransitionMessage row.status .cancelled), by simp, ?_⟩
        simp [TripsService.cancel, Prog.eval_bind, eval_findById_some hrow, eval_guardTransition,
          hst, hcan]

/-! ## An event alone -/

/-- The event has been applied: its ride looks like `ride`, and the event is on
record. -/
structure Applied (event : RideEvent) (eventId : Nat) (ride : RideView) (w w' : TripHost) :
    Prop where
  view : ∀ id, w'.db.view id = if id = event.rideId then some ride else w.db.view id
  processed : w'.db.processedEvents = w.db.processedEvents ++ [⟨eventId, consumerName⟩]
  parked : w'.parked = w.parked

theorem view_eq_some {db : TripDb} {id : String} {ride : RideView} (h : db.view id = some ride) :
    ∃ row, db.findRide id = some row ∧ row.status = ride.status ∧ row.driverId = ride.driverId := by
  obtain ⟨row, hrow, rfl⟩ := Option.map_eq_some_iff.mp h
  exact ⟨row, hrow, rfl, rfl⟩

theorem view_eq_none {db : TripDb} {id : String} (h : db.view id = none) :
    db.findRide id = none := Option.map_eq_none_iff.mp h

theorem handle_requested {input : CreateRideInput} {eventId : Nat}
    (hkey : ⟨eventId, consumerName⟩ ∉ w.db.processedEvents)
    (hnone : w.db.findRide input.id = none) :
    ∃ w', (RideEvent.handle eventId (.requested input)).eval (answer reply) w = (.ok (), w') ∧
      Applied (.requested input) eventId ⟨.matching, none⟩ w w' := by
  obtain ⟨row, db₁, hcreate⟩ := createRide_success hnone
  obtain ⟨-, hid, -, -, hfind, -⟩ := Exec.create_ok hcreate
  have hrow : db₁.findRide input.id = some row := by rw [hfind, if_pos rfl]
  obtain ⟨row', db₂, htrans⟩ := transition_success {} hrow rfl
  obtain ⟨db', hcommit, hproc, hview⟩ := commit_create hkey hnone
  have h₁ : (TripsRepository.runExec (.create input) (some ⟨⟨eventId, consumerName⟩, []⟩)).eval
      (answer reply) w = _ := eval_stage
    (Tx.exec_ok.mpr ⟨w.db, db₁, rfl, hcreate⟩)
  have h₂ : (TripsRepository.runExec (.transition input.id .matching {})
      (some ⟨⟨eventId, consumerName⟩, [.create input]⟩)).eval (answer reply) w = _ := eval_stage
    (Tx.exec_ok.mpr ⟨db₁, db₂, applyAll_cons.mpr ⟨row, db₁, hcreate, rfl⟩, htrans⟩)
  have hdom : (toDomain row).id = input.id := hid
  refine ⟨{ w with db := db' }, ?_, hview, hproc, rfl⟩
  rw [RideEvent.handle, TripsService.handleRideRequested, Prog.eval_bind,
    eval_runIdempotent_ok (r := toDomain row') (u := w) hkey ?_ hcommit]
  · rfl
  · simp only [Prog.eval_bind, TripsRepository.create, h₁]
    simp only [TripsRepository.transition, hdom]
    exact h₂

/-- A second request for the ride is taken for a duplicate. -/
theorem handle_requested_again {input : CreateRideInput} {eventId : Nat} {row : RideRow}
    (hkey : ⟨eventId, consumerName⟩ ∉ w.db.processedEvents)
    (hrow : w.db.findRide input.id = some row) :
    (RideEvent.handle eventId (.requested input)).eval (answer reply) w = (.ok (), w) := by
  have hexec : w.db.exec (.exec ⟨⟨eventId, consumerName⟩, []⟩ (.create input)) =
      .error .uniqueConstraint := by
    simp [TripDb.exec, Tx.exec, applyAll, Exec.apply, TripDb.createRide, hrow, bind, Except.bind,
      Except.map]
  have hcreate : (TripsRepository.create input (some ⟨⟨eventId, consumerName⟩, []⟩)).eval
      (answer reply) w = (.error (.prisma .uniqueConstraint), w) := by
    simp [TripsRepository.create, TripsRepository.runExec, Prog.eval_bind,
      eval_query_error hexec]
  simp only [RideEvent.handle, TripsService.handleRideRequested, Prog.eval_bind]
  rw [eval_runIdempotent_error hkey ?_, if_pos rfl]
  · rfl
  · rw [Prog.eval_bind, hcreate]

/-- The two cancelling handlers, when the ride can be cancelled. -/
theorem runIdempotent_cancel_ok (reply : PatchReply) (id : String) (reason : JsText)
    {eventId : Nat} {row : RideRow}
    {stored : Option (Option String)} (hkey : ⟨eventId, consumerName⟩ ∉ w.db.processedEvents)
    (hrow : w.db.findRide id = some row)
    (hcan : canTransitionRideStatus row.status .cancelled = true)
    (hreason : storedReason (TripsService.cancelReason reason) = .ok stored) :
    ∃ ride w', (TripsRepository.runIdempotent eventId consumerName fun tx =>
        TripsService.cancel id reason tx).eval (answer reply) w = (.ok (.processed ride), w') ∧
      (∀ id', w'.db.view id' =
        if id' = id then some ⟨.cancelled, row.driverId⟩ else w.db.view id') ∧
      w'.db.processedEvents = w.db.processedEvents ++ [⟨eventId, consumerName⟩] ∧
      w'.parked = w.parked := by
  obtain ⟨ride, w₁, hwork, hdb, hparked⟩ := eval_cancel_ok (w := w)
    ⟨⟨eventId, consumerName⟩, []⟩ rfl hrow hcan hreason
  obtain ⟨db', hcommit, hproc, hview⟩ := commit_transition
    { cancellationReason := TripsService.cancelReason reason } hkey hrow hreason
  rw [← hdb] at hcommit
  exact ⟨ride, { w₁ with db := db' }, eval_runIdempotent_ok hkey hwork hcommit, hview, hproc,
    hparked⟩

theorem handle_reserved {rideId driverId : String} {eventId : Nat} {row : RideRow}
    (hkey : ⟨eventId, consumerName⟩ ∉ w.db.processedEvents)
    (hrow : w.db.findRide rideId = some row)
    (hcan : canTransitionRideStatus row.status .matched = true) :
    ∃ w', (RideEvent.handle eventId (.reserved rideId driverId)).eval (answer reply) w =
        (.ok (), w') ∧
      Applied (.reserved rideId driverId) eventId ⟨.matched, (truthy driverId).or row.driverId⟩
        w w' := by
  obtain ⟨row', db₁, htrans⟩ := transition_success { driverId := some driverId } hrow rfl
  have hstage : (TripsRepository.runExec (.transition rideId .matched
      { driverId := some driverId }) (some ⟨⟨eventId, consumerName⟩, []⟩)).eval
      (answer reply) w = _ := eval_stage
    (Tx.exec_ok.mpr ⟨w.db, db₁, rfl, htrans⟩)
  obtain ⟨db', hcommit, hproc, hview⟩ := commit_transition
    { driverId := some driverId } hkey hrow rfl
  have hst : (toDomain row).status = row.status := rfl
  have hrun := eval_runIdempotent_ok (f := fun tx =>
    TripsRepository.transition rideId .matched { driverId := some driverId } tx) hkey hstage hcommit
  refine ⟨{ w with db := db' }, ?_, hview, hproc, rfl⟩
  simp [RideEvent.handle, TripsService.handleDriverReserved, Prog.eval_bind,
    eval_findById_some hrow, eval_guardTransition, hst, hcan, hrun]

theorem storedReason_cancelReason {reason : JsText} (h : reason ≠ .other) :
    ∃ stored, storedReason (TripsService.cancelReason reason) = .ok stored := by
  cases reason with
  | other => exact absurd rfl h
  | _ => exact ⟨_, rfl⟩

/-- An event that its ride admits is applied. -/
theorem handle_applied {event : RideEvent} {eventId : Nat} {ride : RideView}
    (hkey : ⟨eventId, consumerName⟩ ∉ w.db.processedEvents)
    (hnext : event.next (w.db.view event.rideId) = some ride) :
    ∃ w', (event.handle eventId).eval (answer reply) w = (.ok (), w') ∧
      Applied event eventId ride w w' := by
  cases hview : w.db.view event.rideId with
  | none =>
      rw [hview] at hnext
      cases event with
      | requested input =>
          cases hnext
          exact handle_requested hkey (view_eq_none hview)
      | _ => cases hnext
  | some before =>
      obtain ⟨row, hrow, hst, hdriver⟩ := view_eq_some hview
      rw [hview] at hnext
      cases event with
      | requested input => cases hnext
      | reserved rideId driverId =>
          simp only [RideEvent.next, ← hst, ← hdriver] at hnext
          split at hnext
          next hcan =>
            cases hnext
            exact handle_reserved hkey hrow hcan
          next => cases hnext
      | cancelled rideId reason =>
          simp only [RideEvent.next, ← hst, ← hdriver] at hnext
          split at hnext
          next hcan =>
            cases hnext
            obtain ⟨stored, hreason⟩ := storedReason_cancelReason hcan.2
            obtain ⟨r, w', hrun, hv, hproc, hparked⟩ :=
              runIdempotent_cancel_ok reply rideId reason hkey hrow hcan.1 hreason
            refine ⟨w', ?_, hv, hproc, hparked⟩
            simp [RideEvent.handle, TripsService.handleRideCancelled, Prog.eval_bind, hrun]
          next => cases hnext
      | rejected rideId =>
          simp only [RideEvent.next, ← hst, ← hdriver] at hnext
          split at hnext
          next hcan =>
            cases hnext
            obtain ⟨r, w', hrun, hv, hproc, hparked⟩ :=
              runIdempotent_cancel_ok reply rideId
                (.text CancellationReason.noDriversAvailable.text)
                hkey hrow hcan rfl
            refine ⟨w', ?_, hv, hproc, hparked⟩
            simp [RideEvent.handle, TripsService.handleDriverRejected, Prog.eval_bind, hrun]
          next => cases hnext

/-- An event that its ride does not admit changes nothing, and the delivery
throws, unless the event is a second request. -/
theorem handle_refused (reply : PatchReply) {event : RideEvent} {eventId : Nat}
    (hkey : ⟨eventId, consumerName⟩ ∉ w.db.processedEvents)
    (hnext : event.next (w.db.view event.rideId) = none) :
    (∃ input, event = .requested input ∧
      (event.handle eventId).eval (answer reply) w = (.ok (), w)) ∨
    ((∀ input, event ≠ .requested input) ∧
      ∃ err, (event.handle eventId).eval (answer reply) w = (.error err, w)) := by
  have hcancel (id : String) (reason : JsText) (h : ∀ row, w.db.findRide id = some row →
      canTransitionRideStatus row.status .cancelled = true → reason = .other) :
      ∃ err, (TripsRepository.runIdempotent eventId consumerName fun tx =>
        TripsService.cancel id reason tx).eval (answer reply) w = (.error err, w) := by
    obtain ⟨err, hne, hrun⟩ := eval_cancel_error (w := w)
      ⟨⟨eventId, consumerName⟩, []⟩ rfl h
    exact ⟨err, by rw [eval_runIdempotent_error hkey hrun, if_neg hne]⟩
  cases event with
  | requested input =>
      left
      refine ⟨input, rfl, ?_⟩
      cases hview : w.db.view input.id with
      | none =>
          simp only [RideEvent.rideId, hview, RideEvent.next] at hnext
          cases hnext
      | some before =>
          obtain ⟨row, hrow, -, -⟩ := view_eq_some hview
          exact handle_requested_again hkey hrow
  | reserved rideId driverId =>
      right
      refine ⟨fun _ => by simp, ?_⟩
      cases hrow : w.db.findRide rideId with
      | none =>
          refine ⟨.notFound s!"Ride {rideId} not found", ?_⟩
          simp [RideEvent.handle, TripsService.handleDriverReserved, Prog.eval_bind,
            eval_findById_none hrow]
      | some row =>
          refine ⟨.conflict (invalidRideTransitionMessage row.status .matched), ?_⟩
          have hcan : canTransitionRideStatus row.status .matched = false := by
            simpa [RideEvent.next, RideEvent.rideId, TripDb.view, hrow, RideRow.view] using hnext
          have hst : (toDomain row).status = row.status := rfl
          simp [RideEvent.handle, TripsService.handleDriverReserved, Prog.eval_bind,
            eval_findById_some hrow, eval_guardTransition, hst, hcan]
  | cancelled rideId reason =>
      right
      refine ⟨fun _ => by simp, ?_⟩
      obtain ⟨err, hrun⟩ := hcancel rideId reason fun row hrow hcan => by
        simpa [RideEvent.next, RideEvent.rideId, TripDb.view, hrow, RideRow.view, hcan] using hnext
      exact ⟨err, by
        simp [RideEvent.handle, TripsService.handleRideCancelled, Prog.eval_bind, hrun]⟩
  | rejected rideId =>
      right
      refine ⟨fun _ => by simp, ?_⟩
      obtain ⟨err, hrun⟩ := hcancel rideId (.text
        CancellationReason.noDriversAvailable.text) fun row hrow hcan => by
          simp [RideEvent.next, RideEvent.rideId, TripDb.view, hrow, RideRow.view, hcan] at hnext
      exact ⟨err, by
        simp [RideEvent.handle, TripsService.handleDriverRejected, Prog.eval_bind, hrun]⟩

/-! ## The consumer alone -/

/-- The dead letter record of an envelope whose last attempt failed. -/
def ParkedIn (w : TripHost) (envelope : EventEnvelope) : Prop :=
  ∃ fields ∈ w.parked, fields.envelope = some envelope

/-- A handler that changes nothing when it throws is retried in vain. -/
theorem eval_attemptLoop_error {envelope : EventEnvelope} {err : TripError} {attempt left : Nat}
    (h : (RideEventsConsumer.handler envelope).eval (answer reply) w = (.error err, w))
    (hleft : 0 < left) :
    ∃ fields, fields.envelope = some envelope ∧
      (EventConsumer.attemptLoop TripError.message RideEventsConsumer.park
        RideEventsConsumer.handler envelope attempt left).eval (answer reply) w =
        (.ok (), { w with parked := fields :: w.parked }) := by
  induction left generalizing attempt with
  | zero => cases hleft
  | succ left ih =>
      by_cases hlast : left = 0
      · refine ⟨⟨.handlerFailed, some envelope, none, attempt, err.message⟩, rfl, ?_⟩
        simp only [EventConsumer.attemptLoop, Prog.tryCatch_eq, Prog.eval_tryCatch, h, if_pos hlast]
        rfl
      · obtain ⟨fields, hf, hrun⟩ := @ih (attempt + 1) (Nat.pos_of_ne_zero hlast)
        refine ⟨fields, hf, ?_⟩
        simp only [EventConsumer.attemptLoop, Prog.tryCatch_eq, Prog.eval_tryCatch, h,
          if_neg hlast, hrun]

theorem eval_attemptLoop_ok {envelope : EventEnvelope} {w' : TripHost} {attempt left : Nat}
    (h : (RideEventsConsumer.handler envelope).eval (answer reply) w = (.ok (), w'))
    (hleft : 0 < left) :
    (EventConsumer.attemptLoop TripError.message RideEventsConsumer.park
      RideEventsConsumer.handler envelope attempt left).eval (answer reply) w = (.ok (), w') := by
  cases left with
  | zero => cases hleft
  | succ left => simp only [EventConsumer.attemptLoop, Prog.tryCatch_eq, Prog.eval_tryCatch, h]

end Alone

/-- The world after one envelope. -/
def consumeOne (maxAttempts : Nat) (reply : PatchReply) (w : TripHost) (envelope : EventEnvelope) :
    TripHost :=
  ((RideEventsConsumer.consume maxAttempts envelope).eval (answer reply) w).2

/-- The world after a list of envelopes, consumed in order. -/
def consumeAll (maxAttempts : Nat) (reply : PatchReply) (w : TripHost)
    (envelopes : List EventEnvelope) : TripHost :=
  envelopes.foldl (consumeOne maxAttempts reply) w

section ConsumeOne

variable {maxAttempts : Nat} {reply : PatchReply} {w : TripHost} {envelope : EventEnvelope}
  {event : RideEvent}

/-- An event that its ride admits is applied. -/
theorem consumeOne_applied (reply : PatchReply) {ride : RideView} (hmax : 0 < maxAttempts)
    (hkey : ⟨envelope.eventId, consumerName⟩ ∉ w.db.processedEvents)
    (hev : RideEvent.ofEnvelope envelope = some event)
    (hnext : event.next (w.db.view event.rideId) = some ride) :
    Applied event envelope.eventId ride w (consumeOne maxAttempts reply w envelope) := by
  obtain ⟨w', hrun, happ⟩ := handle_applied hkey hnext
  rw [← RideEvent.handler_of_ofEnvelope hev] at hrun
  rw [consumeOne, RideEventsConsumer.consume, EventConsumer.deliver, eval_attemptLoop_ok hrun hmax]
  exact happ

/-- A second request changes nothing. -/
theorem consumeOne_again {input : CreateRideInput} (hmax : 0 < maxAttempts)
    (hkey : ⟨envelope.eventId, consumerName⟩ ∉ w.db.processedEvents)
    (hev : RideEvent.ofEnvelope envelope = some (.requested input))
    (hnext : RideEvent.next (.requested input) (w.db.view input.id) = none) :
    consumeOne maxAttempts reply w envelope = w := by
  have hrun : (RideEventsConsumer.handler envelope).eval (answer reply) w = (.ok (), w) := by
    rw [RideEvent.handler_of_ofEnvelope hev]
    rcases handle_refused reply hkey hnext with ⟨_, -, hrun⟩ | ⟨hne, -⟩
    · exact hrun
    · exact absurd rfl (hne input)
  rw [consumeOne, RideEventsConsumer.consume, EventConsumer.deliver, eval_attemptLoop_ok hrun hmax]

/-- Any other event that its ride does not admit is parked. -/
theorem consumeOne_parked (hmax : 0 < maxAttempts)
    (hkey : ⟨envelope.eventId, consumerName⟩ ∉ w.db.processedEvents)
    (hev : RideEvent.ofEnvelope envelope = some event) (hne : ∀ input, event ≠ .requested input)
    (hnext : event.next (w.db.view event.rideId) = none) :
    ∃ fields, fields.envelope = some envelope ∧
      consumeOne maxAttempts reply w envelope = { w with parked := fields :: w.parked } := by
  rcases handle_refused reply hkey hnext with ⟨input, rfl, -⟩ | ⟨-, err, hrun⟩
  · exact absurd rfl (hne input)
  · rw [← RideEvent.handler_of_ofEnvelope hev] at hrun
    obtain ⟨fields, hf, hloop⟩ := eval_attemptLoop_error hrun hmax
    refine ⟨fields, hf, ?_⟩
    rw [consumeOne, RideEventsConsumer.consume, EventConsumer.deliver, hloop]

/-- An envelope without an event is parked or ignored. -/
theorem consumeOne_malformed (hmax : 0 < maxAttempts)
    (hev : RideEvent.ofEnvelope envelope = none) :
    consumeOne maxAttempts reply w envelope = w ∨ ∃ fields, fields.envelope = some envelope ∧
      consumeOne maxAttempts reply w envelope = { w with parked := fields :: w.parked } := by
  rcases RideEvent.handler_of_ofEnvelope_none hev with h | h
  · right
    have hrun : (RideEventsConsumer.handler envelope).eval (answer reply) w =
        (.error (.error s!"malformed {envelope.eventType.text} payload for eventId={envelope.eventId}"),
          w) := by
      rw [h]
      rfl
    obtain ⟨fields, hf, hloop⟩ := eval_attemptLoop_error hrun hmax
    refine ⟨fields, hf, ?_⟩
    rw [consumeOne, RideEventsConsumer.consume, EventConsumer.deliver, hloop]
  · left
    have hrun : (RideEventsConsumer.handler envelope).eval (answer reply) w = (.ok (), w) := by
      rw [h]
      rfl
    rw [consumeOne, RideEventsConsumer.consume, EventConsumer.deliver,
      eval_attemptLoop_ok hrun hmax]

end ConsumeOne

/-! ## A list of envelopes -/

/-- The ride `id` after an envelope. -/
def viewStep (id : String) (view : Option RideView) (envelope : EventEnvelope) :
    Option RideView :=
  match RideEvent.ofEnvelope envelope with
  | some event => if event.rideId = id then (event.next view).or view else view
  | none => view

/-- The ride `id` after a list of envelopes. -/
def viewAfter (id : String) (envelopes : List EventEnvelope) : Option RideView :=
  envelopes.foldl (viewStep id) none

/-- The envelope is applied when its turn comes in the list. -/
def AppliedIn (envelopes : List EventEnvelope) (envelope : EventEnvelope) : Prop :=
  ∃ before after event ride, envelopes = before ++ envelope :: after ∧
    RideEvent.ofEnvelope envelope = some event ∧
    event.next (viewAfter event.rideId before) = some ride

theorem AppliedIn.mem {envelopes : List EventEnvelope} {envelope : EventEnvelope}
    (h : AppliedIn envelopes envelope) : envelope ∈ envelopes := by
  obtain ⟨before, after, event, ride, rfl, -, -⟩ := h
  simp

theorem AppliedIn.append {envelopes more : List EventEnvelope} {envelope : EventEnvelope}
    (h : AppliedIn envelopes envelope) : AppliedIn (envelopes ++ more) envelope := by
  obtain ⟨before, after, event, ride, rfl, hev, hnext⟩ := h
  exact ⟨before, after ++ more, event, ride, by simp, hev, hnext⟩

/-- One envelope more. -/
theorem appliedIn_concat {envelopes : List EventEnvelope} {last envelope : EventEnvelope} :
    AppliedIn (envelopes ++ [last]) envelope ↔ AppliedIn envelopes envelope ∨
      (envelope = last ∧ ∃ event ride, RideEvent.ofEnvelope last = some event ∧
        event.next (viewAfter event.rideId envelopes) = some ride) := by
  constructor
  · rintro ⟨before, after, event, ride, heq, hev, hnext⟩
    rcases List.eq_nil_or_concat after with rfl | ⟨after', x, rfl⟩
    · obtain ⟨rfl, hlast⟩ := List.append_inj' heq rfl
      cases hlast
      exact .inr ⟨rfl, event, ride, hev, hnext⟩
    · left
      have heq' : envelopes ++ [last] = (before ++ envelope :: after') ++ [x] := by simp [heq]
      obtain ⟨rfl, -⟩ := List.append_inj' heq' rfl
      exact ⟨before, after', event, ride, rfl, hev, hnext⟩
  · rintro (h | ⟨rfl, event, ride, hev, hnext⟩)
    · exact h.append
    · exact ⟨envelopes, [], event, ride, rfl, hev, hnext⟩

/-- What a list of envelopes with different ids leaves of the empty world. -/
structure Delivered (envelopes : List EventEnvelope) (w : TripHost) : Prop where
  view : ∀ id, w.db.view id = viewAfter id envelopes
  processed : ∀ key, key ∈ w.db.processedEvents ↔
    ∃ envelope, AppliedIn envelopes envelope ∧ key = ⟨envelope.eventId, consumerName⟩
  parked : ∀ envelope, ParkedIn w envelope → envelope ∈ envelopes ∧ ¬ AppliedIn envelopes envelope
  notApplied : ∀ envelope ∈ envelopes, ∀ event, RideEvent.ofEnvelope envelope = some event →
    (∀ input, event ≠ .requested input) → AppliedIn envelopes envelope ∨ ParkedIn w envelope

theorem viewAfter_concat {id : String} {envelopes : List EventEnvelope} {last : EventEnvelope} :
    viewAfter id (envelopes ++ [last]) = viewStep id (viewAfter id envelopes) last := by
  simp [viewAfter]

section Deliver

variable {maxAttempts : Nat} {reply : PatchReply} {w : TripHost} {envelopes : List EventEnvelope}
  {last : EventEnvelope}

/-- The list ends with an event that is applied. -/
theorem Delivered.applied {event : RideEvent} {ride : RideView} (h : Delivered envelopes w)
    (hmax : 0 < maxAttempts) (hkey : ⟨last.eventId, consumerName⟩ ∉ w.db.processedEvents)
    (hnew : last ∉ envelopes) (hev : RideEvent.ofEnvelope last = some event)
    (hnext : event.next (w.db.view event.rideId) = some ride) :
    Delivered (envelopes ++ [last]) (consumeOne maxAttempts reply w last) := by
  have happ := consumeOne_applied reply hmax hkey hev hnext
  have hlast : AppliedIn (envelopes ++ [last]) last :=
    appliedIn_concat.mpr (.inr ⟨rfl, event, ride, hev, by rw [← h.view]; exact hnext⟩)
  constructor
  · intro id
    rw [happ.view, viewAfter_concat, viewStep, hev]
    by_cases hid : id = event.rideId
    · subst hid
      simp only [if_true, ← h.view, hnext, Option.some_or]
    · simp only [if_neg hid, if_neg (Ne.symm hid), h.view]
  · intro key
    rw [happ.processed, List.mem_append, h.processed, List.mem_singleton]
    constructor
    · rintro (⟨envelope, ha, rfl⟩ | rfl)
      · exact ⟨envelope, ha.append, rfl⟩
      · exact ⟨last, hlast, rfl⟩
    · rintro ⟨envelope, ha, rfl⟩
      rcases appliedIn_concat.mp ha with ha | ⟨rfl, -⟩
      · exact .inl ⟨envelope, ha, rfl⟩
      · exact .inr rfl
  · rintro envelope ⟨fields, hmem, hf⟩
    rw [happ.parked] at hmem
    obtain ⟨hin, hna⟩ := h.parked envelope ⟨fields, hmem, hf⟩
    refine ⟨List.mem_append_left _ hin, fun ha => ?_⟩
    rcases appliedIn_concat.mp ha with ha | ⟨rfl, -⟩
    · exact hna ha
    · exact hnew hin
  · intro envelope hin event' hev' hne
    rcases List.mem_append.mp hin with hin | hin
    · rcases h.notApplied envelope hin event' hev' hne with ha | ⟨fields, hmem, hf⟩
      · exact .inl ha.append
      · exact .inr ⟨fields, by rw [happ.parked]; exact hmem, hf⟩
    · rw [List.mem_singleton.mp hin]
      exact .inl hlast

/-- The list ends with an envelope that is not applied. -/
theorem Delivered.unapplied {w' : TripHost} (h : Delivered envelopes w) (hnew : last ∉ envelopes)
    (hnext : ∀ event, RideEvent.ofEnvelope last = some event →
      event.next (w.db.view event.rideId) = none)
    (hdb : w'.db = w.db)
    (hparked : w'.parked = w.parked ∨
      ∃ fields, fields.envelope = some last ∧ w'.parked = fields :: w.parked)
    (hrefused : ∀ event, RideEvent.ofEnvelope last = some event →
      (∀ input, event ≠ .requested input) → ParkedIn w' last) :
    Delivered (envelopes ++ [last]) w' := by
  have hna : ¬ AppliedIn (envelopes ++ [last]) last := by
    intro ha
    rcases appliedIn_concat.mp ha with ha | ⟨-, event, ride, hev, hsome⟩
    · exact hnew ha.mem
    · rw [← h.view, hnext event hev] at hsome
      cases hsome
  have hkeep : ∀ envelope, ParkedIn w envelope → ParkedIn w' envelope := by
    rintro envelope ⟨fields, hmem, hf⟩
    refine ⟨fields, ?_, hf⟩
    rcases hparked with hp | ⟨_, -, hp⟩
    · rw [hp]
      exact hmem
    · rw [hp]
      exact List.mem_cons_of_mem _ hmem
  constructor
  · intro id
    rw [hdb, h.view, viewAfter_concat, viewStep]
    split
    next event hev =>
      split
      next hid =>
        subst hid
        have hn := hnext event hev
        rw [h.view] at hn
        rw [hn, Option.none_or]
      next => rfl
    next => rfl
  · intro key
    rw [hdb, h.processed]
    constructor
    · rintro ⟨envelope, ha, rfl⟩
      exact ⟨envelope, ha.append, rfl⟩
    · rintro ⟨envelope, ha, rfl⟩
      rcases appliedIn_concat.mp ha with ha' | ⟨rfl, -⟩
      · exact ⟨envelope, ha', rfl⟩
      · exact absurd ha hna
  · rintro envelope ⟨fields, hmem, hf⟩
    have hcases : ParkedIn w envelope ∨ envelope = last := by
      rcases hparked with hp | ⟨fields', hf', hp⟩
      · rw [hp] at hmem
        exact .inl ⟨fields, hmem, hf⟩
      · rw [hp] at hmem
        rcases List.mem_cons.mp hmem with rfl | hmem
        · rw [hf] at hf'
          exact .inr (Option.some.inj hf')
        · exact .inl ⟨fields, hmem, hf⟩
    rcases hcases with hp | rfl
    · obtain ⟨hin, hna'⟩ := h.parked envelope hp
      refine ⟨List.mem_append_left _ hin, fun ha => ?_⟩
      rcases appliedIn_concat.mp ha with ha | ⟨rfl, -⟩
      · exact hna' ha
      · exact hnew hin
    · exact ⟨by simp, hna⟩
  · intro envelope hin event hev hne
    rcases List.mem_append.mp hin with hin | hin
    · rcases h.notApplied envelope hin event hev hne with ha | hp
      · exact .inl ha.append
      · exact .inr (hkeep envelope hp)
    · cases List.mem_singleton.mp hin
      exact .inr (hrefused event hev hne)

theorem Delivered.consumeOne (h : Delivered envelopes w) (hmax : 0 < maxAttempts)
    (hkey : ⟨last.eventId, consumerName⟩ ∉ w.db.processedEvents) (hnew : last ∉ envelopes) :
    Delivered (envelopes ++ [last]) (consumeOne maxAttempts reply w last) := by
  cases hev : RideEvent.ofEnvelope last with
  | none =>
      refine h.unapplied hnew (fun event he => ?_) ?_ ?_ fun event he => ?_
      · rw [hev] at he
        cases he
      · rcases consumeOne_malformed (w := w) hmax hev with hw | ⟨_, -, hw⟩ <;> rw [hw]
      · rcases consumeOne_malformed (w := w) hmax hev with hw | ⟨fields, hf, hw⟩
        · exact .inl (by rw [hw])
        · exact .inr ⟨fields, hf, by rw [hw]⟩
      · rw [hev] at he
        cases he
  | some event =>
      cases hnext : event.next (w.db.view event.rideId) with
      | some ride => exact h.applied hmax hkey hnew hev hnext
      | none =>
          have hall : ∀ event', RideEvent.ofEnvelope last = some event' →
              event'.next (w.db.view event'.rideId) = none := by
            intro event' he
            rw [hev] at he
            cases he
            exact hnext
          by_cases hreq : ∃ input, event = .requested input
          · obtain ⟨input, rfl⟩ := hreq
            rw [consumeOne_again hmax hkey hev hnext]
            refine h.unapplied hnew hall rfl (.inl rfl) fun event' he hne => ?_
            rw [hev] at he
            cases he
            exact absurd rfl (hne input)
          · push Not at hreq
            obtain ⟨fields, hf, hw⟩ := consumeOne_parked hmax hkey hev hreq hnext
            rw [hw]
            exact h.unapplied hnew hall rfl (.inr ⟨fields, hf, rfl⟩)
              fun _ _ _ => ⟨fields, List.mem_cons_self, hf⟩

/-- The consumer does to every ride what the list of its events says. -/
theorem delivered_consumeAll (hmax : 0 < maxAttempts)
    (hids : (envelopes.map (·.eventId)).Nodup) :
    Delivered envelopes (consumeAll maxAttempts reply .empty envelopes) := by
  induction envelopes using List.reverseRecOn with
  | nil =>
      constructor
      · exact fun _ => rfl
      · intro key
        constructor
        · intro h
          cases h
        · rintro ⟨envelope, ha, -⟩
          exact absurd ha.mem List.not_mem_nil
      · rintro envelope ⟨fields, hmem, -⟩
        cases hmem
      · intro envelope hin
        cases hin
  | append_singleton envelopes last ih =>
      rw [List.map_append, List.map_singleton] at hids
      obtain ⟨hnodup, -, hdisj⟩ := List.nodup_append.mp hids
      have hnew : ∀ envelope ∈ envelopes, envelope.eventId ≠ last.eventId := fun envelope hin =>
        hdisj _ (List.mem_map_of_mem hin) _ (List.mem_singleton.mpr rfl)
      have h := ih hnodup
      rw [consumeAll, List.foldl_append]
      refine h.consumeOne hmax (fun hkey => ?_) fun hin => hnew last hin rfl
      obtain ⟨envelope, ha, heq⟩ := (h.processed _).mp hkey
      exact hnew envelope ha.mem (congrArg ProcessedEventRow.eventId heq).symm

end Deliver

end TripService

end RydTrip
