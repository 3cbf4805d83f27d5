import RydTrip.TripService.Writes

/-!
# What a step does to the database

A step either commits the writes of one operation or leaves all tables as they
were.  Together with `program_commits` this is all that later invariants need to
know about the code: which statements a step applies, and what the operation
had read before.
-/

namespace RydTrip

namespace TripService

open Process

/-! ## Commits -/

/-- What a command makes permanent when it succeeds. -/
def Cmd.commits : Cmd → Option (Option ProcessedEventRow × List Exec)
  | .db (.commit tx) => some (some tx.key, tx.staged)
  | .db (.transact e) => some (none, [e])
  | _ => none

/-- The effect of a commit. -/
def applyCommit : Option ProcessedEventRow → List Exec → TripDb → Except PrismaError TripDb
  | none, es, db => applyAll es db
  | some key, es, db => Tx.commit ⟨key, es⟩ db

/-- The step makes the writes `es` of an operation permanent; `log` is what its
thread has seen by then. -/
def CommitsAt (s : TripPool) (a : TripAction) (op : Op) (log : TripLog)
    (key : Option ProcessedEventRow) (es : List Exec) : Prop :=
  ∃ i o c k v db, a = .run i o ∧ s.threads i = some ⟨op, .call (.db c) k, log⟩ ∧
    (∀ message, o.fault ≠ .refused message) ∧ s.world.db.exec c = .ok (v, db) ∧
    (Cmd.db c).commits = some (key, es)

/-- All tables are the same. -/
structure SameTables (db db' : TripDb) : Prop where
  rides : db'.rides = db.rides
  tripEvents : db'.tripEvents = db.tripEvents
  processedEvents : db'.processedEvents = db.processedEvents

theorem SameTables.refl (db : TripDb) : SameTables db db := ⟨rfl, rfl, rfl⟩

theorem SameTables.findRide {db db' : TripDb} (h : SameTables db db') (id : String) :
    db'.findRide id = db.findRide id := by
  unfold TripDb.findRide
  rw [h.rides]

theorem CommitsAt.unique {s : TripPool} {a : TripAction} {op op' : Op} {log log' : TripLog}
    {key key' : Option ProcessedEventRow} {es es' : List Exec} (h : CommitsAt s a op log key es)
    (h' : CommitsAt s a op' log' key' es') : op' = op ∧ log' = log ∧ key' = key ∧ es' = es := by
  obtain ⟨i, o, c, k, v, db, rfl, hi, -, -, hc⟩ := h
  obtain ⟨i', o', c', k', v', db', ⟨⟩, hi', -, -, hc'⟩ := h'
  rw [hi] at hi'
  cases hi'
  rw [hc] at hc'
  cases hc'
  exact ⟨rfl, rfl, rfl, rfl⟩

/-! ## Database calls -/

theorem settle_ok {γ : Type} {fault : Fault} {db : TripDb} {a : γ}
    {r : Except PrismaError (γ × TripDb)} (h : (settle fault db r).1 = .ok a) :
    fault = .none ∧ ∃ db', r = .ok (a, db') := by
  cases r with
  | error err => cases fault <;> cases h
  | ok p =>
      cases fault <;> cases h
      exact ⟨rfl, p.2, rfl⟩

/-- A staged statement that goes well was applied to some database. -/
theorem exec_applied {o : Oracle} {tx : Tx} {e : Exec} {w w' : TripHost} {row : RideRow}
    (h : w.exec o (.db (.exec tx e)) = (.ok row, w')) :
    ∃ db₁ db₂, e.apply db₁ = .ok (row, db₂) := by
  obtain ⟨-, db', hx⟩ := settle_ok (congrArg Prod.fst h)
  obtain ⟨row', hrow', heq⟩ := map_eq_ok.mp hx
  cases heq
  obtain ⟨db₁, db₂, -, happ⟩ := Tx.exec_ok.mp hrow'
  exact ⟨db₁, db₂, happ⟩

/-- Reads and staged statements return what is there. -/
theorem replyKnown_of_exec {o : Oracle} {c : Cmd} {w w' : TripHost} {r : Reply c}
    (h : w.exec o c = (r, w')) : ReplyKnown c r := by
  cases c with
  | patch driverId status => trivial
  | park fields => trivial
  | db c =>
      cases c with
      | exec tx e =>
          cases e with
          | transition id tgt options => cases r <;> trivial
          | create input =>
              cases r with
              | error err => trivial
              | ok row =>
                  obtain ⟨db₁, db₂, happ⟩ := exec_applied h
                  obtain ⟨-, hid, -⟩ := Exec.create_ok happ
                  exact hid
      | _ => cases r <;> trivial

/-- A call that commits leaves the committed database. -/
theorem TripDb.exec_of_commits {db db' : TripDb} {c : DbCmd} {v : DbValue c}
    {key : Option ProcessedEventRow} {es : List Exec}
    (hc : (Cmd.db c).commits = some (key, es)) (h : db.exec c = .ok (v, db')) :
    applyCommit key es db = .ok db' := by
  cases c with
  | commit tx =>
      cases hc
      obtain ⟨db₂, hcommit, heq⟩ := map_eq_ok.mp h
      cases heq
      exact hcommit
  | transact e =>
      cases hc
      exact applyAll_cons.mpr ⟨v, db', h, rfl⟩
  | _ => cases hc

/-- A call that does not commit leaves the database alone. -/
theorem TripDb.exec_of_not_commits {db db' : TripDb} {c : DbCmd} {v : DbValue c}
    (hc : (Cmd.db c).commits = none) (h : db.exec c = .ok (v, db')) : db' = db := by
  cases c with
  | commit tx => cases hc
  | transact e => cases hc
  | begin key =>
      obtain ⟨u, -, heq⟩ := map_eq_ok.mp h
      exact (congrArg Prod.snd heq).symm
  | exec tx e =>
      obtain ⟨row, -, heq⟩ := map_eq_ok.mp h
      exact (congrArg Prod.snd heq).symm
  | _ => exact (congrArg Prod.snd (Except.ok.inj h)).symm

/-! ## Steps -/

section Steps

variable {haversineKm : GeoPoint → GeoPoint → Option Rat} {s t : TripPool} {a : TripAction}
  {op : Op} {log : TripLog} {key : Option ProcessedEventRow} {es : List Exec}

/-- What a step commits is applied to the database. -/
theorem CommitsAt.applied (h : CommitsAt s a op log key es)
    (hstep : (machine haversineKm).Step s a t) :
    applyCommit key es s.world.db = .ok t.world.db := by
  obtain ⟨i, o, c, k, v, db, rfl, hi, hfault, hx, hc⟩ := h
  cases hstep with
  | run hi' hr =>
      rw [hi] at hi'
      cases hi'
      rw [TripDb.exec_of_commits hc hx]
      simp only [machine, TripHost.exec, hx, Option.some.injEq, Prod.mk.injEq] at hr
      rw [← hr.2]
      cases hf : o.fault with
      | refused message => exact absurd hf (hfault message)
      | none => simp [settle]
      | lost message => simp [settle]

/-- Any other step leaves the tables alone. -/
theorem sameTables_of_not_commits (hstep : (machine haversineKm).Step s a t)
    (h : ∀ op log key es, ¬ CommitsAt s a op log key es) : SameTables s.world.db t.world.db := by
  cases hstep with
  | spawn hi hp =>
      cases hp
      exact .refl _
  | env hw =>
      cases hw
      exact ⟨rfl, rfl, rfl⟩
  | @run i o op c k log r w hi hr =>
      cases c with
      | patch driverId status =>
          cases hr
          exact .refl _
      | park fields =>
          simp only [machine, TripHost.exec, Option.some.injEq] at hr
          split at hr <;> cases hr <;> exact .refl _
      | db c =>
          simp only [machine, TripHost.exec, Option.some.injEq, Prod.mk.injEq] at hr
          rw [← hr.2]
          cases hx : s.world.db.exec c with
          | error err =>
              rw [settle_error_db]
              exact .refl _
          | ok p =>
              obtain ⟨v, db⟩ := p
              cases hf : o.fault with
              | refused message => exact .refl _
              | none =>
                  cases hc : (Cmd.db c).commits with
                  | some p =>
                      exact absurd ⟨i, o, c, k, v, db, rfl, hi, by simp [hf], hx, hc⟩ (h _ _ _ _)
                  | none => exact TripDb.exec_of_not_commits hc hx ▸ .refl _
              | lost message =>
                  cases hc : (Cmd.db c).commits with
                  | some p =>
                      exact absurd ⟨i, o, c, k, v, db, rfl, hi, by simp [hf], hx, hc⟩ (h _ _ _ _)
                  | none => exact TripDb.exec_of_not_commits hc hx ▸ .refl _

/-- Every thread commits its own writes only, on reads that allow them. -/
def ThreadsCommit (s : TripPool) : Prop :=
  ∀ i th, s.threads i = some th →
    Commits (fun key es log => th.call.Writes key es ∧ Guarded log es) th.prog th.log

theorem ThreadsCommit.step (hs : ThreadsCommit s) (hstep : (machine haversineKm).Step s a t) :
    ThreadsCommit t := by
  refine Machine.obeys_step (m := machine haversineKm)
    (P := fun op => CommitsWithin fun key es log => op.Writes key es ∧ Guarded log es) ?_ ?_ hs
    hstep
  · rintro i op w p w' - ⟨⟩
    exact (program_commits haversineKm op).mono fun c log =>
      CommitsWithin.mono fun key es log h => ⟨h.1, h.2.of_sinceCommit⟩
  · intro i o c r w' _ h
    exact replyKnown_of_exec (Option.some.inj h)

theorem ThreadsCommit.writes (hs : ThreadsCommit s) (h : CommitsAt s a op log key es) :
    op.Writes key es ∧ Guarded log es := by
  obtain ⟨i, o, c, k, v, db, -, hi, -, -, hc⟩ := h
  have hcmd := (hs i _ hi).1
  cases c with
  | commit tx =>
      cases hc
      exact hcmd
  | transact e =>
      cases hc
      exact hcmd
  | _ => cases hc

/-! ## What is applied to the rows -/

theorem applyCommit_rows {db db' : TripDb} (h : applyCommit key es db = .ok db') :
    ∃ db₁ : TripDb, (∀ id, db₁.findRide id = db.findRide id) ∧ applyAll es db₁ = .ok db' := by
  cases key with
  | none => exact ⟨db, fun _ => rfl, h⟩
  | some key =>
      obtain ⟨db₁, hpe, happ⟩ := Tx.commit_ok.mp h
      exact ⟨db₁, TripDb.findRide_createProcessedEvent hpe, happ⟩

theorem applyAll_transition {db db' : TripDb} {id : String} {tgt : RideStatus}
    {options : TransitionOptions} (h : applyAll [.transition id tgt options] db = .ok db') :
    ∃ row row' reason, db.findRide id = some row ∧
      row' = (options.data tgt reason).apply db.now row ∧
      ∀ id', db'.findRide id' = if id' = id then some row' else db.findRide id' := by
  obtain ⟨row', db₁, he, hnil⟩ := applyAll_cons.mp h
  cases hnil
  obtain ⟨row, reason, hrow, -, hrow', hfind, -⟩ := Exec.transition_ok he
  exact ⟨row, row', reason, hrow, hrow', hfind⟩

theorem applyAll_create {db db' : TripDb} {input : CreateRideInput} {tgt : RideStatus}
    {options : TransitionOptions}
    (h : applyAll [.create input, .transition input.id tgt options] db = .ok db') :
    db.findRide input.id = none ∧ (∃ row, db'.findRide input.id = some row ∧ row.status = tgt) ∧
      ∀ id', id' ≠ input.id → db'.findRide id' = db.findRide id' := by
  obtain ⟨row, db₁, hc, h⟩ := applyAll_cons.mp h
  obtain ⟨hnone, -, -, -, hfind, -⟩ := Exec.create_ok hc
  obtain ⟨row₁, row₂, reason, -, hrow₂, hfind'⟩ := applyAll_transition h
  refine ⟨hnone, ⟨row₂, by rw [hfind', if_pos rfl], by rw [hrow₂]; rfl⟩, fun id' hne => ?_⟩
  rw [hfind' id', if_neg hne, hfind id', if_neg hne]

/-- The row of a ride that is inserted and moved on. -/
theorem applyAll_create_row {db db' : TripDb} {input : CreateRideInput} {tgt : RideStatus}
    {options : TransitionOptions} {row : RideRow}
    (h : applyAll [.create input, .transition input.id tgt options] db = .ok db')
    (hrow : db'.findRide input.id = some row) :
    ∃ created db₁ reason now, db.createRide input = .ok (created, db₁) ∧
      storedReason options.cancellationReason = .ok reason ∧
      row = (options.data tgt reason).apply now created := by
  obtain ⟨created, db₁, hc, h⟩ := applyAll_cons.mp h
  obtain ⟨row₁, db₂, ht, hnil⟩ := applyAll_cons.mp h
  cases hnil
  obtain ⟨row₂, reason, hrow₂, hreason, hrow₁, hfind, -⟩ := Exec.transition_ok ht
  obtain ⟨-, -, -, -, hfind₁, -⟩ := Exec.create_ok hc
  rw [hfind₁, if_pos rfl] at hrow₂
  cases hrow₂
  rw [hfind, if_pos rfl] at hrow
  cases hrow
  obtain ⟨⟨created', db₃⟩, hinsert, heq⟩ := bind_eq_ok.mp hc
  cases heq
  exact ⟨created, db₃, reason, _, hinsert, hreason, hrow₁⟩

/-- It is a ride of the rider that is given. -/
theorem riderId_of_create {db db' : TripDb} {input : CreateRideInput} {tgt : RideStatus}
    {options : TransitionOptions} {row : RideRow}
    (h : applyAll [.create input, .transition input.id tgt options] db = .ok db')
    (hrow : db'.findRide input.id = some row) : row.riderId = input.riderId := by
  obtain ⟨created, db₁, reason, now, hinsert, -, rfl⟩ := applyAll_create_row h hrow
  unfold TripDb.createRide at hinsert
  split at hinsert
  · cases hinsert
  · cases hinsert
    rfl

/-- The transitions that an operation commits by themselves. -/
inductive Op.Single (op : Op) (id : String) : RideStatus → TransitionOptions → Prop where
  | accepted (draw : Fin 10000) (h : op = .accept id draw) :
      Op.Single op id .driverArriving { otp := some (padOtp draw) }
  | arrived : Op.Single op id .driverArrived {}
  | started (otp : String) (callerDriverId : Option String)
      (h : op = .start id otp callerDriverId) : Op.Single op id .inProgress { clearOtp := true }
  | completed (fare distanceKm : Option Rat) (h : op = .complete id) :
      Op.Single op id .completed { fare := some fare, distanceKm := some distanceKm }
  | cancelled (reason : JsText) : Op.Single op id .cancelled { cancellationReason := reason }
  | matched (driverId : String) : Op.Single op id .matched { driverId := some driverId }

theorem Op.Transacts.single {e : Exec} (h : op.Transacts e) :
    ∃ id tgt options, e = .transition id tgt options ∧ op.Single id tgt options := by
  cases op with
  | complete id =>
      obtain ⟨fare, distanceKm, rfl⟩ := h
      exact ⟨_, _, _, rfl, .completed fare distanceKm rfl⟩
  | accept id draw =>
      cases h
      exact ⟨_, _, _, rfl, .accepted draw rfl⟩
  | decline id =>
      cases h
      exact ⟨_, _, _, rfl, .cancelled _⟩
  | driverArrived id =>
      cases h
      exact ⟨_, _, _, rfl, .arrived⟩
  | start id otp callerDriverId =>
      cases h
      exact ⟨_, _, _, rfl, .started otp callerDriverId rfl⟩
  | cancel id reason =>
      cases h
      exact ⟨_, _, _, rfl, .cancelled _⟩
  | _ => cases h

/-- An operation either commits one transition, or it is the handler of
`ride.requested` and inserts the ride. -/
theorem Op.Writes.single (h : op.Writes key es) :
    (∃ id tgt options, es = [.transition id tgt options] ∧ op.Single id tgt options) ∨
      ∃ input eventId, op.event = some (.requested input, eventId) ∧
        es = [.create input, .transition input.id .matching {}] := by
  cases key with
  | none =>
      obtain ⟨e, he, rfl⟩ := h
      obtain ⟨id, tgt, options, rfl, hsingle⟩ := he.single
      exact .inl ⟨id, tgt, options, rfl, hsingle⟩
  | some key =>
      obtain ⟨event, eventId, hev, -, rfl⟩ := h
      cases event with
      | requested input => exact .inr ⟨input, eventId, hev, rfl⟩
      | cancelled rideId reason => exact .inl ⟨_, _, _, rfl, .cancelled _⟩
      | reserved rideId driverId => exact .inl ⟨_, _, _, rfl, .matched driverId⟩
      | rejected rideId => exact .inl ⟨_, _, _, rfl, .cancelled _⟩

/-- Only a completion commits a transition to COMPLETED. -/
theorem Op.Writes.completes {id : String} {options : TransitionOptions}
    (h : op.Writes key [.transition id .completed options]) : op = .complete id := by
  rcases h.single with ⟨id', tgt, options', heq, hsingle⟩ | ⟨input, -, -, heq⟩
  · cases heq
    cases hsingle with
    | completed fare distanceKm hop => exact hop
  · cases heq

/-- No transition that is committed by itself leads back to the start. -/
theorem Op.Writes.cases (h : op.Writes key es) :
    (∃ id tgt options, es = [.transition id tgt options] ∧ tgt ≠ .requested ∧ tgt ≠ .matching) ∨
      ∃ input eventId, op.event = some (.requested input, eventId) ∧
        es = [.create input, .transition input.id .matching {}] := by
  refine h.single.imp_left ?_
  rintro ⟨id, tgt, options, rfl, hsingle⟩
  refine ⟨id, tgt, options, rfl, ?_⟩
  cases hsingle <;> exact ⟨nofun, nofun⟩

end Steps

/-! ## Initial pools -/

/-- Any database, and no operation started. -/
def initial (db : TripDb) : TripPool := ⟨⟨db, [], []⟩, fun _ => none⟩

theorem initial_threadsCommit (db : TripDb) : ThreadsCommit (initial db) := by
  rintro i th ⟨⟩

end TripService

end RydTrip
