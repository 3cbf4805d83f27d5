import RydTrip.TripService.Alone

/-!
# Timely runs

A run is timely if every transition that commits is one that the status of the
ride allows at that moment.  Rows then only move forward, so what a thread has
read of a ride is either what the ride still says, or the ride has moved on and
the transition of the thread would be refused.  A route that commits or gives up
in a timely run does what it would do if it ran alone at that moment
(`Known.alone_of_transact`, `Known.alone_of_read`).
-/

namespace RydTrip

namespace TripService

open Process

/-! ## Rows move forward -/

/-- The transitions that a step commits are allowed by the statuses that the
rides have. -/
def Timely (s : TripPool) (a : TripAction) (_ : TripPool) : Prop :=
  ∀ op log key es, CommitsAt s a op log key es → s.world.db.Permits es

/-- The ride is as the row says or further along. -/
def Behind (db : TripDb) (id : String) (row : RideRow) : Prop :=
  ∃ row', db.findRide id = some row' ∧ row'.riderId = row.riderId ∧
    (row' = row ∨ rank row.status < rank row'.status)

def RowsAdvance (db db' : TripDb) : Prop :=
  ∀ id row, db.findRide id = some row → Behind db' id row

theorem behind_self {db : TripDb} {id : String} {row : RideRow} (h : db.findRide id = some row) :
    Behind db id row :=
  ⟨row, h, rfl, .inl rfl⟩

theorem RowsAdvance.of_findRide {db db' : TripDb}
    (h : ∀ id row, db.findRide id = some row → db'.findRide id = some row) : RowsAdvance db db' :=
  fun id row hrow => behind_self (h id row hrow)

section Rows

variable {db db' : TripDb} {id : String} {row : RideRow}

theorem Behind.advance (h : Behind db id row) (ha : RowsAdvance db db') : Behind db' id row := by
  obtain ⟨cur, hcur, hrider, hrank⟩ := h
  obtain ⟨new, hnew, hrider', hrank'⟩ := ha id cur hcur
  refine ⟨new, hnew, hrider'.trans hrider, ?_⟩
  rcases hrank with rfl | hlt
  · exact hrank'
  · rcases hrank' with rfl | hlt'
    · exact .inr hlt
    · exact .inr (hlt.trans hlt')

/-- A row that was left behind does not come back. -/
theorem Behind.back (h : Behind db id row) (ha : RowsAdvance db db')
    (hrow : db'.findRide id = some row) : db.findRide id = some row := by
  obtain ⟨cur, hcur, -, hrank⟩ := h
  rcases hrank with rfl | hlt
  · exact hcur
  · obtain ⟨new, hnew, -, hrank'⟩ := ha id cur hcur
    cases hrow.symm.trans hnew
    rcases hrank' with rfl | hlt'
    · exact absurd hlt (lt_irrefl _)
    · exact absurd (hlt.trans hlt') (lt_irrefl _)

end Rows

/-- A reply of a thread that has read `older` before: the row of a ride may have
moved on, and a code is the one of any row that has not. -/
def StillTrue (db : TripDb) (older : TripLog) : (Σ c : Cmd, Reply c) → Prop
  | ⟨.db (.findRide id), .ok (some row)⟩ => Behind db id row
  | ⟨.db (.getOtp id), .ok code⟩ =>
      ∀ row, ⟨.db (.findRide id), .ok (some row)⟩ ∈ older → db.findRide id = some row →
        code = row.otp
  | _ => True

def AllStillTrue (db : TripDb) : TripLog → Prop
  | [] => True
  | e :: log => StillTrue db log e ∧ AllStillTrue db log

theorem AllStillTrue.behind {db : TripDb} {log : TripLog} (h : AllStillTrue db log) {id : String}
    {row : RideRow} (hmem : ⟨.db (.findRide id), .ok (some row)⟩ ∈ log) : Behind db id row := by
  induction log with
  | nil => cases hmem
  | cons e log ih =>
      rcases List.mem_cons.mp hmem with rfl | hmem
      · exact h.1
      · exact ih h.2 hmem

theorem AllStillTrue.advance {db db' : TripDb} {log : TripLog} (h : AllStillTrue db log)
    (ha : RowsAdvance db db') : AllStillTrue db' log := by
  induction log with
  | nil => trivial
  | cons e log ih =>
      refine ⟨?_, ih h.2⟩
      have hhead := h.1
      unfold StillTrue at hhead ⊢
      split
      · exact hhead.advance ha
      · intro row hmem hrow
        exact hhead row hmem ((h.2.behind hmem).back ha hrow)
      · trivial

/-! ## What threads know -/

/-- The specification of a route, and none for other operations. -/
def Op.MayAsk (op : Op) (c : Cmd) (log : TripLog) : Prop := op.IsRoute = true → op.Asks c log

def Op.MayReturn (op : Op) (r : Response) (log : TripLog) : Prop :=
  op.IsRoute = true → op.Returns r log

def Op.MayFail (op : Op) (err : TripError) (log : TripLog) : Prop :=
  op.IsRoute = true → Fails err log

/-- What holds of every pool of a timely run. -/
structure Known (haversineKm : GeoPoint → GeoPoint → Option Rat) (s : TripPool) : Prop where
  commit : ThreadsCommit s
  spec : ∀ i th, s.threads i = some th →
    th.prog.wp (logSpec th.call.MayAsk fun _ _ => True) th.call.MayReturn th.call.MayFail th.log
  resumes : ∀ i th, s.threads i = some th →
    (TripsService.program haversineKm th.call).Resumes th.log th.prog
  still : ∀ i th, s.threads i = some th → AllStillTrue s.world.db th.log

theorem program_spec (haversineKm : GeoPoint → GeoPoint → Option Rat) (op : Op) :
    (TripsService.program haversineKm op).wp (logSpec op.MayAsk fun _ _ => True) op.MayReturn
      op.MayFail [] := by
  unfold Op.MayAsk Op.MayReturn Op.MayFail
  cases hop : op.IsRoute with
  | true => simpa only [true_imp_iff] using route_spec haversineKm hop
  | false =>
      exact Prog.wp_logSpec_of_forall (fun _ _ h => absurd h Bool.false_ne_true)
        (fun _ _ h => absurd h Bool.false_ne_true) fun _ _ h => absurd h Bool.false_ne_true

theorem initial_known (haversineKm : GeoPoint → GeoPoint → Option Rat) (db : TripDb) :
    Known haversineKm (initial db) where
  commit := initial_threadsCommit db
  spec := by rintro i th ⟨⟩
  resumes := by rintro i th ⟨⟩
  still := by rintro i th ⟨⟩

section Steps

variable {haversineKm : GeoPoint → GeoPoint → Option Rat} {s t : TripPool} {a : TripAction}

/-- A database call that does not commit leaves the database alone, and what it
returns is there. -/
theorem exec_of_not_commits {o : Oracle} {c : DbCmd} {w w' : TripHost} {r : Reply (.db c)}
    (hc : (Cmd.db c).commits = none) (h : w.exec o (.db c) = (r, w')) :
    w'.db = w.db ∧ ∀ v, r = .ok v → w.db.exec c = .ok (v, w.db) := by
  have hr := congrArg Prod.fst h
  have hw := congrArg (fun p => p.2.db) h
  simp only [TripHost.exec] at hr hw
  cases hx : w.db.exec c with
  | error err =>
      rw [hx] at hr hw
      rw [settle_error_db] at hw
      refine ⟨hw.symm, ?_⟩
      rintro v rfl
      obtain ⟨-, db', hnone⟩ := settle_ok hr
      cases hnone
  | ok p =>
      obtain ⟨v, db⟩ := p
      have hsame := TripDb.exec_of_not_commits hc hx
      subst hsame
      rw [hx] at hr hw
      cases hf : o.fault with
      | none =>
          rw [hf] at hr hw
          refine ⟨hw.symm, ?_⟩
          rintro v' rfl
          cases hr
          rfl
      | refused message =>
          rw [hf] at hr hw
          refine ⟨hw.symm, ?_⟩
          rintro v' rfl
          cases hr
      | lost message =>
          rw [hf] at hr hw
          refine ⟨hw.symm, ?_⟩
          rintro v' rfl
          cases hr

/-- What a thread is told is true at that moment. -/
theorem stillTrue_of_exec {o : Oracle} {c : Cmd} {w w' : TripHost} {r : Reply c} {log : TripLog}
    (h : w.exec o c = (r, w')) : StillTrue w'.db log ⟨c, r⟩ := by
  unfold StillTrue
  split
  next id row heq =>
    cases heq
    obtain ⟨hsame, hexec⟩ := exec_of_not_commits rfl h
    rw [hsame]
    exact behind_self (congrArg Prod.fst (Except.ok.inj (hexec _ rfl)))
  next id code heq =>
    cases heq
    obtain ⟨hsame, hexec⟩ := exec_of_not_commits rfl h
    intro row _ hrow
    have hcode := congrArg Prod.fst (Except.ok.inj (hexec _ rfl))
    rw [hsame] at hrow
    rw [hrow] at hcode
    exact hcode.symm
  next => trivial

/-- A timely step takes no ride back. -/
theorem rowsAdvance_step (hs : ThreadsCommit s) (ht : Timely s a t)
    (hstep : (machine haversineKm).Step s a t) : RowsAdvance s.world.db t.world.db := by
  by_cases hcom : ∃ op log key es, CommitsAt s a op log key es
  · obtain ⟨op, log, key, es, hc⟩ := hcom
    have hpermits := ht op log key es hc
    obtain ⟨db₁, hdb₁, happ⟩ := applyCommit_rows (hc.applied hstep)
    rcases (hs.writes hc).1.cases with ⟨id, tgt, options, rfl, -, -⟩ | ⟨input, eventId, -, rfl⟩
    · obtain ⟨row, row', reason, hrow, hrow', hfind⟩ := applyAll_transition happ
      rw [hdb₁] at hrow
      intro id' cur hcur
      by_cases hid : id' = id
      · subst hid
        cases hrow.symm.trans hcur
        have hcan := hpermits id' tgt options row (.head _) hrow
        refine ⟨row', (hfind id').trans (if_pos rfl), ?_, .inr ?_⟩
        · rw [hrow']
          rfl
        · rw [hrow']
          exact rank_lt_of_transition hcan
      · exact behind_self ((hfind id').trans ((if_neg hid).trans ((hdb₁ id').trans hcur)))
    · obtain ⟨hnone, -, hfind⟩ := applyAll_create happ
      refine .of_findRide fun id row hrow => ?_
      have hid : id ≠ input.id := by
        rintro rfl
        rw [hdb₁, hrow] at hnone
        cases hnone
      exact (hfind id hid).trans ((hdb₁ id).trans hrow)
  · push Not at hcom
    exact .of_findRide fun id row hrow =>
      ((sameTables_of_not_commits hstep hcom).findRide id).trans hrow

theorem Known.step (hs : Known haversineKm s) (ht : Timely s a t)
    (hstep : (machine haversineKm).Step s a t) : Known haversineKm t where
  commit := hs.commit.step hstep
  spec := by
    refine Machine.wp_step (m := machine haversineKm) (Q := Op.MayReturn) (E := Op.MayFail) ?_ ?_
      hs.spec hstep
    · rintro i op w p w' - ⟨⟩
      exact program_spec haversineKm op
    · intros
      trivial
  resumes := by
    refine Machine.resumes_step (m := machine haversineKm) ?_ hs.resumes hstep
    rintro call w p w' ⟨⟩
    rfl
  still := by
    have ha := rowsAdvance_step hs.commit ht hstep
    refine Machine.threads_step (P := fun _ th => AllStillTrue t.world.db th.log) ?_ ?_ ?_ hstep
    · intro i op p _ _
      trivial
    · intro i o op c k log r _ hi hr
      exact ⟨stillTrue_of_exec (Option.some.inj hr), (hs.still i _ hi).advance ha⟩
    · intro i th hi
      exact (hs.still i th hi).advance ha

end Steps

/-! ## Going on alone -/

section Now

variable {haversineKm : GeoPoint → GeoPoint → Option Rat} {s : TripPool} {op : Op} {db : TripDb}

/-- Only cancellations are possible from more than one status. -/
theorem sole_predecessor {src src' tgt : RideStatus} (htgt : tgt ≠ .cancelled)
    (h : canTransitionRideStatus src tgt = true) (h' : canTransitionRideStatus src' tgt = true) :
    src = src' := by
  revert htgt h h'
  cases src <;> cases src' <;> cases tgt <;> decide

theorem Op.Transacts.target {e : Exec} (h : op.Transacts e) :
    ∃ id tgt options, e = .transition id tgt options ∧ op.target = some (id, tgt) := by
  cases op with
  | complete id =>
      obtain ⟨fare, distanceKm, rfl⟩ := h
      exact ⟨_, _, _, rfl, rfl⟩
  | accept id draw => exact ⟨_, _, _, h, rfl⟩
  | decline id => exact ⟨_, _, _, h, rfl⟩
  | driverArrived id => exact ⟨_, _, _, h, rfl⟩
  | start id otp caller => exact ⟨_, _, _, h, rfl⟩
  | cancel id reason => exact ⟨_, _, _, h, rfl⟩
  | _ => cases h

theorem Op.isRoute_of_target {p : String × RideStatus} (h : op.target = some p) :
    op.IsRoute = true := by
  cases op with
  | accept id draw => rfl
  | decline id => rfl
  | driverArrived id => rfl
  | start id otp caller => rfl
  | complete id => rfl
  | cancel id reason => rfl
  | _ => cases h

theorem answered_findRide {id : String} {row : RideRow} (h : db.findRide id = some row) :
    answered (.db (.findRide id)) (.start db) = (.ok (some row), .start db) := by
  refine answered_ok ?_
  show Except.ok (db.findRide id, db) = _
  rw [h]

/-- A ride read by a thread that forgets it might as well be read now. -/
theorem Forgets.now {α : Type} {id : String} {P : RideRow → Prop} {p₀ p : Trip α}
    {row row' : RideRow} (h : Forgets id P p₀)
    (hp : p₀.Resumes [⟨.db (.findRide id), .ok (some row)⟩] p) (hrow : db.findRide id = some row')
    (hP : P row) (hP' : P row') : p₀.eval answered (.start db) = p.eval answered (.start db) := by
  obtain ⟨k, rfl, hk⟩ := h
  rw [hp.of_singleton, Prog.eval_call, answered_findRide hrow]
  exact congrArg (fun p : Trip α => p.eval answered (.start db)) (hk row' row hP' hP)

theorem program_forgets {id : String} (hop : op.target = some (id, .cancelled)) :
    Forgets id (fun row => canTransitionRideStatus row.status .cancelled = true)
      (TripsService.program haversineKm op) := by
  cases op with
  | decline id =>
      cases hop
      exact (cancel_forgets id _).bind.bind
  | cancel id reason =>
      cases hop
      exact (cancel_forgets id reason).bind
  | _ => cases hop

theorem Known.returned (hs : Known haversineKm s) {i : Nat}
    {th : Thread Op Cmd Reply TripError Response} (hi : s.threads i = some th)
    (hop : th.call.IsRoute = true) {r : Response} (h : th.prog = .ret r) :
    th.call.Returns r th.log := by
  have hspec := hs.spec i th hi
  rw [h] at hspec
  exact hspec hop

theorem Known.failed (hs : Known haversineKm s) {i : Nat}
    {th : Thread Op Cmd Reply TripError Response} (hi : s.threads i = some th)
    (hop : th.call.IsRoute = true) {err : TripError} (h : th.prog = .throw err) :
    Fails err th.log := by
  have hspec := hs.spec i th hi
  rw [h] at hspec
  exact hspec hop

section Next

variable {i : Nat} {c : Cmd} {k : Reply c → Trip Response} {log : TripLog} {r : Reply c}

/-- The three ways a route goes on. -/
theorem Known.returns (hs : Known haversineKm s) (hi : s.threads i = some ⟨op, .call c k, log⟩)
    (hop : op.IsRoute = true) {a : Response} (h : k r = .ret a) : op.Returns a (⟨c, r⟩ :: log) := by
  have hspec := (hs.spec i _ hi).2 r trivial
  dsimp only at hspec
  rw [h] at hspec
  exact hspec hop

theorem Known.fails (hs : Known haversineKm s) (hi : s.threads i = some ⟨op, .call c k, log⟩)
    (hop : op.IsRoute = true) {err : TripError} (h : k r = .throw err) :
    Fails err (⟨c, r⟩ :: log) := by
  have hspec := (hs.spec i _ hi).2 r trivial
  dsimp only at hspec
  rw [h] at hspec
  exact hspec hop

theorem Known.asks (hs : Known haversineKm s) (hi : s.threads i = some ⟨op, .call c k, log⟩)
    (hop : op.IsRoute = true) {c' : Cmd} {k' : Reply c' → Trip Response} (h : k r = .call c' k') :
    op.Asks c' (⟨c, r⟩ :: log) := by
  have hspec := (hs.spec i _ hi).2 r trivial
  dsimp only at hspec
  rw [h] at hspec
  exact hspec.1 hop

end Next

/-- A route that is about to call the database is where it would be if it had
started now, or its transition would be refused now. -/
theorem Known.now (hs : Known haversineKm s) {i : Nat} {c : DbCmd}
    {k : Reply (.db c) → Trip Response} {log : TripLog}
    (hi : s.threads i = some ⟨op, .call (.db c) k, log⟩) (hop : op.IsRoute = true) :
    (TripsService.program haversineKm op).eval answered (.start s.world.db) =
        (Prog.call (.db c) k).eval answered (.start s.world.db) ∨
      ∃ id tgt row, op.target = some (id, tgt) ∧ s.world.db.findRide id = some row ∧
        canTransitionRideStatus row.status tgt = false := by
  have hstage := ((hs.spec i _ hi).1 hop).stage
  have hresumes := hs.resumes i _ hi
  have hstill := hs.still i _ hi
  have hrefused {id : String} {tgt : RideStatus} {row row' : RideRow}
      (htgt : op.target = some (id, tgt)) (hne : tgt ≠ .cancelled)
      (hcan : canTransitionRideStatus row.status tgt = true)
      (hrow' : s.world.db.findRide id = some row') (hlt : rank row.status < rank row'.status) :
      ∃ id tgt row, op.target = some (id, tgt) ∧ s.world.db.findRide id = some row ∧
        canTransitionRideStatus row.status tgt = false := by
    refine ⟨id, tgt, row', htgt, hrow', Bool.eq_false_iff.mpr fun hcan' => ?_⟩
    rw [sole_predecessor hne hcan hcan'] at hlt
    exact lt_irrefl _ hlt
  have hread {id : String} {row : RideRow} (hrow : s.world.db.findRide id = some row) :
      ∀ e ∈ ([⟨.db (.findRide id), .ok (some row)⟩] : TripLog),
        answered e.1 (.start s.world.db) = (e.2, .start s.world.db) := by
    intro e he
    cases List.mem_singleton.mp he
    exact answered_findRide hrow
  cases hstage with
  | unread => exact .inl (hresumes.eval fun _ => nofun)
  | @owner id caller row hget =>
      subst hget
      obtain ⟨row', hrow', hrider, -⟩ := hstill.1
      exact .inl (Forgets.now (getOtpForRider_forgets id row.riderId caller).bind hresumes hrow'
        rfl hrider)
  | @guarded id tgt row htgt hcan =>
      obtain ⟨row', hrow', -, rfl | hlt⟩ := hstill.1
      · exact .inl (hresumes.eval (hread hrow'))
      · by_cases hne : tgt = .cancelled
        · subst hne
          cases hcan' : canTransitionRideStatus row'.status .cancelled with
          | true => exact .inl ((program_forgets htgt).now hresumes hrow' hcan hcan')
          | false => exact .inr ⟨id, _, row', htgt, hrow', hcan'⟩
        · exact .inr (hrefused htgt hne hcan hrow' hlt)
  | @code id otp caller row code hstart hcan =>
      subst hstart
      obtain ⟨row', hrow', -, rfl | hlt⟩ := hstill.2.1
      · refine .inl (hresumes.eval fun e he => ?_)
        rcases List.mem_cons.mp he with rfl | he
        · refine answered_ok ?_
          show Except.ok ((s.world.db.findRide id).bind (·.otp), s.world.db) = _
          rw [hrow', hstill.1 row' (.head _) hrow']
          rfl
        · exact hread hrow' e he
      · exact .inr (hrefused rfl nofun hcan hrow' hlt)

/-- A route that commits in time does what it would do alone. -/
theorem Known.alone_of_transact (hs : Known haversineKm s) {i : Nat} {e : Exec}
    {k : Reply (.db (.transact e)) → Trip Response} {log : TripLog}
    (hi : s.threads i = some ⟨op, .call (.db (.transact e)) k, log⟩) (hop : op.IsRoute = true)
    (hpermits : s.world.db.Permits [e]) {row : RideRow}
    (hexec : s.world.db.exec (.transact e) = .ok (row, db)) :
    op.alone haversineKm s.world.db = (.ok (.ride (some (toDomain row))), db) := by
  obtain ⟨hasks, hspec⟩ := hs.spec i _ hi
  obtain ⟨hstage, he⟩ := hasks hop
  obtain ⟨id, tgt, options, rfl, htgt⟩ := he.target
  rcases hs.now hi hop with hnow | ⟨id', tgt', row', htgt', hrow', hcan⟩
  · have hrest := Prog.ends_of_wp (h := answered)
      (I := fun log w => committedRow log = some row ∧ w.db = db) ?_ (hspec (.ok row) trivial)
      (w := { (TripHost.start s.world.db) with db := db }) ⟨rfl, rfl⟩
    · obtain ⟨log', ⟨hrow, hdb⟩, hends⟩ := hrest
      rw [Prog.eval_call, answered_ok (w := .start s.world.db) hexec] at hnow
      unfold Op.alone
      rw [hnow]
      rcases hends with ⟨r, heq, hreturns⟩ | ⟨err, -, hfails⟩
      · obtain ⟨-, hmoved⟩ := hreturns hop
        obtain ⟨row', hrow', rfl⟩ := hmoved (by rw [htgt]; rfl)
        cases hrow.symm.trans hrow'
        exact Prod.ext heq hdb
      · cases hrow.symm.trans (hfails hop).1
    · rintro c log w hasks ⟨hrow, hdb⟩
      cases c with
      | db c => cases hrow.symm.trans (hasks hop).stage.uncommitted
      | park fields => exact (hasks hop).elim
      | patch driverId status => exact ⟨hrow, hdb⟩
  · rw [htgt] at htgt'
    cases htgt'
    cases (hpermits id tgt options row' (.head _) hrow').symm.trans hcan

/-- In a timely step a commit leaves what the whole operation leaves alone. -/
theorem Known.alone_of_commit (hs : Known haversineKm s) {t : TripPool} {a : TripAction}
    {log : TripLog} {key : Option ProcessedEventRow} {es : List Exec}
    (hc : CommitsAt s a op log key es) (hpermits : s.world.db.Permits es)
    (hstep : (machine haversineKm).Step s a t) :
    (op.alone haversineKm s.world.db).2 = t.world.db := by
  have hwrites := (hs.commit.writes hc).1
  have happ := hc.applied hstep
  obtain ⟨i, o, c, k, v, db', rfl, hi, -, hx, hcommits⟩ := hc
  cases key with
  | some key =>
      obtain ⟨event, eventId, hop, rfl, rfl⟩ := hwrites
      refine alone_of_event hop ?_ happ hpermits
      rintro envelope rfl
      cases Prog.Resumes.of_ret (hs.resumes i _ hi)
  | none =>
      obtain ⟨e, he, rfl⟩ := hwrites
      cases c with
      | transact e' =>
          cases hcommits
          obtain ⟨id, tgt, options, rfl, htarget⟩ := he.target
          rw [hs.alone_of_transact hi (Op.isRoute_of_target htarget) hpermits hx]
          exact Except.ok.inj ((TripDb.exec_of_commits rfl hx).symm.trans happ)
      | _ => cases hcommits

/-- A route that ends without a commit ends as it would alone, up to the reason
why it fails. -/
theorem Known.alone_of_read (hs : Known haversineKm s) {i : Nat} {c : DbCmd}
    {k : Reply (.db c) → Trip Response} {log : TripLog}
    (hi : s.threads i = some ⟨op, .call (.db c) k, log⟩) (hop : op.IsRoute = true)
    (hc : (Cmd.db c).commits = none) {v : DbValue c}
    (hexec : s.world.db.exec c = .ok (v, s.world.db)) :
    (∀ r, k (.ok v) = .ret r → op.alone haversineKm s.world.db = (.ok r, s.world.db)) ∧
      ∀ err, k (.ok v) = .throw err →
        ∃ err', op.alone haversineKm s.world.db = (.error err', s.world.db) := by
  have hasks := (hs.spec i _ hi).1
  have hnone : committedRow (⟨.db c, .ok v⟩ :: log) = none :=
    (committedRow_read hc).trans (hasks hop).stage.uncommitted
  rcases hs.now hi hop with hnow | ⟨id, tgt, row, htgt, hrow, hcan⟩
  · rw [Prog.eval_call, answered_ok (w := .start s.world.db) hexec] at hnow
    unfold Op.alone
    rw [hnow]
    constructor
    · intro r hr
      rw [hr]
      rfl
    · intro err herr
      rw [herr]
      exact ⟨err, rfl⟩
  · refine ⟨fun r hr => ?_, fun _ _ => alone_of_refused htgt hrow hcan⟩
    obtain ⟨row', hrow', -⟩ := (hs.returns hi hop hr).2 (by rw [htgt]; rfl)
    cases hnone.symm.trans hrow'

/-! ## Exactly the timely runs -/

/-- Whatever the step commits is what its whole operation would leave alone. -/
def CommitsAlone (haversineKm : GeoPoint → GeoPoint → Option Rat) (s : TripPool) (a : TripAction)
    (t : TripPool) : Prop :=
  ∀ op log key es, CommitsAt s a op log key es →
    (op.alone haversineKm s.world.db).2 = t.world.db

/-- An operation whose transition is not allowed leaves the database alone. -/
theorem alone_of_not_allowed {key : Option ProcessedEventRow} {id : String} {tgt : RideStatus}
    {options : TransitionOptions} {row : RideRow}
    (h : op.Writes key [.transition id tgt options]) (hrow : db.findRide id = some row)
    (hcan : canTransitionRideStatus row.status tgt = false) :
    (op.alone haversineKm db).2 = db := by
  cases key with
  | some key =>
      obtain ⟨event, eventId, hop, -, hwrites⟩ := h
      exact alone_of_event_refused hop hwrites.symm hrow hcan
  | none =>
      obtain ⟨e, he, heq⟩ := h
      cases heq
      obtain ⟨id', tgt', options', heq, htarget⟩ := he.target
      cases heq
      obtain ⟨err, halone⟩ : ∃ err, op.alone haversineKm db = (.error err, db) :=
        alone_of_refused htarget hrow hcan
      rw [halone]

/-- A commit that is not timely is not what its operation would do alone. -/
theorem Known.commitsAlone_iff (hs : Known haversineKm s) {t : TripPool} {a : TripAction}
    (hstep : (machine haversineKm).Step s a t) :
    CommitsAlone haversineKm s a t ↔ Timely s a t := by
  constructor
  · intro h op log key es hc id tgt options row hmem hrow
    by_contra hcan
    have hwrites := (hs.commit.writes hc).1
    have happ := hc.applied hstep
    rcases hwrites.cases with ⟨id', tgt', options', rfl, -, -⟩ | ⟨input, eventId, -, rfl⟩
    · cases List.mem_singleton.mp hmem
      have halone : (op.alone haversineKm s.world.db).2 = s.world.db :=
        alone_of_not_allowed hwrites hrow (Bool.eq_false_iff.mpr hcan)
      have htrail := applyCommit_trail happ
      rw [← h op log key _ hc, halone] at htrail
      cases List.self_eq_append_right.mp htrail
    · obtain ⟨db₁, hdb₁, happ⟩ := applyCommit_rows happ
      obtain ⟨hnone, -⟩ := applyAll_create happ
      have hid : id = input.id := by
        simp only [List.mem_cons, reduceCtorEq, Exec.transition.injEq, List.not_mem_nil,
          or_false, false_or] at hmem
        exact hmem.1
      rw [hdb₁, ← hid, hrow] at hnone
      cases hnone
  · intro ht op log key es hc
    exact hs.alone_of_commit hc (ht op log key es hc) hstep

/-- In a run each commit is what its operation would do alone exactly if the run
is timely. -/
theorem commitsAlone_iff_timely (haversineKm : GeoPoint → GeoPoint → Option Rat) (db : TripDb)
    (acts : List TripAction) :
    (machine haversineKm).Along (CommitsAlone haversineKm) (initial db) acts ↔
      (machine haversineKm).Along Timely (initial db) acts :=
  Machine.along_iff_of_invariant (initial_known haversineKm db)
    (fun _ _ _ hs ht hstep => hs.step ht hstep) fun _ _ _ hs hstep => hs.commitsAlone_iff hstep

end Now

end TripService

end RydTrip
