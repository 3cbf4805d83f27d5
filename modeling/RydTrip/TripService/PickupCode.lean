import RydTrip.TripService.Sequential

/-!
# Pickup codes

A ride starts with the code that its acceptance has minted, and only when the
caller, if there is one, is its driver.  `start_step` says so for operations
that run one at a time.  The code is gone afterwards, and `Gone.step` says that
it never comes back.
-/

namespace RydTrip

namespace TripService

open Process

/-! ## What `start` has checked -/

/-- The driver and the code that `start` has read before it commits. -/
def ChecksPassed (id otp : String) (caller : Option String) (log : TripLog) : Prop :=
  ∃ row, log = [⟨.db (.getOtp id), .ok (some otp)⟩, ⟨.db (.findRide id), .ok (some row)⟩] ∧
    ∀ driverId, truthy caller = some driverId → row.driverId = some driverId

/-- Every `start` commits after its checks. -/
def StartsChecked (s : TripPool) : Prop :=
  ∀ i th, s.threads i = some th →
    Commits (fun _ _ log => ∀ id otp caller, th.call = .start id otp caller →
      ChecksPassed id otp caller log) th.prog th.log

theorem commits_start_checked {id otp : String} {caller : Option String} :
    Commits (fun _ _ log => ChecksPassed id otp caller log) (TripsService.start id otp caller)
      [] := by
  have hE : ∀ (e : TripError) (log : TripLog), True := fun _ _ => trivial
  refine Prog.wp_seq (Prog.wp_seq (Prog.wp_seq (spec_query trivial (fun row _ => ?_) hE)))
  cases row with
  | none => trivial
  | some row =>
      refine Prog.wp_seq (spec_guardTransition (fun _ => ?_) hE)
      refine Prog.wp_seq (spec_guardCaller (fun hdriver => ?_) hE)
      refine Prog.wp_seq (spec_query trivial (fun storedOtp _ => ?_) hE)
      refine Prog.wp_seq (spec_guardOtp (fun hotp => ?_) hE)
      subst hotp
      refine Prog.wp_seq (spec_transact ⟨row, rfl, hdriver⟩ (fun _ _ => ?_) hE)
      exact Prog.wp_seq (spec_syncRideDriver fun _ _ => trivial)

section Steps

variable {haversineKm : GeoPoint → GeoPoint → Option Rat} {s t : TripPool} {a : TripAction}
  {op : Op} {log : TripLog} {key : Option ProcessedEventRow} {es : List Exec}

theorem StartsChecked.step (hs : StartsChecked s) (hstep : (machine haversineKm).Step s a t) :
    StartsChecked t := by
  refine Machine.obeys_step (m := machine haversineKm)
    (P := fun op => CommitsWithin fun _ _ log => ∀ id otp caller, op = .start id otp caller →
      ChecksPassed id otp caller log) ?_ ?_ hs hstep
  · rintro i op w p w' - ⟨⟩
    cases op with
    | start id otp caller =>
        have hprogram : Commits (fun _ _ log => ChecksPassed id otp caller log)
            (TripsService.program haversineKm (.start id otp caller)) [] :=
          Prog.Obeys.bind commits_start_checked fun _ _ => trivial
        refine hprogram.mono fun c log => CommitsWithin.mono fun key es log h => ?_
        rintro id' otp' caller' ⟨⟩
        exact h
    | _ =>
        exact (program_commits haversineKm _).mono fun c log =>
          CommitsWithin.mono fun key es log _ id otp caller h => by cases h
  · intro i o c r w' _ h
    exact replyKnown_of_exec (Option.some.inj h)

theorem StartsChecked.checked (hs : StartsChecked s) {id otp : String} {caller : Option String}
    (h : CommitsAt s a (.start id otp caller) log key es) : ChecksPassed id otp caller log := by
  obtain ⟨i, o, c, k, v, db, -, hi, -, -, hc⟩ := h
  have hcmd := (hs i _ hi).1
  cases c with
  | commit tx => exact hcmd id otp caller rfl
  | transact e => exact hcmd id otp caller rfl
  | _ => cases hc

/-! ## Where codes come from -/

/-- The statement of `accept`. -/
def acceptExec (id : String) (draw : Fin 10000) : Exec :=
  .transition id .driverArriving { otp := some (padOtp draw) }

/-- An acceptance of the ride has written the code that it has drawn. -/
def Minted (s : TripPool) (id code : String) : Prop :=
  ∃ i th draw, s.threads i = some th ∧ th.call = .accept id draw ∧ padOtp draw = code ∧
    ∃ e ∈ th.log, e.1 = .db (.transact (acceptExec id draw))

/-- Every code in the table was minted for its ride. -/
def CodesMinted (s : TripPool) : Prop :=
  ∀ id row code, s.world.db.findRide id = some row → row.otp = some code → Minted s id code

theorem Minted.step {id code : String} (h : Minted s id code)
    (hstep : (machine haversineKm).Step s a t) : Minted t id code := by
  obtain ⟨j, th, draw, hj, hcall, hcode, e, he, hcmd⟩ := h
  cases hstep with
  | @spawn i op p w hi hp =>
      have hne : j ≠ i := by
        rintro rfl
        rw [hi] at hj
        cases hj
      exact ⟨j, th, draw, (Function.update_of_ne hne ..).trans hj, hcall, hcode, e, he, hcmd⟩
  | env hw => exact ⟨j, th, draw, hj, hcall, hcode, e, he, hcmd⟩
  | @run i o op c k log r w hi hx =>
      by_cases hne : j = i
      · subst hne
        rw [hi] at hj
        cases hj
        exact ⟨j, _, draw, Function.update_self .., hcall, hcode, e, .tail _ he, hcmd⟩
      · exact ⟨j, th, draw, (Function.update_of_ne hne ..).trans hj, hcall, hcode, e, he, hcmd⟩

/-- A code in a row was there before or is written by the statement. -/
theorem Exec.apply_otp {e : Exec} {db db' : TripDb} {r : RideRow}
    (h : e.apply db = .ok (r, db')) {id code : String} {row' : RideRow}
    (hrow' : db'.findRide id = some row') (hotp : row'.otp = some code) :
    (∃ row, db.findRide id = some row ∧ row.otp = some code) ∨
      ∃ tgt options, e = .transition id tgt options ∧ options.otp = some code := by
  cases e with
  | create input =>
      obtain ⟨⟨created, db₁⟩, hc, heq⟩ := bind_eq_ok.mp h
      cases heq
      obtain ⟨-, -, -, -, hfind, -⟩ := TripDb.createRide_ok hc
      rw [TripDb.findRide_createTripEvent, hfind] at hrow'
      split at hrow'
      · unfold TripDb.createRide at hc
        split at hc
        · cases hc
        · cases hc
          cases hrow'
          cases hotp
      · exact .inl ⟨row', hrow', hotp⟩
  | transition id' tgt options =>
      obtain ⟨row, reason, hrow, -, rfl, hfind, -⟩ := Exec.transition_ok h
      rw [hfind] at hrow'
      split at hrow'
      next hid =>
        subst hid
        cases hrow'
        change ((options.data tgt reason).otp.getD row.otp) = some code at hotp
        unfold TransitionOptions.data at hotp
        cases hclear : options.clearOtp with
        | true =>
            rw [hclear] at hotp
            cases hotp
        | false =>
            rw [hclear] at hotp
            cases hcode : options.otp with
            | none =>
                rw [hcode] at hotp
                exact .inl ⟨row, hrow, hotp⟩
            | some code' =>
                rw [hcode] at hotp
                cases hotp
                exact .inr ⟨tgt, options, rfl, hcode⟩
      · exact .inl ⟨row', hrow', hotp⟩

theorem applyAll_otp {db db' : TripDb} (h : applyAll es db = .ok db') {id code : String}
    {row' : RideRow} (hrow' : db'.findRide id = some row') (hotp : row'.otp = some code) :
    (∃ row, db.findRide id = some row ∧ row.otp = some code) ∨
      ∃ tgt options, .transition id tgt options ∈ es ∧ options.otp = some code := by
  induction es generalizing db with
  | nil =>
      cases h
      exact .inl ⟨row', hrow', hotp⟩
  | cons e es ih =>
      obtain ⟨r, db₁, he, happ⟩ := applyAll_cons.mp h
      rcases ih happ with ⟨row, hrow, hcode⟩ | ⟨tgt, options, hmem, hcode⟩
      · rcases Exec.apply_otp he hrow hcode with hold | ⟨tgt, options, rfl, hcode⟩
        · exact .inl hold
        · exact .inr ⟨tgt, options, .head _, hcode⟩
      · exact .inr ⟨tgt, options, .tail _ hmem, hcode⟩

/-- A lone transition mints a code, clears it, or leaves it alone. -/
theorem Op.Writes.lone {id : String} {tgt : RideStatus} {options : TransitionOptions}
    (h : op.Writes key [.transition id tgt options]) :
    (∃ draw, op = .accept id draw ∧ tgt = .driverArriving ∧
        options = { otp := some (padOtp draw) }) ∨
      (∃ otp caller, op = .start id otp caller ∧ tgt = .inProgress ∧
        options = { clearOtp := true }) ∨
      (tgt ≠ .inProgress ∧ options.otp = none ∧ options.clearOtp = false) := by
  rcases h.single with ⟨id', tgt', options', heq, hsingle⟩ | ⟨input, -, -, heq⟩
  · cases heq
    cases hsingle with
    | accepted draw hop => exact .inl ⟨draw, hop, rfl, rfl⟩
    | started otp caller hop => exact .inr (.inl ⟨otp, caller, hop, rfl, rfl⟩)
    | arrived => exact .inr (.inr ⟨nofun, rfl, rfl⟩)
    | completed => exact .inr (.inr ⟨nofun, rfl, rfl⟩)
    | cancelled => exact .inr (.inr ⟨nofun, rfl, rfl⟩)
    | matched => exact .inr (.inr ⟨nofun, rfl, rfl⟩)
  · cases heq

/-- Only an acceptance writes a code. -/
theorem Op.Writes.code (h : op.Writes key es) {id code : String} {tgt : RideStatus}
    {options : TransitionOptions} (hmem : .transition id tgt options ∈ es)
    (hcode : options.otp = some code) :
    ∃ draw, op = .accept id draw ∧ padOtp draw = code ∧ es = [acceptExec id draw] := by
  rcases h.cases with ⟨id', tgt', options', rfl, -, -⟩ | ⟨input, eventId, -, rfl⟩
  · cases List.mem_singleton.mp hmem
    rcases h.lone with ⟨draw, hop, rfl, rfl⟩ | ⟨otp, caller, -, -, rfl⟩ | ⟨-, hnone, -⟩
    · exact ⟨draw, hop, Option.some.inj hcode, rfl⟩
    · cases hcode
    · rw [hnone] at hcode
      cases hcode
  · rcases List.mem_cons.mp hmem with heq | hmem
    · cases heq
    · cases List.mem_singleton.mp hmem
      cases hcode

/-- An operation that is no event handler commits by itself. -/
theorem Op.Writes.key_eq_none {id : String} {draw : Fin 10000}
    (h : (Op.accept id draw).Writes key es) : key = none := by
  cases key with
  | none => rfl
  | some key =>
      obtain ⟨event, eventId, hevent, -⟩ := h
      cases hevent

theorem CodesMinted.step (hs : CodesMinted s) (hcommit : ThreadsCommit s)
    (hstep : (machine haversineKm).Step s a t) : CodesMinted t := by
  intro id row' code hrow' hotp
  by_cases hcom : ∃ op log key es, CommitsAt s a op log key es
  · obtain ⟨op, log, key, es, hc⟩ := hcom
    obtain ⟨db₁, hdb₁, happ⟩ := applyCommit_rows (hc.applied hstep)
    rcases applyAll_otp happ hrow' hotp with ⟨row, hrow, hcode⟩ | ⟨tgt, options, hmem, hcode⟩
    · rw [hdb₁] at hrow
      exact (hs id row code hrow hcode).step hstep
    · have hwrites := (hcommit.writes hc).1
      obtain ⟨draw, rfl, rfl, rfl⟩ := hwrites.code hmem hcode
      obtain rfl := hwrites.key_eq_none
      obtain ⟨i, o, c, k, v, db, rfl, hi, -, -, hcmd⟩ := hc
      have hcmd : c = .transact (acceptExec id draw) := by
        cases c with
        | commit tx => cases hcmd
        | transact e =>
            cases hcmd
            rfl
        | _ => cases hcmd
      subst hcmd
      cases hstep with
      | run hi' hx =>
          rw [hi] at hi'
          cases hi'
          exact ⟨i, _, draw, Function.update_self .., rfl, rfl, _, .head _, rfl⟩
  · push Not at hcom
    rw [(sameTables_of_not_commits hstep hcom).findRide] at hrow'
    exact (hs id row' code hrow' hotp).step hstep

/-! ## Rides that have started -/

/-- The ride has started and its code is gone. -/
def Gone (db : TripDb) (id : String) : Prop :=
  ∃ row, db.findRide id = some row ∧ (row.status = .inProgress ∨ row.status = .completed) ∧
    row.otp = none

/-- Nothing but the completion follows. -/
theorem Gone.step {id : String} (h : Gone s.world.db id) (hs : Sequential s) (hturn : InTurn s a)
    (hstep : (machine haversineKm).Step s a t) : Gone t.world.db id := by
  obtain ⟨row, hrow, hstatus, hotp⟩ := h
  by_cases hcom : ∃ op log key es, CommitsAt s a op log key es
  · obtain ⟨op, log, key, es, hc⟩ := hcom
    obtain ⟨db₁, hdb₁, happ⟩ := applyCommit_rows (hc.applied hstep)
    have hwrites := (hs.commit.writes hc).1
    rcases hwrites.cases with ⟨id', tgt, options, rfl, -, -⟩ | ⟨input, eventId, -, rfl⟩
    · obtain ⟨row₀, row', reason, hrow₀, rfl, hfind⟩ := applyAll_transition happ
      by_cases hid : id = id'
      · subst hid
        obtain ⟨seen, hseen, hcan⟩ := hs.allowed hturn hc
        rw [hrow] at hseen
        cases hseen
        rw [hdb₁, hrow] at hrow₀
        cases hrow₀
        have htgt : tgt = .completed := by
          rcases hstatus with hst | hst
          · rw [hst] at hcan
            revert hcan
            cases tgt <;> decide
          · rw [hst] at hcan
            revert hcan
            cases tgt <;> decide
        subst htgt
        rcases hwrites.lone with ⟨draw, -, htgt, -⟩ | ⟨otp, caller, -, htgt, -⟩ | ⟨-, hnone, hkeep⟩
        · cases htgt
        · cases htgt
        · refine ⟨_, (hfind id).trans (if_pos rfl), .inr rfl, ?_⟩
          change (options.data .completed reason).otp.getD row.otp = none
          rw [TransitionOptions.data, hnone, hkeep]
          exact hotp
      · refine ⟨row, ?_, hstatus, hotp⟩
        rw [hfind, if_neg hid, hdb₁, hrow]
    · obtain ⟨hnone, -, hfind⟩ := applyAll_create happ
      have hid : id ≠ input.id := by
        rintro rfl
        rw [hdb₁, hrow] at hnone
        cases hnone
      refine ⟨row, ?_, hstatus, hotp⟩
      rw [hfind id hid, hdb₁, hrow]
  · push Not at hcom
    refine ⟨row, ?_, hstatus, hotp⟩
    rw [(sameTables_of_not_commits hstep hcom).findRide, hrow]

/-- The ride becomes IN_PROGRESS. -/
def Starts (id : String) (s t : TripPool) : Prop :=
  (∃ row, t.world.db.findRide id = some row ∧ row.status = .inProgress) ∧
    ¬ ∃ row, s.world.db.findRide id = some row ∧ row.status = .inProgress

/-- What holds of every pool that is reached in turn from an empty table. -/
structure PickupInv (s : TripPool) : Prop where
  sequential : Sequential s
  checked : StartsChecked s
  minted : CodesMinted s

theorem initial_pickupInv : PickupInv (initial .empty) where
  sequential := initial_sequential .empty
  checked := by
    rintro i th ⟨⟩
  minted := by
    rintro id row code ⟨⟩

theorem PickupInv.step (hs : PickupInv s) (hturn : InTurn s a)
    (hstep : (machine haversineKm).Step s a t) : PickupInv t :=
  ⟨hs.sequential.step hturn hstep, hs.checked.step hstep,
    hs.minted.step hs.sequential.commit hstep⟩

/-- The step is taken by a call of `start` with the code that was minted for the
ride and is stored, for the driver of the ride if the caller is known. -/
def StartedWithCode (id : String) (s : TripPool) (a : TripAction) : Prop :=
  ∃ i o th otp caller row, a = .run i o ∧ s.threads i = some th ∧
    th.call = .start id otp caller ∧ s.world.db.findRide id = some row ∧ row.otp = some otp ∧
    (∀ driverId, truthy caller = some driverId → row.driverId = some driverId) ∧ Minted s id otp

/-- A step that starts the ride is a call of `start`. -/
theorem Starts.commit {id : String} (h : Starts id s t) (hs : ThreadsCommit s)
    (hstep : (machine haversineKm).Step s a t) :
    ∃ otp caller log key, CommitsAt s a (.start id otp caller) log key
      [.transition id .inProgress { clearOtp := true }] := by
  obtain ⟨⟨row', hrow', hstatus⟩, hnew⟩ := h
  have hsame {row : RideRow} (hrow : s.world.db.findRide id = some row) : row' ≠ row := by
    rintro rfl
    exact hnew ⟨row', hrow, hstatus⟩
  by_cases hcom : ∃ op log key es, CommitsAt s a op log key es
  · obtain ⟨op, log, key, es, hc⟩ := hcom
    obtain ⟨db₁, hdb₁, happ⟩ := applyCommit_rows (hc.applied hstep)
    have hwrites := (hs.writes hc).1
    rcases hwrites.cases with ⟨id', tgt, options, rfl, -, -⟩ | ⟨input, eventId, -, rfl⟩
    · obtain ⟨row₀, row₁, reason, hrow₀, rfl, hfind⟩ := applyAll_transition happ
      rw [hfind] at hrow'
      split at hrow'
      next hid =>
        subst hid
        cases hrow'
        have htgt : tgt = .inProgress := hstatus
        subst htgt
        rcases hwrites.lone with ⟨draw, -, htgt, -⟩ | ⟨otp, caller, rfl, -, rfl⟩ | ⟨hne, -⟩
        · cases htgt
        · exact ⟨otp, caller, log, key, hc⟩
        · exact absurd rfl hne
      next hid =>
        rw [hdb₁] at hrow'
        exact absurd rfl (hsame hrow')
    · obtain ⟨-, ⟨created, hcreated, hmatching⟩, hfind⟩ := applyAll_create happ
      by_cases hid : id = input.id
      · rw [hid, hcreated] at hrow'
        cases hrow'
        rw [hmatching] at hstatus
        cases hstatus
      · rw [hfind id hid, hdb₁] at hrow'
        exact absurd rfl (hsame hrow')
  · push Not at hcom
    rw [(sameTables_of_not_commits hstep hcom).findRide] at hrow'
    exact absurd rfl (hsame hrow')

/-- In turn, a ride is only started with its code, for its driver, and then the
code is gone. -/
theorem PickupInv.start {id : String} (hs : PickupInv s) (hturn : InTurn s a)
    (hstep : (machine haversineKm).Step s a t) (h : Starts id s t) :
    StartedWithCode id s a ∧ Gone t.world.db id := by
  obtain ⟨otp, caller, log, key, hc⟩ := h.commit hs.sequential.commit hstep
  obtain ⟨seen, rfl, hdriver⟩ := hs.checked.checked hc
  obtain ⟨db₁, hdb₁, happ⟩ := applyCommit_rows (hc.applied hstep)
  obtain ⟨row, row', reason, hrow, rfl, hfind⟩ := applyAll_transition happ
  rw [hdb₁] at hrow
  refine ⟨?_, _, (hfind id).trans (if_pos rfl), .inl rfl, rfl⟩
  obtain ⟨i, o, c, k, v, db, rfl, hi, -⟩ := hc
  have hcurrent := hs.sequential.current i _ hi hturn
  have hseen : some seen = s.world.db.findRide id := hcurrent _ (.tail _ (.head _))
  have hotp : some otp = (s.world.db.findRide id).bind (·.otp) := hcurrent _ (.head _)
  rw [← hseen] at hrow hotp
  cases hrow
  exact ⟨i, o, _, otp, caller, seen, rfl, hi, rfl, hseen.symm, hotp.symm, hdriver,
    hs.minted id seen otp hseen.symm hotp.symm⟩

end Steps

end TripService

end RydTrip
