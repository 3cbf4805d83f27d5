import RydTrip.TripService.Steps

/-!
# Status safety under concurrency

A status write was allowed by what its operation read.  Whether it is safe only
depends on the status the row has at the commit: every target but CANCELLED has
a single predecessor, so an overtaken write is harmless only when it is a
cancellation or writes the status that is already there.
-/

namespace RydTrip

namespace TripService

open Process

/-! ## Status changes of a step -/

/-- Every ride keeps its row, and its status only changes along the table. -/
def StatusChangesAllowed (s : TripPool) (_ : TripAction) (t : TripPool) : Prop :=
  ∀ id row, s.world.db.findRide id = some row →
    ∃ row', t.world.db.findRide id = some row' ∧
      (row.status ≠ row'.status → canTransitionRideStatus row.status row'.status = true)

/-- A status write that commits finds the status that its operation has read, or
the one it writes, or it is a cancellation of a ride that can be cancelled. -/
def NotOvertaken (s : TripPool) (a : TripAction) (_ : TripPool) : Prop :=
  ∀ op log key es id tgt options row seen, CommitsAt s a op log key es →
    .transition id tgt options ∈ es → s.world.db.findRide id = some row →
    lastRead id log = some seen →
    row.status = seen ∨ row.status = tgt ∨ (tgt = .cancelled ∧ row.status.Cancellable)

section Steps

variable {haversineKm : GeoPoint → GeoPoint → Option Rat} {s t : TripPool} {a : TripAction}
  {op : Op} {log : TripLog} {key : Option ProcessedEventRow}

theorem statusChangesAllowed_of_findRide
    (h : ∀ id row, s.world.db.findRide id = some row → t.world.db.findRide id = some row) :
    StatusChangesAllowed s a t :=
  fun id row hrow => ⟨row, h id row hrow, fun hne => absurd rfl hne⟩

/-- A committed transition is allowed exactly when it was not overtaken. -/
theorem statusChangesAllowed_of_transition {id : String} {tgt : RideStatus}
    {options : TransitionOptions} (hc : CommitsAt s a op log key [.transition id tgt options])
    (hg : ReadAllows log id tgt) (hstep : (machine haversineKm).Step s a t) :
    StatusChangesAllowed s a t ↔ NotOvertaken s a t := by
  obtain ⟨seen, hseen, hcan⟩ := hg
  obtain ⟨db₁, hdb₁, happ⟩ := applyCommit_rows (hc.applied hstep)
  obtain ⟨row, row', reason, hrow, hrow', hfind⟩ := applyAll_transition happ
  rw [hdb₁] at hrow
  have hst : row'.status = tgt := by
    rw [hrow']
    rfl
  have hafter : t.world.db.findRide id = some row' := by rw [hfind, if_pos rfl]
  have hover := RideStatus.overtaken_iff row.status hcan
  constructor
  · intro h op' log' key' es' id' tgt' options' cur seen' hc' hmem hcur hseen'
    obtain ⟨rfl, rfl, rfl, rfl⟩ := hc.unique hc'
    cases List.mem_singleton.mp hmem
    rw [hrow] at hcur
    rw [hseen] at hseen'
    cases hcur
    cases hseen'
    obtain ⟨row'', hrow'', hallowed⟩ := h id row hrow
    rw [hafter] at hrow''
    cases hrow''
    rw [hst] at hallowed
    exact hover.mp hallowed
  · intro h id' cur hcur
    by_cases hid : id' = id
    · subst hid
      rw [hrow] at hcur
      cases hcur
      refine ⟨row', hafter, ?_⟩
      rw [hst]
      exact hover.mpr
        (h op log key _ id' tgt options row seen hc (List.mem_singleton.mpr rfl) hrow hseen)
    · refine ⟨cur, ?_, fun hne => absurd rfl hne⟩
      rw [hfind, if_neg hid, hdb₁]
      exact hcur

/-- The insert of a new ride changes no status. -/
theorem statusChangesAllowed_of_create {input : CreateRideInput}
    (hc : CommitsAt s a op log key [.create input, .transition input.id .matching {}])
    (hstep : (machine haversineKm).Step s a t) :
    StatusChangesAllowed s a t ↔ NotOvertaken s a t := by
  obtain ⟨db₁, hdb₁, happ⟩ := applyCommit_rows (hc.applied hstep)
  obtain ⟨hnone, -, hfind⟩ := applyAll_create happ
  rw [hdb₁] at hnone
  constructor
  · intro _ op' log' key' es' id tgt options row seen hc' hmem hrow _
    obtain ⟨-, -, -, rfl⟩ := hc.unique hc'
    have hid : id = input.id := by
      simp only [List.mem_cons, reduceCtorEq, Exec.transition.injEq, List.not_mem_nil,
        or_false, false_or] at hmem
      exact hmem.1
    rw [hid, hnone] at hrow
    cases hrow
  · intro _
    refine statusChangesAllowed_of_findRide fun id row hrow => ?_
    have hid : id ≠ input.id := by
      rintro rfl
      rw [hnone] at hrow
      cases hrow
    rw [hfind id hid, hdb₁]
    exact hrow

theorem statusChangesAllowed_iff (hs : ThreadsCommit s)
    (hstep : (machine haversineKm).Step s a t) :
    StatusChangesAllowed s a t ↔ NotOvertaken s a t := by
  by_cases hcom : ∃ op log key es, CommitsAt s a op log key es
  · obtain ⟨op, log, key, es, hc⟩ := hcom
    obtain ⟨hw, hg⟩ := hs.writes hc
    rcases hw.cases with ⟨id, tgt, options, rfl, -, -⟩ | ⟨input, eventId, -, rfl⟩
    · exact statusChangesAllowed_of_transition hc (hg id tgt options rfl) hstep
    · exact statusChangesAllowed_of_create hc hstep
  · push Not at hcom
    constructor
    · intro _ op log key es id tgt options row seen hc
      exact absurd hc (hcom op log key es)
    · intro _
      refine statusChangesAllowed_of_findRide fun id row hrow => ?_
      rw [(sameTables_of_not_commits hstep hcom).findRide]
      exact hrow

end Steps

/-! ## Runs -/

section Runs

variable (haversineKm : GeoPoint → GeoPoint → Option Rat)

/-- Once a ride has a terminal status, no later step of the run changes it. -/
def TerminalKept (s : TripPool) (acts : List TripAction) : Prop :=
  ∀ acts₁ acts₂ s₁ s₂ id row, acts = acts₁ ++ acts₂ → (machine haversineKm).run s acts₁ = some s₁ →
    (machine haversineKm).run s₁ acts₂ = some s₂ → s₁.world.db.findRide id = some row →
    row.status.Terminal → ∃ row', s₂.world.db.findRide id = some row' ∧ row'.status = row.status

/-- Ride status safety of a run. -/
def StatusSafe (s : TripPool) (acts : List TripAction) : Prop :=
  (machine haversineKm).Along StatusChangesAllowed s acts ∧ TerminalKept haversineKm s acts

variable {haversineKm}

theorem terminal_kept {s s' : TripPool} {acts : List TripAction} {id : String} {row : RideRow}
    (h : (machine haversineKm).Along StatusChangesAllowed s acts)
    (hrun : (machine haversineKm).run s acts = some s') (hrow : s.world.db.findRide id = some row)
    (hterm : row.status.Terminal) :
    ∃ row', s'.world.db.findRide id = some row' ∧ row'.status = row.status := by
  induction acts generalizing s row with
  | nil =>
      cases hrun
      exact ⟨row, hrow, rfl⟩
  | cons a acts ih =>
      rw [Machine.run_cons] at hrun
      obtain ⟨t, ht, hrun⟩ := Option.bind_eq_some_iff.mp hrun
      obtain ⟨row₁, hrow₁, hallowed⟩ := (h t ht).1 id row hrow
      have hsame : row.status = row₁.status := by
        by_contra hne
        rw [RideStatus.not_transition_of_terminal hterm] at hallowed
        exact absurd (hallowed hne) Bool.false_ne_true
      obtain ⟨row₂, hrow₂, hst⟩ := ih (h t ht).2 hrun hrow₁ (hsame ▸ hterm)
      exact ⟨row₂, hrow₂, hst.trans hsame.symm⟩

variable (haversineKm)

/-- Statuses are safe in exactly the runs in which no status write is overtaken. -/
theorem statusSafe_iff_not_overtaken (db : TripDb) (acts : List TripAction) :
    StatusSafe haversineKm (initial db) acts ↔
      (machine haversineKm).Along NotOvertaken (initial db) acts := by
  have hiff : (machine haversineKm).Along StatusChangesAllowed (initial db) acts ↔
      (machine haversineKm).Along NotOvertaken (initial db) acts :=
    Machine.along_congr (initial_threadsCommit db) (fun _ _ _ hs h => hs.step h)
      fun _ _ _ hs h => statusChangesAllowed_iff hs h
  refine ⟨fun h => hiff.mp h.1, fun h => ⟨hiff.mpr h, ?_⟩⟩
  rintro acts₁ acts₂ s₁ s₂ id row rfl hrun₁ hrun₂ hrow hterm
  exact terminal_kept ((hiff.mpr h).suffix hrun₁) hrun₂ hrow hterm

end Runs

/-! ## A driver's accept overtaken by a cancellation -/

/-- The ride is requested and matched, and one rider request and one driver
request have read it. -/
def acceptAndCancelRead : List TripAction :=
  [.spawn 0 (.handleRideRequested ⟨"r", "u", ⟨0, 0⟩, ⟨1, 1⟩⟩ 0), .run 0 {}, .run 0 {}, .run 0 {},
    .run 0 {}, .spawn 1 (.handleDriverReserved "r" "d" 1), .run 1 {}, .run 1 {}, .run 1 {},
    .run 1 {}, .spawn 2 (.accept "r" 7), .run 2 {}, .spawn 3 (.cancel "r" .undefined), .run 3 {}]

/-- The status of ride `r` at the end of a run from the empty database. -/
def statusAfter (acts : List TripAction) : Option RideStatus :=
  ((machine fun _ _ => some 0).run (initial .empty) acts).bind fun s =>
    (s.world.db.findRide "r").map (·.status)

theorem statusAfter_eq_some {acts : List TripAction} {status : RideStatus}
    (h : statusAfter acts = some status) :
    ∃ s row, (machine fun _ _ => some 0).run (initial .empty) acts = some s ∧
      s.world.db.findRide "r" = some row ∧ row.status = status := by
  obtain ⟨s, hrun, h⟩ := Option.bind_eq_some_iff.mp h
  obtain ⟨row, hrow, hst⟩ := Option.map_eq_some_iff.mp h
  exact ⟨s, row, hrun, hrow, hst⟩

/-- The cancellation commits first, the accept after it. -/
theorem not_statusSafe_accept_cancel :
    ¬ StatusSafe (fun _ _ => some 0) (initial .empty)
      (acceptAndCancelRead ++ [.run 3 {}, .run 2 {}]) := by
  rintro ⟨-, hkept⟩
  have hcancelled : statusAfter (acceptAndCancelRead ++ [.run 3 {}]) = some .cancelled := rfl
  have hrevived : statusAfter (acceptAndCancelRead ++ [.run 3 {}, .run 2 {}]) =
      some .driverArriving := rfl
  obtain ⟨s₁, row₁, hrun₁, hrow₁, hst₁⟩ := statusAfter_eq_some hcancelled
  obtain ⟨s₂, row₂, hrun₂, hrow₂, hst₂⟩ := statusAfter_eq_some hrevived
  have hsplit : acceptAndCancelRead ++ [.run 3 {}, .run 2 {}] =
      (acceptAndCancelRead ++ [.run 3 {}]) ++ [.run 2 {}] := rfl
  rw [hsplit, Machine.run_append, hrun₁] at hrun₂
  obtain ⟨row, hrow, hst⟩ := hkept _ _ s₁ s₂ "r" row₁ hsplit hrun₁ hrun₂ hrow₁ (by
    rw [hst₁]
    trivial)
  rw [hrow₂] at hrow
  cases hrow
  rw [hst₁, hst₂] at hst
  cases hst

end TripService

end RydTrip
