import RydTrip.TripService.Steps

/-!
# The audit trail

Every status write goes through `create` or `transition`, which append a row to
`trip_events` in the same transaction, whether it is their own or that of an
event.  So the trail lists the committed status writes, and it does so even
where a write was not a legal transition.
-/

namespace RydTrip

namespace TripService

open Process

/-! ## Trails -/

/-- The trail, oldest first: the ride and the type of each row. -/
def TripDb.trail (db : TripDb) : List (String × String) :=
  db.tripEvents.map fun event => (event.rideId, event.eventType)

/-- The part of a trail that is about one ride. -/
def trailOf (id : String) (trail : List (String × String)) : List String :=
  (trail.filter fun entry => entry.1 = id).map (·.2)

/-- The ride and the status that a statement writes. -/
def Exec.write : Exec → String × RideStatus
  | .create input => (input.id, .requested)
  | .transition id tgt _ => (id, tgt)

/-- The entry of a status write. -/
def auditEntry (write : String × RideStatus) : String × String :=
  (write.1, eventTypeForStatus write.2)

/-- The status that an entry stands for. -/
def statusForEventType (eventType : String) : Option RideStatus :=
  [.requested, .matching, .matched, .driverArriving, .driverArrived, .inProgress, .completed,
    .cancelled].find? fun status => eventTypeForStatus status = eventType

/-- No two statuses have the same type. -/
theorem statusForEventType_eventTypeForStatus (status : RideStatus) :
    statusForEventType (eventTypeForStatus status) = some status := by
  cases status <;> decide

/-- The status of a ride, read off its trail alone. -/
def replay (trail : List String) : Option RideStatus := trail.getLast?.bind statusForEventType

theorem trailOf_append (id : String) (trail trail' : List (String × String)) :
    trailOf id (trail ++ trail') = trailOf id trail ++ trailOf id trail' := by
  unfold trailOf
  rw [List.filter_append, List.map_append]

theorem trailOf_entry_self (id : String) (tgt : RideStatus) :
    trailOf id [auditEntry (id, tgt)] = [eventTypeForStatus tgt] := by
  simp [trailOf, auditEntry]

theorem trailOf_entry_of_ne {id id' : String} (hne : id ≠ id') (tgt : RideStatus) :
    trailOf id [auditEntry (id', tgt)] = [] := by
  simp [trailOf, auditEntry, Ne.symm hne]

/-! ## What a commit appends -/

theorem Exec.apply_trail {e : Exec} {db db' : TripDb} {row : RideRow}
    (h : e.apply db = .ok (row, db')) : db'.trail = db.trail ++ [auditEntry e.write] := by
  cases e with
  | create input =>
      obtain ⟨-, -, -, -, -, htrail, -⟩ := Exec.create_ok h
      unfold TripDb.trail
      rw [htrail, List.map_append]
      rfl
  | transition id tgt options =>
      obtain ⟨-, reason, -, -, -, -, htrail, -⟩ := Exec.transition_ok h
      unfold TripDb.trail
      rw [htrail, List.map_append]
      rfl

theorem applyAll_trail {es : List Exec} {db db' : TripDb} (h : applyAll es db = .ok db') :
    db'.trail = db.trail ++ es.map fun e => auditEntry e.write := by
  induction es generalizing db with
  | nil =>
      cases h
      exact (List.append_nil _).symm
  | cons e es ih =>
      obtain ⟨row, db₁, he, h⟩ := applyAll_cons.mp h
      rw [ih h, Exec.apply_trail he, List.append_assoc]
      rfl

theorem createProcessedEvent_trail {db db' : TripDb} {key : ProcessedEventRow}
    (h : db.createProcessedEvent key = .ok db') : db'.trail = db.trail := by
  unfold TripDb.createProcessedEvent at h
  split at h
  · cases h
  · cases h
    rfl

/-- A commit appends one entry for each status it writes. -/
theorem applyCommit_trail {key : Option ProcessedEventRow} {es : List Exec} {db db' : TripDb}
    (h : applyCommit key es db = .ok db') :
    db'.trail = db.trail ++ es.map fun e => auditEntry e.write := by
  cases key with
  | none => exact applyAll_trail h
  | some key =>
      obtain ⟨db₁, hpe, happ⟩ := Tx.commit_ok.mp h
      rw [applyAll_trail happ, createProcessedEvent_trail hpe]

/-! ## Committed status writes -/

/-- The statements that an action makes permanent, if it commits. -/
def committed (s : TripPool) : TripAction → List Exec
  | .run i o =>
      match s.threads i with
      | some ⟨_, .call (.db c) _, _⟩ =>
          if o.fault.isRefused || !(s.world.db.exec c).isOk then []
          else ((Cmd.db c).commits.map (·.2)).getD []
      | _ => []
  | _ => []

section Steps

variable {haversineKm : GeoPoint → GeoPoint → Option Rat} {s t : TripPool} {a : TripAction}
  {op : Op} {log : TripLog} {key : Option ProcessedEventRow} {es : List Exec}

theorem CommitsAt.committed (h : CommitsAt s a op log key es) : committed s a = es := by
  obtain ⟨i, o, c, k, v, db, rfl, hi, hfault, hx, hc⟩ := h
  have hnot : o.fault.isRefused = false := by
    cases hf : o.fault with
    | refused message => exact absurd hf (hfault message)
    | none => rfl
    | lost message => rfl
  simp [TripService.committed, hi, hnot, hx, hc, Except.isOk, Except.toBool]

theorem committed_eq_nil (h : ∀ op log key es, ¬ CommitsAt s a op log key es) :
    committed s a = [] := by
  cases a with
  | spawn i call => rfl
  | env u => rfl
  | run i o =>
      unfold TripService.committed
      dsimp only
      split
      next op c k log hi =>
        split
        next => rfl
        next hok =>
          rw [Bool.or_eq_true, not_or] at hok
          cases hc : (Cmd.db c).commits with
          | none => rfl
          | some p =>
              cases hx : s.world.db.exec c with
              | error err =>
                  rw [hx] at hok
                  exact absurd rfl hok.2
              | ok q =>
                  refine absurd ⟨i, o, c, k, q.1, q.2, rfl, hi, fun message hf => ?_, hx, hc⟩
                    (h _ _ _ _)
                  rw [hf] at hok
                  exact hok.1 rfl
      next => rfl

/-- A step appends to the trail what it commits. -/
theorem trail_step (hstep : (machine haversineKm).Step s a t) :
    t.world.db.trail = s.world.db.trail ++ (committed s a).map fun e => auditEntry e.write := by
  by_cases hcom : ∃ op log key es, CommitsAt s a op log key es
  · obtain ⟨op, log, key, es, hc⟩ := hcom
    rw [applyCommit_trail (hc.applied hstep), hc.committed]
  · push Not at hcom
    rw [committed_eq_nil hcom, List.map_nil, List.append_nil]
    unfold TripDb.trail
    rw [(sameTables_of_not_commits hstep hcom).tripEvents]

end Steps

/-! ## Rides and their trails -/

/-- A ride without a row has no trail.  The trail of any other starts with the
entries of its insert and ends with the status of its row. -/
structure Trailed (db : TripDb) : Prop where
  absent : ∀ id, db.findRide id = none → trailOf id db.trail = []
  present : ∀ id row, db.findRide id = some row →
    [eventTypeForStatus .requested, eventTypeForStatus .matching] <+: trailOf id db.trail ∧
      (trailOf id db.trail).getLast? = some (eventTypeForStatus row.status)

theorem trailed_empty : Trailed .empty where
  absent _ _ := rfl
  present id row h := by cases h

section Trails

variable {haversineKm : GeoPoint → GeoPoint → Option Rat} {s t : TripPool} {a : TripAction}

/-- The same rides with the same trails. -/
theorem Trailed.same {db db' : TripDb} (h : Trailed db)
    (hfind : ∀ id, db'.findRide id = db.findRide id) (htrail : db'.trail = db.trail) :
    Trailed db' where
  absent id hnone := by
    rw [htrail]
    exact h.absent id (hfind id ▸ hnone)
  present id row hrow := by
    rw [htrail]
    exact h.present id row (hfind id ▸ hrow)

/-- A transition adds the entry of the status it writes. -/
theorem Trailed.transition {db db' : TripDb} (h : Trailed db) {rideId : String} {tgt : RideStatus}
    {options : TransitionOptions}
    (happ : applyAll [.transition rideId tgt options] db = .ok db') : Trailed db' := by
  have htrail : db'.trail = db.trail ++ [auditEntry (rideId, tgt)] := applyAll_trail happ
  obtain ⟨row, row', reason, hrow, hrow', hfind⟩ := applyAll_transition happ
  have hother {id : String} (hne : id ≠ rideId) :
      db'.findRide id = db.findRide id ∧ trailOf id db'.trail = trailOf id db.trail := by
    rw [hfind, if_neg hne, htrail, trailOf_append, trailOf_entry_of_ne hne, List.append_nil]
    exact ⟨rfl, rfl⟩
  constructor
  · intro id hnone
    by_cases hid : id = rideId
    · subst hid
      rw [hfind, if_pos rfl] at hnone
      cases hnone
    · rw [(hother hid).2]
      exact h.absent id ((hother hid).1 ▸ hnone)
  · intro id cur hcur
    by_cases hid : id = rideId
    · subst hid
      rw [hfind, if_pos rfl] at hcur
      cases hcur
      rw [htrail, trailOf_append, trailOf_entry_self]
      refine ⟨(h.present id row hrow).1.trans (List.prefix_append _ _), ?_⟩
      rw [List.getLast?_concat, hrow']
      rfl
    · rw [(hother hid).2]
      exact h.present id cur ((hother hid).1 ▸ hcur)

/-- The insert of a ride starts its trail. -/
theorem Trailed.create {db db' : TripDb} (h : Trailed db) {input : CreateRideInput}
    (happ : applyAll [.create input, .transition input.id .matching {}] db = .ok db') :
    Trailed db' := by
  have htrail : db'.trail = db.trail ++
      [auditEntry (input.id, .requested), auditEntry (input.id, .matching)] := applyAll_trail happ
  obtain ⟨hnone, ⟨row', hrow', hst⟩, hfind⟩ := applyAll_create happ
  have hsplit : [auditEntry (input.id, .requested), auditEntry (input.id, .matching)] =
      [auditEntry (input.id, .requested)] ++ [auditEntry (input.id, .matching)] := rfl
  have hother {id : String} (hne : id ≠ input.id) : trailOf id db'.trail = trailOf id db.trail := by
    rw [htrail, hsplit, trailOf_append, trailOf_append, trailOf_entry_of_ne hne,
      trailOf_entry_of_ne hne, List.append_nil, List.append_nil]
  constructor
  · intro id hnone'
    by_cases hid : id = input.id
    · subst hid
      rw [hrow'] at hnone'
      cases hnone'
    · rw [hother hid]
      exact h.absent id (hfind id hid ▸ hnone')
  · intro id cur hcur
    by_cases hid : id = input.id
    · subst hid
      rw [hrow'] at hcur
      cases hcur
      rw [htrail, hsplit, trailOf_append, trailOf_append, h.absent _ hnone, trailOf_entry_self,
        trailOf_entry_self, hst]
      exact ⟨List.prefix_refl _, rfl⟩
    · rw [hother hid]
      exact h.present id cur (hfind id hid ▸ hcur)

theorem Trailed.step (h : Trailed s.world.db) (hs : ThreadsCommit s)
    (hstep : (machine haversineKm).Step s a t) : Trailed t.world.db := by
  by_cases hcom : ∃ op log key es, CommitsAt s a op log key es
  · obtain ⟨op, log, key, es, hc⟩ := hcom
    have happ := hc.applied hstep
    obtain ⟨db₁, hsame, happ₁⟩ : ∃ db₁, Trailed db₁ ∧ applyAll es db₁ = .ok t.world.db := by
      cases key with
      | none => exact ⟨_, h, happ⟩
      | some key =>
          obtain ⟨db₁, hpe, happ⟩ := Tx.commit_ok.mp happ
          exact ⟨db₁, h.same (TripDb.findRide_createProcessedEvent hpe)
            (createProcessedEvent_trail hpe), happ⟩
    rcases (hs.writes hc).1.cases with ⟨id, tgt, options, rfl, -, -⟩ | ⟨input, eventId, -, rfl⟩
    · exact hsame.transition happ₁
    · exact hsame.create happ₁
  · push Not at hcom
    have hsame := sameTables_of_not_commits hstep hcom
    refine h.same hsame.findRide ?_
    unfold TripDb.trail
    rw [hsame.tripEvents]

end Trails

/-! ## Runs -/

section Runs

variable (haversineKm : GeoPoint → GeoPoint → Option Rat)

/-- The statuses that a run commits for a ride, oldest first. -/
def statusWrites (id : String) : TripPool → List TripAction → List RideStatus
  | _, [] => []
  | s, a :: acts =>
      ((committed s a).filter fun e => e.write.1 = id).map (·.write.2) ++
        ((machine haversineKm).next s a).elim [] fun t => statusWrites id t acts

variable {haversineKm}

theorem trailOf_map_auditEntry (id : String) (es : List Exec) :
    trailOf id (es.map fun e => auditEntry e.write) =
      ((es.filter fun e => e.write.1 = id).map (·.write.2)).map eventTypeForStatus := by
  unfold trailOf
  rw [List.filter_map, List.map_map, List.map_map]
  rfl

/-- The trail lists the committed status writes. -/
theorem trailOf_run {s s' : TripPool} {acts : List TripAction} (id : String)
    (hrun : (machine haversineKm).run s acts = some s') :
    trailOf id s'.world.db.trail = trailOf id s.world.db.trail ++
      (statusWrites haversineKm id s acts).map eventTypeForStatus := by
  induction acts generalizing s with
  | nil =>
      cases hrun
      exact (List.append_nil _).symm
  | cons a acts ih =>
      rw [Machine.run_cons] at hrun
      obtain ⟨t, ht, hrun⟩ := Option.bind_eq_some_iff.mp hrun
      rw [ih hrun, trail_step ((machine haversineKm).step_of_next ht), trailOf_append,
        trailOf_map_auditEntry, statusWrites, ht, List.append_assoc, List.map_append]
      rfl

/-- In every state that can be reached from an empty database, the trail of a
ride starts with its request and its search, has one row for each committed
status write, and gives its status back. -/
theorem auditTrail_replays {acts : List TripAction} {s : TripPool}
    (hrun : (machine haversineKm).run (initial .empty) acts = some s) {id : String} {row : RideRow}
    (hrow : s.world.db.findRide id = some row) :
    ["ride.requested", "ride.matching"] <+: trailOf id s.world.db.trail ∧
      trailOf id s.world.db.trail =
        (statusWrites haversineKm id (initial .empty) acts).map eventTypeForStatus ∧
      (trailOf id s.world.db.trail).getLast? = some (eventTypeForStatus row.status) ∧
      replay (trailOf id s.world.db.trail) = some row.status := by
  have hinv := Machine.run_invariant' (I := fun s => ThreadsCommit s ∧ Trailed s.world.db)
    ⟨initial_threadsCommit .empty, trailed_empty⟩
    (fun _ _ _ hs hstep => ⟨hs.1.step hstep, hs.2.step hs.1 hstep⟩) hrun
  obtain ⟨hbegin, hlast⟩ := hinv.2.present id row hrow
  refine ⟨hbegin, trailOf_run id hrun, hlast, ?_⟩
  unfold replay
  rw [hlast]
  exact statusForEventType_eventTypeForStatus row.status

/-- A ride is requested and matched. -/
def requestAndMatch : List TripAction :=
  [.spawn 0 (.handleRideRequested ⟨"r", "u", ⟨0, 0⟩, ⟨1, 1⟩⟩ 0), .run 0 {}, .run 0 {}, .run 0 {},
    .run 0 {}, .spawn 1 (.handleDriverReserved "r" "d" 1), .run 1 {}, .run 1 {}, .run 1 {},
    .run 1 {}]

/-- The trail of a ride that is requested and matched. -/
theorem auditTrail_replays_matched : ∃ s row,
    (machine fun _ _ => some 0).run (initial .empty) requestAndMatch = some s ∧
      s.world.db.findRide "r" = some row ∧ row.status = .matched ∧
      replay (trailOf "r" s.world.db.trail) = some row.status := by
  have hrun : (machine fun _ _ => some 0).run (initial .empty) requestAndMatch = some _ := rfl
  exact ⟨_, _, hrun, rfl, rfl, (auditTrail_replays hrun rfl).2.2.2⟩

end Runs

end TripService

end RydTrip
