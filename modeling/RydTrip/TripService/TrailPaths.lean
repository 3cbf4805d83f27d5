import RydTrip.TripService.AuditTrail
import RydTrip.TripService.Sequential
import Mathlib.Data.List.Chain
import Mathlib.Data.Fintype.Card

/-!
# Trails are paths

As long as operations execute one at a time, the trail of a ride is a path of
the state machine from the request to the status of the ride.  The machine has
no way back, so no status comes twice and a trail has at most seven rows.
-/

namespace RydTrip

namespace TripService

open Process

/-! ## Paths of the state machine -/

/-- How far along a ride is.  Both ends are equally far. -/
def rank : RideStatus → Fin 7
  | .requested => 0
  | .matching => 1
  | .matched => 2
  | .driverArriving => 3
  | .driverArrived => 4
  | .inProgress => 5
  | .completed => 6
  | .cancelled => 6

/-- There is no way back. -/
theorem rank_lt_of_transition {src tgt : RideStatus} (h : canTransitionRideStatus src tgt = true) :
    rank src < rank tgt := by
  revert h
  cases src <;> cases tgt <;> decide

/-- A path of the state machine. -/
def IsPath (statuses : List RideStatus) : Prop :=
  statuses.IsChain fun src tgt => canTransitionRideStatus src tgt = true

theorem IsPath.pairwise {statuses : List RideStatus} (h : IsPath statuses) :
    (statuses.map rank).Pairwise (· < ·) :=
  List.isChain_iff_pairwise.mp
    (List.isChain_map_of_isChain rank (fun _ _ => rank_lt_of_transition) h)

/-- A path comes to each status once. -/
theorem IsPath.nodup {statuses : List RideStatus} (h : IsPath statuses) : statuses.Nodup :=
  List.Nodup.of_map _ (h.pairwise.imp fun hlt => ne_of_lt hlt)

theorem IsPath.length_le {statuses : List RideStatus} (h : IsPath statuses) :
    statuses.length ≤ 7 := by
  have hnodup : (statuses.map rank).Nodup := h.pairwise.imp fun hlt => ne_of_lt hlt
  have hcard := hnodup.length_le_card
  rwa [List.length_map, Fintype.card_fin] at hcard

/-- A path goes on with a transition from its end. -/
theorem IsPath.concat {statuses : List RideStatus} {src tgt : RideStatus} (h : IsPath statuses)
    (hlast : statuses.getLast? = some src) (hcan : canTransitionRideStatus src tgt = true) :
    IsPath (statuses ++ [tgt]) := by
  refine List.IsChain.append h (List.isChain_singleton _) fun x hx y hy => ?_
  cases hlast.symm.trans hx
  cases hy
  exact hcan

theorem eventTypeForStatus_injective : Function.Injective eventTypeForStatus := by
  intro a b h
  have hsome := congrArg statusForEventType h
  rw [statusForEventType_eventTypeForStatus, statusForEventType_eventTypeForStatus] at hsome
  exact Option.some.inj hsome

/-! ## The invariant -/

/-- The trail of the ride is a path to the status. -/
def PathTo (trail : List String) (status : RideStatus) : Prop :=
  ∃ statuses, trail = statuses.map eventTypeForStatus ∧ IsPath statuses ∧
    statuses.head? = some .requested ∧ statuses.getLast? = some status

/-- The trails of all rides are paths, and those of others are empty. -/
structure Pathed (db : TripDb) : Prop where
  absent : ∀ id, db.findRide id = none → trailOf id db.trail = []
  present : ∀ id row, db.findRide id = some row → PathTo (trailOf id db.trail) row.status

theorem pathed_empty : Pathed .empty where
  absent _ _ := rfl
  present id row h := by cases h

theorem Pathed.same {db db' : TripDb} (h : Pathed db)
    (hfind : ∀ id, db'.findRide id = db.findRide id) (htrail : db'.trail = db.trail) :
    Pathed db' where
  absent id hnone := htrail ▸ h.absent id (hfind id ▸ hnone)
  present id row hrow := htrail ▸ h.present id row (hfind id ▸ hrow)

/-- A transition that the status of the ride allows makes its path longer. -/
theorem Pathed.transition {db db' : TripDb} (h : Pathed db) {rideId : String} {tgt : RideStatus}
    {options : TransitionOptions} {row : RideRow} (hrow : db.findRide rideId = some row)
    (hcan : canTransitionRideStatus row.status tgt = true)
    (happ : applyAll [.transition rideId tgt options] db = .ok db') : Pathed db' := by
  have htrail : db'.trail = db.trail ++ [auditEntry (rideId, tgt)] := applyAll_trail happ
  obtain ⟨old, new, reason, hold, hnew, hfind⟩ := applyAll_transition happ
  cases hrow.symm.trans hold
  have hother {id : String} (hne : id ≠ rideId) :
      db'.findRide id = db.findRide id ∧ trailOf id db'.trail = trailOf id db.trail := by
    rw [hfind, if_neg hne, htrail, trailOf_append, trailOf_entry_of_ne hne, List.append_nil]
    exact ⟨rfl, rfl⟩
  constructor
  · intro id hnone
    by_cases hid : id = rideId
    · subst hid
      rw [hfind, if_pos rfl] at hnone
      cases hnone
    · rw [(hother hid).2]
      exact h.absent id ((hother hid).1 ▸ hnone)
  · intro id cur hcur
    by_cases hid : id = rideId
    · subst hid
      rw [hfind, if_pos rfl] at hcur
      cases hcur
      obtain ⟨statuses, heq, hpath, hhead, hlast⟩ := h.present id row hrow
      refine ⟨statuses ++ [tgt], ?_, hpath.concat hlast hcan, ?_, ?_⟩
      · rw [htrail, trailOf_append, trailOf_entry_self, heq, List.map_append]
        rfl
      · rw [List.head?_append, hhead]
        rfl
      · rw [List.getLast?_concat, hnew]
        rfl
    · rw [(hother hid).2]
      exact h.present id cur ((hother hid).1 ▸ hcur)

/-- The insert of a ride starts a path. -/
theorem Pathed.create {db db' : TripDb} (h : Pathed db) {input : CreateRideInput}
    (happ : applyAll [.create input, .transition input.id .matching {}] db = .ok db') :
    Pathed db' := by
  have htrail : db'.trail = db.trail ++
      ([auditEntry (input.id, .requested)] ++ [auditEntry (input.id, .matching)]) :=
    applyAll_trail happ
  obtain ⟨hnone, ⟨row', hrow', hst⟩, hfind⟩ := applyAll_create happ
  have hother {id : String} (hne : id ≠ input.id) : trailOf id db'.trail = trailOf id db.trail := by
    rw [htrail, trailOf_append, trailOf_append, trailOf_entry_of_ne hne, trailOf_entry_of_ne hne,
      List.append_nil, List.append_nil]
  constructor
  · intro id hnone'
    by_cases hid : id = input.id
    · subst hid
      rw [hrow'] at hnone'
      cases hnone'
    · rw [hother hid]
      exact h.absent id (hfind id hid ▸ hnone')
  · intro id cur hcur
    by_cases hid : id = input.id
    · subst hid
      rw [hrow'] at hcur
      cases hcur
      rw [htrail, trailOf_append, trailOf_append, h.absent _ hnone, trailOf_entry_self,
        trailOf_entry_self, hst]
      exact ⟨[.requested, .matching], rfl, List.isChain_pair.mpr rfl, rfl, rfl⟩
    · rw [hother hid]
      exact h.present id cur (hfind id hid ▸ hcur)

section Runs

variable {haversineKm : GeoPoint → GeoPoint → Option Rat} {s t : TripPool} {a : TripAction}

theorem Pathed.step (h : Pathed s.world.db) (hs : Sequential s) (hturn : InTurn s a)
    (hstep : (machine haversineKm).Step s a t) : Pathed t.world.db := by
  by_cases hcom : ∃ op log key es, CommitsAt s a op log key es
  · obtain ⟨op, log, key, es, hc⟩ := hcom
    have happ := hc.applied hstep
    obtain ⟨db₁, hfind, hsame, happ₁⟩ : ∃ db₁ : TripDb,
        (∀ id, db₁.findRide id = s.world.db.findRide id) ∧ Pathed db₁ ∧
          applyAll es db₁ = .ok t.world.db := by
      cases key with
      | none => exact ⟨_, fun _ => rfl, h, happ⟩
      | some key =>
          obtain ⟨db₁, hpe, happ⟩ := Tx.commit_ok.mp happ
          have hfind := TripDb.findRide_createProcessedEvent hpe
          exact ⟨db₁, hfind, h.same hfind (createProcessedEvent_trail hpe), happ⟩
    rcases (hs.commit.writes hc).1.cases with
      ⟨id, tgt, options, rfl, -, -⟩ | ⟨input, eventId, -, rfl⟩
    · obtain ⟨row, hrow, hcan⟩ := hs.allowed hturn hc
      exact hsame.transition ((hfind id).trans hrow) hcan happ₁
    · exact hsame.create happ₁
  · push Not at hcom
    have hsame := sameTables_of_not_commits hstep hcom
    refine h.same hsame.findRide ?_
    unfold TripDb.trail
    rw [hsame.tripEvents]

/-- When operations execute one at a time, the trail of a ride is a path of the
state machine to its status, and it has at most seven rows, all different. -/
theorem trail_isPath {acts : List TripAction}
    (hrun : (machine haversineKm).run (initial .empty) acts = some s)
    (hturn : (machine haversineKm).Along (fun s a _ => InTurn s a) (initial .empty) acts)
    {id : String} {row : RideRow} (hrow : s.world.db.findRide id = some row) :
    PathTo (trailOf id s.world.db.trail) row.status ∧
      (trailOf id s.world.db.trail).Nodup ∧ (trailOf id s.world.db.trail).length ≤ 7 := by
  have hinv := Machine.run_invariant (I := fun s => Sequential s ∧ Pathed s.world.db)
    ⟨initial_sequential .empty, pathed_empty⟩
    (fun _ _ _ hs ha hstep => ⟨hs.1.step ha hstep, hs.2.step hs.1 ha hstep⟩) hrun hturn
  have hto := hinv.2.present id row hrow
  refine ⟨hto, ?_⟩
  obtain ⟨statuses, heq, hpath, -⟩ := hto
  rw [heq]
  refine ⟨hpath.nodup.map eventTypeForStatus_injective, ?_⟩
  rw [List.length_map]
  exact hpath.length_le

/-- A ride that is requested and matched has the path of three statuses. -/
theorem trail_isPath_matched : ∃ s row,
    (machine fun _ _ => some 0).run (initial .empty) requestAndMatch = some s ∧
      s.world.db.findRide "r" = some row ∧ row.status = .matched ∧
      PathTo (trailOf "r" s.world.db.trail) row.status := by
  have hrun : (machine fun _ _ => some 0).run (initial .empty) requestAndMatch = some _ := rfl
  have hturn : (machine fun _ _ => some 0).Along (fun s a _ => InTurn s a) (initial .empty)
      requestAndMatch := by
    refine Machine.along_inTurn (by decide) ?_
    rintro i th ⟨⟩
  exact ⟨_, _, hrun, rfl, rfl, (trail_isPath hrun hturn rfl).1⟩

end Runs

end TripService

end RydTrip
