import Mathlib.Data.Set.Card
import RydTrip.RedisClient.GeoIndex

/-!
# What a search finds

`findNearby` and `findAnyOnline` while nobody writes and Redis does not fail.
Redis cuts its answer off at the limit, and the heartbeats are looked at
afterwards.  So a member that is stale takes the place of a driver further away.
A search is complete exactly if no stale member is within the limit, or no live
driver is beyond it.
-/

namespace RydTrip

namespace GeoIndex

open Process

/-! ## A filtered prefix -/

section Prefix

variable {α : Type} {p : α → Bool} {l : List α} {k : Nat}

/-- The elements of a prefix that pass a test are as many as they can be exactly if
all of the prefix passes, or nothing behind it does. -/
theorem length_filter_take_eq_min_iff :
    ((l.take k).filter p).length = min k (l.filter p).length ↔
      (∀ x ∈ l.take k, p x = true) ∨ ∀ x ∈ l.drop k, p x = false := by
  have hsplit :
      (l.filter p).length = ((l.take k).filter p).length + ((l.drop k).filter p).length := by
    rw [← List.length_append, ← List.filter_append, List.take_append_drop]
  have hle : ((l.take k).filter p).length ≤ (l.take k).length := List.length_filter_le p _
  have htake : (l.take k).length = min k l.length := List.length_take
  have hdrop : (l.drop k).length = l.length - k := List.length_drop
  have hrest : ((l.drop k).filter p).length ≤ (l.drop k).length := List.length_filter_le p _
  have hall : ((l.take k).filter p).length = (l.take k).length ↔ ∀ x ∈ l.take k, p x = true :=
    List.length_filter_eq_length_iff
  have hnone : ((l.drop k).filter p).length = 0 ↔ ∀ x ∈ l.drop k, p x = false := by
    rw [List.length_eq_zero_iff, List.filter_eq_nil_iff]
    simp only [Bool.not_eq_true]
  rw [← hall, ← hnone]
  omega

end Prefix

/-! ## The programs alone -/

/-- Nothing fails, and the drivers come in the given order. -/
def quiet (order : List (String × Rat)) (c : Cmd) (w : GeoHost) : Reply c × GeoHost :=
  w.exec { order := order } c

/-- The heartbeat of the driver is alive. -/
def GeoHost.alive (w : GeoHost) (driverId : String) : Bool := (w.lookup driverId).isSome

section Alone

variable {order : List (String × Rat)} {w : GeoHost}

/-- The reply to `EXISTS`. -/
def existsReply (w : GeoHost) (driverId : String) : Except String Nat :=
  .ok (if w.alive driverId then 1 else 0)

theorem existsOrZero_existsReply (w : GeoHost) (driverId : String) :
    DriverGeoIndex.existsOrZero (existsReply w driverId) = 0 ↔ w.alive driverId = false := by
  show (if w.alive driverId then 1 else 0) = 0 ↔ _
  cases w.alive driverId <;> decide

theorem eval_stalenessPipeline (driverIds : List String) :
    (DriverGeoIndex.stalenessPipeline driverIds).eval (quiet order) w =
      (.ok (driverIds.map (existsReply w)), w) := by
  induction driverIds with
  | nil => rfl
  | cons driverId driverIds ih =>
      show ((DriverGeoIndex.stalenessPipeline driverIds >>= _ : GeoProg _)).eval (quiet order) w = _
      rw [Prog.eval_bind, ih]
      rfl

variable (order w) in
/-- The cleanup does not change what is returned. -/
theorem eval_evict_bind {α : Type} (driverIds : List String) (a : α) :
    ∃ w', (do
      DriverGeoIndex.evict driverIds
      return a : GeoProg α).eval (quiet order) w = (.ok a, w') := by
  unfold DriverGeoIndex.evict
  split
  · exact ⟨_, rfl⟩
  · exact ⟨_, rfl⟩

/-- The candidates with a reply of 1 are the live ones. -/
theorem map_filter_zip_existsReply {α : Type} (driverId : α → String) (raw : List α) :
    ((raw.zip ((raw.map driverId).map (existsReply w))).filter fun checked =>
        decide (DriverGeoIndex.existsOrZero checked.2 ≠ 0)).map (·.1) =
      raw.filter fun candidate => w.alive (driverId candidate) := by
  induction raw with
  | nil => rfl
  | cons candidate raw ih =>
      have hreply := existsOrZero_existsReply w (driverId candidate)
      rw [List.map_cons, List.map_cons, List.zip_cons_cons, List.filter_cons, List.filter_cons]
      cases halive : w.alive (driverId candidate) with
      | true =>
          rw [if_pos (decide_eq_true ?_), List.map_cons, ih]
          · rfl
          · rw [Ne, hreply, halive]
            exact Bool.true_eq_false.mp
      | false =>
          rw [if_neg ?_, ih]
          · rfl
          · rw [decide_eq_true_iff, not_ne_iff]
            exact hreply.mpr halive

variable (order w) in
/-- A search returns the live ones among the first `limit` members in range. -/
theorem eval_findNearby (centre : GeoPoint) (radiusKm : Rat) (limit : Nat) :
    ∃ w', (DriverGeoIndex.findNearby centre.lat centre.lng radiusKm limit).eval (quiet order) w =
      (.ok (((w.search order).take limit).filter fun n => w.alive n.driverId), w') := by
  show ∃ w', (if ((w.search order).take limit).length = 0 then Prog.ret []
    else _ : GeoProg (List NearbyDriver)).eval (quiet order) w = _
  split
  next hnil =>
    rw [List.length_eq_zero_iff.mp hnil]
    exact ⟨w, rfl⟩
  next =>
    rw [Prog.eval_bind, eval_stalenessPipeline]
    obtain ⟨w', hend⟩ := eval_evict_bind order w
      (((((w.search order).take limit).zip
        ((((w.search order).take limit).map (·.driverId)).map (existsReply w))).filter
          fun checked =>
          decide (DriverGeoIndex.existsOrZero checked.2 = 0)).map (·.1.driverId))
      (((((w.search order).take limit).zip
        ((((w.search order).take limit).map (·.driverId)).map (existsReply w))).filter
          fun checked =>
          decide (DriverGeoIndex.existsOrZero checked.2 ≠ 0)).map (·.1))
    refine ⟨w', hend.trans ?_⟩
    rw [map_filter_zip_existsReply]

/-- `ZRANGE` returns the first members of the set. -/
theorem rangeLength_take {α : Type} (l : List α) {limit : Nat} (hlimit : 1 ≤ limit) :
    (l.take (GeoHost.rangeLength l.length ((limit : Int) - 1))).drop (0 : Int).toNat =
      l.take limit := by
  have hnonneg : ¬ ((limit : Int) - 1) < 0 := by omega
  unfold GeoHost.rangeLength
  rw [if_neg hnonneg, Int.sub_add_cancel]
  rfl

/-- The members in an answer are where the answer says. -/
theorem geo_of_mem_search {n : NearbyDriver} (h : n ∈ w.search order) :
    w.geo n.driverId = some ⟨n.lat, n.lng⟩ := by
  obtain ⟨⟨driverId, distanceKm⟩, -, hn⟩ := List.mem_filterMap.mp h
  obtain ⟨p, hp, rfl⟩ := Option.map_eq_some_iff.mp hn
  exact hp

/-- The position and the reply of a member, as `findAnyOnline` reads them. -/
def onlineDriver? (checked : String × Option GeoPoint × Except String Nat) : Option OnlineDriver :=
  if DriverGeoIndex.existsOrZero checked.2.2 = 0 then none
  else checked.2.1.map fun p => ⟨checked.1, p.lat, p.lng⟩

def NearbyDriver.online (n : NearbyDriver) : OnlineDriver := ⟨n.driverId, n.lat, n.lng⟩

theorem filterMap_onlineDriver? {raw : List NearbyDriver}
    (hraw : ∀ n ∈ raw, w.geo n.driverId = some ⟨n.lat, n.lng⟩) :
    ((raw.map (·.driverId)).zip (((raw.map (·.driverId)).map w.geo).zip
        ((raw.map (·.driverId)).map (existsReply w)))).filterMap onlineDriver? =
      (raw.filter fun n => w.alive n.driverId).map NearbyDriver.online := by
  induction raw with
  | nil => rfl
  | cons n raw ih =>
      have hreply := existsOrZero_existsReply w n.driverId
      have hgeo := hraw n (.head _)
      have hrest := ih fun m hm => hraw m (.tail _ hm)
      simp only [List.map_cons, List.zip_cons_cons, List.filterMap_cons, List.filter_cons,
        onlineDriver?, hreply, hgeo, Option.map_some]
      cases w.alive n.driverId with
      | true =>
          rw [if_neg Bool.true_eq_false.mp, if_pos rfl, List.map_cons]
          exact congrArg _ hrest
      | false =>
          rw [if_pos rfl, if_neg Bool.false_ne_true]
          exact hrest

/-- What `findAnyOnline` does with the members. -/
def checkOnline (memberIds : List String) : GeoProg (List OnlineDriver) :=
  if memberIds.length = 0 then return []
  else do
    let reply : Except String (List (Option GeoPoint)) ← Prog.perform (Cmd.geopos memberIds)
    let positions ← orThrow reply
    let results ← DriverGeoIndex.stalenessPipeline memberIds
    let checked := memberIds.zip (positions.zip results)
    DriverGeoIndex.evict ((checked.filter fun (_, pos, result) =>
      DriverGeoIndex.existsOrZero result = 0 ∨ pos = none).map (·.1))
    return checked.filterMap onlineDriver?

theorem findAnyOnline_eq (limit : Nat) :
    DriverGeoIndex.findAnyOnline limit = (do
      let reply : Except String (List String) ← Prog.perform (Cmd.zrange 0 (limit - 1))
      let memberIds ← orThrow reply
      checkOnline memberIds) := rfl

theorem eval_checkOnline {raw : List NearbyDriver} {memberIds : List String}
    (hids : memberIds = raw.map (·.driverId))
    (hraw : ∀ n ∈ raw, w.geo n.driverId = some ⟨n.lat, n.lng⟩) :
    ∃ w', (checkOnline memberIds).eval (quiet order) w =
      (.ok ((raw.filter fun n => w.alive n.driverId).map NearbyDriver.online), w') := by
  unfold checkOnline
  split
  next hnil =>
    rw [hids, List.length_map, List.length_eq_zero_iff] at hnil
    rw [hnil]
    exact ⟨w, rfl⟩
  next =>
    show ∃ w', (DriverGeoIndex.stalenessPipeline memberIds >>= _).eval (quiet order) w = _
    rw [Prog.eval_bind, eval_stalenessPipeline]
    obtain ⟨w', hend⟩ := eval_evict_bind order w
      (((memberIds.zip ((memberIds.map w.geo).zip (memberIds.map (existsReply w)))).filter
        fun (checked : String × Option GeoPoint × Except String Nat) => decide
          (DriverGeoIndex.existsOrZero checked.2.2 = 0 ∨ checked.2.1 = none)).map Prod.fst)
      ((memberIds.zip ((memberIds.map w.geo).zip (memberIds.map (existsReply w)))).filterMap
        onlineDriver?)
    refine ⟨w', hend.trans ?_⟩
    rw [hids, filterMap_onlineDriver? hraw]

variable (order w) in
/-- A search for anybody returns the live ones among the first `limit` members. -/
theorem eval_findAnyOnline {limit : Nat} (hlimit : 1 ≤ limit) :
    ∃ w', (DriverGeoIndex.findAnyOnline limit).eval (quiet order) w =
      (.ok ((((w.search order).take limit).filter fun n => w.alive n.driverId).map
        NearbyDriver.online), w') := by
  have hmembers := (rangeLength_take ((w.search order).map (·.driverId)) hlimit).trans
    List.map_take.symm
  rw [findAnyOnline_eq]
  show ∃ w', (checkOnline ((((w.search order).map (·.driverId)).take (GeoHost.rangeLength
    ((w.search order).map (·.driverId)).length ((limit : Int) - 1))).drop (0 : Int).toNat)).eval
      (quiet order) w = _
  rw [hmembers]
  exact eval_checkOnline rfl fun n hn => geo_of_mem_search (List.mem_of_mem_take hn)

end Alone

/-! ## What a search is for -/

section Spec

variable (dist : GeoPoint → GeoPoint → Rat) (w : GeoHost) (centre : GeoPoint) (radiusKm : Rat)

/-- The order in which `GEOSEARCH` has the members in range. -/
structure Ranked (order : List (String × Rat)) : Prop where
  nodup : (order.map Prod.fst).Nodup
  mem : ∀ driverId x, (driverId, x) ∈ order ↔
    ∃ p, w.geo driverId = some p ∧ dist centre p ≤ radiusKm ∧ x = dist centre p
  sorted : order.Pairwise fun a b => a.2 ≤ b.2

/-- The order in which the set has its members. -/
structure Listed (order : List (String × Rat)) : Prop where
  nodup : (order.map Prod.fst).Nodup
  mem : ∀ driverId, driverId ∈ order.map Prod.fst ↔ (w.geo driverId).isSome

/-- The drivers within the radius whose heartbeat is alive. -/
def liveInRange : Set String :=
  {driverId | ∃ p, w.geo driverId = some p ∧ dist centre p ≤ radiusKm ∧ w.alive driverId = true}

/-- The drivers in the set whose heartbeat is alive. -/
def liveMembers : Set String := {driverId | (w.geo driverId).isSome ∧ w.alive driverId = true}

/-- The nearest `limit` drivers of those in range that are alive, or all of them,
in the order of their distance. -/
structure NearestLive (limit : Nat) (result : List NearbyDriver) : Prop where
  nodup : (result.map (·.driverId)).Nodup
  live : ∀ n ∈ result, ∃ p, w.geo n.driverId = some p ∧
    n = ⟨n.driverId, p.lat, p.lng, dist centre p⟩ ∧ dist centre p ≤ radiusKm ∧
    w.alive n.driverId = true
  sorted : result.Pairwise fun a b => a.distanceKm ≤ b.distanceKm
  count : result.length = min limit (liveInRange dist w centre radiusKm).ncard
  nearest : ∀ driverId p, driverId ∈ liveInRange dist w centre radiusKm →
    w.geo driverId = some p → driverId ∉ result.map (·.driverId) →
    ∀ n ∈ result, n.distanceKm ≤ dist centre p

/-- The live drivers in range that are not further away than the driver. -/
def notFurther (driverId : String) : Set String :=
  {other | other ∈ liveInRange dist w centre radiusKm ∧ ∃ p q, w.geo other = some p ∧
    w.geo driverId = some q ∧ dist centre p ≤ dist centre q}

/-- The driver is among the nearest `limit` live ones, however ties are broken. -/
def Closest (limit : Nat) (driverId : String) : Prop :=
  driverId ∈ liveInRange dist w centre radiusKm ∧
    (notFurther dist w centre radiusKm driverId).ncard ≤ limit

/-- Drivers in the set that are alive, where they are, `limit` of them or all. -/
structure AnyLive (limit : Nat) (result : List OnlineDriver) : Prop where
  nodup : (result.map (·.driverId)).Nodup
  live : ∀ n ∈ result, w.geo n.driverId = some ⟨n.lat, n.lng⟩ ∧ w.alive n.driverId = true
  count : result.length = min limit (liveMembers w).ncard

/-- No stale member is among the first `limit`, or no live driver is behind them. -/
def NoneDisplaced (limit : Nat) (order : List (String × Rat)) : Prop :=
  (∀ e ∈ order.take limit, w.alive e.1 = true) ∨ ∀ e ∈ order.drop limit, w.alive e.1 = false

end Spec

section Searches

variable {dist : GeoPoint → GeoPoint → Rat} {w : GeoHost} {centre : GeoPoint} {radiusKm : Rat}
  {order : List (String × Rat)} {limit : Nat}

theorem ncard_of_nodup {l : List String} (h : l.Nodup) : {d | d ∈ l}.ncard = l.length := by
  rw [← List.coe_toFinset, Set.ncard_coe_finset, List.toFinset_card_of_nodup h]

/-- An answer that is not cut off lists the members in their order. -/
theorem map_search (h : ∀ e ∈ order, (w.geo e.1).isSome) :
    (w.search order).map (fun n => (n.driverId, n.distanceKm)) = order := by
  induction order with
  | nil => rfl
  | cons e order ih =>
      obtain ⟨driverId, distanceKm⟩ := e
      obtain ⟨p, hp⟩ : ∃ p, w.geo driverId = some p :=
        Option.isSome_iff_exists.mp (h (driverId, distanceKm) (.head _))
      have hrest := ih fun e' he' => h e' (.tail _ he')
      have hsearch : w.search ((driverId, distanceKm) :: order) =
          ⟨driverId, p.lat, p.lng, distanceKm⟩ :: w.search order := by
        simp only [GeoHost.search, List.filterMap_cons, hp, Option.map_some]
      rw [hsearch, List.map_cons, hrest]

theorem noneDisplaced_iff (h : ∀ e ∈ order, (w.geo e.1).isSome) :
    NoneDisplaced w limit order ↔
      (((w.search order).take limit).filter fun n => w.alive n.driverId).length =
        min limit ((w.search order).filter fun n => w.alive n.driverId).length := by
  rw [length_filter_take_eq_min_iff]
  unfold NoneDisplaced
  conv_lhs => rw [← map_search h, ← List.map_take, ← List.map_drop]
  simp only [List.forall_mem_map]

theorem Ranked.isSome (hr : Ranked dist w centre radiusKm order) :
    ∀ e ∈ order, (w.geo e.1).isSome := by
  intro e he
  obtain ⟨p, hp, -⟩ := (hr.mem e.1 e.2).mp he
  rw [hp]
  rfl

theorem Listed.isSome (hl : Listed w order) : ∀ e ∈ order, (w.geo e.1).isSome :=
  fun e he => (hl.mem e.1).mp (List.mem_map_of_mem he)

/-- If all members are in range, they come in an order by distance. -/
theorem Listed.ranked (hl : Listed w order)
    (hrange : ∀ e ∈ order, ∃ p, w.geo e.1 = some p ∧ dist centre p ≤ radiusKm ∧
      e.2 = dist centre p)
    (hsorted : order.Pairwise fun a b => a.2 ≤ b.2) : Ranked dist w centre radiusKm order where
  nodup := hl.nodup
  sorted := hsorted
  mem driverId x := by
    constructor
    · exact hrange (driverId, x)
    · rintro ⟨p, hp, -, rfl⟩
      have hmem : driverId ∈ order.map Prod.fst := by
        rw [hl.mem, hp]
        rfl
      obtain ⟨⟨d, y⟩, he, rfl⟩ := List.mem_map.mp hmem
      obtain ⟨q, hq, -, hy⟩ := hrange _ he
      rw [hp] at hq
      cases hq
      rw [← hy]
      exact he

theorem map_driverId_search (h : ∀ e ∈ order, (w.geo e.1).isSome) :
    (w.search order).map (·.driverId) = order.map Prod.fst := by
  conv_rhs => rw [← map_search h, List.map_map]
  rfl

theorem nodup_search (h : ∀ e ∈ order, (w.geo e.1).isSome) (hnd : (order.map Prod.fst).Nodup) :
    (((w.search order).map (·.driverId))).Nodup := by
  rw [map_driverId_search h]
  exact hnd

/-- The answer lists the members in range with their positions and distances. -/
theorem Ranked.mem_search (hr : Ranked dist w centre radiusKm order) {n : NearbyDriver}
    (hn : n ∈ w.search order) :
    ∃ p, w.geo n.driverId = some p ∧ n = ⟨n.driverId, p.lat, p.lng, dist centre p⟩ ∧
      dist centre p ≤ radiusKm := by
  have hmem : (n.driverId, n.distanceKm) ∈ order := by
    rw [← map_search hr.isSome]
    exact List.mem_map_of_mem hn
  obtain ⟨p, hp, hradius, hx⟩ := (hr.mem _ _).mp hmem
  have hgeo := geo_of_mem_search hn
  rw [hp] at hgeo
  cases hgeo
  exact ⟨_, hp, by rw [← hx], hradius⟩

theorem Ranked.sorted_search (hr : Ranked dist w centre radiusKm order) :
    (w.search order).Pairwise fun a b => a.distanceKm ≤ b.distanceKm := by
  have hsorted := hr.sorted
  rw [← map_search hr.isSome, List.pairwise_map] at hsorted
  exact hsorted

/-- The live ones of an answer are those of the list it was made from. -/
theorem mem_live_search (h : ∀ e ∈ order, (w.geo e.1).isSome) {d : String} :
    d ∈ ((w.search order).filter fun n => w.alive n.driverId).map (·.driverId) ↔
      d ∈ order.map Prod.fst ∧ w.alive d = true := by
  rw [← map_driverId_search h]
  constructor
  · intro hd
    obtain ⟨n, hn, rfl⟩ := List.mem_map.mp hd
    obtain ⟨hn, halive⟩ := List.mem_filter.mp hn
    exact ⟨List.mem_map_of_mem hn, halive⟩
  · rintro ⟨hd, halive⟩
    obtain ⟨n, hn, rfl⟩ := List.mem_map.mp hd
    exact List.mem_map_of_mem (List.mem_filter.mpr ⟨hn, halive⟩)

/-- The live ones of an answer that is not cut off. -/
theorem Ranked.liveInRange_eq (hr : Ranked dist w centre radiusKm order) :
    liveInRange dist w centre radiusKm =
      {d | d ∈ ((w.search order).filter fun n => w.alive n.driverId).map (·.driverId)} := by
  ext d
  rw [Set.mem_ofPred_eq, mem_live_search hr.isSome]
  constructor
  · rintro ⟨p, hp, hradius, halive⟩
    exact ⟨List.mem_map.mpr ⟨_, (hr.mem d _).mpr ⟨p, hp, hradius, rfl⟩, rfl⟩, halive⟩
  · rintro ⟨hd, halive⟩
    obtain ⟨e, he, rfl⟩ := List.mem_map.mp hd
    obtain ⟨p, hp, hradius, -⟩ := (hr.mem e.1 e.2).mp he
    exact ⟨p, hp, hradius, halive⟩

theorem Listed.liveMembers_eq (hl : Listed w order) :
    liveMembers w =
      {d | d ∈ ((w.search order).filter fun n => w.alive n.driverId).map (·.driverId)} := by
  ext d
  rw [Set.mem_ofPred_eq, mem_live_search hl.isSome, hl.mem d]
  exact Iff.rfl

/-- The length of a filtered answer, as a number of drivers. -/
theorem ncard_filter_search (h : ((w.search order).map (·.driverId)).Nodup) :
    {d | d ∈ ((w.search order).filter fun n => w.alive n.driverId).map (·.driverId)}.ncard =
      ((w.search order).filter fun n => w.alive n.driverId).length := by
  rw [ncard_of_nodup, List.length_map]
  exact h.sublist (List.filter_sublist.map _)

/-- The live ones among the nearest `limit` members are the nearest live ones
exactly if no stale member displaces one of them. -/
theorem nearestLive_iff (hr : Ranked dist w centre radiusKm order) :
    NearestLive dist w centre radiusKm limit
        (((w.search order).take limit).filter fun n => w.alive n.driverId) ↔
      NoneDisplaced w limit order := by
  have hnodup := nodup_search hr.isSome hr.nodup
  have hcount : (liveInRange dist w centre radiusKm).ncard =
      ((w.search order).filter fun n => w.alive n.driverId).length := by
    rw [hr.liveInRange_eq]
    exact ncard_filter_search hnodup
  rw [noneDisplaced_iff hr.isSome, ← hcount]
  refine ⟨fun h => h.count, fun h => ⟨?_, ?_, ?_, h, ?_⟩⟩
  · exact hnodup.sublist ((List.filter_sublist.trans (List.take_sublist _ _)).map _)
  · intro n hn
    obtain ⟨hn, halive⟩ := List.mem_filter.mp hn
    obtain ⟨p, hp, heq, hradius⟩ := hr.mem_search (List.mem_of_mem_take hn)
    exact ⟨p, hp, heq, hradius, halive⟩
  · exact hr.sorted_search.sublist (List.filter_sublist.trans (List.take_sublist _ _))
  · intro d p hd hp hnot n hn
    rw [hr.liveInRange_eq] at hd
    obtain ⟨m, hm, rfl⟩ := List.mem_map.mp hd
    obtain ⟨hm, halive⟩ := List.mem_filter.mp hm
    obtain ⟨q, hq, heq, -⟩ := hr.mem_search hm
    rw [hp] at hq
    cases hq
    -- a live driver that is left out comes after the limit
    have hdrop : m ∈ (w.search order).drop limit := by
      rw [← List.take_append_drop limit (w.search order), List.mem_append] at hm
      refine hm.resolve_left fun htake => hnot ?_
      exact List.mem_map_of_mem (List.mem_filter.mpr ⟨htake, halive⟩)
    have hsorted := hr.sorted_search
    rw [← List.take_append_drop limit (w.search order), List.pairwise_append] at hsorted
    have hle := hsorted.2.2 n (List.mem_filter.mp hn).1 m hdrop
    rw [heq] at hle
    exact hle

theorem Ranked.finite (hr : Ranked dist w centre radiusKm order) :
    (liveInRange dist w centre radiusKm).Finite := by
  rw [hr.liveInRange_eq]
  exact List.finite_toSet _

/-- The nearest live drivers have those that are among them for sure. -/
theorem NearestLive.mem_of_closest {result : List NearbyDriver} {driverId : String}
    (h : NearestLive dist w centre radiusKm limit result)
    (hfinite : (liveInRange dist w centre radiusKm).Finite)
    (hclosest : Closest dist w centre radiusKm limit driverId) :
    driverId ∈ result.map (·.driverId) := by
  obtain ⟨hlive, hfew⟩ := hclosest
  by_contra hnot
  obtain ⟨q, hq, -⟩ := id hlive
  have hfound : {d | d ∈ result.map (·.driverId)} ⊆ liveInRange dist w centre radiusKm := by
    intro d hd
    obtain ⟨n, hn, rfl⟩ := List.mem_map.mp hd
    obtain ⟨p, hp, -, hradius, halive⟩ := h.live n hn
    exact ⟨p, hp, hradius, halive⟩
  -- everybody that was found is not further away than the driver
  have hcloser : insert driverId {d | d ∈ result.map (·.driverId)} ⊆
      notFurther dist w centre radiusKm driverId := by
    rintro d (rfl | hd)
    · exact ⟨hlive, q, q, hq, hq, Rat.le_refl⟩
    · refine ⟨hfound hd, ?_⟩
      obtain ⟨n, hn, rfl⟩ := List.mem_map.mp hd
      obtain ⟨p, hp, heq, -⟩ := h.live n hn
      have hle := h.nearest driverId q hlive hq hnot n hn
      rw [heq] at hle
      exact ⟨p, q, hp, hq, hle⟩
  have hcard := ncard_of_nodup h.nodup
  have hmore := Set.ncard_le_ncard hcloser (hfinite.subset fun d hd => hd.1)
  have hnew : driverId ∉ {d | d ∈ result.map (·.driverId)} := hnot
  rw [Set.ncard_insert_of_notMem hnew (hfinite.subset hfound), hcard, List.length_map] at hmore
  have hall : (liveInRange dist w centre radiusKm).ncard ≤
      {d | d ∈ result.map (·.driverId)}.ncard := by
    have hcount := h.count
    rw [hcard, List.length_map]
    omega
  have heq := Set.eq_of_subset_of_ncard_le hfound hall hfinite
  rw [← heq] at hlive
  exact hnot hlive

/-- The same for a search for anybody. -/
theorem anyLive_iff (hl : Listed w order) :
    AnyLive w limit ((((w.search order).take limit).filter fun n => w.alive n.driverId).map
        NearbyDriver.online) ↔ NoneDisplaced w limit order := by
  have hnodup := nodup_search hl.isSome hl.nodup
  have hcount : (liveMembers w).ncard =
      ((w.search order).filter fun n => w.alive n.driverId).length := by
    rw [hl.liveMembers_eq]
    exact ncard_filter_search hnodup
  rw [noneDisplaced_iff hl.isSome, ← hcount]
  constructor
  · intro h
    have hlength := h.count
    rw [List.length_map] at hlength
    exact hlength
  · intro h
    refine ⟨?_, ?_, ?_⟩
    · rw [List.map_map]
      exact hnodup.sublist ((List.filter_sublist.trans (List.take_sublist _ _)).map _)
    · intro n hn
      obtain ⟨m, hm, rfl⟩ := List.mem_map.mp hn
      obtain ⟨hm, halive⟩ := List.mem_filter.mp hm
      exact ⟨geo_of_mem_search (List.mem_of_mem_take hm), halive⟩
    · rw [List.length_map]
      exact h

end Searches

end GeoIndex

end RydTrip
