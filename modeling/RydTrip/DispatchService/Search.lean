import RydTrip.DispatchService.Machine
import RydTrip.RedisClient.Nearby

/-!
# Searches and rejections

What a search of the geo index means for the ride that it is made for.  While
nothing fails, a handler that is offered a driver nobody has reserved matches the
ride.  So it rejects a ride wrongly only if the search has left such a driver
out.
-/

namespace RydTrip

namespace Dispatch

open Process GeoIndex

/-! ## The handler alone -/

/-- Nothing fails, and the search returns `found`. -/
def served (found : List NearbyDriver) (reply : PatchReply) (c : Cmd) (w : DispatchHost) :
    Reply c × DispatchHost :=
  w.exec { candidates := found, patchReply := reply } c

section Alone

variable {found : List NearbyDriver} {reply : PatchReply} {cfg : Config}
  {rideId correlationId : String} {reservations : String → Option String}
  {published : List Outcome} {w : DispatchHost}

/-- The Redis breaker is closed, and these are the reservations and the events. -/
structure Idle (reservations : String → Option String) (published : List Outcome)
    (w : DispatchHost) : Prop where
  closed : w.redisBreaker.state = .closed
  reservations : w.reservations = reservations
  published : w.published = published

variable {Q : Unit → DispatchHost → Prop} {E : DispatchError → DispatchHost → Prop}

theorem Idle.enter (h : Idle reservations published w) : w.enter .redis = (true, w) := by
  unfold DispatchHost.enter
  rw [show w.breaker .redis = w.redisBreaker from rfl, CircuitBreaker.enter_of_closed h.closed]
  rfl

theorem Idle.success (h : Idle reservations published w) :
    Idle reservations published (w.settle .redis true) :=
  ⟨rfl, h.reservations, h.published⟩

/-- A command of Redis through the closed breaker. -/
theorem wp_execute {α : Type} {c : Cmd} {f : Reply c → DispatchProg α} {a : α}
    {k : α → DispatchProg Unit} (h : Idle reservations published w)
    (hreply : f (served found reply c w).1 = .ret a)
    (hk : (k a).wp (Prog.answering (served found reply)) Q E
      ((served found reply c w).2.settle .redis true)) :
    (DispatchService.execute .redis (.call c f) >>= k).wp
      (Prog.answering (served found reply)) Q E w := by
  rw [DispatchService.execute_call]
  show Prog.wp _ Q E ((if (w.enter .redis).1 = true then _ else _ : DispatchProg α) >>= k)
    (w.enter .redis).2
  rw [h.enter, if_pos rfl]
  show Prog.wp _ Q E (((tryCatchThe DispatchError (f (served found reply c w).1) _) >>= _) >>= k)
    (served found reply c w).2
  rw [hreply]
  exact hk

theorem wp_search {pickup : GeoPoint} {radiusKm : Rat} {limit : Nat}
    {k : List NearbyDriver → DispatchProg Unit} (h : Idle reservations published w)
    (hk : ∀ w, Idle reservations published w →
      (k found).wp (Prog.answering (served found reply)) Q E w) :
    (DispatchService.execute .redis (DispatchService.findNearby pickup radiusKm limit) >>= k).wp
      (Prog.answering (served found reply)) Q E w :=
  wp_execute (c := .findNearby pickup radiusKm limit) h rfl (hk _ h.success)

/-- An attempt on a driver whom nobody has reserved wins. -/
theorem wp_reserve_free {driverId : String} {ttlSeconds : Nat} {k : Bool → DispatchProg Unit}
    (h : Idle reservations published w) (hfree : reservations driverId = none)
    (hk : ∀ w, w.published = published →
      (k true).wp (Prog.answering (served found reply)) Q E w) :
    (DispatchService.execute .redis (DispatchService.tryReserve driverId rideId ttlSeconds) >>=
      k).wp (Prog.answering (served found reply)) Q E w := by
  have hreserve : w.reserve driverId rideId = (true,
      { w with reservations := Function.update w.reservations driverId (some rideId) }) := by
    unfold DispatchHost.reserve
    rw [h.reservations, hfree]
  have hserved : served found reply (.tryReserve driverId rideId ttlSeconds) w =
      (.ok true, (w.reserve driverId rideId).2) := by
    show Fault.none.settle w (w.reserve driverId rideId).1 (w.reserve driverId rideId).2 = _
    rw [Fault.settle_none, hreserve]
  refine wp_execute (c := .tryReserve driverId rideId ttlSeconds) (a := true) h ?_ ?_
  · rw [hserved]
    rfl
  · rw [hserved]
    refine hk _ ?_
    exact ((setBreaker_frame ..).2.trans (published_reserve ..)).trans h.published

/-- An attempt on a driver who is taken loses. -/
theorem wp_reserve_taken {driverId rideId' : String} {ttlSeconds : Nat}
    {k : Bool → DispatchProg Unit} (h : Idle reservations published w)
    (htaken : reservations driverId = some rideId')
    (hk : ∀ w, Idle reservations published w →
      (k false).wp (Prog.answering (served found reply)) Q E w) :
    (DispatchService.execute .redis (DispatchService.tryReserve driverId rideId ttlSeconds) >>=
      k).wp (Prog.answering (served found reply)) Q E w := by
  have hreserve : w.reserve driverId rideId = (false, w) := by
    unfold DispatchHost.reserve
    rw [h.reservations, htaken]
  have hserved :
      served found reply (.tryReserve driverId rideId ttlSeconds) w = (.ok false, w) := by
    show Fault.none.settle w (w.reserve driverId rideId).1 (w.reserve driverId rideId).2 = _
    rw [Fault.settle_none, hreserve]
  refine wp_execute (c := .tryReserve driverId rideId ttlSeconds) (a := false) h ?_ ?_
  · rw [hserved]
    rfl
  · rw [hserved]
    exact hk _ h.success

/-- The sync publishes nothing. -/
theorem wp_sync {driverId : String} {k : Unit → DispatchProg Unit} (h : w.published = published)
    (hk : ∀ w, w.published = published →
      (k ()).wp (Prog.answering (served found reply)) Q E w) :
    (DispatchService.syncDriverStatusBestEffort driverId >>= k).wp
      (Prog.answering (served found reply)) Q E w := by
  rw [DispatchService.syncDriverStatusBestEffort_eq]
  have henter : (w.enter .driverService).2.published = published := (enter_frame w _).2.trans h
  show Prog.wp _ Q E
    ((if (w.enter .driverService).1 = true then _ else _ : DispatchProg Unit) >>= k)
    (w.enter .driverService).2
  split
  · exact hk _ ((setBreaker_frame ..).2.trans henter)
  · exact hk _ henter

/-- A handler that is offered a driver whom nobody has reserved matches the ride. -/
theorem wp_reserveFirst {candidates : List NearbyDriver} (h : Idle reservations published w)
    (hfree : ∃ n ∈ candidates, reservations n.driverId = none) :
    (DispatchService.reserveFirst cfg rideId correlationId candidates).wp
      (Prog.answering (served found reply))
      (fun _ w' => ∃ driverId, w'.published = .reserved rideId driverId :: published)
      (fun _ _ => False) w := by
  induction candidates generalizing w with
  | nil =>
      obtain ⟨n, hn, -⟩ := hfree
      cases hn
  | cons candidate candidates ih =>
      cases hcandidate : reservations candidate.driverId with
      | none =>
          refine wp_reserve_free h hcandidate fun w₁ h₁ => wp_sync h₁ fun w₂ h₂ => ?_
          exact ⟨candidate.driverId, congrArg _ h₂⟩
      | some rideId' =>
          refine wp_reserve_taken h hcandidate fun w₁ h₁ => ih h₁ ?_
          obtain ⟨n, hn, hnone⟩ := hfree
          rcases List.mem_cons.mp hn with rfl | hn
          · rw [hcandidate] at hnone
            cases hnone
          · exact ⟨n, hn, hnone⟩

theorem handleRideRequested_matches {pickup : GeoPoint} (h : w.redisBreaker.state = .closed)
    (hfree : ∃ n ∈ found, w.reservations n.driverId = none) :
    ∃ driverId, ((DispatchService.handleRideRequested cfg rideId pickup correlationId).eval
      (served found reply) w).2.published = .reserved rideId driverId :: w.published := by
  refine Prog.eval_of_wp (P := fun (w' : DispatchHost) => ∃ driverId,
    w'.published = .reserved rideId driverId :: w.published) ?_
  exact Prog.wp_mono (E := fun _ _ => False) Prog.answering_mono (fun _ _ h => h)
    (fun _ _ h => h.elim) (wp_search ⟨h, rfl, rfl⟩ fun w' h' => wp_reserveFirst h' hfree)

end Alone

/-! ## Complete searches -/

/-- What the searches promise while nothing fails.  `order` and `members` are how
Redis has the members in range and all members. -/
structure SearchComplete (dist : GeoPoint → GeoPoint → Rat) (w : GeoHost) (centre : GeoPoint)
    (radiusKm : Rat) (limit : Nat) (order members : List (String × Rat)) : Prop where
  /-- A search finds the nearest live drivers. -/
  nearby : ∃ result w',
    (DriverGeoIndex.findNearby centre.lat centre.lng radiusKm limit).eval (quiet order) w =
      (.ok result, w') ∧ NearestLive dist w centre radiusKm limit result
  /-- A search for anybody finds as many live drivers as it should. -/
  anyOnline : ∃ result w', (DriverGeoIndex.findAnyOnline limit).eval (quiet members) w =
    (.ok result, w') ∧ AnyLive w limit result
  /-- A ride is matched while one of the nearest live drivers is not reserved. -/
  dispatch : ∀ found w',
    (DriverGeoIndex.findNearby centre.lat centre.lng radiusKm limit).eval (quiet order) w =
      (.ok found, w') →
    ∀ (cfg : Config) rideId correlationId reply (d : DispatchHost), cfg.searchRadiusKm = radiusKm →
      cfg.candidateLimit = limit → d.redisBreaker.state = .closed →
      (∃ driverId, Closest dist w centre radiusKm limit driverId ∧
        d.reservations driverId = none) →
      ∃ driverId, ((DispatchService.handleRideRequested cfg rideId centre correlationId).eval
        (served found reply) d).2.published = .reserved rideId driverId :: d.published

/-- The searches keep their promise exactly if no stale member displaces a live
driver. -/
theorem searchComplete_iff {dist : GeoPoint → GeoPoint → Rat} {w : GeoHost} {centre : GeoPoint}
    {radiusKm : Rat} {limit : Nat} {order members : List (String × Rat)} (hlimit : 1 ≤ limit)
    (hr : Ranked dist w centre radiusKm order) (hl : Listed w members) :
    SearchComplete dist w centre radiusKm limit order members ↔
      NoneDisplaced w limit order ∧ NoneDisplaced w limit members := by
  obtain ⟨w₁, hnearby⟩ := eval_findNearby order w centre radiusKm limit
  obtain ⟨w₂, hany⟩ := eval_findAnyOnline members w hlimit
  constructor
  · intro h
    obtain ⟨result, w', heval, hnearest⟩ := h.nearby
    obtain ⟨result', w'', heval', hlive⟩ := h.anyOnline
    rw [hnearby] at heval
    rw [hany] at heval'
    cases heval
    cases heval'
    exact ⟨(nearestLive_iff hr).mp hnearest, (anyLive_iff hl).mp hlive⟩
  · rintro ⟨hnone, hnone'⟩
    have hnearest := (nearestLive_iff hr).mpr hnone
    refine ⟨⟨_, w₁, hnearby, hnearest⟩, ⟨_, w₂, hany, (anyLive_iff hl).mpr hnone'⟩, ?_⟩
    intro found w' heval cfg rideId correlationId reply d _ _ hclosed hfree
    rw [hnearby] at heval
    cases heval
    obtain ⟨driverId, hclosest, hfree⟩ := hfree
    obtain ⟨n, hn, rfl⟩ := List.mem_map.mp (hnearest.mem_of_closest hr.finite hclosest)
    exact handleRideRequested_matches hclosed ⟨n, hn, hfree⟩

/-! ## A stale member in front -/

/-- The square of the difference of latitudes. -/
def squaredLat (a b : GeoPoint) : Rat := (b.lat - a.lat) * (b.lat - a.lat)

/-- The drivers `d` and `d'` are north of the equator with their heartbeats, and
`e` is still in the set behind them, after its own. -/
def staleBehind : GeoHost where
  geo driverId :=
    if driverId = "d" then some ⟨1, 0⟩ else if driverId = "d'" then some ⟨2, 0⟩
    else if driverId = "e" then some ⟨3, 0⟩ else none
  state driverId :=
    if driverId = "d" then some ⟨1, 0, 0, some 30⟩
    else if driverId = "d'" then some ⟨2, 0, 0, some 30⟩ else none
  now := 0

/-- Driver `e` is still in the set, on the equator, after its heartbeat. -/
def staleInFront : GeoHost where
  geo driverId :=
    if driverId = "e" then some ⟨0, 0⟩ else if driverId = "d" then some ⟨1, 0⟩ else none
  state driverId := if driverId = "d" then some ⟨1, 0, 0, some 30⟩ else none
  now := 0

theorem listed_staleBehind : Listed staleBehind [("d", 1), ("d'", 4), ("e", 9)] where
  nodup := by decide
  mem driverId := by
    by_cases hd : driverId = "d"
    · subst hd
      decide
    · by_cases hd' : driverId = "d'"
      · subst hd'
        decide
      · by_cases he : driverId = "e"
        · subst he
          decide
        · simp [staleBehind, hd, hd', he]

theorem listed_staleInFront : Listed staleInFront [("e", 0), ("d", 1)] where
  nodup := by decide
  mem driverId := by
    by_cases he : driverId = "e"
    · subst he
      decide
    · by_cases hd : driverId = "d"
      · subst hd
        decide
      · simp [staleInFront, he, hd]

theorem ranked_staleBehind :
    Ranked squaredLat staleBehind ⟨0, 0⟩ 10 [("d", 1), ("d'", 4), ("e", 9)] := by
  refine listed_staleBehind.ranked ?_ (by decide +kernel)
  intro e he
  simp only [List.mem_cons, List.not_mem_nil, or_false] at he
  rcases he with rfl | rfl | rfl
  · exact ⟨⟨1, 0⟩, rfl, by decide +kernel, by decide +kernel⟩
  · exact ⟨⟨2, 0⟩, rfl, by decide +kernel, by decide +kernel⟩
  · exact ⟨⟨3, 0⟩, rfl, by decide +kernel, by decide +kernel⟩

theorem ranked_staleInFront : Ranked squaredLat staleInFront ⟨0, 0⟩ 5 [("e", 0), ("d", 1)] := by
  refine listed_staleInFront.ranked ?_ (by decide +kernel)
  intro e he
  rcases List.mem_cons.mp he with rfl | he
  · exact ⟨⟨0, 0⟩, rfl, by decide +kernel, by decide +kernel⟩
  · cases List.mem_singleton.mp he
    exact ⟨⟨1, 0⟩, rfl, by decide +kernel, by decide +kernel⟩

/-- With room for the two live drivers, the stale member behind them is cut off. -/
theorem searchComplete_iff_staleBehind :
    SearchComplete squaredLat staleBehind ⟨0, 0⟩ 10 2 [("d", 1), ("d'", 4), ("e", 9)]
      [("d", 1), ("d'", 4), ("e", 9)] := by
  refine (searchComplete_iff (by decide) ranked_staleBehind listed_staleBehind).mpr
    ⟨.inl ?_, .inl ?_⟩
  · decide
  · decide

/-- The nearest member alone is looked at, and it is stale. -/
theorem not_searchComplete_staleInFront :
    Ranked squaredLat staleInFront ⟨0, 0⟩ 5 [("e", 0), ("d", 1)] ∧
      Listed staleInFront [("e", 0), ("d", 1)] ∧
      ¬ SearchComplete squaredLat staleInFront ⟨0, 0⟩ 5 1 [("e", 0), ("d", 1)]
        [("e", 0), ("d", 1)] := by
  refine ⟨ranked_staleInFront, listed_staleInFront, fun h => ?_⟩
  obtain ⟨result, w', heval, hlive⟩ := h.anyOnline
  have hnobody : ((DriverGeoIndex.findAnyOnline 1).eval (quiet [("e", 0), ("d", 1)])
      staleInFront).1 = .ok [] := by
    decide +kernel
  rw [heval] at hnobody
  cases hnobody
  have hmembers : liveMembers staleInFront = {"d"} := by
    ext driverId
    by_cases hd : driverId = "d"
    · subst hd
      exact ⟨fun _ => rfl, fun _ => ⟨rfl, rfl⟩⟩
    · simp [liveMembers, GeoHost.alive, GeoHost.lookup, staleInFront, hd]
  have hcount := hlive.count
  rw [hmembers, Set.ncard_singleton] at hcount
  cases hcount

end Dispatch

end RydTrip
