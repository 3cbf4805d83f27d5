import RydTrip.Backend.Steps

/-!
# A driver works on one ride at a time

The reservation key in Redis is what keeps two rides off one driver, and it has
a time to live.  A ride is live on a driver from the attempt that wins him until
its status is final and no operation of trip-service can bring it back.  While
keys outlive the rides they were set for, every live ride holds the key of its
driver, so no driver has two.  The time to live does not depend on the ride, so
keys do run out during trips, and then the next dispatch wins the same driver.
-/

namespace RydTrip

namespace Backend

open Process TripService

/-! ## Rides that are live on a driver -/

/-- The driver does not have two rides in progress. -/
def NoDoubleBooking (w : World) : Prop :=
  ∀ driverId rideId rideId' row row', w.trip.findRide rideId = some row →
    w.trip.findRide rideId' = some row' → row.driverId = some driverId →
    row'.driverId = some driverId → row.status.Active → row'.status.Active → rideId = rideId'

/-- The ride is on its way to the driver, or he is working on it. -/
inductive LiveOn (s : BackendPool) (driverId rideId : String) : Prop where
  /-- Dispatch has won the driver and still owes the event. -/
  | won {i : Nat} {th : BackendThread} :
      s.threads i = some th →
      pendingOf th.log = some (rideId, driverId) →
      LiveOn s driverId rideId
  /-- The event is on its topic. -/
  | announced {envelope : EventEnvelope} :
      Published s.world envelope →
      s.world.tripDelivered envelope.eventId = false →
      RideEvent.ofEnvelope envelope = some (.reserved rideId driverId) →
      LiveOn s driverId rideId
  /-- Trip-service is handling the event. -/
  | delivered {i : Nat} {th : BackendThread} {envelope : EventEnvelope} :
      s.threads i = some th →
      th.call = .tripEvent envelope →
      RideEvent.ofEnvelope envelope = some (.reserved rideId driverId) →
      (progressOf th.log).done = false →
      LiveOn s driverId rideId
  /-- The driver is working on the ride. -/
  | active {row : RideRow} :
      s.world.trip.findRide rideId = some row →
      row.driverId = some driverId →
      row.status.Active →
      LiveOn s driverId rideId
  /-- An operation that has seen the ride active can still write its status. -/
  | seen {i : Nat} {th : BackendThread} {seen row : RideRow} :
      s.threads i = some th →
      (progressOf th.log).done = false →
      (progressOf th.log).seen = some (rideId, seen) →
      seen.status.Active →
      s.world.trip.findRide rideId = some row →
      row.driverId = some driverId →
      LiveOn s driverId rideId

/-- Time only passes while no key of a live ride runs out. -/
def KeysOutlive (s : BackendPool) (a : BackendAction) : Prop :=
  ∀ ms driverId rideId, a = .env (.elapse ms) → LiveOn s driverId rideId →
    s.world.dispatch.now + ms < s.world.expiresAt driverId

/-! ## Keys -/

section Keys

variable {w w' : World} {found : List NearbyDriver} {c : Cmd} {r : Reply c}
  {driverId rideId : String}

/-- A driver is won by taking his key. -/
theorem exec_won {ttlSeconds : Nat}
    (h : w.exec found (.dispatch (.tryReserve driverId rideId ttlSeconds)) = (.ok true, w')) :
    w.dispatch.reservations driverId = none ∧
      w'.dispatch.reservations driverId = some rideId := by
  have hr := congrArg Prod.fst h
  have hw := congrArg Prod.snd h
  subst hw
  change Except.ok (w.dispatch.reserve driverId rideId).1 = Except.ok true at hr
  change _ ∧ (World.afterDispatch _ _ _).dispatch.reservations driverId = some rideId
  rw [(afterDispatch_frame ..).2.2.1]
  change _ ∧ (w.dispatch.reserve driverId rideId).2.reservations driverId = some rideId
  unfold Dispatch.DispatchHost.reserve at *
  split at hr
  · cases hr
  next hnone => exact ⟨hnone, Function.update_self ..⟩

/-- No command takes a key away. -/
theorem exec_keeps (h : w.exec found c = (r, w'))
    (hkey : w.dispatch.reservations driverId = some rideId) :
    w'.dispatch.reservations driverId = some rideId := by
  cases c with
  | db c =>
      cases h
      exact hkey
  | tripPark fields =>
      cases h
      exact hkey
  | drivers c =>
      cases c with
      | findUnique driverId' =>
          cases h
          exact hkey
      | update driverId' status =>
          obtain ⟨drivers, hw⟩ := updateDriver_frame w driverId' status
          rw [← show (w.updateDriver driverId' status).2 = w' from congrArg Prod.snd h, hw]
          exact hkey
  | dispatch c =>
      cases h
      rw [(afterDispatch_frame ..).2.2.1]
      change (w.dispatch.exec _ c).2.reservations driverId = some rideId
      by_cases hc : ∃ d ride ttl, c = .tryReserve d ride ttl
      · obtain ⟨d, ride, ttl, rfl⟩ := hc
        change (w.dispatch.reserve d ride).2.reservations driverId = some rideId
        unfold Dispatch.DispatchHost.reserve
        split
        · exact hkey
        next hnone =>
          refine (Function.update_of_ne ?_ _ _).trans hkey
          rintro rfl
          rw [hkey] at hnone
          cases hnone
      · rw [Dispatch.reservations_exec _ _ fun d ride ttl h => hc ⟨d, ride, ttl, h⟩]
        exact hkey

end Keys

/-! ## Where live rides come from -/

section Origin

variable {cfg : Dispatch.Config} {haversineKm : GeoPoint → GeoPoint → Option Rat}
  {s t : BackendPool} {a : BackendAction} {driverId rideId : String}

/-- Every status of a trip but MATCHED is entered from a status of a trip. -/
theorem active_of_transition {src tgt : RideStatus} (h : canTransitionRideStatus src tgt = true)
    (htgt : tgt.Active) (hne : tgt ≠ .matched) : src.Active := by
  revert h htgt hne
  cases src <;> cases tgt <;> decide

/-- A row has its driver from its match, or had him before it was moved. -/
theorem liveOn_of_written (hs : Sound s) {i : Nat} {th : BackendThread} {op : Op} {g' : Progress}
    {row' : RideRow} (hi : s.threads i = some th) (hop : th.call.op = some op)
    (hdone : (progressOf th.log).done = false)
    (hw : RowWritten op (progressOf th.log) g' s.world.trip rideId row')
    (hdriver : row'.driverId = some driverId) :
    LiveOn s driverId rideId ∨ ∃ row seen, s.world.trip.findRide rideId = some row ∧
      row.driverId = some driverId ∧ (progressOf th.log).seen = some (rideId, seen) ∧
      canTransitionRideStatus seen.status row'.status = true ∧ row'.status ≠ .matched := by
  cases hw with
  | inserted hnone hdr hst => cases hdr.symm.trans hdriver
  | @matched driverId' eventId row seen hev hrow hseen hmatching hdr hst =>
      left
      obtain ⟨hstored, envelope, hcall, hof⟩ := hs.stores hi hop hev
      rw [hdr, hstored] at hdriver
      cases hdriver
      exact .delivered hi hcall hof hdone
  | @moved row seen hride hrow hseen hcan hdr hne hdue =>
      right
      exact ⟨row, seen, hrow, hdr.symm.trans hdriver, hseen, hcan, hne⟩

/-- A call that starts brings no ride to a driver. -/
theorem liveOn_spawn {i : Nat} {call : Call} {p : Prog Cmd Reply Empty Unit} {w : World}
    (hw : s.world.start call = some w)
    (hl : LiveOn ⟨w, Function.update s.threads i (some ⟨call, p, []⟩)⟩ driverId rideId) :
    LiveOn s driverId rideId := by
  obtain ⟨hevents, htrip, -⟩ := start_frame hw
  obtain ⟨-, hstart, hmono⟩ := start_of_some hw
  have hfind (id : String) : w.trip.findRide id = s.world.trip.findRide id :=
    congrArg (·.findRide id) htrip
  cases hl with
  | won hj hpending =>
      rcases update_eq_some hj with ⟨-, rfl⟩ | ⟨-, hj⟩
      · cases hpending
      · exact .won hj hpending
  | announced hpub hdel hof =>
      refine .announced (by rwa [Published, ← hevents]) ?_ hof
      exact Bool.eq_false_iff.mpr fun hn => Bool.eq_false_iff.mp hdel (hmono _ hn)
  | @delivered j th envelope hj hcall hof hdone =>
      rcases update_eq_some hj with ⟨-, rfl⟩ | ⟨-, hj⟩
      · obtain ⟨hpub, hdel, -⟩ := hstart envelope hcall
        exact .announced hpub hdel hof
      · exact .delivered hj hcall hof hdone
  | active hrow hdriver hactive => exact .active ((hfind _).symm.trans hrow) hdriver hactive
  | seen hj hdone hseen hactive hrow hdriver =>
      rcases update_eq_some hj with ⟨-, rfl⟩ | ⟨-, hj⟩
      · cases hseen
      · exact .seen hj hdone hseen hactive ((hfind _).symm.trans hrow) hdriver

theorem liveOn_env {e : Env} {w : World} (hw : s.world.env e = some w)
    (hl : LiveOn ⟨w, s.threads⟩ driverId rideId) : LiveOn s driverId rideId := by
  obtain ⟨hdelivered, -, -, ⟨now, htrip⟩, -⟩ := env_frame hw
  have hfind (id : String) : w.trip.findRide id = s.world.trip.findRide id :=
    congrArg (·.findRide id) htrip
  have hstep : (machine .defaults fun _ _ => some 0).Step s (.env e) ⟨w, s.threads⟩ := .env hw
  cases hl with
  | won hj hpending => exact .won hj hpending
  | announced hpub hdel hof =>
      rcases published_reserved hstep hpub hof with hpub | ⟨_, _, _, _, _, _, _, heq, -⟩
      · exact .announced hpub (hdelivered ▸ hdel) hof
      · cases heq
  | delivered hj hcall hof hdone => exact .delivered hj hcall hof hdone
  | active hrow hdriver hactive => exact .active ((hfind _).symm.trans hrow) hdriver hactive
  | seen hj hdone hseen hactive hrow hdriver =>
      exact .seen hj hdone hseen hactive ((hfind _).symm.trans hrow) hdriver

/-- A ride comes to a driver by the attempt that wins him. -/
theorem liveOn_run (hs : Sound s) {i : Nat} {found : List NearbyDriver} {call : Call} {c : Cmd}
    {k : Reply c → Prog Cmd Reply Empty Unit} {log : BackendLog} {r : Reply c} {w : World}
    (hi : s.threads i = some ⟨call, .call c k, log⟩) (hx : s.world.exec found c = (r, w))
    (hl : LiveOn ⟨w, Function.update s.threads i (some ⟨call, k r, ⟨c, r⟩ :: log⟩)⟩
      driverId rideId) :
    LiveOn s driverId rideId ∨
      (s.world.dispatch.reservations driverId = none ∧
        w.dispatch.reservations driverId = some rideId) := by
  have hpre := (hs.meets _ _ hi).allows
  have hfind := exec_findRide hx hpre rideId
  have hstep : (machine .defaults fun _ _ => some 0).Step s (.run i found) _ :=
    .run hi (congrArg some hx)
  cases hl with
  | won hj hpending =>
      rcases update_eq_some hj with ⟨-, rfl⟩ | ⟨-, hj⟩
      · rcases pendingOf_cons hpending with hp | ⟨ttlSeconds, heq⟩
        · exact .inl (.won hi hp)
        · cases heq
          exact .inr (exec_won hx)
      · exact .inl (.won hj hpending)
  | announced hpub hdel hof =>
      rw [(exec_delivered hx).1] at hdel
      rcases published_reserved hstep hpub hof with hpub | ⟨_, _, _, _, _, _, _, -, hj⟩
      · exact .inl (.announced hpub hdel hof)
      · exact .inl (.won hj (hs.announces hj))
  | delivered hj hcall hof hdone =>
      left
      rcases update_eq_some hj with ⟨-, rfl⟩ | ⟨-, hj⟩
      · exact .delivered hi hcall hof (done_cons hdone)
      · exact .delivered hj hcall hof hdone
  | active hrow hdriver hactive =>
      left
      rcases hfind with hsame | ⟨hopen, -, op, row', hop, hrow', hw⟩
      · exact .active (hsame ▸ hrow) hdriver hactive
      · cases hrow.symm.trans hrow'
        rcases liveOn_of_written hs hi hop hopen hw hdriver with
          hlive | ⟨row₀, seen, hrow₀, hdriver₀, hseen, hcan, hne⟩
        · exact hlive
        · exact .seen hi hopen hseen (active_of_transition hcan hactive hne) hrow₀ hdriver₀
  | @seen j th seen row hj hdone hseen hactive hrow hdriver =>
      left
      -- The thread saw an active ride; the row it finds now has the driver.
      rcases update_eq_some hj with ⟨-, rfl⟩ | ⟨-, hj⟩
      · rcases hfind with hsame | ⟨-, hdone', -⟩
        · rw [hsame] at hrow
          rcases seen_cons hseen with hseen | heq
          · exact .seen hi (done_cons hdone) hseen hactive hrow hdriver
          · cases heq
            cases (exec_read hx).symm.trans hrow
            exact .active hrow hdriver hactive
        · cases hdone.symm.trans hdone'
      · rcases hfind with hsame | ⟨hopen, -, op, row', hop, hrow', hw⟩
        · exact .seen hj hdone hseen hactive (hsame ▸ hrow) hdriver
        · cases hrow.symm.trans hrow'
          rcases liveOn_of_written hs hi hop hopen hw hdriver with
            hlive | ⟨row₀, -, hrow₀, hdriver₀, -⟩
          · exact hlive
          · exact .seen hj hdone hseen hactive hrow₀ hdriver₀

/-- A live ride was live before the step, or the step wins its driver. -/
theorem liveOn_step (hs : Sound s) (h : (machine cfg haversineKm).Step s a t)
    (hl : LiveOn t driverId rideId) : LiveOn s driverId rideId ∨
      (s.world.dispatch.reservations driverId = none ∧
        t.world.dispatch.reservations driverId = some rideId) := by
  cases h with
  | spawn hi hp =>
      obtain ⟨w, hw, heq⟩ := Option.map_eq_some_iff.mp hp
      cases heq
      exact .inl (liveOn_spawn hw hl)
  | run hi hr => exact liveOn_run hs hi (Option.some.inj hr) hl
  | env hw => exact .inl (liveOn_env hw hl)

end Origin

/-! ## The invariant -/

/-- Every live ride holds the key of its driver. -/
def KeysHeld (s : BackendPool) : Prop :=
  ∀ driverId rideId, LiveOn s driverId rideId →
    s.world.dispatch.reservations driverId = some rideId

theorem initial_keysHeld (drivers : String → Option DriverStatus) : KeysHeld (initial drivers) := by
  intro driverId rideId hl
  cases hl with
  | won hi => cases hi
  | announced hpub => cases hpub
  | delivered hi => cases hi
  | active hrow => cases hrow
  | seen hi => cases hi

theorem KeysHeld.noDoubleBooking {s : BackendPool} (h : KeysHeld s) : NoDoubleBooking s.world := by
  intro driverId rideId rideId' row row' hrow hrow' hdr hdr' hactive hactive'
  have hkey := h driverId rideId (.active hrow hdr hactive)
  have hkey' := h driverId rideId' (.active hrow' hdr' hactive')
  exact Option.some.inj (hkey.symm.trans hkey')

section Runs

variable {cfg : Dispatch.Config} {haversineKm : GeoPoint → GeoPoint → Option Rat}
  {s t : BackendPool} {a : BackendAction}

theorem KeysHeld.step (hkeys : KeysHeld s) (hs : Sound s) (houtlive : KeysOutlive s a)
    (h : (machine cfg haversineKm).Step s a t) : KeysHeld t := by
  intro driverId rideId hl
  rcases liveOn_step hs h hl with hlive | ⟨-, hkey⟩
  · have hkey := hkeys driverId rideId hlive
    cases h with
    | spawn hi hp =>
        obtain ⟨w, hw, heq⟩ := Option.map_eq_some_iff.mp hp
        cases heq
        obtain ⟨-, -, -, hdispatch, -⟩ := start_frame hw
        rw [hdispatch]
        exact hkey
    | run hi hr => exact exec_keeps (Option.some.inj hr) hkey
    | @env e w hw =>
        by_cases he : ∃ ms, e = .elapse ms
        · obtain ⟨ms, rfl⟩ := he
          cases hw
          exact (if_pos (houtlive ms driverId rideId rfl hlive)).trans hkey
        · rw [(env_frame hw).2.2.2.2 fun ms hms => he ⟨ms, hms⟩]
          exact hkey
  · exact hkey

/-- If keys outlive their rides all along, every live ride holds its key. -/
theorem keysHeld_run {drivers : String → Option DriverStatus} {acts : List BackendAction}
    (hrun : (machine cfg haversineKm).run (initial drivers) acts = some s)
    (houtlive : (machine cfg haversineKm).Along (fun s a _ => KeysOutlive s a)
      (initial drivers) acts) : KeysHeld s := by
  have hinv := Machine.run_invariant (I := fun s => Sound s ∧ KeysHeld s)
    ⟨initial_sound drivers, initial_keysHeld drivers⟩
    (fun _ _ _ hs hP hstep => ⟨hs.1.step hstep, hs.2.step hs.1 hP hstep⟩) hrun houtlive
  exact hinv.2

/-- In every run in which the key of a driver outlives the ride it was set for,
no driver has two rides at a time. -/
theorem noDoubleBooking_of_keysOutlive {drivers : String → Option DriverStatus}
    {acts : List BackendAction}
    (hrun : (machine cfg haversineKm).run (initial drivers) acts = some s)
    (houtlive : (machine cfg haversineKm).Along (fun s a _ => KeysOutlive s a)
      (initial drivers) acts) : NoDoubleBooking s.world :=
  (keysHeld_run hrun houtlive).noDoubleBooking

end Runs

/-! ## Two runs -/

/-- The driver `d` can be found by every search. -/
def driverD : List NearbyDriver := [⟨"d", 0, 0, 1⟩]

/-- A call that runs alone for `n` commands. -/
def alone (i : Nat) (call : Call) (n : Nat) : List BackendAction :=
  .spawn i call :: .replicate n (.run i driverD)

def rideInput (rideId : String) : CreateRideInput := ⟨rideId, "rider", ⟨0, 0⟩, ⟨0, 0⟩⟩

def requestedEvent (eventId : Nat) (rideId : String) : EventEnvelope :=
  ⟨eventId, .rideRequested, "c", some (rideRequestedPayload (rideInput rideId))⟩

def reservedEvent (eventId : Nat) (rideId driverId : String) : EventEnvelope :=
  ⟨eventId, .driverReserved, "c", some (Dispatch.Outcome.reserved rideId driverId).payload⟩

/-- `d` is AVAILABLE, and there is no other driver. -/
def onlyDriver : String → Option DriverStatus :=
  Function.update (fun _ => none) "d" (some .available)

/-- The ride `r` is requested and matched with `d`. -/
def matchR : List BackendAction :=
  [.env (.updateLocation "d"), .env (.requestRide (rideInput "r") "c")] ++
    alone 0 (.tripEvent (requestedEvent 0 "r")) 4 ++
    alone 1 (.dispatchEvent (requestedEvent 0 "r")) 13 ++
    alone 2 (.tripEvent (reservedEvent 1 "r" "d")) 4

def isElapse : BackendAction → Bool
  | .env (.elapse _) => true
  | _ => false

theorem matchR_keysOutlive : (machine .defaults fun _ _ => some 0).Along
    (fun s a _ => KeysOutlive s a) (initial onlyDriver) matchR := by
  refine Machine.along_of_checks (p := fun _ a => !isElapse a)
    (fun s a t ha ms driverId rideId heq => ?_) rfl
  subst heq
  cases ha

/-- Twenty seconds pass after the match, and the key is still there. -/
theorem noDoubleBooking_matchR : ∃ s, (machine .defaults fun _ _ => some 0).run (initial onlyDriver)
      (matchR ++ [.env (.elapse 20000)]) = some s ∧
    (s.world.trip.findRide "r").map (fun row => (row.driverId, row.status)) =
      some (some "d", .matched) ∧ NoDoubleBooking s.world := by
  have houtlive : (machine .defaults fun _ _ => some 0).Along (fun s a _ => KeysOutlive s a)
      (initial onlyDriver) (matchR ++ [.env (.elapse 20000)]) := by
    refine matchR_keysOutlive.append fun s hrun t ht => ⟨?_, trivial⟩
    rintro ms driverId rideId ⟨⟩ hlive
    have hkey := keysHeld_run hrun matchR_keysOutlive driverId rideId hlive
    have hkeys : ((machine .defaults fun _ _ => some 0).run (initial onlyDriver) matchR).map
        (fun s => (s.world.dispatch.reservations, s.world.dispatch.now, s.world.expiresAt "d")) =
        some (Function.update (fun _ => none) "d" (some "r"), 0, 30000) := rfl
    rw [hrun, Option.map_some, Option.some.injEq, Prod.mk.injEq, Prod.mk.injEq] at hkeys
    obtain ⟨hreservations, hnow, hexpires⟩ := hkeys
    obtain rfl : driverId = "d" := by
      by_contra hne
      rw [hreservations, Function.update_of_ne hne] at hkey
      cases hkey
    rw [hnow, hexpires]
    decide
  exact ⟨_, rfl, rfl, noDoubleBooking_of_keysOutlive rfl houtlive⟩

/-- The key of `d` lives for 30 seconds, and the trip takes longer.  Dispatch
wins `d` for the ride `r'` too. -/
def matchTwice : List BackendAction :=
  matchR ++ [.env (.elapse 30000), .env (.updateLocation "d"),
      .env (.requestRide (rideInput "r'") "c")] ++
    alone 3 (.tripEvent (requestedEvent 2 "r'")) 4 ++
    alone 4 (.dispatchEvent (requestedEvent 2 "r'")) 12 ++
    alone 5 (.tripEvent (reservedEvent 3 "r'" "d")) 4

theorem not_noDoubleBooking_matchTwice : ∃ s, (machine .defaults fun _ _ => some 0).run
      (initial onlyDriver) matchTwice = some s ∧ ¬ NoDoubleBooking s.world := by
  refine ⟨_, rfl, fun h => ?_⟩
  exact absurd (h "d" "r" "r'" _ _ rfl rfl rfl rfl trivial trivial) (by decide)

end Backend

end RydTrip
