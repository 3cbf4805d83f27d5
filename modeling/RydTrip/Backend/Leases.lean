import RydTrip.Process.Only
import RydTrip.Backend.DoubleBooking

/-!
# How often a driver is offered a ride

A reservation is never released: `driver:{id}:reservation` is set with a time to
live and disappears when it is over.  So a driver who has been won is not won
again before, and the number of `driver.reserved` events that name a driver is
bounded by the time that has passed.
-/

namespace RydTrip

namespace Backend

open Process TripService

/-! ## The time to live -/

/-- In milliseconds. -/
def lease (cfg : Dispatch.Config) : Nat := 1000 * cfg.reservationTtlSeconds

/-- Drivers are reserved for the configured time. -/
def ForLease (cfg : Dispatch.Config) : Dispatch.Cmd → Prop
  | .tryReserve _ _ ttlSeconds => ttlSeconds = cfg.reservationTtlSeconds
  | _ => True

section Dispatches

open Dispatch

variable {α : Type} {cfg : Dispatch.Config}

theorem orThrow_forLease (r : Except String α) : (orThrow r).Only (ForLease cfg) := by
  cases r <;> trivial

theorem execute_forLease {b : Breaker} {fn : DispatchProg α} (h : fn.Only (ForLease cfg)) :
    (DispatchService.execute b fn).Only (ForLease cfg) := by
  unfold DispatchService.execute
  rw [Prog.perform_bind]
  refine ⟨trivial, fun invoked => ?_⟩
  cases invoked with
  | false => trivial
  | true =>
      refine Prog.Only.bind (Prog.Only.tryCatch h fun err => ⟨trivial, fun _ => trivial⟩) ?_
      exact fun a => ⟨trivial, fun _ => trivial⟩

theorem syncDriverStatusBestEffort_forLease (driverId : String) :
    (DispatchService.syncDriverStatusBestEffort driverId).Only (ForLease cfg) := by
  rw [DispatchService.syncDriverStatusBestEffort_eq]
  refine ⟨trivial, fun invoked => ?_⟩
  cases invoked with
  | false => trivial
  | true => exact ⟨trivial, fun _ => ⟨trivial, fun _ => trivial⟩⟩

theorem publish_forLease (outcome : Outcome) (correlationId key : String) :
    (DispatchService.publish outcome correlationId key).Only (ForLease cfg) :=
  ⟨trivial, fun r => orThrow_forLease r⟩

theorem reserveFirst_forLease (rideId correlationId : String) (candidates : List NearbyDriver) :
    (DispatchService.reserveFirst cfg rideId correlationId candidates).Only (ForLease cfg) := by
  induction candidates with
  | nil => exact publish_forLease _ _ _
  | cons candidate candidates ih =>
      have htry : (DispatchService.tryReserve candidate.driverId rideId
          cfg.reservationTtlSeconds).Only (ForLease cfg) := ⟨rfl, fun r => orThrow_forLease r⟩
      refine (execute_forLease htry).bind fun won => ?_
      cases won with
      | false => exact ih
      | true =>
          exact (syncDriverStatusBestEffort_forLease _).bind fun _ => publish_forLease _ _ _

theorem handler_forLease (envelope : EventEnvelope) :
    (RideRequestedConsumer.handler cfg envelope).Only (ForLease cfg) := by
  unfold RideRequestedConsumer.handler
  split
  · trivial
  next p hp =>
    rw [Prog.perform_bind]
    refine ⟨trivial, fun r => (orThrow_forLease r).bind fun processed => ?_⟩
    cases processed with
    | true => trivial
    | false =>
        have hfind : (DispatchService.findNearby p.pickup cfg.searchRadiusKm
            cfg.candidateLimit).Only (ForLease cfg) := ⟨trivial, fun r => orThrow_forLease r⟩
        have hhandle : (DispatchService.handleRideRequested cfg p.rideId p.pickup
            envelope.correlationId).Only (ForLease cfg) :=
          (execute_forLease hfind).bind fun _ => reserveFirst_forLease _ _ _
        exact hhandle.bind fun _ => ⟨trivial, fun r => orThrow_forLease r⟩

theorem consume_forLease (maxAttempts : Nat) (envelope : EventEnvelope) :
    (RideRequestedConsumer.consume cfg maxAttempts envelope).Only (ForLease cfg) := by
  unfold RideRequestedConsumer.consume EventConsumer.deliver
  generalize 1 = attempt
  induction maxAttempts generalizing attempt with
  | zero => trivial
  | succ left ih =>
      refine Prog.Only.tryCatch (handler_forLease envelope) fun err => ?_
      split
      · exact ⟨trivial, fun r => orThrow_forLease r⟩
      · exact ih _

/-- Commands take no time. -/
theorem now_exec (o : Dispatch.Oracle) (w : DispatchHost) (c : Dispatch.Cmd) :
    (w.exec o c).2.now = w.now := by
  have hset (b : Breaker) (state : CircuitBreaker) : (w.setBreaker state b).now = w.now := by
    cases b <;> rfl
  cases c with
  | enter b =>
      change (w.enter b).2.now = w.now
      unfold DispatchHost.enter
      split
      · rfl
      · exact hset b _
  | settle b success => exact hset b _
  | patch driverId status => rfl
  | tryReserve driverId rideId ttlSeconds =>
      refine Fault.settle_world _ _ ?_
      change (w.reserve driverId rideId).2.now = w.now
      unfold DispatchHost.reserve
      split <;> rfl
  | findNearby pickup radiusKm limit => exact Fault.settle_world _ _ rfl
  | publish outcome correlationId key => exact Fault.settle_world _ _ rfl
  | wasProcessed consumerName eventId => exact Fault.settle_world _ _ rfl
  | markProcessed consumerName eventId => exact Fault.settle_world _ _ rfl
  | park fields => exact Fault.settle_world _ _ rfl

end Dispatches

/-- The same of the commands of the backend. -/
def Leases (cfg : Dispatch.Config) : Cmd → Prop
  | .dispatch c => ForLease cfg c
  | _ => True

section Programs

variable {ε α : Type} {cfg : Dispatch.Config}

theorem patchStatus_leases (driverId : String) (status : DriverStatus) :
    (patchStatus (ε := ε) driverId status).Only (Leases cfg) := by
  unfold patchStatus
  refine Prog.Only.bind (Prog.Only.attempt ?_) fun _ => trivial
  exact Prog.Only.expand (fun c _ => ⟨trivial, fun _ => trivial⟩)
    (Prog.only_of_forall (fun _ => trivial) _)

theorem serveTrip_leases (c : TripService.Cmd) : (serveTrip c).Only (Leases cfg) := by
  cases c with
  | db c => exact ⟨trivial, fun _ => trivial⟩
  | park fields => exact ⟨trivial, fun _ => trivial⟩
  | patch driverId status => exact patchStatus_leases driverId status

theorem serveDispatch_leases (c : Dispatch.Cmd) (hc : ForLease cfg c) :
    (serveDispatch c).Only (Leases cfg) := by
  cases c with
  | patch driverId status => exact patchStatus_leases driverId status
  | _ => exact ⟨hc, fun _ => trivial⟩

theorem prog_leases (haversineKm : GeoPoint → GeoPoint → Option Rat) (call : Call) :
    (call.prog cfg haversineKm).Only (Leases cfg) := by
  have htrip (op : Op) : ((TripsService.program haversineKm op).expand serveTrip).Only
      (Leases cfg) :=
    Prog.Only.expand (fun c _ => serveTrip_leases c) (Prog.only_of_forall (fun _ => trivial) _)
  have hsettled {ε α : Type} {p : Prog Cmd Reply ε α} (hp : p.Only (Leases cfg)) :
      (settled p).Only (Leases cfg) := hp.attempt.bind fun _ => trivial
  cases call with
  | http op => exact hsettled (htrip op)
  | tripEvent envelope => exact hsettled (htrip _)
  | dispatchEvent envelope =>
      exact hsettled ((consume_forLease _ envelope).expand serveDispatch_leases)
  | updateStatus driverId status => exact hsettled (patchStatus_leases driverId status)

end Programs

/-! ## Keys and their expiry -/

section Keys

variable {w w' : World} {found : List NearbyDriver} {c : Cmd} {r : Reply c} {driverId : String}

theorem exec_now (h : w.exec found c = (r, w')) : w'.dispatch.now = w.dispatch.now := by
  cases c with
  | db c =>
      cases h
      rfl
  | tripPark fields =>
      cases h
      rfl
  | drivers c =>
      cases c with
      | findUnique driverId' =>
          cases h
          rfl
      | update driverId' status =>
          obtain ⟨drivers, hw⟩ := updateDriver_frame w driverId' status
          rw [← show (w.updateDriver driverId' status).2 = w' from congrArg Prod.snd h, hw]
  | dispatch c =>
      cases h
      rw [(afterDispatch_frame ..).2.2.1]
      exact now_exec _ _ c

/-- The entry says that the driver has been won. -/
def Wins (driverId : String) (e : Σ c : Cmd, Reply c) : Prop :=
  ∃ rideId ttlSeconds, e = ⟨.dispatch (.tryReserve driverId rideId ttlSeconds), .ok true⟩

/-- A key gets its time to live when the driver is won, and only then. -/
theorem exec_expiresAt (h : w.exec found c = (r, w')) :
    (∃ rideId ttlSeconds, (⟨c, r⟩ : Σ c : Cmd, Reply c) =
        ⟨.dispatch (.tryReserve driverId rideId ttlSeconds), .ok true⟩ ∧
      w'.expiresAt driverId = w.dispatch.now + 1000 * ttlSeconds) ∨
    (¬ Wins driverId ⟨c, r⟩ ∧ w'.expiresAt driverId = w.expiresAt driverId) := by
  cases c with
  | db c =>
      cases h
      exact .inr ⟨nofun, rfl⟩
  | tripPark fields =>
      cases h
      exact .inr ⟨nofun, rfl⟩
  | drivers c =>
      right
      cases c with
      | findUnique driverId' =>
          cases h
          exact ⟨nofun, rfl⟩
      | update driverId' status =>
          obtain ⟨drivers, hw⟩ := updateDriver_frame w driverId' status
          rw [← show (w.updateDriver driverId' status).2 = w' from congrArg Prod.snd h, hw]
          exact ⟨nofun, rfl⟩
  | dispatch c =>
      have hw : w' = World.afterDispatch
          { w with dispatch := (w.dispatch.exec { candidates := w.nearby found c } c).2 } c r := by
        cases h
        rfl
      have hnow := now_exec { candidates := w.nearby found c } w.dispatch c
      unfold World.afterDispatch at hw
      split at hw
      · next driverId' rideId ttlSeconds =>
        subst hw
        by_cases hd : driverId = driverId'
        · subst hd
          refine .inl ⟨rideId, ttlSeconds, rfl, (Function.update_self ..).trans ?_⟩
          exact congrArg (· + 1000 * ttlSeconds) hnow
        · refine .inr ⟨?_, Function.update_of_ne hd _ _⟩
          rintro ⟨_, _, heq⟩
          cases heq
          exact hd rfl
      · subst hw
        exact .inr ⟨nofun, rfl⟩
      · next hother _ =>
        subst hw
        refine .inr ⟨?_, rfl⟩
        rintro ⟨rideId, ttlSeconds, heq⟩
        cases heq
        exact hother _ _ _ rfl HEq.rfl

end Keys

/-! ## The ledger of a driver -/

/-- The event offers the driver a ride. -/
def offersTo (driverId : String) (envelope : EventEnvelope) : Bool :=
  match RideEvent.ofEnvelope envelope with
  | some (.reserved _ driverId') => driverId' = driverId
  | _ => false

/-- How often the driver has been offered a ride. -/
def offers (w : World) (driverId : String) : Nat := w.events.countP (offersTo driverId)

/-- Each offer, published or owed, has taken the driver for a lease of its own. -/
structure Leased (cfg : Dispatch.Config) (driverId : String) (s : BackendPool) : Prop where
  key : s.world.dispatch.now < s.world.expiresAt driverId →
    ∃ rideId, s.world.dispatch.reservations driverId = some rideId
  latest : s.world.expiresAt driverId ≤ s.world.dispatch.now + lease cfg
  ledger : ∃ owing : List Nat,
    (∀ i th rideId, s.threads i = some th → pendingOf th.log = some (rideId, driverId) →
      i ∈ owing) ∧
    (offers s.world driverId + owing.length) * lease cfg ≤ s.world.expiresAt driverId

theorem initial_leased (cfg : Dispatch.Config) (driverId : String)
    (drivers : String → Option DriverStatus) : Leased cfg driverId (initial drivers) where
  key h := absurd h (Nat.not_lt_zero _)
  latest := Nat.zero_le _
  ledger := ⟨[], fun _ _ _ => nofun, Nat.le_of_eq (Nat.zero_mul _)⟩

section Steps

variable {cfg : Dispatch.Config} {haversineKm : GeoPoint → GeoPoint → Option Rat}
  {s t : BackendPool} {a : BackendAction} {driverId : String}

theorem offers_append {w w' : World} {envelope : EventEnvelope} {b : Bool}
    (h : w'.events = w.events ++ [envelope]) (hb : offersTo driverId envelope = b) :
    offers w' driverId = offers w driverId + b.toNat := by
  unfold offers
  rw [h, List.countP_append, List.countP_singleton, hb]
  cases b <;> rfl

/-- A step that takes no key and publishes no offer. -/
theorem Leased.idle (hl : Leased cfg driverId s)
    (hnow : t.world.dispatch.now = s.world.dispatch.now)
    (hexpires : t.world.expiresAt driverId = s.world.expiresAt driverId)
    (hkey : ∀ rideId, s.world.dispatch.reservations driverId = some rideId →
      t.world.dispatch.reservations driverId = some rideId)
    (hoffers : offers t.world driverId = offers s.world driverId)
    (howing : ∀ i th rideId, t.threads i = some th →
      pendingOf th.log = some (rideId, driverId) → ∃ th', s.threads i = some th' ∧
        pendingOf th'.log = some (rideId, driverId)) : Leased cfg driverId t := by
  obtain ⟨owing, hmem, hle⟩ := hl.ledger
  refine ⟨fun h => ?_, ?_, owing, fun i th rideId hi hp => ?_, ?_⟩
  · rw [hnow, hexpires] at h
    obtain ⟨rideId, hr⟩ := hl.key h
    exact ⟨rideId, hkey rideId hr⟩
  · rw [hnow, hexpires]
    exact hl.latest
  · obtain ⟨th', hi', hp'⟩ := howing i th rideId hi hp
    exact hmem i th' rideId hi' hp'
  · rw [hoffers, hexpires]
    exact hle

/-- The start of a call takes no key. -/
theorem start_expiresAt {w w' : World} {call : Call} (h : w.start call = some w') :
    w'.expiresAt = w.expiresAt := by
  unfold World.start at h
  split at h
  · split at h <;> cases h
    rfl
  · split at h <;> cases h
    rfl
  · split at h <;> cases h
    rfl
  · cases h
    rfl

theorem Leased.spawn (hl : Leased cfg driverId s) {i : Nat} {call : Call} {w : World}
    {p : Prog Cmd Reply Empty Unit} (hw : s.world.start call = some w) :
    Leased cfg driverId ⟨w, Function.update s.threads i (some ⟨call, p, []⟩)⟩ := by
  obtain ⟨hevents, -, -, hdispatch, -⟩ := start_frame hw
  refine hl.idle (congrArg _ hdispatch) (congrFun (start_expiresAt hw) driverId) ?_ ?_ ?_
  · intro rideId hr
    exact (congrArg (·.reservations driverId) hdispatch).trans hr
  · unfold offers
    rw [hevents]
  · intro j th rideId hj hp
    rcases update_eq_some hj with ⟨-, rfl⟩ | ⟨-, hj⟩
    · cases hp
    · exact ⟨th, hj, hp⟩

/-- Time passes, and a key whose time is not over stays. -/
theorem Leased.elapse (hl : Leased cfg driverId s) (ms : Nat) :
    Leased cfg driverId ⟨s.world.elapse ms, s.threads⟩ := by
  obtain ⟨owing, hmem, hle⟩ := hl.ledger
  refine ⟨fun h => ?_, ?_, owing, hmem, hle⟩
  · change s.world.dispatch.now + ms < s.world.expiresAt driverId at h
    obtain ⟨rideId, hr⟩ := hl.key (Nat.lt_of_le_of_lt (Nat.le_add_right _ _) h)
    exact ⟨rideId, (if_pos h).trans hr⟩
  · have hlatest := hl.latest
    change s.world.expiresAt driverId ≤ s.world.dispatch.now + ms + lease cfg
    omega

theorem Leased.env (hl : Leased cfg driverId s) {e : Env} {w : World}
    (hw : s.world.env e = some w) : Leased cfg driverId ⟨w, s.threads⟩ := by
  have hidle (hdispatch : w.dispatch = s.world.dispatch)
      (hexpires : w.expiresAt = s.world.expiresAt)
      (hoffers : offers w driverId = offers s.world driverId) :
      Leased cfg driverId ⟨w, s.threads⟩ :=
    hl.idle (congrArg _ hdispatch) (congrFun hexpires driverId)
      (fun _ hr => (congrArg (·.reservations driverId) hdispatch).trans hr) hoffers
      fun _ th _ hi hp => ⟨th, hi, hp⟩
  cases e with
  | requestRide input correlationId =>
      cases hw
      exact hidle rfl rfl (offers_append (b := false) rfl rfl)
  | cancelRide rideId reason correlationId =>
      cases hw
      exact hidle rfl rfl (offers_append (b := false) rfl rfl)
  | updateLocation driverId' =>
      change (if driverId' = "" then none else some _) = some w at hw
      split at hw
      · cases hw
      · cases hw
        exact hidle rfl rfl rfl
  | elapse ms =>
      cases hw
      exact hl.elapse ms

section Run

variable {i : Nat} {call : Call} {c : Cmd} {k : Reply c → Prog Cmd Reply Empty Unit}
  {log : BackendLog} {r : Reply c} {w : World} {found : List NearbyDriver}

/-- A driver is only won when the last lease is over. -/
theorem Leased.won (hl : Leased cfg driverId s) {rideId : String}
    (hx : s.world.exec found (.dispatch (.tryReserve driverId rideId cfg.reservationTtlSeconds)) =
      (.ok true, w))
    (hexpires : w.expiresAt driverId = s.world.dispatch.now + lease cfg)
    {th : BackendThread} :
    Leased cfg driverId ⟨w, Function.update s.threads i (some th)⟩ := by
  obtain ⟨owing, hmem, hle⟩ := hl.ledger
  obtain ⟨hfree, htaken⟩ := exec_won hx
  have hover : s.world.expiresAt driverId ≤ s.world.dispatch.now := by
    by_contra hlt
    obtain ⟨_, hr⟩ := hl.key (Nat.lt_of_not_le hlt)
    rw [hfree] at hr
    cases hr
  have hoffers : offers w driverId = offers s.world driverId := by
    unfold offers
    rcases exec_events hx with hsame | ⟨_, _, _, hc, -⟩
    · rw [hsame]
    · cases hc
  refine ⟨fun _ => ⟨rideId, htaken⟩, ?_, i :: owing, fun j th' ride hj hp => ?_, ?_⟩
  · rw [hexpires, exec_now hx]
  · rcases update_eq_some hj with ⟨rfl, -⟩ | ⟨-, hj⟩
    · exact List.mem_cons_self
    · exact List.mem_cons_of_mem _ (hmem j th' ride hj hp)
  · rw [hoffers, List.length_cons, ← Nat.add_assoc, Nat.add_one_mul, hexpires]
    exact Nat.add_le_add_right (hle.trans hover) _

/-- An offer that is owed is published. -/
theorem Leased.announced (hl : Leased cfg driverId s) {rideId correlationId key : String}
    {k : Reply (.dispatch (.publish (.reserved rideId driverId) correlationId key)) →
      Prog Cmd Reply Empty Unit} {r : Except String Unit}
    (hi : s.threads i = some ⟨call,
      .call (.dispatch (.publish (.reserved rideId driverId) correlationId key)) k, log⟩)
    (hpending : pendingOf log = some (rideId, driverId))
    (hx : s.world.exec found (.dispatch (.publish (.reserved rideId driverId) correlationId key)) =
      (r, w)) :
    Leased cfg driverId ⟨w, Function.update s.threads i (some ⟨call, k r,
      ⟨.dispatch (.publish (.reserved rideId driverId) correlationId key), r⟩ :: log⟩)⟩ := by
  obtain ⟨owing, hmem, hle⟩ := hl.ledger
  have hin := hmem i _ rideId hi hpending
  obtain ⟨hr, hkeys, hexpires, hoffers⟩ : r = .ok () ∧
      w.dispatch.reservations = s.world.dispatch.reservations ∧
      w.expiresAt = s.world.expiresAt ∧ offers w driverId = offers s.world driverId + 1 := by
    cases hx
    exact ⟨rfl, rfl, rfl, offers_append (b := true) rfl (decide_eq_true rfl)⟩
  refine ⟨fun h => ?_, ?_, owing.erase i, fun j th ride hj hp => ?_, ?_⟩
  · change w.dispatch.now < w.expiresAt driverId at h
    rw [exec_now hx, hexpires] at h
    rw [hkeys]
    exact hl.key h
  · rw [hexpires, exec_now hx]
    exact hl.latest
  · rcases update_eq_some hj with ⟨-, rfl⟩ | ⟨hne, hj⟩
    · subst hr
      cases hp
    · exact (List.mem_erase_of_ne hne).mpr (hmem j th ride hj hp)
  · have hlength := List.length_erase_of_mem hin
    have hpos := List.length_pos_of_mem hin
    have hsum : offers s.world driverId + 1 + (owing.erase i).length =
        offers s.world driverId + owing.length := by omega
    rw [hoffers, hexpires, hsum]
    exact hle

theorem Leased.run (hl : Leased cfg driverId s) (hs : Sound s)
    (hlease : (Prog.call c k).Only (Leases cfg))
    (hi : s.threads i = some ⟨call, .call c k, log⟩) (hx : s.world.exec found c = (r, w)) :
    Leased cfg driverId
      ⟨w, Function.update s.threads i (some ⟨call, k r, ⟨c, r⟩ :: log⟩)⟩ := by
  have hcases := @exec_expiresAt _ _ _ _ _ driverId hx
  rcases hcases with ⟨rideId, ttlSeconds, heq, hexpires⟩ | ⟨hnot, hexpires⟩
  · cases heq
    cases show ttlSeconds = cfg.reservationTtlSeconds from hlease.1
    exact hl.won hx hexpires
  · have hidle (hoffers : offers w driverId = offers s.world driverId) : Leased cfg driverId
        ⟨w, Function.update s.threads i (some ⟨call, k r, ⟨c, r⟩ :: log⟩)⟩ := by
      refine hl.idle (exec_now hx) hexpires (fun _ => exec_keeps hx) hoffers ?_
      intro j th rideId hj hp
      rcases update_eq_some hj with ⟨rfl, rfl⟩ | ⟨-, hj⟩
      · rcases pendingOf_cons hp with hold | ⟨ttlSeconds, heq⟩
        · exact ⟨_, hi, hold⟩
        · exact absurd ⟨rideId, ttlSeconds, heq⟩ hnot
      · exact ⟨th, hj, hp⟩
    rcases exec_events hx with hsame | ⟨outcome, correlationId, key, rfl, hevents⟩
    · exact hidle (by rw [offers, offers, hsame])
    · cases outcome with
      | rejected rideId reason => exact hidle (offers_append (b := false) hevents rfl)
      | reserved rideId driverId' =>
          by_cases hd : driverId' = driverId
          · subst hd
            exact hl.announced hi (hs.announces hi) hx
          · exact hidle (offers_append (b := false) hevents (decide_eq_false hd))

end Run

theorem Leased.step (hl : Leased cfg driverId s) (hs : Sound s)
    (hlease : ∀ i th, s.threads i = some th → th.prog.Only (Leases cfg))
    (h : (machine cfg haversineKm).Step s a t) : Leased cfg driverId t := by
  cases h with
  | spawn hi hp =>
      obtain ⟨w, hw, heq⟩ := Option.map_eq_some_iff.mp hp
      cases heq
      exact hl.spawn hw
  | run hi hr => exact hl.run hs (hlease _ _ hi) hi (Option.some.inj hr)
  | env hw => exact hl.env hw

/-- However many rides are requested, and however their dispatches interleave, a
driver is offered at most one ride in the time of a reservation. -/
theorem offers_le {drivers : String → Option DriverStatus} {acts : List BackendAction}
    (hrun : (machine cfg haversineKm).run (initial drivers) acts = some s) (driverId : String) :
    offers s.world driverId * lease cfg ≤ s.world.dispatch.now + lease cfg := by
  have hinv := Machine.run_invariant' (I := fun s => Sound s ∧
      (∀ i th, s.threads i = some th → th.prog.Only (Leases cfg)) ∧ Leased cfg driverId s)
    ⟨initial_sound drivers, fun _ _ => nofun, initial_leased cfg driverId drivers⟩
    (fun _ _ _ ⟨hs, hlease, hl⟩ hstep => ⟨hs.step hstep, Machine.only_step (fun call w p w' hp => by
      obtain ⟨w', -, heq⟩ := Option.map_eq_some_iff.mp hp
      cases heq
      exact prog_leases haversineKm call) hlease hstep, hl.step hs hlease hstep⟩) hrun
  obtain ⟨-, -, -, hlatest, owing, -, hle⟩ := hinv
  calc offers s.world driverId * lease cfg
      ≤ (offers s.world driverId + owing.length) * lease cfg :=
        Nat.mul_le_mul_right _ (Nat.le_add_right _ _)
    _ ≤ s.world.expiresAt driverId := hle
    _ ≤ s.world.dispatch.now + lease cfg := hlatest

/-- Two offers of `d` in 30 seconds are as many as there can be. -/
theorem offers_le_matchTwice : ∃ s, (machine .defaults fun _ _ => some 0).run (initial onlyDriver)
      matchTwice = some s ∧ offers s.world "d" = 2 ∧ s.world.dispatch.now = 30000 ∧
    2 * lease .defaults ≤ 30000 + lease .defaults := by
  have hrun : (machine .defaults fun _ _ => some 0).run (initial onlyDriver) matchTwice =
      some _ := rfl
  exact ⟨_, hrun, rfl, rfl, offers_le hrun "d"⟩

end Steps

end Backend

end RydTrip
