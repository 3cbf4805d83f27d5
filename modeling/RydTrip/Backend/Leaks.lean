import RydTrip.Backend.DoubleBooking
import RydTrip.Backend.Syncs

/-!
# Who a driver is reserved for

A driver is RESERVED from the attempt that wins him.  What accounts for it is
handed on: the dispatch announces it, trip-service matches the ride, and the
operation that starts or ends the trip owes the sync.  A `driver.reserved` event
that is parked is where the chain breaks, and nothing takes the driver back.
-/

namespace RydTrip

namespace Backend

open Process TripService

/-! ## Leaks -/

/-- Every call has ended, and every event has been handled. -/
structure Quiescent (s : BackendPool) : Prop where
  ended : ∀ i th, s.threads i = some th → ¬ th.Live
  handled : ∀ envelope, Published s.world envelope →
    s.world.tripDelivered envelope.eventId = true ∧
      (envelope.eventType = .rideRequested → s.world.dispatchDelivered envelope.eventId = true)

/-- Every driver who is not free has a ride in that status. -/
structure NoLeak (w : World) : Prop where
  reserved : ∀ driverId, w.drivers driverId = some .reserved →
    ∃ rideId row, w.trip.findRide rideId = some row ∧ row.driverId = some driverId ∧
      row.status.Assigned
  onTrip : ∀ driverId, w.drivers driverId = some .onTrip →
    ∃ rideId row, w.trip.findRide rideId = some row ∧ row.driverId = some driverId ∧
      row.status = .inProgress

/-- The step breaks no chain between a driver's status and a ride. -/
structure KeepsTrack (s : BackendPool) (a : BackendAction) : Prop where
  /-- Operations on a ride take turns. -/
  turns : TakeTurns s a
  /-- Drivers do not set RESERVED or ON_TRIP themselves. -/
  own : ∀ i driverId status, a = .spawn i (.updateStatus driverId status) →
    status ≠ .reserved ∧ status ≠ .onTrip
  /-- No `driver.reserved` event is parked while its driver is RESERVED. -/
  parked : ∀ i found call fields k log envelope rideId driverId, a = .run i found →
    s.threads i = some ⟨call, .call (.tripPark fields) k, log⟩ →
    fields.envelope = some envelope →
    RideEvent.ofEnvelope envelope = some (.reserved rideId driverId) →
    s.world.drivers driverId ≠ some .reserved
  /-- The sync at the start of a trip is not overtaken by the one at its end. -/
  inOrder : ∀ i found call op driverId k log rideId row, a = .run i found →
    s.threads i = some ⟨call, .call (.drivers (.update driverId .onTrip)) k, log⟩ →
    call.op = some op → op.ride = some rideId → s.world.trip.findRide rideId = some row →
    row.status = .inProgress ∨ ∃ j th op', s.threads j = some th ∧ th.call.op = some op' ∧
      (progressOf th.log).due = some (driverId, .available)

/-! ## What accounts for a status -/

/-- Somebody accounts for the reservation of the driver. -/
inductive Held (s : BackendPool) (driverId : String) : Prop where
  /-- A dispatch has won him, and owes the event. -/
  | won {i : Nat} {th : BackendThread} {envelope : EventEnvelope} {rideId : String} :
      s.threads i = some th →
      th.call = .dispatchEvent envelope →
      pendingOf th.log = some (rideId, driverId) →
      Held s driverId
  /-- The event is on its topic. -/
  | announced {envelope : EventEnvelope} {rideId : String} :
      Published s.world envelope →
      s.world.tripDelivered envelope.eventId = false →
      RideEvent.ofEnvelope envelope = some (.reserved rideId driverId) →
      Held s driverId
  /-- Trip-service is handling the event. -/
  | delivered {i : Nat} {th : BackendThread} {envelope : EventEnvelope} {rideId : String} :
      s.threads i = some th →
      th.call = .tripEvent envelope →
      RideEvent.ofEnvelope envelope = some (.reserved rideId driverId) →
      (progressOf th.log).done = false →
      Held s driverId
  /-- He is assigned to a ride, and no handler has released him already. -/
  | assigned {rideId : String} {row : RideRow} :
      s.world.trip.findRide rideId = some row →
      row.driverId = some driverId →
      row.status.Assigned →
      (∀ i th, s.threads i = some th → th.Live → th.call.ride = some rideId →
        ¬ (progressOf th.log).Released rideId) →
      Held s driverId
  /-- The sync that ends the reservation is due. -/
  | syncing {i : Nat} {th : BackendThread} {op : Op} {status : DriverStatus} :
      s.threads i = some th →
      th.call.op = some op →
      (progressOf th.log).due = some (driverId, status) →
      Held s driverId

/-- The driver is on a trip, or the sync at the end of it is due. -/
inductive OnRoad (s : BackendPool) (driverId : String) : Prop where
  | riding {rideId : String} {row : RideRow} :
      s.world.trip.findRide rideId = some row →
      row.driverId = some driverId →
      row.status = .inProgress →
      OnRoad s driverId
  | returning {i : Nat} {th : BackendThread} {op : Op} :
      s.threads i = some th →
      th.call.op = some op →
      (progressOf th.log).due = some (driverId, .available) →
      OnRoad s driverId

/-- The part of the invariant that is about drivers. -/
structure Accounted (s : BackendPool) : Prop where
  own : ∀ i th driverId status, s.threads i = some th →
    th.call = .updateStatus driverId status → status ≠ .reserved ∧ status ≠ .onTrip
  held : ∀ driverId, s.world.drivers driverId = some .reserved → Held s driverId
  onRoad : ∀ driverId, s.world.drivers driverId = some .onTrip → OnRoad s driverId

theorem initial_accounted {drivers : String → Option DriverStatus}
    (hfree : ∀ driverId, drivers driverId ≠ some .reserved ∧ drivers driverId ≠ some .onTrip) :
    Accounted (initial drivers) :=
  ⟨fun _ _ _ _ => nofun, fun driverId h => absurd h (hfree driverId).1,
    fun driverId h => absurd h (hfree driverId).2⟩

/-! ## Commands -/

section Commands

variable {s : BackendPool} {i : Nat} {found : List NearbyDriver} {call : Call} {c : Cmd}
  {k : Reply c → Prog Cmd Reply Empty Unit} {log : BackendLog} {r : Reply c} {w : World}
  {driverId : String}

/-- The statuses that a transition of an assigned ride leads to. -/
theorem assigned_or_sync {src tgt : RideStatus} (h : src.Assigned)
    (hcan : canTransitionRideStatus src tgt = true ∨ src = tgt) :
    tgt.Assigned ∨ ∃ status, syncStatus tgt = some status := by
  revert h hcan
  cases src <;> cases tgt <;> simp [RideStatus.Assigned, syncStatus, canTransitionRideStatus,
    RideStatus.allowedTransitions]

/-- While a driver stays RESERVED, a sync for him stays due. -/
theorem Owed.still {op : Op} {status : DriverStatus} (howed : Owed s) (hs : Sound s)
    (hi : s.threads i = some ⟨call, .call c k, log⟩) (hx : s.world.exec found c = (r, w))
    (hop : call.op = some op) (hdue : (progressOf log).due = some (driverId, status))
    (hstill : s.world.drivers driverId = some .reserved)
    (hres : w.drivers driverId = some .reserved) :
    (progressOf (⟨c, r⟩ :: log)).due = some (driverId, status) := by
  obtain ⟨rideId, row, hd⟩ := howed i _ op _ _ hi hop hdue
  refine due_still hop (hs.meets _ _ hi).allows hx hdue hstill hres ?_
  rcases hd.target with rfl | rfl <;> rfl

/-- The handler of a `driver.reserved` event matches the ride, as it does not
park the event. -/
theorem Held.handled {envelope : EventEnvelope} {rideId : String} (hs : Sound s) (ho : Once s)
    (hkeeps : KeepsTrack s (.run i found))
    (hi : s.threads i = some ⟨call, .call c k, log⟩) (hx : s.world.exec found c = (r, w))
    (hcall : call = .tripEvent envelope)
    (hof : RideEvent.ofEnvelope envelope = some (.reserved rideId driverId))
    (hopen : (progressOf log).done = false)
    (hstill : s.world.drivers driverId = some .reserved) :
    Held (after s i call k log r w) driverId := by
  subst hcall
  have hself : (after s i (.tripEvent envelope) k log r w).threads i =
      some ⟨.tripEvent envelope, k r, ⟨c, r⟩ :: log⟩ :=
    Function.update_self ..
  cases hdone : (progressOf (⟨c, r⟩ :: log)).done with
  | false => exact .delivered hself rfl hof hdone
  | true =>
      rcases hs.dealt ho hi hx hof hopen hdone with
        ⟨row, es, options, hrow, hdriver, hmatched, hcommit, hmem⟩ | ⟨fields, rfl, henvelope⟩
      · refine .assigned hrow hdriver (hmatched ▸ trivial) fun j th hj hlive hride hrel => ?_
        rcases update_eq_some hj with ⟨rfl, rfl⟩ | ⟨hne, hj⟩
        · cases hdone.symm.trans hrel.2.1
        · obtain ⟨-, -, options', hstaged⟩ := hrel
          rw [hkeeps.turns.locked i es _ _ _ hcommit hmem j th hj hne hlive hride] at hstaged
          cases hstaged
      · exact absurd hstill (hkeeps.parked _ _ _ _ _ _ _ _ _ rfl hi henvelope hof)

/-- A ride keeps its driver until the operation that ends it owes the sync. -/
theorem Held.rideMoved {rideId : String} {row : RideRow} (hs : Sound s) (howed : Owed s)
    (hn : DriversNamed s.world) (hkeeps : KeepsTrack s (.run i found))
    (hi : s.threads i = some ⟨call, .call c k, log⟩) (hx : s.world.exec found c = (r, w))
    (hrow : s.world.trip.findRide rideId = some row) (hdriver : row.driverId = some driverId)
    (hassigned : row.status.Assigned)
    (hnone : ∀ j th, s.threads j = some th → th.Live → th.call.ride = some rideId →
      ¬ (progressOf th.log).Released rideId)
    (hstill : s.world.drivers driverId = some .reserved)
    (hres : w.drivers driverId = some .reserved) : Held (after s i call k log r w) driverId := by
  have hpre := (hs.meets _ _ hi).allows
  have hself : (after s i call k log r w).threads i = some ⟨call, k r, ⟨c, r⟩ :: log⟩ :=
    Function.update_self ..
  have hne : driverId ≠ "" := fun heq => hn rideId row hrow (heq ▸ hdriver)
  rcases hkeeps.turns.row_cases hs hi hx hrow with
    hsame | ⟨op, row', hop, hride, hrow', hdone, hmoved, -, hothers⟩
  · -- the row stays, so the thread would have to become `Released`
    refine .assigned hsame hdriver hassigned fun j th hj hlive hride hrel => ?_
    rcases update_eq_some hj with ⟨rfl, rfl⟩ | ⟨hji, hj⟩
    · rcases released_cons hpre hx hrow hdriver hne hrel with hold | ⟨⟨driverId', status⟩, hold⟩
      · exact hnone j _ hi ⟨_, _, rfl⟩ hride hold
      · obtain ⟨op, hop, hride⟩ := Option.bind_eq_some_iff.mp hride
        obtain ⟨rideId', row', hd⟩ := howed j _ op _ _ hi hop hold
        cases hride.symm.trans hd.ride
        cases hrow.symm.trans hd.found
        cases hdriver.symm.trans hd.driver
        cases (howed.still hs hi hx hop hold hstill hres).symm.trans hrel.1
    · exact hnone j th hj hlive hride hrel
  · cases hmoved with
    | matched hev hmatching =>
        rw [hmatching] at hassigned
        exact hassigned.elim
    | released hcan hcancelled hdr hreleased =>
        exact absurd hreleased (hnone i _ hi ⟨_, _, rfl⟩ hride)
    | settled hcan hnm hdr hsync hstaged =>
        rw [hdriver] at hdr
        rcases assigned_or_sync hassigned hcan with hassigned' | ⟨status, hst⟩
        · refine .assigned hrow' hdr hassigned' fun j th hj hlive hride hrel => ?_
          rcases update_eq_some hj with ⟨rfl, rfl⟩ | ⟨hji, hj⟩
          · cases hdone.symm.trans hrel.2.1
          · obtain ⟨-, -, options, hstaged⟩ := hrel
            rw [hothers j th hj hji hlive hride] at hstaged
            cases hstaged
        · refine .syncing hself hop (hsync.trans (syncOf_eq_some.mpr ⟨?_, hst⟩))
          exact truthy_eq_some.mpr ⟨hdr, hne⟩

/-- A driver who stays RESERVED stays on the books. -/
theorem Held.run (hs : Sound s) (ho : Once s) (howed : Owed s) (hn : DriversNamed s.world)
    (hkeeps : KeepsTrack s (.run i found))
    (hi : s.threads i = some ⟨call, .call c k, log⟩) (hx : s.world.exec found c = (r, w))
    (hheld : Held s driverId) (hstill : s.world.drivers driverId = some .reserved)
    (hres : w.drivers driverId = some .reserved) : Held (after s i call k log r w) driverId := by
  have hself : (after s i call k log r w).threads i = some ⟨call, k r, ⟨c, r⟩ :: log⟩ :=
    Function.update_self ..
  have hkept {j : Nat} {th : BackendThread} (hne : j ≠ i) (hj : s.threads j = some th) :
      (after s i call k log r w).threads j = some th :=
    (Function.update_of_ne hne _ _).trans hj
  cases hheld with
  | @won j th envelope rideId hj hcall hpending =>
      by_cases hji : j = i
      · subst hji
        rw [hi] at hj
        cases hj
        rcases pending_kept (hs.meets _ _ hi).allows (exec_answered hs.located hx) hpending with
          hpending | ⟨correlationId, key, rfl⟩
        · exact .won hself hcall hpending
        · obtain ⟨envelope', hpub, hdel, hof⟩ := exec_publish hx hs.delivered
          exact .announced hpub hdel hof
      · exact .won (hkept hji hj) hcall hpending
  | announced hpub hdel hof =>
      have hdel' := (congrFun (exec_delivered hx).1 _).trans hdel
      have hstep : (machine .defaults fun _ _ => some 0).Step s (.run i found) _ :=
        .run hi (congrArg some hx)
      exact .announced (hpub.step hstep) hdel' hof
  | @delivered j th envelope rideId hj hcall hof hopen =>
      by_cases hji : j = i
      · subst hji
        rw [hi] at hj
        cases hj
        exact .handled hs ho hkeeps hi hx hcall hof hopen hstill
      · exact .delivered (hkept hji hj) hcall hof hopen
  | assigned hrow hdriver hassigned hnone =>
      exact .rideMoved hs howed hn hkeeps hi hx hrow hdriver hassigned hnone hstill hres
  | @syncing j th op status hj hop hdue =>
      by_cases hji : j = i
      · subst hji
        rw [hi] at hj
        cases hj
        exact .syncing hself hop (howed.still hs hi hx hop hdue hstill hres)
      · exact .syncing (hkept hji hj) hop hdue

theorem inProgress_or_sync {tgt : RideStatus}
    (hcan : canTransitionRideStatus .inProgress tgt = true ∨ .inProgress = tgt) :
    tgt = .inProgress ∨ syncStatus tgt = some .available := by
  revert hcan
  cases tgt <;> decide

/-- A driver who stays ON_TRIP stays on the road. -/
theorem OnRoad.run (hs : Sound s) (hn : DriversNamed s.world) (hkeeps : KeepsTrack s (.run i found))
    (hi : s.threads i = some ⟨call, .call c k, log⟩) (hx : s.world.exec found c = (r, w))
    (hroad : OnRoad s driverId) (hstill : s.world.drivers driverId = some .onTrip)
    (hon : w.drivers driverId = some .onTrip) : OnRoad (after s i call k log r w) driverId := by
  have hpre := (hs.meets _ _ hi).allows
  have hself : (after s i call k log r w).threads i = some ⟨call, k r, ⟨c, r⟩ :: log⟩ :=
    Function.update_self ..
  cases hroad with
  | @riding rideId row hrow hdriver hst =>
      have hne : driverId ≠ "" := fun heq => hn rideId row hrow (heq ▸ hdriver)
      rcases hkeeps.turns.row_cases hs hi hx hrow with
        hsame | ⟨op, row', hop, hride, hrow', hdone, hmoved, -⟩
      · exact .riding hsame hdriver hst
      · cases hmoved with
        | matched hev hmatching => cases hst.symm.trans hmatching
        | released hcan =>
            rw [hst] at hcan
            rcases hcan with hcan | hcan <;> cases hcan
        | settled hcan hnm hdr hsync hstaged =>
            rw [hdriver] at hdr
            rw [hst] at hcan
            rcases inProgress_or_sync hcan with hst' | hst'
            · exact .riding hrow' hdr hst'
            · refine .returning hself hop (hsync.trans (syncOf_eq_some.mpr ⟨?_, hst'⟩))
              exact truthy_eq_some.mpr ⟨hdr, hne⟩
  | @returning j th op hj hop hdue =>
      by_cases hji : j = i
      · subst hji
        rw [hi] at hj
        cases hj
        exact .returning hself hop (due_still hop hpre hx hdue hstill hon rfl)
      · exact .returning ((Function.update_of_ne hji _ _).trans hj) hop hdue

/-- Who becomes RESERVED has been won by a dispatch. -/
theorem Held.written (hs : Sound s) (howed : Owed s) (hacc : Accounted s)
    {k : Reply (.drivers (.update driverId .reserved)) → Prog Cmd Reply Empty Unit}
    {r : Reply (.drivers (.update driverId .reserved))}
    (hi : s.threads i = some ⟨call, .call (.drivers (.update driverId .reserved)) k, log⟩) :
    Held (after s i call k log r w) driverId := by
  have hsends : call.Sends (track Track.next .start log) driverId .reserved :=
    (hs.meets _ _ hi).allows
  have howes {op : Op} (hop : call.op = some op)
      (hdue : (progressOf log).due = some (driverId, .reserved)) : False := by
    obtain ⟨rideId, row, hd⟩ := howed i _ op _ _ hi hop hdue
    rcases hd.target with heq | heq <;> cases heq
  cases call with
  | http op => exact (howes rfl hsends).elim
  | tripEvent envelope => exact (howes rfl hsends).elim
  | dispatchEvent envelope =>
      obtain ⟨-, rideId, hpending⟩ := hsends
      exact .won (Function.update_self ..) rfl hpending
  | updateStatus driverId' status =>
      obtain ⟨rfl, rfl⟩ := hsends
      exact absurd rfl (hacc.own i _ _ _ hi rfl).1

/-- Who becomes ON_TRIP has a ride in progress, or is on his way back. -/
theorem OnRoad.written (hs : Sound s) (howed : Owed s) (hacc : Accounted s)
    (hkeeps : KeepsTrack s (.run i found))
    {k : Reply (.drivers (.update driverId .onTrip)) → Prog Cmd Reply Empty Unit}
    {r : Reply (.drivers (.update driverId .onTrip))}
    (hi : s.threads i = some ⟨call, .call (.drivers (.update driverId .onTrip)) k, log⟩)
    (hx : s.world.exec found (.drivers (.update driverId .onTrip)) = (r, w)) :
    OnRoad (after s i call k log r w) driverId := by
  have hsends : call.Sends (track Track.next .start log) driverId .onTrip :=
    (hs.meets _ _ hi).allows
  have howes {op : Op} (hop : call.op = some op)
      (hdue : (progressOf log).due = some (driverId, .onTrip)) :
      OnRoad (after s i call k log r w) driverId := by
    obtain ⟨rideId, row, hd⟩ := howed i _ op _ _ hi hop hdue
    have htrip := exec_trip hx fun _ => nofun
    rcases hkeeps.inOrder _ _ _ _ _ _ _ _ _ rfl hi hop hd.ride hd.found with
      hst | ⟨j, th, op', hj, hop', hdue'⟩
    · exact .riding ((congrArg (·.findRide rideId) htrip).trans hd.found) hd.driver hst
    · have hji : j ≠ i := by
        rintro rfl
        rw [hi] at hj
        cases hj
        cases hdue.symm.trans hdue'
      exact .returning ((Function.update_of_ne hji _ _).trans hj) hop' hdue'
  cases call with
  | http op => exact howes rfl hsends
  | tripEvent envelope => exact howes rfl hsends
  | dispatchEvent envelope => cases hsends.1
  | updateStatus driverId' status =>
      obtain ⟨rfl, rfl⟩ := hsends
      exact absurd rfl (hacc.own i _ _ _ hi rfl).2

end Commands

/-! ## Steps -/

section Steps

variable {cfg : Dispatch.Config} {haversineKm : GeoPoint → GeoPoint → Option Rat}
  {s t : BackendPool} {a : BackendAction} {driverId : String}

/-- The start of a call takes no driver off the books. -/
theorem Held.spawn {i : Nat} {call : Call} {p : Prog Cmd Reply Empty Unit} {w : World}
    (hi : s.threads i = none) (hw : s.world.start call = some w) (h : Held s driverId) :
    Held ⟨w, Function.update s.threads i (some ⟨call, p, []⟩)⟩ driverId := by
  obtain ⟨hevents, htrip, -⟩ := start_frame hw
  have hkept {j : Nat} {th : BackendThread} (hj : s.threads j = some th) :
      Function.update s.threads i (some ⟨call, p, []⟩) j = some th := by
    refine (Function.update_of_ne ?_ _ _).trans hj
    rintro rfl
    rw [hi] at hj
    cases hj
  cases h with
  | won hj hcall hpending => exact .won (hkept hj) hcall hpending
  | @announced envelope rideId hpub hdel hof =>
      cases hdel' : w.tripDelivered envelope.eventId with
      | false => exact .announced (by rwa [Published, hevents]) hdel' hof
      | true =>
          obtain ⟨-, -, -, -, -, -, hnew⟩ := start_frame hw
          rcases hnew _ hdel' with hold | ⟨envelope', rfl, hid, hpub'⟩
          · cases hdel.symm.trans hold
          · unfold Published at hpub hpub'
            rw [hid, hpub] at hpub'
            cases hpub'
            exact .delivered (Function.update_self ..) rfl hof rfl
  | delivered hj hcall hof hopen => exact .delivered (hkept hj) hcall hof hopen
  | @assigned rideId row hrow hdriver hassigned hnone =>
      refine .assigned ((congrArg (·.findRide rideId) htrip).trans hrow) hdriver hassigned
        fun j th hj hlive hride hrel => ?_
      rcases update_eq_some hj with ⟨-, rfl⟩ | ⟨-, hj⟩
      · obtain ⟨-, -, options, hstaged⟩ := hrel
        cases hstaged
      · exact hnone j th hj hlive hride hrel
  | syncing hj hop hdue => exact .syncing (hkept hj) hop hdue

theorem OnRoad.spawn {i : Nat} {call : Call} {p : Prog Cmd Reply Empty Unit} {w : World}
    (hi : s.threads i = none) (hw : s.world.start call = some w) (h : OnRoad s driverId) :
    OnRoad ⟨w, Function.update s.threads i (some ⟨call, p, []⟩)⟩ driverId := by
  obtain ⟨-, htrip, -⟩ := start_frame hw
  cases h with
  | @riding rideId row hrow hdriver hst =>
      exact .riding ((congrArg (·.findRide rideId) htrip).trans hrow) hdriver hst
  | @returning j th op hj hop hdue =>
      refine .returning ((Function.update_of_ne ?_ _ _).trans hj) hop hdue
      rintro rfl
      rw [hi] at hj
      cases hj

/-- Nothing is taken off the books from outside. -/
theorem Held.env {e : Env} {w : World} (hw : s.world.env e = some w) (h : Held s driverId) :
    Held ⟨w, s.threads⟩ driverId := by
  obtain ⟨hdelivered, -, -, ⟨now, htrip⟩, -⟩ := env_frame hw
  cases h with
  | won hj hcall hpending => exact .won hj hcall hpending
  | announced hpub hdel hof =>
      have hstep : (machine .defaults fun _ _ => some 0).Step s (.env e) ⟨w, s.threads⟩ := .env hw
      exact .announced (hpub.step hstep) ((congrFun hdelivered _).trans hdel) hof
  | delivered hj hcall hof hopen => exact .delivered hj hcall hof hopen
  | @assigned rideId row hrow hdriver hassigned hnone =>
      exact .assigned ((congrArg (·.findRide rideId) htrip).trans hrow) hdriver hassigned hnone
  | syncing hj hop hdue => exact .syncing hj hop hdue

theorem OnRoad.env {e : Env} {w : World} (hw : s.world.env e = some w) (h : OnRoad s driverId) :
    OnRoad ⟨w, s.threads⟩ driverId := by
  obtain ⟨-, -, -, ⟨now, htrip⟩, -⟩ := env_frame hw
  cases h with
  | @riding rideId row hrow hdriver hst =>
      exact .riding ((congrArg (·.findRide rideId) htrip).trans hrow) hdriver hst
  | returning hj hop hdue => exact .returning hj hop hdue

theorem Accounted.step (hacc : Accounted s) (hs : Sound s) (ho : Once s) (howed : Owed s)
    (hn : DriversNamed s.world) (hkeeps : KeepsTrack s a)
    (h : (machine cfg haversineKm).Step s a t) : Accounted t := by
  cases h with
  | @spawn i call p w hi hp =>
      obtain ⟨w, hw, heq⟩ := Option.map_eq_some_iff.mp hp
      cases heq
      obtain ⟨-, -, hdrivers, -⟩ := start_frame hw
      refine ⟨fun j th driverId status hj hcall => ?_, fun driverId h => ?_, fun driverId h => ?_⟩
      · rcases update_eq_some hj with ⟨-, rfl⟩ | ⟨-, hj⟩
        · exact hkeeps.own i driverId status (congrArg _ hcall)
        · exact hacc.own j th _ _ hj hcall
      · exact (hacc.held driverId ((congrFun hdrivers _).symm.trans h)).spawn hi hw
      · exact (hacc.onRoad driverId ((congrFun hdrivers _).symm.trans h)).spawn hi hw
  | @env e w hw =>
      obtain ⟨-, hdrivers, -⟩ := env_frame hw
      exact ⟨hacc.own,
        fun driverId h => (hacc.held driverId ((congrFun hdrivers _).symm.trans h)).env hw,
        fun driverId h => (hacc.onRoad driverId ((congrFun hdrivers _).symm.trans h)).env hw⟩
  | @run i found call c k log r w hi hr =>
      have hx := Option.some.inj hr
      refine ⟨fun j th driverId status hj hcall => ?_, fun driverId h => ?_, fun driverId h => ?_⟩
      · rcases update_eq_some hj with ⟨-, rfl⟩ | ⟨-, hj⟩
        · exact hacc.own i _ _ _ hi hcall
        · exact hacc.own j th _ _ hj hcall
      · rcases exec_status hx driverId with hsame | ⟨status, rfl, hst⟩
        · have hstill := hsame.symm.trans h
          exact (hacc.held driverId hstill).run hs ho howed hn hkeeps hi hx hstill h
        · cases hst.symm.trans h
          exact .written hs howed hacc hi
      · rcases exec_status hx driverId with hsame | ⟨status, rfl, hst⟩
        · have hstill := hsame.symm.trans h
          exact (hacc.onRoad driverId hstill).run hs hn hkeeps hi hx hstill h
        · cases hst.symm.trans h
          exact .written hs howed hacc hkeeps hi hx

/-! ## Runs -/

/-- What holds in every run that keeps track. -/
structure Books (s : BackendPool) : Prop where
  sound : Sound s
  once : Once s
  waiting : Waiting s.world
  owed : Owed s
  named : DriversNamed s.world
  accounted : Accounted s

theorem Books.step (hb : Books s) (hkeeps : KeepsTrack s a)
    (h : (machine cfg haversineKm).Step s a t) : Books t where
  sound := hb.sound.step h
  once := hb.once.step hb.sound h
  waiting := hb.waiting.step hb.sound hkeeps.turns h
  owed := hb.owed.step hb.sound hb.waiting hkeeps.turns h
  named := hb.named.step hb.sound h
  accounted := hb.accounted.step hb.sound hb.once hb.owed hb.named hkeeps h

theorem initial_books {drivers : String → Option DriverStatus}
    (hfree : ∀ driverId, drivers driverId ≠ some .reserved ∧ drivers driverId ≠ some .onTrip) :
    Books (initial drivers) :=
  ⟨initial_sound drivers, initial_once drivers, initial_waiting drivers, initial_owed drivers,
    fun _ _ => nofun, initial_accounted hfree⟩

/-- When everything has been handled, only a ride can account for a driver. -/
theorem Books.noLeak (hb : Books s) (hq : Quiescent s) : NoLeak s.world := by
  have hdue {i : Nat} {th : BackendThread} {op : Op} {p : String × DriverStatus}
      (hi : s.threads i = some th) (hop : th.call.op = some op)
      (hdue : (progressOf th.log).due = some p) : False :=
    hq.ended i th hi (hb.sound.live_of_due hi hop hdue)
  refine ⟨fun driverId h => ?_, fun driverId h => ?_⟩
  · cases hb.accounted.held driverId h with
    | won hi hcall hpending =>
        have hfin := (hb.sound.meets _ _ hi).ended (hq.ended _ _ hi)
        rw [hcall] at hfin
        cases hfin.symm.trans hpending
    | announced hpub hdel hof => cases (hq.handled _ hpub).1.symm.trans hdel
    | delivered hi hcall hof hopen =>
        have hfin := (hb.sound.meets _ _ hi).ended (hq.ended _ _ hi)
        rw [hcall] at hfin
        cases (hfin.2 2 _ rfl (hof ▸ rfl)).symm.trans hopen
    | assigned hrow hdriver hassigned => exact ⟨_, _, hrow, hdriver, hassigned⟩
    | syncing hi hop hsync => exact (hdue hi hop hsync).elim
  · cases hb.accounted.onRoad driverId h with
    | riding hrow hdriver hst => exact ⟨_, _, hrow, hdriver, hst⟩
    | returning hi hop hsync => exact (hdue hi hop hsync).elim

/-- In every run that keeps track of the drivers, from drivers who are all free,
no driver is left RESERVED or ON_TRIP when everything has been handled. -/
theorem noLeak_of_keepsTrack {drivers : String → Option DriverStatus} {acts : List BackendAction}
    (hfree : ∀ driverId, drivers driverId ≠ some .reserved ∧ drivers driverId ≠ some .onTrip)
    (hrun : (machine cfg haversineKm).run (initial drivers) acts = some s)
    (hkeeps : (machine cfg haversineKm).Along (fun s a _ => KeepsTrack s a) (initial drivers)
      acts) :
    Quiescent s → NoLeak s.world := by
  have hb : Books s := Machine.run_invariant (initial_books hfree)
    (fun _ _ _ hb hP hstep => hb.step hP hstep) hrun hkeeps
  exact hb.noLeak

end Steps

/-! ## Runs one call after the other -/

def nextCmd : Prog Cmd Reply Empty Unit → Option Cmd
  | .call c _ => some c
  | _ => none

theorem prog_of_nextCmd {p : Prog Cmd Reply Empty Unit} {c : Cmd} (h : nextCmd p = some c) :
    ∃ k, p = .call c k := by
  cases p with
  | ret a => cases h
  | throw e => cases h
  | call c' k =>
      cases h
      exact ⟨k, rfl⟩

/-- No thread below `n` but `i` has a command left. -/
def onlyThread (n : Nat) (s : BackendPool) (i : Nat) : Bool :=
  (List.range n).all fun j => j == i || (s.threads j).all fun th => (nextCmd th.prog).isNone

/-- The transitions are allowed from the statuses that the rides have. -/
def lawfulWrites (w : World) (es : List Exec) : Bool :=
  es.all fun e =>
    match e with
    | .create _ => true
    | .transition rideId tgt _ =>
        (w.trip.findRide rideId).all fun row => canTransitionRideStatus row.status tgt

/-- Nothing is left to do for threads below `n`. -/
def quiet (n : Nat) (s : BackendPool) : Bool :=
  onlyThread n s n &&
    s.world.events.all fun envelope => s.world.tripDelivered envelope.eventId &&
      (envelope.eventType != .rideRequested || s.world.dispatchDelivered envelope.eventId)

section Checks

variable {s : BackendPool} {n i : Nat}

theorem not_live_of_onlyThread (hfew : ∀ j th, s.threads j = some th → j < n)
    (h : onlyThread n s i = true) {j : Nat} {th : BackendThread} (hj : s.threads j = some th)
    (hne : j ≠ i) : ¬ th.Live := by
  rintro ⟨c, k, hcall⟩
  have hor := List.all_eq_true.mp h j (List.mem_range.mpr (hfew j th hj))
  rcases Bool.or_eq_true_iff.mp hor with heq | hended
  · exact hne (beq_iff_eq.mp heq)
  · rw [hj, Option.all_some, hcall] at hended
    cases hended

theorem lawful_of_check {w : World} {es : List Exec} (h : lawfulWrites w es = true)
    {rideId : String} {tgt : RideStatus} {options : TransitionOptions} {row : RideRow}
    (hmem : .transition rideId tgt options ∈ es) (hrow : w.trip.findRide rideId = some row) :
    canTransitionRideStatus row.status tgt = true := by
  have hall := List.all_eq_true.mp h _ hmem
  change (Option.all _ (w.trip.findRide rideId)) = true at hall
  rw [hrow] at hall
  exact hall

theorem quiescent_of_quiet (hfew : ∀ j th, s.threads j = some th → j < n)
    (h : quiet n s = true) : Quiescent s := by
  obtain ⟨hended, hhandled⟩ := Bool.and_eq_true_iff.mp h
  refine ⟨fun j th hj => ?_, fun envelope hpub => ?_⟩
  · have hlt := hfew j th hj
    exact not_live_of_onlyThread hfew hended hj (by omega)
  · have hall := List.all_eq_true.mp hhandled envelope (List.mem_of_getElem? hpub)
    obtain ⟨htrip, hdispatch⟩ := Bool.and_eq_true_iff.mp hall
    refine ⟨htrip, fun htype => ?_⟩
    rw [htype] at hdispatch
    exact hdispatch

/-- The threads of a run are those that it starts. -/
theorem threads_lt {acts : List BackendAction} {drivers : String → Option DriverStatus}
    (hrun : (machine .defaults fun _ _ => some 0).run (initial drivers) acts = some s)
    (hacts : ∀ j call, .spawn j call ∈ acts → j < n) (j : Nat) (th : BackendThread)
    (hj : s.threads j = some th) : j < n :=
  Machine.calls_of_run (P := fun j _ => j < n) (fun _ _ h => by cases h) hacts hrun j th hj

theorem spawn_mem_alone {i j n : Nat} {call call' : Call} (h : .spawn j call' ∈ alone i call n) :
    j = i := by
  rcases List.mem_cons.mp h with heq | h
  · cases heq
    rfl
  · cases List.eq_of_mem_replicate h

end Checks

/-! ## Two runs -/

/-- The step keeps track, if no other thread is under way. -/
def keepsTrack (n : Nat) (s : BackendPool) : BackendAction → Bool
  | .spawn _ (.updateStatus ..) => false
  | .run i _ =>
      onlyThread n s i && (s.threads i).all fun th =>
        match nextCmd th.prog with
        | some (.tripPark _) => false
        | some (.drivers (.update _ status)) => status != .onTrip
        | some (.db c) => lawfulWrites s.world c.writes
        | _ => true
  | _ => true

theorem keepsTrack_of_check {s : BackendPool} {a : BackendAction} {n : Nat}
    (hfew : ∀ j th, s.threads j = some th → j < n) (h : keepsTrack n s a = true) :
    KeepsTrack s a where
  turns := by
    constructor
    · rintro i es rideId tgt options row ⟨found, call, c, k, log, key, rfl, hi, hc⟩ hmem hrow
      obtain ⟨-, hcheck⟩ := Bool.and_eq_true_iff.mp h
      rw [hi] at hcheck
      rw [← DbCmd.writes_of_commits hc] at hmem
      exact .inl (lawful_of_check hcheck hmem hrow)
    · rintro i es rideId tgt options ⟨found, call, c, k, log, key, rfl, hi, hc⟩ hmem j th hj hne
        hlive
      obtain ⟨honly, -⟩ := Bool.and_eq_true_iff.mp h
      exact absurd hlive (not_live_of_onlyThread hfew honly hj hne)
  own := by
    rintro i driverId status rfl
    cases h
  parked := by
    rintro i found call fields k log envelope rideId driverId rfl hi
    obtain ⟨-, hcheck⟩ := Bool.and_eq_true_iff.mp h
    rw [hi] at hcheck
    cases hcheck
  inOrder := by
    rintro i found call op driverId k log rideId row rfl hi
    obtain ⟨-, hcheck⟩ := Bool.and_eq_true_iff.mp h
    rw [hi] at hcheck
    cases hcheck

theorem spawn_mem_matchR {i : Nat} {call : Call} (h : .spawn i call ∈ matchR) : i < 3 := by
  rcases List.mem_append.mp h with h | h
  · rcases List.mem_append.mp h with h | h
    · rcases List.mem_append.mp h with h | h
      · simp only [List.mem_cons, reduceCtorEq, List.not_mem_nil, or_self] at h
      · rw [spawn_mem_alone h]
        decide
    · rw [spawn_mem_alone h]
      decide
  · rw [spawn_mem_alone h]
    decide

theorem noLeak_matchR : ∃ s, (machine .defaults fun _ _ => some 0).run (initial onlyDriver) matchR =
      some s ∧ s.world.drivers "d" = some .reserved ∧ NoLeak s.world := by
  have hfree (driverId : String) :
      onlyDriver driverId ≠ some .reserved ∧ onlyDriver driverId ≠ some .onTrip := by
    unfold onlyDriver
    rw [Function.update_apply]
    split <;> exact ⟨by decide, by decide⟩
  have hcheck : ((machine .defaults fun _ _ => some 0).run (initial onlyDriver) matchR).any
      (fun s => quiet 3 s && decide (s.world.drivers "d" = some .reserved)) = true := rfl
  obtain ⟨s, hrun, hs⟩ := (Option.any_eq_true _ _).mp hcheck
  obtain ⟨hquiet, hreserved⟩ := Bool.and_eq_true_iff.mp hs
  have hchecks : (machine .defaults fun _ _ => some 0).Along (fun s a _ => keepsTrack 3 s a = true)
      (initial onlyDriver) matchR := Machine.along_of_checks (fun _ _ _ h => h) rfl
  have hfew := Machine.along_calls (m := machine .defaults fun _ _ => some 0)
    (P := fun i _ => i < 3) (s := initial onlyDriver) (fun _ _ h => by cases h)
    fun _ _ h => spawn_mem_matchR h
  have hkeeps := (hchecks.and hfew).mono (Q := fun s a _ => KeepsTrack s a)
    fun s a _ h => keepsTrack_of_check h.2 h.1
  exact ⟨s, hrun, of_decide_eq_true hreserved, noLeak_of_keepsTrack hfree hrun hkeeps
    (quiescent_of_quiet (threads_lt hrun fun _ _ h => spawn_mem_matchR h) hquiet)⟩

/-- The rider cancels after dispatch has reserved `d`.  The match comes too late
and is parked. -/
def cancelDuringMatch : List BackendAction :=
  [.env (.updateLocation "d"), .env (.requestRide (rideInput "r") "c")] ++
    alone 0 (.tripEvent (requestedEvent 0 "r")) 4 ++
    alone 1 (.dispatchEvent (requestedEvent 0 "r")) 10 ++
    alone 2 (.http (.cancel "r" .undefined)) 2 ++ .replicate 3 (.run 1 driverD) ++
    alone 3 (.tripEvent (reservedEvent 1 "r" "d")) 4

theorem not_noLeak_cancelDuringMatch : ∃ s, (machine .defaults fun _ _ => some 0).run
      (initial onlyDriver) cancelDuringMatch = some s ∧ Quiescent s ∧ ¬ NoLeak s.world := by
  have hcheck : ((machine .defaults fun _ _ => some 0).run (initial onlyDriver)
      cancelDuringMatch).any (fun s => quiet 4 s && decide (s.world.drivers "d" = some .reserved) &&
        s.world.trip.rides.all fun row => row.driverId.isNone) = true := rfl
  obtain ⟨s, hrun, hs⟩ := (Option.any_eq_true _ _).mp hcheck
  obtain ⟨hs, hrides⟩ := Bool.and_eq_true_iff.mp hs
  obtain ⟨hquiet, hreserved⟩ := Bool.and_eq_true_iff.mp hs
  have hfew := threads_lt (n := 4) hrun fun i call h => by
    simp only [cancelDuringMatch, alone, List.mem_append, List.mem_cons, List.mem_replicate,
      reduceCtorEq, Action.spawn.injEq, List.not_mem_nil, and_false, or_false, false_or] at h
    omega
  refine ⟨s, hrun, quiescent_of_quiet hfew hquiet, fun h => ?_⟩
  obtain ⟨rideId, row, hrow, hdriver, -⟩ := h.reserved "d" (of_decide_eq_true hreserved)
  have hnone := List.all_eq_true.mp hrides row (List.mem_of_find?_eq_some hrow)
  rw [hdriver] at hnone
  cases hnone

end Backend

end RydTrip
