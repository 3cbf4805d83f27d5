import RydTrip.Backend.Answers

/-!
# Where the driver of a ride comes from

Trip-service writes a driver into a row only when it is told to by an event.
Behind the event is a dispatch that has won the driver in Redis, and behind the
dispatch a request for the ride.  The chain spans three services, and it holds
in every run, also when operations on a ride overtake each other.
-/

namespace RydTrip

namespace Backend

open Process TripService
open Dispatch (Answer requestedRide)

/-- The dispatch of a request for the ride has won the driver and has announced
him. -/
def WonBy (s : BackendPool) (rideId driverId : String) : Prop :=
  ∃ i th request ttlSeconds, s.threads i = some th ∧ th.call = .dispatchEvent request ∧
    Published s.world request ∧ requestedRide request = some rideId ∧
    ⟨.dispatch (.tryReserve driverId rideId ttlSeconds), .ok true⟩ ∈ th.log ∧
    answerOf th.log = .given (.reserved rideId driverId) request.correlationId

structure Traced (s : BackendPool) : Prop where
  events : ∀ envelope rideId driverId, Published s.world envelope →
    RideEvent.ofEnvelope envelope = some (.reserved rideId driverId) → WonBy s rideId driverId
  rows : ∀ rideId row driverId, s.world.trip.findRide rideId = some row →
    row.driverId = some driverId → WonBy s rideId driverId

theorem initial_traced (drivers : String → Option DriverStatus) : Traced (initial drivers) :=
  ⟨fun _ _ _ => nofun, fun _ _ _ => nofun⟩

/-- What a dispatch owes it has won before. -/
theorem won_of_pending {log : BackendLog} {rideId driverId : String}
    (h : pendingOf log = some (rideId, driverId)) :
    ∃ ttlSeconds, ⟨.dispatch (.tryReserve driverId rideId ttlSeconds), .ok true⟩ ∈ log := by
  induction log with
  | nil => cases h
  | cons entry log ih =>
      obtain ⟨c, r⟩ := entry
      rcases pendingOf_cons h with hold | ⟨ttlSeconds, heq⟩
      · obtain ⟨ttlSeconds, hmem⟩ := ih hold
        exact ⟨ttlSeconds, .tail _ hmem⟩
      · exact ⟨ttlSeconds, heq ▸ .head _⟩

section Steps

variable {cfg : Dispatch.Config} {haversineKm : GeoPoint → GeoPoint → Option Rat}
  {s t : BackendPool} {a : BackendAction} {rideId driverId : String}

/-- An answer that is given stands. -/
theorem Answering.given_cons (ha : Answering s) (hs : Sound s) {i : Nat} {call : Call} {c : Cmd}
    {k : Reply c → Prog Cmd Reply Empty Unit} {log : BackendLog} {r : Reply c}
    {outcome : Dispatch.Outcome} {correlationId : String}
    (hi : s.threads i = some ⟨call, .call c k, log⟩)
    (hgiven : answerOf log = .given outcome correlationId) :
    answerOf (⟨c, r⟩ :: log) = .given outcome correlationId := by
  cases c with
  | dispatch c =>
      obtain ⟨envelope, -, hallows⟩ := ha.allows hs hi
      rw [hgiven] at hallows
      change Answer.next c r (answerOf log) = _
      unfold Answer.next
      split
      · cases hallows.1
      · cases hallows.1
      · exact hgiven
  | _ => exact hgiven

theorem WonBy.step (hwon : WonBy s rideId driverId) (ha : Answering s) (hs : Sound s)
    (h : (machine cfg haversineKm).Step s a t) : WonBy t rideId driverId := by
  obtain ⟨j, th, request, ttlSeconds, hj, hcall, hpub, hride, hmem, hgiven⟩ := hwon
  have hpub' := hpub.step h
  cases h with
  | spawn hi hp =>
      refine ⟨j, th, request, ttlSeconds, (Function.update_of_ne ?_ _ _).trans hj, hcall, hpub',
        hride, hmem, hgiven⟩
      rintro rfl
      rw [hi] at hj
      cases hj
  | @run i found call c k log r w hi hr =>
      by_cases hji : j = i
      · subst hji
        cases hi.symm.trans hj
        exact ⟨j, _, request, ttlSeconds, Function.update_self .., hcall, hpub', hride,
          .tail _ hmem, ha.given_cons hs hi hgiven⟩
      · exact ⟨j, th, request, ttlSeconds, (Function.update_of_ne hji _ _).trans hj, hcall, hpub',
          hride, hmem, hgiven⟩
  | env hw => exact ⟨j, th, request, ttlSeconds, hj, hcall, hpub', hride, hmem, hgiven⟩

/-- The dispatch that announces a driver has won him. -/
theorem wonBy_of_publish (ha : Answering s) (hs : Sound s) {i : Nat} {found : List NearbyDriver}
    {call : Call} {correlationId key : String} {k : Except String Unit → Prog Cmd Reply Empty Unit}
    {log : BackendLog} (hi : s.threads i = some ⟨call,
      .call (.dispatch (.publish (.reserved rideId driverId) correlationId key)) k, log⟩)
    (h : (machine cfg haversineKm).Step s (.run i found) t) : WonBy t rideId driverId := by
  obtain ⟨ttlSeconds, hmem⟩ := won_of_pending (hs.announces hi)
  obtain ⟨request, rfl, -, hride, rfl⟩ := ha.allows hs hi
  have hpub := (ha.handled i _ request hi rfl).1.step h
  cases h with
  | run hi' hr =>
      cases hi.symm.trans hi'
      cases hr
      exact ⟨i, _, request, ttlSeconds, Function.update_self .., rfl, hpub, hride, .tail _ hmem,
        rfl⟩

theorem Traced.step (ht : Traced s) (ha : Answering s) (hs : Sound s)
    (h : (machine cfg haversineKm).Step s a t) : Traced t where
  events envelope rideId driverId hpub hof := by
    rcases published_reserved h hpub hof with hpub | ⟨i, found, _, _, _, _, _, rfl, hi⟩
    · exact (ht.events envelope rideId driverId hpub hof).step ha hs h
    · exact wonBy_of_publish ha hs hi h
  rows rideId row driverId hrow hdriver := by
    have hold {row : RideRow} (hrow : s.world.trip.findRide rideId = some row)
        (hdriver : row.driverId = some driverId) : WonBy t rideId driverId :=
      (ht.rows rideId row driverId hrow hdriver).step ha hs h
    cases hstep : h with
    | spawn hi hp =>
        obtain ⟨w, hw, heq⟩ := Option.map_eq_some_iff.mp hp
        cases heq
        exact hold ((congrArg (·.findRide rideId) (start_frame hw).2.1).symm.trans hrow) hdriver
    | env hw =>
        obtain ⟨-, -, -, ⟨now, htrip⟩, -⟩ := env_frame hw
        exact hold ((congrArg (·.findRide rideId) htrip).symm.trans hrow) hdriver
    | @run i found call c k log r w hi hr =>
        have hpre := (hs.meets _ _ hi).allows
        rcases exec_findRide (Option.some.inj hr) hpre rideId with
          hsame | ⟨-, -, op, row', hop, hrow', hw⟩
        · exact hold (hsame.symm.trans hrow) hdriver
        · cases hrow.symm.trans hrow'
          cases hw with
          | inserted hnone hdr hst => cases hdr.symm.trans hdriver
          | matched hev hrow₀ hseen hmatching hdr hst =>
              obtain ⟨hstored, envelope, hcall, hof⟩ := hs.stores hi hop hev
              rw [hdr, hstored] at hdriver
              cases hdriver
              have hpub := (hs.handled i _ envelope hi hcall).1
              exact (ht.events envelope _ _ hpub hof).step ha hs h
          | moved hride hrow₀ hseen hcan hdr hne hdue => exact hold hrow₀ (hdr.symm.trans hdriver)

/-- The driver of a ride is one that a dispatch of the ride has won and
announced. -/
theorem driver_won {drivers : String → Option DriverStatus} {acts : List BackendAction}
    {row : RideRow} (hrun : (machine cfg haversineKm).run (initial drivers) acts = some s)
    (hrow : s.world.trip.findRide rideId = some row) (hdriver : row.driverId = some driverId) :
    WonBy s rideId driverId := by
  have hinv := Machine.run_invariant' (I := fun s => Sound s ∧ Answering s ∧ Traced s)
    ⟨initial_sound drivers, initial_answering drivers, initial_traced drivers⟩
    (fun _ _ _ h hstep => ⟨h.1.step hstep, h.2.1.step h.1 hstep, h.2.2.step h.2.1 h.1 hstep⟩) hrun
  exact hinv.2.2.rows rideId row driverId hrow hdriver

end Steps

theorem driver_won_matchR : ∃ s, (machine .defaults fun _ _ => some 0).run (initial onlyDriver)
    matchR = some s ∧ WonBy s "r" "d" := by
  have hcheck : ((machine .defaults fun _ _ => some 0).run (initial onlyDriver) matchR).any
      (fun s => (s.world.trip.findRide "r").bind (·.driverId) == some "d") = true := rfl
  obtain ⟨s, hrun, hs⟩ := (Option.any_eq_true _ _).mp hcheck
  obtain ⟨row, hrow, hdriver⟩ := Option.bind_eq_some_iff.mp (beq_iff_eq.mp hs)
  exact ⟨s, hrun, driver_won hrun hrow hdriver⟩

end Backend

end RydTrip
