import RydTrip.DispatchService.Machine
import RydTrip.Process.Typestate

/-!
# Reservations that are not announced yet

Between the attempt that wins a driver and the `driver.reserved` event a
dispatch owes the event.  The typestate is the reservation it owes the event
for.  When publishing does not fail, every dispatch announces what it has won,
asks for the RESERVED status of this driver only, and gives up with nothing owed.
-/

namespace RydTrip

namespace Dispatch

open Process

/-- The ride and the driver of a reservation that is not announced. -/
abbrev Pending : Type := Option (String × String)

def Pending.next : (c : Cmd) → Reply c → Pending → Pending
  | .tryReserve driverId rideId _, .ok true, _ => some (rideId, driverId)
  | .publish (.reserved ..) .., .ok (), _ => none
  | _, _, g => g

/-- What a dispatch may issue, given what it owes. -/
def Pending.Allows : (c : Cmd) → Pending → Prop
  | .tryReserve driverId _ _, g => g = none ∧ driverId ≠ ""
  | .patch driverId status, g => status = .reserved ∧ ∃ rideId, g = some (rideId, driverId)
  | .publish (.reserved rideId driverId) .., g => g = some (rideId, driverId)
  | _, _ => True

/-- What replies are known to satisfy: a search finds drivers with an id, and
publishing does not fail. -/
def Delivers : (c : Cmd) → Reply c → Prop
  | .findNearby .., .ok candidates => ∀ candidate ∈ candidates, candidate.driverId ≠ ""
  | .publish .., r => r = .ok ()
  | _, _ => True

/-- From `g` on, the dispatch only issues what it may, and the program ends in
`Q` or with nothing owed. -/
abbrev PendingSpec {α : Type} (Q : α → Pending → Prop) (p : DispatchProg α) (g : Pending) : Prop :=
  p.wp (typestateSpec Pending.Allows Delivers Pending.next) Q (fun _ g => g = none) g

section Specs

variable {α : Type} {cfg : Config} {rideId correlationId : String} {g : Pending}

/-- A breaker adds no obligation. -/
theorem pending_execute {b : Breaker} {fn : DispatchProg α} {Q : α → Pending → Prop}
    (hg : g = none) (hfn : PendingSpec Q fn g) :
    PendingSpec Q (DispatchService.execute b fn) g := by
  unfold DispatchService.execute
  rw [Prog.perform_bind]
  refine ⟨trivial, fun invoked _ => ?_⟩
  cases invoked with
  | false => exact hg
  | true =>
      simp only [if_true]
      refine Prog.wp_seq (Prog.wp_try (Prog.wp_mono typestateSpec_mono ?_ ?_ hfn))
      · exact fun a g h => ⟨trivial, fun _ _ => h⟩
      · exact fun err g h => ⟨trivial, fun _ _ => h⟩

theorem pending_orThrow {r : Except String α} {Q : α → Pending → Prop} (hg : g = none)
    (hQ : ∀ a, r = .ok a → Q a g) : PendingSpec Q (orThrow r) g := by
  cases r with
  | ok a => exact hQ a rfl
  | error message => exact hg

theorem pending_syncDriverStatusBestEffort {driverId : String} {Q : Unit → Pending → Prop}
    (hg : g = some (rideId, driverId)) (hQ : Q () g) :
    PendingSpec Q (DispatchService.syncDriverStatusBestEffort driverId) g := by
  rw [DispatchService.syncDriverStatusBestEffort_eq]
  refine ⟨trivial, fun invoked _ => ?_⟩
  cases invoked with
  | false => exact hQ
  | true => exact ⟨⟨rfl, rideId, hg⟩, fun res _ => ⟨trivial, fun _ _ => hQ⟩⟩

theorem pending_publish {outcome : Outcome} {key : String}
    (hpre : Pending.Allows (.publish outcome correlationId key) g)
    (hpost : Pending.next (.publish outcome correlationId key) (.ok ()) g = none) :
    PendingSpec (fun _ g => g = none) (DispatchService.publish outcome correlationId key) g := by
  refine ⟨hpre, fun r hr => ?_⟩
  cases hr
  exact hpost

theorem pending_reserveFirst {candidates : List NearbyDriver} (hg : g = none)
    (hids : ∀ candidate ∈ candidates, candidate.driverId ≠ "") :
    PendingSpec (fun _ g => g = none)
      (DispatchService.reserveFirst cfg rideId correlationId candidates) g := by
  induction candidates generalizing g with
  | nil => exact pending_publish trivial hg
  | cons candidate candidates ih =>
      have hrest := fun c hc => hids c (.tail _ hc)
      have htry : PendingSpec
          (fun won g => g = if won then some (rideId, candidate.driverId) else none)
          (DispatchService.tryReserve candidate.driverId rideId cfg.reservationTtlSeconds) g := by
        refine ⟨⟨hg, hids candidate (.head _)⟩, fun r _ => ?_⟩
        cases r with
        | error message => exact hg
        | ok won =>
            cases won with
            | false => exact hg
            | true => rfl
      refine Prog.wp_seq (Prog.wp_mono typestateSpec_mono (fun won g hwon => ?_) (fun _ _ h => h)
        (pending_execute hg htry))
      cases won with
      | false => exact ih hwon hrest
      | true =>
          refine Prog.wp_seq (pending_syncDriverStatusBestEffort hwon ?_)
          exact pending_publish hwon rfl

theorem pending_handleRideRequested {pickup : GeoPoint} (hg : g = none) :
    PendingSpec (fun _ g => g = none)
      (DispatchService.handleRideRequested cfg rideId pickup correlationId) g := by
  have hfind : PendingSpec (fun candidates g => g = none ∧
      ∀ candidate ∈ candidates, candidate.driverId ≠ "")
      (DispatchService.findNearby pickup cfg.searchRadiusKm cfg.candidateLimit) g := by
    refine ⟨trivial, fun r hr => pending_orThrow hg fun candidates hok => ⟨hg, ?_⟩⟩
    rw [hok] at hr
    exact hr
  exact Prog.wp_seq (Prog.wp_mono typestateSpec_mono
    (fun candidates g h => pending_reserveFirst h.1 h.2) (fun _ _ h => h)
    (pending_execute hg hfind))

theorem pending_handler {envelope : EventEnvelope} (hg : g = none) :
    PendingSpec (fun _ g => g = none) (RideRequestedConsumer.handler cfg envelope) g := by
  unfold RideRequestedConsumer.handler
  split
  · exact hg
  · rw [Prog.perform_bind]
    refine ⟨trivial, fun r _ => Prog.wp_seq (pending_orThrow hg fun alreadyProcessed _ => ?_)⟩
    split
    · exact hg
    · refine Prog.wp_seq (Prog.wp_mono typestateSpec_mono (fun _ g hg => ?_) (fun _ _ h => h)
        (pending_handleRideRequested hg))
      rw [Prog.perform_bind]
      exact ⟨trivial, fun r _ => pending_orThrow hg fun _ _ => hg⟩

/-- A delivered `ride.requested` leaves nothing owed. -/
theorem pending_consume {left : Nat} {envelope : EventEnvelope} :
    PendingSpec (fun _ g => g = none)
      (RideRequestedConsumer.consume cfg (left + 1) envelope) none := by
  refine EventConsumer.deliver_wp (I := (· = none)) typestateSpec_mono
    (fun _ hg => pending_handler hg) (fun fields g _ hg => ?_) rfl left
  unfold RideRequestedConsumer.park
  rw [Prog.perform_bind]
  exact ⟨trivial, fun _ _ => pending_orThrow hg fun _ _ => hg⟩

end Specs

end Dispatch

end RydTrip
