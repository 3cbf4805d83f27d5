import RydTrip.DispatchService.Service
import RydTrip.Process.Interference

/-!
# The status sync is best effort

`syncDriverStatusBestEffort` asks driver-service through a breaker of its own and
swallows whatever comes of it.  So nothing that driver-service does gets to the
calls of Redis, the events, or what the handler returns: with the breaker of the
sync on the side that is not observed, the sync is silent, and everything else
does not look there.
-/

namespace RydTrip

namespace Dispatch

open Process

/-! ## The two sides -/

/-- What Redis and Kafka answer to a call, after the ones before it, and what the
clock shows when the Redis breaker looks at it. -/
structure Surroundings where
  reply : List Cmd → (c : Cmd) → Reply c
  clock : Nat → Nat

/-- How driver-service answers the PATCH requests, and what the clock shows at its
breaker. -/
structure DriverServiceSide where
  patch : Nat → PatchReply
  clock : Nat → Nat

/-- The calls of Redis and Kafka, newest first, and the Redis breaker. -/
structure Observed where
  issued : List Cmd
  redisBreaker : CircuitBreaker
  readings : Nat
  deriving DecidableEq

/-- The breaker of the sync, and how many requests there have been. -/
structure Unobserved where
  driverServiceBreaker : CircuitBreaker
  readings : Nat
  patches : Nat
  deriving DecidableEq

/-- The start of `execute`, at this reading of the clock. -/
def enterAt (b : CircuitBreaker) (now : Nat) : Bool × CircuitBreaker :=
  match b.enter now with
  | none => (false, b)
  | some b' => (true, b')

/-- The end of `execute`. -/
def settleAt (b : CircuitBreaker) (now : Nat) (success : Bool) : CircuitBreaker :=
  if success then b.onSuccess else b.onFailure now

def answerBoth (out : Surroundings) (drivers : DriverServiceSide) :
    (c : Cmd) → Observed × Unobserved → Reply c × (Observed × Unobserved)
  | .enter .redis, (l, s) =>
      let (invoked, b) := enterAt l.redisBreaker (out.clock l.readings)
      (invoked, ({ l with redisBreaker := b, readings := l.readings + 1 }, s))
  | .settle .redis success, (l, s) =>
      let b := settleAt l.redisBreaker (out.clock l.readings) success
      ((), ({ l with redisBreaker := b, readings := l.readings + 1 }, s))
  | .enter .driverService, (l, s) =>
      let (invoked, b) := enterAt s.driverServiceBreaker (drivers.clock s.readings)
      (invoked, (l, { s with driverServiceBreaker := b, readings := s.readings + 1 }))
  | .settle .driverService success, (l, s) =>
      let b := settleAt s.driverServiceBreaker (drivers.clock s.readings) success
      ((), (l, { s with driverServiceBreaker := b, readings := s.readings + 1 }))
  | .patch .., (l, s) => (drivers.patch s.patches, (l, { s with patches := s.patches + 1 }))
  | c, (l, s) => (out.reply l.issued c, ({ l with issued := c :: l.issued }, s))

/-! ## Interference -/

section Free

variable {out : Surroundings} {drivers drivers' : DriverServiceSide}

/-- What is not a call of driver-service is answered from the observed side. -/
theorem answerBoth_agree {c : Cmd} (henter : c ≠ .enter .driverService)
    (hsettle : ∀ success, c ≠ .settle .driverService success)
    (hpatch : ∀ driverId status, c ≠ .patch driverId status) :
    Prog.Agree (answerBoth out drivers) (answerBoth out drivers') c := by
  intro l s s'
  cases c with
  | enter b =>
      cases b with
      | redis => exact ⟨rfl, rfl⟩
      | driverService => exact absurd rfl henter
  | settle b success =>
      cases b with
      | redis => exact ⟨rfl, rfl⟩
      | driverService => exact absurd rfl (hsettle success)
  | findNearby pickup radiusKm limit => exact ⟨rfl, rfl⟩
  | tryReserve driverId rideId ttlSeconds => exact ⟨rfl, rfl⟩
  | patch driverId status => exact absurd rfl (hpatch driverId status)
  | publish outcome correlationId key => exact ⟨rfl, rfl⟩
  | wasProcessed consumerName eventId => exact ⟨rfl, rfl⟩
  | markProcessed consumerName eventId => exact ⟨rfl, rfl⟩
  | park fields => exact ⟨rfl, rfl⟩

theorem orThrow_free {α : Type} (x : Except String α) :
    (orThrow x).Free (answerBoth out drivers) (answerBoth out drivers') := by
  cases x with
  | error message => exact Prog.free_throw _
  | ok a => exact Prog.free_ret a

namespace DispatchService

theorem execute_free {α : Type} {fn : DispatchProg α}
    (hfn : fn.Free (answerBoth out drivers) (answerBoth out drivers')) :
    (execute .redis fn).Free (answerBoth out drivers) (answerBoth out drivers') := by
  have hsettle (success : Bool) : Prog.Agree (answerBoth out drivers) (answerBoth out drivers')
      (.settle .redis success) :=
    answerBoth_agree (by simp) (by simp) (by simp)
  unfold execute
  simp only [Prog.perform_bind]
  refine Prog.free_call (answerBoth_agree (by simp) (by simp) (by simp)) fun invoked => ?_
  cases invoked with
  | false => exact Prog.free_throw _
  | true =>
      refine Prog.Free.bind (Prog.Free.tryCatch hfn fun err => ?_) fun result => ?_
      · exact Prog.free_call (hsettle false) fun _ => Prog.free_throw err
      · exact Prog.free_call (hsettle true) fun _ => Prog.free_ret result

theorem findNearby_free (pickup : GeoPoint) (radiusKm : Rat) (limit : Nat) :
    (findNearby pickup radiusKm limit).Free (answerBoth out drivers) (answerBoth out drivers') := by
  unfold findNearby
  exact Prog.free_call (answerBoth_agree (by simp) (by simp) (by simp)) orThrow_free

theorem tryReserve_free (driverId rideId : String) (ttlSeconds : Nat) :
    (tryReserve driverId rideId ttlSeconds).Free (answerBoth out drivers)
      (answerBoth out drivers') := by
  unfold tryReserve
  exact Prog.free_call (answerBoth_agree (by simp) (by simp) (by simp)) orThrow_free

theorem publish_free (outcome : Outcome) (correlationId key : String) :
    (publish outcome correlationId key).Free (answerBoth out drivers)
      (answerBoth out drivers') := by
  unfold publish
  exact Prog.free_call (answerBoth_agree (by simp) (by simp) (by simp)) orThrow_free

/-- Whatever comes of the sync, it returns, and only its own side has moved. -/
theorem sync_silent (driverId : String) :
    (syncDriverStatusBestEffort driverId).Silent (answerBoth out drivers) (.ok ()) := by
  rw [syncDriverStatusBestEffort_eq]
  refine Prog.silent_call (fun _ _ => rfl) fun invoked => ?_
  cases invoked with
  | false => exact Prog.silent_ret ()
  | true =>
      refine Prog.silent_call (fun _ _ => rfl) fun res => ?_
      exact Prog.silent_call (fun _ _ => rfl) fun _ => Prog.silent_ret ()

theorem reserveFirst_free (cfg : Config) (rideId correlationId : String)
    (candidates : List NearbyDriver) :
    (reserveFirst cfg rideId correlationId candidates).Free (answerBoth out drivers)
      (answerBoth out drivers') := by
  induction candidates with
  | nil => exact publish_free _ _ _
  | cons candidate candidates ih =>
      refine Prog.Free.bind (execute_free (tryReserve_free _ _ _)) fun won => ?_
      cases won with
      | false => exact ih
      | true =>
          have hsync : Prog.Free (answerBoth out drivers) (answerBoth out drivers') _ :=
            Prog.free_of_silent (sync_silent candidate.driverId) (sync_silent candidate.driverId)
          exact Prog.Free.bind hsync fun _ => publish_free _ _ _

theorem handleRideRequested_free (cfg : Config) (rideId : String) (pickup : GeoPoint)
    (correlationId : String) :
    (handleRideRequested cfg rideId pickup correlationId).Free (answerBoth out drivers)
      (answerBoth out drivers') :=
  Prog.Free.bind (execute_free (findNearby_free _ _ _)) (reserveFirst_free cfg rideId correlationId)

end DispatchService

end Free

/-! ## Two runs -/

/-- The arguments of a call. -/
structure RideCall where
  rideId : String
  pickup : GeoPoint
  correlationId : String
  deriving DecidableEq, Repr

/-- Calls made one after the other: what each returns or throws, and the state in
the end. -/
def handleAllBoth (cfg : Config) (out : Surroundings) (drivers : DriverServiceSide)
    (calls : List RideCall) (w : Observed × Unobserved) :
    List (Except DispatchError Unit) × (Observed × Unobserved) :=
  Prog.evalAll (answerBoth out drivers)
    (calls.map fun call =>
      DispatchService.handleRideRequested cfg call.rideId call.pickup call.correlationId) w

/-- Driver-service does not influence the dispatch.  Two runs in which it behaves
differently, and in which its breaker has a different past, have the same calls of
Redis, the same events and the same results. -/
theorem sync_unobserved (cfg : Config) (out : Surroundings) (drivers drivers' : DriverServiceSide)
    (calls : List RideCall) (l : Observed) (s s' : Unobserved) :
    (handleAllBoth cfg out drivers calls (l, s)).1 =
        (handleAllBoth cfg out drivers' calls (l, s')).1 ∧
      (handleAllBoth cfg out drivers calls (l, s)).2.1 =
        (handleAllBoth cfg out drivers' calls (l, s')).2.1 := by
  refine Prog.evalAll_free (fun p hp => ?_) l s s'
  obtain ⟨call, -, rfl⟩ := List.mem_map.mp hp
  exact DispatchService.handleRideRequested_free cfg _ _ _

end Dispatch

end RydTrip
