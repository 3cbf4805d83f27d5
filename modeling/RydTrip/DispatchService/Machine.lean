import RydTrip.Process.Pool
import RydTrip.DispatchService.Service

/-!
# Concurrent dispatches

The dispatch service as a `Machine`, over its Redis keys, the topics it writes
to and its circuit breakers.  `SET NX EX` is one atomic step.  Keys disappear by
themselves when their time has run out, which is a move of the world.  The
oracle chooses the candidates that a search returns, the replies of
driver-service and the faults of Redis and Kafka.
-/

namespace RydTrip

namespace Dispatch

open Process

/-- What the dispatch service shares.  Events are listed newest first. -/
structure DispatchHost where
  /-- `driver:{id}:reservation`, for the keys that are alive -/
  reservations : String → Option String
  /-- `processed:{consumer}:{eventId}`, for the keys that are alive -/
  processed : String → Nat → Bool
  published : List Outcome
  parked : List DlqFields
  redisBreaker : CircuitBreaker
  driverServiceBreaker : CircuitBreaker
  now : Nat

namespace DispatchHost

/-- No keys, no events, and breakers that have seen no failure. -/
def empty : DispatchHost where
  reservations _ := none
  processed _ _ := false
  published := []
  parked := []
  redisBreaker := .new 5 10000
  driverServiceBreaker := .new 5 10000
  now := 0

def breaker (w : DispatchHost) : Breaker → CircuitBreaker
  | .redis => w.redisBreaker
  | .driverService => w.driverServiceBreaker

def setBreaker (w : DispatchHost) (state : CircuitBreaker) : Breaker → DispatchHost
  | .redis => { w with redisBreaker := state }
  | .driverService => { w with driverServiceBreaker := state }

/-- The start of `execute` on one of the breakers. -/
def enter (w : DispatchHost) (b : Breaker) : Bool × DispatchHost :=
  match (w.breaker b).enter w.now with
  | none => (false, w)
  | some state => (true, w.setBreaker state b)

/-- The end of `execute`. -/
def settle (w : DispatchHost) (b : Breaker) (success : Bool) : DispatchHost :=
  w.setBreaker (if success then (w.breaker b).onSuccess else (w.breaker b).onFailure w.now) b

/-- `SET NX EX`: the key is taken if it is free. -/
def reserve (w : DispatchHost) (driverId rideId : String) : Bool × DispatchHost :=
  match w.reservations driverId with
  | some _ => (false, w)
  | none => (true, { w with reservations := Function.update w.reservations driverId (some rideId) })

/-- Set or drop a `processed` key. -/
def setProcessed (w : DispatchHost) (consumerName : String) (eventId : Nat) (b : Bool) :
    DispatchHost :=
  { w with
    processed := Function.update w.processed consumerName
      (Function.update (w.processed consumerName) eventId b) }

end DispatchHost

/-- What has been published for a ride. -/
def outcomesFor (w : DispatchHost) (rideId : String) : List Outcome :=
  w.published.filter (·.rideId = rideId)

theorem mem_outcomesFor {w : DispatchHost} {outcome : Outcome} {rideId : String} :
    outcome ∈ outcomesFor w rideId ↔ outcome ∈ w.published ∧ outcome.rideId = rideId := by
  unfold outcomesFor
  rw [List.mem_filter, decide_eq_true_iff]

structure Oracle where
  fault : Fault := .none
  candidates : List NearbyDriver := []
  patchReply : PatchReply := .response 200

def DispatchHost.exec (o : Oracle) (w : DispatchHost) : (c : Cmd) → Reply c × DispatchHost
  | .enter b => w.enter b
  | .settle b success => ((), w.settle b success)
  | .findNearby .. => o.fault.settle w o.candidates w
  | .tryReserve driverId rideId _ =>
      let (won, w') := w.reserve driverId rideId
      o.fault.settle w won w'
  | .patch .. => (o.patchReply, w)
  | .publish outcome _ _ => o.fault.settle w () { w with published := outcome :: w.published }
  | .wasProcessed consumerName eventId => o.fault.settle w (w.processed consumerName eventId) w
  | .markProcessed consumerName eventId =>
      o.fault.settle w () (w.setProcessed consumerName eventId true)
  | .park fields => o.fault.settle w () { w with parked := fields :: w.parked }

/-! ## What commands leave alone -/

section Frame

variable (o : Oracle) (w : DispatchHost) {c : Cmd}

/-- A breaker is all that `enter` and `settle` move. -/
theorem setBreaker_frame (state : CircuitBreaker) (b : Breaker) :
    (w.setBreaker state b).reservations = w.reservations ∧
      (w.setBreaker state b).published = w.published := by
  cases b with
  | redis => exact ⟨rfl, rfl⟩
  | driverService => exact ⟨rfl, rfl⟩

theorem enter_frame (b : Breaker) :
    (w.enter b).2.reservations = w.reservations ∧ (w.enter b).2.published = w.published := by
  unfold DispatchHost.enter
  split
  · exact ⟨rfl, rfl⟩
  · exact setBreaker_frame ..

theorem published_reserve (driverId rideId : String) :
    (w.reserve driverId rideId).2.published = w.published := by
  unfold DispatchHost.reserve
  split
  · rfl
  · rfl

/-- Only `tryReserve` takes keys. -/
theorem reservations_exec (hc : ∀ driverId rideId ttl, c ≠ .tryReserve driverId rideId ttl) :
    (w.exec o c).2.reservations = w.reservations := by
  cases c with
  | enter b => exact (enter_frame w b).1
  | settle b success => exact (setBreaker_frame ..).1
  | tryReserve driverId rideId ttl => exact absurd rfl (hc driverId rideId ttl)
  | patch driverId status => rfl
  | findNearby pickup radiusKm limit => exact Fault.settle_world _ _ rfl
  | publish outcome correlationId key => exact Fault.settle_world _ _ rfl
  | wasProcessed consumerName eventId => exact Fault.settle_world _ _ rfl
  | markProcessed consumerName eventId => exact Fault.settle_world _ _ rfl
  | park fields => exact Fault.settle_world _ _ rfl

/-- Only `publish` adds an outcome. -/
theorem published_exec (hc : ∀ outcome correlationId key, c ≠ .publish outcome correlationId key) :
    (w.exec o c).2.published = w.published := by
  cases c with
  | enter b => exact (enter_frame w b).2
  | settle b success => exact (setBreaker_frame ..).2
  | tryReserve driverId rideId ttl => exact Fault.settle_world _ _ (published_reserve ..)
  | patch driverId status => rfl
  | publish outcome correlationId key => exact absurd rfl (hc outcome correlationId key)
  | findNearby pickup radiusKm limit => exact Fault.settle_world _ _ rfl
  | wasProcessed consumerName eventId => exact Fault.settle_world _ _ rfl
  | markProcessed consumerName eventId => exact Fault.settle_world _ _ rfl
  | park fields => exact Fault.settle_world _ _ rfl

end Frame

/-! ## The service -/

/-- A direct call, or an envelope delivered to the consumer. -/
inductive Call where
  | handleRideRequested (rideId : String) (pickup : GeoPoint) (correlationId : String)
  | consume (maxAttempts : Nat) (envelope : EventEnvelope)
  deriving DecidableEq, Repr

def Call.prog (cfg : Config) : Call → DispatchProg Unit
  | .handleRideRequested rideId pickup correlationId =>
      DispatchService.handleRideRequested cfg rideId pickup correlationId
  | .consume maxAttempts envelope => RideRequestedConsumer.consume cfg maxAttempts envelope

/-- What happens by itself: time passes and keys expire. -/
inductive Env where
  | tick
  | expireReservation (driverId : String)
  | expireProcessed (consumerName : String) (eventId : Nat)
  deriving DecidableEq, Repr

def DispatchHost.env (w : DispatchHost) : Env → DispatchHost
  | .tick => { w with now := w.now + 1 }
  | .expireReservation driverId =>
      { w with reservations := Function.update w.reservations driverId none }
  | .expireProcessed consumerName eventId => w.setProcessed consumerName eventId false

/-- The dispatch service. -/
def machine (cfg : Config) :
    Machine DispatchHost Call Cmd Reply DispatchError Unit Oracle Env where
  exec o c w := some (w.exec o c)
  start call w := some (call.prog cfg, w)
  env a w := some (w.env a)

abbrev DispatchPool : Type := Pool DispatchHost Call Cmd Reply DispatchError Unit

abbrev DispatchAction : Type := Action Call Oracle Env

abbrev DispatchLog : Type := Log Cmd Reply

/-- No call has started. -/
def initial (w : DispatchHost) : DispatchPool := ⟨w, fun _ => none⟩

end Dispatch

end RydTrip
