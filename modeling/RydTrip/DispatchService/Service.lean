import RydTrip.CircuitBreaker
import RydTrip.EventConsumer
import RydTrip.RedisClient.GeoIndex

/-!
# The dispatch service

`services/dispatch-service/src/dispatch`: `DispatchService`, which ranks nearby
drivers and reserves the first one it can, and the consumer that feeds it.  Each
await is a command.  A circuit breaker is entered before the function it wraps
and settled after it, so these are commands of their own.
-/

namespace RydTrip

namespace Dispatch

open Process

/-! ## Commands -/

/-- The settings that can come from the environment. -/
structure Config where
  searchRadiusKm : Rat
  candidateLimit : Nat
  reservationTtlSeconds : Nat
  deriving DecidableEq, Repr

/-- `DEFAULTS` -/
def Config.defaults : Config := ⟨5, 5, 30⟩

/-- The two breakers of the service. -/
inductive Breaker where
  | redis | driverService
  deriving DecidableEq, Repr

def Breaker.name : Breaker → String
  | .redis => "dispatch-redis"
  | .driverService => "dispatch-driver-service-sync"

/-- The two events the service publishes. -/
inductive Outcome where
  | reserved (rideId driverId : String)
  | rejected (rideId : String) (reason : CancellationReason)
  deriving DecidableEq, Repr

def Outcome.rideId : Outcome → String
  | .reserved rideId _ => rideId
  | .rejected rideId _ => rideId

/-- The topic, which is also the event type. -/
def Outcome.topic : Outcome → KafkaTopic
  | .reserved .. => .driverReserved
  | .rejected .. => .driverRejected

def Outcome.payload : Outcome → Payload
  | .reserved rideId driverId =>
      { Payload.empty with rideId := some rideId, driverId := some driverId }
  | .rejected rideId reason =>
      { Payload.empty with rideId := some rideId, reason := .text reason.text }

/-- One await of the dispatch service. -/
inductive Cmd where
  | enter (b : Breaker)
  | settle (b : Breaker) (success : Bool)
  | findNearby (pickup : GeoPoint) (radiusKm : Rat) (limit : Nat)
  | tryReserve (driverId rideId : String) (ttlSeconds : Nat)
  | patch (driverId : String) (status : DriverStatus)
  | publish (outcome : Outcome) (correlationId key : String)
  | wasProcessed (consumerName : String) (eventId : Nat)
  | markProcessed (consumerName : String) (eventId : Nat)
  | park (fields : DlqFields)
  deriving DecidableEq, Repr

/-- How it ends.  Entering a breaker tells whether the function is invoked. -/
@[reducible] def Reply : Cmd → Type
  | .enter _ => Bool
  | .settle .. => Unit
  | .findNearby .. => Except String (List NearbyDriver)
  | .tryReserve .. => Except String Bool
  | .patch .. => PatchReply
  | .publish .. => Except String Unit
  | .wasProcessed .. => Except String Bool
  | .markProcessed .. => Except String Unit
  | .park _ => Except String Unit

/-- The exceptions of the dispatch service. -/
inductive DispatchError where
  | circuitOpen (name : String)
  | error (message : String)
  deriving DecidableEq, Repr

def DispatchError.message : DispatchError → String
  | .circuitOpen name => s!"circuit \"{name}\" is open"
  | .error message => message

/-- The asynchronous code of the dispatch service. -/
abbrev DispatchProg (α : Type) : Type := Prog Cmd Reply DispatchError α

/-- Await a call that rejects with an error. -/
def orThrow {α : Type} : Except String α → DispatchProg α
  | .ok a => pure a
  | .error message => throw (.error message)

/-! ## `DispatchService` -/

namespace DispatchService

/-- `CircuitBreaker.execute` -/
def execute {α : Type} (b : Breaker) (fn : DispatchProg α) : DispatchProg α := do
  let invoked : Bool ← Prog.perform (Cmd.enter b)
  if invoked then
    let result ← tryCatchThe DispatchError fn fun err => do
      Prog.perform (Cmd.settle b false)
      throw err
    Prog.perform (Cmd.settle b true)
    return result
  else throw (.circuitOpen b.name)

def findNearby (pickup : GeoPoint) (radiusKm : Rat) (limit : Nat) :
    DispatchProg (List NearbyDriver) := do
  orThrow (← Prog.perform (Cmd.findNearby pickup radiusKm limit))

def tryReserve (driverId rideId : String) (ttlSeconds : Nat) : DispatchProg Bool := do
  orThrow (← Prog.perform (Cmd.tryReserve driverId rideId ttlSeconds))

def publish (outcome : Outcome) (correlationId key : String) : DispatchProg Unit := do
  orThrow (← Prog.perform (Cmd.publish outcome correlationId key))

/-- The request of the sync. -/
def patchReserved (driverId : String) : DispatchProg Unit := do
  let res : PatchReply ← Prog.perform (Cmd.patch driverId .reserved)
  match res with
  | .response code =>
      if res.isOk then pure ()
      else throw (.error s!"driver-service rejected status sync for {driverId}: HTTP {code}")
  | .error message => throw (.error message)

def syncDriverStatusBestEffort (driverId : String) : DispatchProg Unit :=
  tryCatchThe DispatchError (execute .driverService (patchReserved driverId)) fun _ => pure ()

variable (cfg : Config)

/-- The loop over the candidates and what follows it. -/
def reserveFirst (rideId correlationId : String) : List NearbyDriver → DispatchProg Unit
  | [] => publish (.rejected rideId .noDriversAvailable) correlationId rideId
  | candidate :: candidates => do
      let won ← execute .redis (tryReserve candidate.driverId rideId cfg.reservationTtlSeconds)
      if !won then
        reserveFirst rideId correlationId candidates
      else
        syncDriverStatusBestEffort candidate.driverId
        publish (.reserved rideId candidate.driverId) correlationId rideId

def handleRideRequested (rideId : String) (pickup : GeoPoint) (correlationId : String) :
    DispatchProg Unit := do
  let candidates ← execute .redis (findNearby pickup cfg.searchRadiusKm cfg.candidateLimit)
  reserveFirst cfg rideId correlationId candidates

/-! ### Equations -/

/-- A call through the Redis breaker, one command after the other. -/
theorem execute_call {α : Type} {b : Breaker} {c : Cmd} {k : Reply c → DispatchProg α} :
    execute b (.call c k) =
      .call (.enter b) fun invoked =>
        if invoked then .call c fun r =>
          (tryCatchThe DispatchError (k r) fun err => do
            Prog.perform (Cmd.settle b false)
            throw err) >>= fun result => .call (.settle b true) fun _ => .ret result
        else .throw (.circuitOpen b.name) := by
  unfold execute
  simp only [Prog.perform_bind]
  congr

/-- The outcome of the sync does not matter. -/
theorem syncDriverStatusBestEffort_eq (driverId : String) :
    syncDriverStatusBestEffort driverId =
      .call (.enter .driverService) fun invoked =>
        if invoked then .call (.patch driverId .reserved) fun (res : PatchReply) =>
          .call (.settle .driverService res.isOk) fun _ => .ret ()
        else .ret () := by
  unfold syncDriverStatusBestEffort patchReserved
  simp only [Prog.perform_bind, execute_call, Prog.tryCatchThe_eq, Prog.call_tryCatch]
  congr
  funext invoked
  cases invoked with
  | false => rfl
  | true =>
      simp only [if_true, Prog.call_tryCatch]
      congr
      funext res
      cases res with
      | error message => rfl
      | response code =>
          dsimp only
          by_cases h : (PatchReply.response code).isOk = true
          · simp [h]
          · simp [h]

end DispatchService

/-! ## `RideRequestedConsumer` -/

namespace RideRequestedConsumer

/-- `CONSUMER_NAME` -/
def consumerName : String := "dispatch-service"

structure RideRequestedPayload where
  rideId : String
  pickup : GeoPoint
  deriving DecidableEq, Repr

/-- `isRideRequestedPayload` -/
def rideRequestedPayload (payload : Option Payload) : Option RideRequestedPayload := do
  let p ← payload
  return ⟨← p.rideId, ← p.pickup⟩

/-- The callback given to `EventConsumer.run`. -/
def handler (cfg : Config) (envelope : EventEnvelope) : DispatchProg Unit :=
  match rideRequestedPayload envelope.payload with
  | none => throw (.error s!"malformed {KafkaTopic.rideRequested.text} payload for eventId={envelope.eventId}")
  | some p => do
      let alreadyProcessed ←
        orThrow (← Prog.perform (Cmd.wasProcessed consumerName envelope.eventId))
      if alreadyProcessed then pure ()
      else
        DispatchService.handleRideRequested cfg p.rideId p.pickup envelope.correlationId
        orThrow (← Prog.perform (Cmd.markProcessed consumerName envelope.eventId))

/-- `parkOnDlq` on `dispatch-service.dlt`. -/
def park (fields : DlqFields) : DispatchProg Unit := do
  orThrow (← Prog.perform (Cmd.park fields))

/-- One delivered envelope. -/
def consume (cfg : Config) (maxAttempts : Nat) (envelope : EventEnvelope) : DispatchProg Unit :=
  EventConsumer.deliver DispatchError.message park (handler cfg) maxAttempts envelope

end RideRequestedConsumer

end Dispatch

end RydTrip
