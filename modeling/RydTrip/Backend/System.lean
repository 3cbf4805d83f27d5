import RydTrip.DispatchService.Pending
import RydTrip.DriverService.Drivers
import RydTrip.TripService.Progress

/-!
# The backend

Trip-service, dispatch-service and driver-service as one `Machine`, with the
topics between them, rider-service and location-service around them, and time.
Nothing fails here: the database, Redis, Kafka and every PATCH answer.  A PATCH
runs the code of driver-service, one repository call after the other, so other
programs can come in between.

A consumer group gets each event once and in any order, since the order of
events on different topics is not fixed.  A search of the geo index returns
drivers whose position has been reported; which ones, and in what order, is for
the oracle to say.
-/

namespace RydTrip

namespace Backend

open Process

/-! ## Commands -/

/-- One await of one of the services.  A PATCH is not one: it is replaced by
what driver-service does. -/
inductive Cmd where
  | db (c : TripService.DbCmd)
  | tripPark (fields : DlqFields)
  | dispatch (c : Dispatch.Cmd)
  | drivers (c : Drivers.Cmd)
  deriving DecidableEq, Repr

@[reducible] def Reply : Cmd → Type
  | .db c => Except TripService.PrismaError (TripService.DbValue c)
  | .tripPark _ => Except String Unit
  | .dispatch c => Dispatch.Reply c
  | .drivers c => Drivers.Reply c

/-! ## Programs -/

/-- `PATCH /drivers/:id/status`, answered by driver-service. -/
def patchStatus {ε : Type} (driverId : String) (status : DriverStatus) :
    Prog Cmd Reply ε PatchReply := do
  let served := (Drivers.DriversService.updateStatus driverId status).expand fun c =>
    Prog.perform (Cmd.drivers c)
  return Drivers.respond (← served.attempt)

/-- What stands for a command of trip-service. -/
def serveTrip : (c : TripService.Cmd) → Prog Cmd Reply TripService.TripError (TripService.Reply c)
  | .db c => Prog.perform (Cmd.db c)
  | .patch driverId status => patchStatus driverId status
  | .park fields => Prog.perform (Cmd.tripPark fields)

/-- What stands for a command of dispatch-service. -/
def serveDispatch : (c : Dispatch.Cmd) → Prog Cmd Reply Dispatch.DispatchError (Dispatch.Reply c)
  | .patch driverId status => patchStatus driverId status
  | c => Prog.perform (Cmd.dispatch c)

/-- A program whose outcome nobody waits for. -/
def settled {ε α : Type} (p : Prog Cmd Reply ε α) : Prog Cmd Reply Empty Unit := do
  let _ ← p.attempt

/-- What can be started: a request to trip-service, the delivery of an event to
one of the consumers, or a driver's own change of status. -/
inductive Call where
  | http (op : TripService.Op)
  | tripEvent (envelope : EventEnvelope)
  | dispatchEvent (envelope : EventEnvelope)
  | updateStatus (driverId : String) (status : DriverStatus)
  deriving DecidableEq, Repr

/-- The delivery of an envelope to trip-service. -/
def consume (envelope : EventEnvelope) : TripService.Op :=
  .consume EventConsumer.defaultMaxAttempts envelope

def Call.prog (cfg : Dispatch.Config) (haversineKm : GeoPoint → GeoPoint → Option Rat) :
    Call → Prog Cmd Reply Empty Unit
  | .http op => settled ((TripService.TripsService.program haversineKm op).expand serveTrip)
  | .tripEvent envelope =>
      settled ((TripService.TripsService.program haversineKm (consume envelope)).expand serveTrip)
  | .dispatchEvent envelope =>
      settled ((Dispatch.RideRequestedConsumer.consume cfg EventConsumer.defaultMaxAttempts
        envelope).expand serveDispatch)
  | .updateStatus driverId status => settled (patchStatus (ε := Empty) driverId status)

/-! ## The world -/

structure World where
  trip : TripService.TripDb
  /-- The status column of driver-service. -/
  drivers : String → Option DriverStatus
  dispatch : Dispatch.DispatchHost
  /-- When `driver:{id}:reservation` expires, in milliseconds. -/
  expiresAt : String → Nat
  /-- The driver's position has been reported. -/
  located : String → Bool
  /-- What has been published.  The id of an event is its place in the list. -/
  events : List EventEnvelope
  tripDelivered : Nat → Bool
  dispatchDelivered : Nat → Bool
  /-- What trip-service has parked, newest first. -/
  tripParked : List DlqFields

namespace World

def publish (w : World) (topic : KafkaTopic) (correlationId : String) (payload : Payload) :
    World :=
  { w with events := w.events ++ [⟨w.events.length, topic, correlationId, some payload⟩] }

/-- What a search returns when the oracle finds `found`. -/
def nearby (w : World) (found : List NearbyDriver) : Dispatch.Cmd → List NearbyDriver
  | .findNearby _ _ limit => (found.filter fun driver => w.located driver.driverId).take limit
  | _ => []

/-- The rest of what a command of dispatch-service does: a new reservation gets
its time to live, and an outcome goes to its topic. -/
def afterDispatch (w : World) : (c : Dispatch.Cmd) → Dispatch.Reply c → World
  | .tryReserve driverId _ ttlSeconds, .ok true =>
      { w with
        expiresAt :=
          Function.update w.expiresAt driverId (w.dispatch.now + 1000 * ttlSeconds) }
  | .publish outcome correlationId _, _ => w.publish outcome.topic correlationId outcome.payload
  | _, _ => w

/-- `driver.update` on the status column. -/
def updateDriver (w : World) (driverId : String) (status : DriverStatus) :
    Option DriverStatus × World :=
  if (w.drivers driverId).isSome then
    (some status, { w with drivers := Function.update w.drivers driverId (some status) })
  else (none, w)

def exec (found : List NearbyDriver) (w : World) : (c : Cmd) → Reply c × World
  | .db c =>
      let (r, db) := TripService.settle .none w.trip (w.trip.exec c)
      (r, { w with trip := db })
  | .tripPark fields => (.ok (), { w with tripParked := fields :: w.tripParked })
  | .dispatch c =>
      let (r, host) := w.dispatch.exec { candidates := w.nearby found c } c
      (r, { w with dispatch := host }.afterDispatch c r)
  | .drivers (.findUnique driverId) => (w.drivers driverId, w)
  | .drivers (.update driverId status) => w.updateDriver driverId status

/-- Time passes, and reservations whose time is over are gone. -/
def elapse (w : World) (ms : Nat) : World :=
  let now := w.dispatch.now + ms
  { w with
    trip := { w.trip with now := w.trip.now + ms }
    dispatch :=
      { w.dispatch with
        now := now
        reservations := fun driverId =>
          if now < w.expiresAt driverId then w.dispatch.reservations driverId else none } }

end World

/-- What the payloads of rider-service carry
(`services/rider-service/src/rides/rides.service.ts`). -/
def rideRequestedPayload (input : TripService.CreateRideInput) : Payload :=
  { Payload.empty with
    rideId := some input.id
    riderId := some input.riderId
    pickup := some input.pickup
    destination := some input.destination }

def rideCancelledPayload (rideId : String) (reason : JsText) : Payload :=
  { Payload.empty with
    rideId := some rideId
    reason := TripService.TripsService.cancelReason reason }

/-- What happens around the services. -/
inductive Env where
  /-- A rider asks for a ride, and rider-service publishes it under a new id. -/
  | requestRide (input : TripService.CreateRideInput) (correlationId : String)
  /-- A rider cancels through rider-service. -/
  | cancelRide (rideId : String) (reason : JsText) (correlationId : String)
  /-- A driver posts a position to location-service. -/
  | updateLocation (driverId : String)
  | elapse (ms : Nat)
  deriving DecidableEq, Repr

/-- The id of a posted position is a path parameter, which is never empty. -/
def World.env (w : World) : Env → Option World
  | .requestRide input correlationId =>
      some (w.publish .rideRequested correlationId (rideRequestedPayload input))
  | .cancelRide rideId reason correlationId =>
      some (w.publish .rideCancelled correlationId (rideCancelledPayload rideId reason))
  | .updateLocation driverId =>
      if driverId = "" then none
      else some { w with located := Function.update w.located driverId true }
  | .elapse ms => some (w.elapse ms)

/-! ## The machine -/

/-- The operations of `trips.controller.ts`. -/
def IsRoute : TripService.Op → Bool
  | .handleRideRequested .. => false
  | .handleRideCancelled .. => false
  | .handleDriverReserved .. => false
  | .handleDriverRejected .. => false
  | .consume .. => false
  | _ => true

/-- An event is delivered to a consumer once. -/
def World.start (w : World) : Call → Option World
  | .http op => if IsRoute op then some w else none
  | .tripEvent envelope =>
      if w.events[envelope.eventId]? = some envelope ∧ w.tripDelivered envelope.eventId = false then
        some { w with tripDelivered := Function.update w.tripDelivered envelope.eventId true }
      else none
  | .dispatchEvent envelope =>
      if w.events[envelope.eventId]? = some envelope ∧ envelope.eventType = .rideRequested ∧
          w.dispatchDelivered envelope.eventId = false then
        some
          { w with
            dispatchDelivered := Function.update w.dispatchDelivered envelope.eventId true }
      else none
  | .updateStatus .. => some w

section Machine

variable (cfg : Dispatch.Config) (haversineKm : GeoPoint → GeoPoint → Option Rat)

def machine : Machine World Call Cmd Reply Empty Unit (List NearbyDriver) Env where
  exec found c w := some (w.exec found c)
  start call w := (w.start call).map fun w => (call.prog cfg haversineKm, w)
  env a w := w.env a

end Machine

abbrev BackendPool : Type := Pool World Call Cmd Reply Empty Unit

abbrev BackendAction : Type := Action Call (List NearbyDriver) Env

abbrev BackendLog : Type := Log Cmd Reply

abbrev BackendThread : Type := Thread Call Cmd Reply Empty Unit

/-- No rides, no events and no reservations, and drivers with any status. -/
def initial (drivers : String → Option DriverStatus) : BackendPool where
  world :=
    { trip := .empty
      drivers := drivers
      dispatch := .empty
      expiresAt := fun _ => 0
      located := fun _ => false
      events := []
      tripDelivered := fun _ => false
      dispatchDelivered := fun _ => false
      tripParked := [] }
  threads _ := none

end Backend

end RydTrip
