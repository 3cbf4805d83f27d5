import RydTrip.TripService.Service

/-!
# The ride events consumer

`services/trip-service/src/trips/ride-events.consumer.ts`: the payload guards,
the choice of a handler by event type, and the wrapping in `EventConsumer`.
-/

namespace RydTrip

namespace TripService

open Process

namespace RideEventsConsumer

/-! ## Payload guards -/

structure RideCancelledPayload where
  rideId : String
  reason : JsText
  deriving DecidableEq, Repr

structure DriverReservedPayload where
  rideId : String
  driverId : String
  deriving DecidableEq, Repr

structure DriverRejectedPayload where
  rideId : String
  deriving DecidableEq, Repr

/-- `isRideRequestedPayload`, with the input it is turned into. -/
def rideRequestedPayload (payload : Option Payload) : Option CreateRideInput := do
  let p ← payload
  return ⟨← p.rideId, ← p.riderId, ← p.pickup, ← p.destination⟩

/-- `isRideCancelledPayload`.  The reason is not checked. -/
def rideCancelledPayload (payload : Option Payload) : Option RideCancelledPayload := do
  let p ← payload
  return ⟨← p.rideId, p.reason⟩

/-- `isDriverReservedPayload` -/
def driverReservedPayload (payload : Option Payload) : Option DriverReservedPayload := do
  let p ← payload
  return ⟨← p.rideId, ← p.driverId⟩

/-- `isDriverRejectedPayload` -/
def driverRejectedPayload (payload : Option Payload) : Option DriverRejectedPayload := do
  let p ← payload
  return ⟨← p.rideId⟩

/-! ## The handler -/

def malformed (envelope : EventEnvelope) : Trip Unit :=
  throw (.error s!"malformed {envelope.eventType.text} payload for eventId={envelope.eventId}")

/-- The callback given to `EventConsumer.run`.  Other event types are ignored. -/
def handler (envelope : EventEnvelope) : Trip Unit :=
  match envelope.eventType with
  | .rideRequested =>
      match rideRequestedPayload envelope.payload with
      | some input => TripsService.handleRideRequested input envelope.eventId
      | none => malformed envelope
  | .rideCancelled =>
      match rideCancelledPayload envelope.payload with
      | some p => TripsService.handleRideCancelled p.rideId p.reason envelope.eventId
      | none => malformed envelope
  | .driverReserved =>
      match driverReservedPayload envelope.payload with
      | some p => TripsService.handleDriverReserved p.rideId p.driverId envelope.eventId
      | none => malformed envelope
  | .driverRejected =>
      match driverRejectedPayload envelope.payload with
      | some p => TripsService.handleDriverRejected p.rideId envelope.eventId
      | none => malformed envelope
  | _ => pure ()

/-- `parkOnDlq` on `trip-service.dlt`. -/
def park (fields : DlqFields) : Trip Unit := do
  let sent : Except String Unit ← Prog.perform (Cmd.park fields)
  match sent with
  | .ok () => pure ()
  | .error message => throw (.error message)

/-- One delivered envelope. -/
def consume (maxAttempts : Nat) (envelope : EventEnvelope) : Trip Unit :=
  EventConsumer.deliver TripError.message park handler maxAttempts envelope

end RideEventsConsumer

/-! ## The events by themselves -/

/-- What the four handlers are called with, less the event id. -/
inductive RideEvent where
  | requested (input : CreateRideInput)
  | cancelled (rideId : String) (reason : JsText)
  | reserved (rideId driverId : String)
  | rejected (rideId : String)
  deriving DecidableEq, Repr

namespace RideEvent

/-- The handler of the event. -/
def handle (eventId : Nat) : RideEvent → Trip Unit
  | .requested input => TripsService.handleRideRequested input eventId
  | .cancelled rideId reason => TripsService.handleRideCancelled rideId reason eventId
  | .reserved rideId driverId => TripsService.handleDriverReserved rideId driverId eventId
  | .rejected rideId => TripsService.handleDriverRejected rideId eventId

/-- The event in an envelope whose payload passes its guard. -/
def ofEnvelope (envelope : EventEnvelope) : Option RideEvent :=
  match envelope.eventType with
  | .rideRequested => (RideEventsConsumer.rideRequestedPayload envelope.payload).map .requested
  | .rideCancelled =>
      (RideEventsConsumer.rideCancelledPayload envelope.payload).map fun p =>
        .cancelled p.rideId p.reason
  | .driverReserved =>
      (RideEventsConsumer.driverReservedPayload envelope.payload).map fun p =>
        .reserved p.rideId p.driverId
  | .driverRejected =>
      (RideEventsConsumer.driverRejectedPayload envelope.payload).map fun p => .rejected p.rideId
  | _ => none

theorem handler_of_ofEnvelope {envelope : EventEnvelope} {event : RideEvent}
    (h : ofEnvelope envelope = some event) :
    RideEventsConsumer.handler envelope = event.handle envelope.eventId := by
  unfold ofEnvelope at h
  unfold RideEventsConsumer.handler
  split at h
  all_goals first
    | cases h
    | obtain ⟨p, hp, rfl⟩ := Option.map_eq_some_iff.mp h
      rw [hp]
      rfl

/-- Without an event the handler touches nothing. -/
theorem handler_of_ofEnvelope_none {envelope : EventEnvelope} (h : ofEnvelope envelope = none) :
    RideEventsConsumer.handler envelope = RideEventsConsumer.malformed envelope ∨
      RideEventsConsumer.handler envelope = .ret () := by
  unfold ofEnvelope at h
  unfold RideEventsConsumer.handler
  split at h
  all_goals first
    | exact .inr rfl
    | rw [Option.map_eq_none_iff.mp h]
      exact .inl rfl

end RideEvent

end TripService

end RydTrip
