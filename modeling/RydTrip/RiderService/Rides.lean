import RydTrip.EventSchema

/-!
# Ride requests in rider-service

`services/rider-service/src/rides`: the bodies that `CreateRideDto` lets through,
and the `ride.requested` event that `create` publishes for them.  A validated
body carries the bounds it was checked for.  The id of the rider is only looked
up by `create`, so its format is left out.
-/

namespace RydTrip

namespace Rides

/-- `GeoPointDto` -/
structure GeoPointDto where
  lat : Rat
  lng : Rat
  minLat : -90 ≤ lat
  maxLat : lat ≤ 90
  minLng : -180 ≤ lng
  maxLng : lng ≤ 180

def GeoPointDto.toGeoPoint (dto : GeoPointDto) : GeoPoint := ⟨dto.lat, dto.lng⟩

/-- What `@ValidateNested()` lets through where a point is expected: it skips a
missing value and goes into the elements of an array. -/
inductive Nested where
  | missing
  | one (point : GeoPointDto)
  | many (items : List Nested)

/-- The point, if it is one. -/
def Nested.point? : Nested → Option GeoPoint
  | .one point => some point.toGeoPoint
  | .missing => none
  | .many _ => none

structure CreateRideDto where
  riderId : String
  pickup : Nested
  destination : Nested

/-- A body that has passed, with what `create` is given or draws for it. -/
structure RideRequest where
  dto : CreateRideDto
  rideId : String
  correlationId : String

/-- The payload that `create` publishes. -/
def RideRequest.payload (request : RideRequest) : Payload :=
  { Payload.empty with
    rideId := some request.rideId
    riderId := some request.dto.riderId
    pickup := request.dto.pickup.point?
    destination := request.dto.destination.point? }

/-- The envelope of the event. -/
def RideRequest.envelope (request : RideRequest) (eventId : Nat) : EventEnvelope :=
  ⟨eventId, .rideRequested, request.correlationId, some request.payload⟩

end Rides

end RydTrip
