import Mathlib.Data.Rat.Defs

/-!
# The shared event schema

The enumerations, entities and event envelopes that every service uses
(`libraries/event-schema/src`).  Identifiers are the strings of the source,
since several checks test them for truthiness and the empty string is falsy.
Event ids are minted by `randomUUID` and only ever compared, so they are
natural numbers here.  Coordinates are finite JSON numbers, hence rationals.

An event payload is untyped JSON in the source.  `Payload` keeps what the
payload guards look at: a field is `none` when it is missing or has another
JSON type.  `JsText` is the exception.  The optional `reason` of a
`ride.cancelled` payload passes its guard unchecked, so all the ways it can
look at run time are kept apart.
-/

namespace RydTrip

/-! ## Enumerations -/

inductive DriverStatus where
  | offline | available | reserved | onTrip | suspended
  deriving DecidableEq, Repr

inductive RideStatus where
  | requested | matching | matched | driverArriving | driverArrived
  | inProgress | completed | cancelled
  deriving DecidableEq, Repr

inductive CancellationReason where
  | riderCancelled | driverCancelled | noDriversAvailable | riderNoShow
  | systemCancelled
  deriving DecidableEq, Repr

/-- The string value of a driver status. -/
def DriverStatus.text : DriverStatus → String
  | .offline => "OFFLINE"
  | .available => "AVAILABLE"
  | .reserved => "RESERVED"
  | .onTrip => "ON_TRIP"
  | .suspended => "SUSPENDED"

/-- The string value of a ride status. -/
def RideStatus.text : RideStatus → String
  | .requested => "REQUESTED"
  | .matching => "MATCHING"
  | .matched => "MATCHED"
  | .driverArriving => "DRIVER_ARRIVING"
  | .driverArrived => "DRIVER_ARRIVED"
  | .inProgress => "IN_PROGRESS"
  | .completed => "COMPLETED"
  | .cancelled => "CANCELLED"

/-- The string value of a cancellation reason. -/
def CancellationReason.text : CancellationReason → String
  | .riderCancelled => "RIDER_CANCELLED"
  | .driverCancelled => "DRIVER_CANCELLED"
  | .noDriversAvailable => "NO_DRIVERS_AVAILABLE"
  | .riderNoShow => "RIDER_NO_SHOW"
  | .systemCancelled => "SYSTEM_CANCELLED"

/-! ## Values from JSON -/

/-- An unchecked JSON value where the source expects an optional string:
missing, a falsy value that is not a string (`null`, `0`, `false`), a string, an
object whose only member is `set` with a string or `null`, or any other truthy
value.  Prisma takes `{"set": …}` for an update of a nullable column. -/
inductive JsText where
  | undefined
  | falsy
  | text (s : String)
  | update (set : Option String)
  | other
  deriving DecidableEq, Repr

/-- JavaScript truthiness of an optional string: missing and empty are falsy. -/
def truthy : Option String → Option String
  | some s => if s = "" then none else some s
  | none => none

@[simp] theorem truthy_none : truthy none = none := rfl

theorem truthy_eq_some {o : Option String} {s : String} :
    truthy o = some s ↔ o = some s ∧ s ≠ "" := by
  cases o with
  | none => simp
  | some t =>
      by_cases ht : t = ""
      · subst ht
        simp only [truthy, if_true, reduceCtorEq, Option.some.injEq, false_iff, not_and,
          Decidable.not_not]
        exact fun h => h.symm
      · simp only [truthy, ht, if_false, Option.some.injEq]
        exact ⟨fun h => ⟨h, h ▸ ht⟩, fun h => h.1⟩

/-! ## Entities -/

structure GeoPoint where
  lat : Rat
  lng : Rat
  deriving DecidableEq, Repr

/-- A ride as services and clients see it.  Timestamps are database clock
readings. -/
structure Ride where
  id : String
  riderId : String
  driverId : Option String
  pickup : GeoPoint
  destination : GeoPoint
  status : RideStatus
  cancellationReason : Option String
  fare : Option Rat
  distanceKm : Option Rat
  createdAt : Nat
  updatedAt : Nat
  deriving DecidableEq, Repr

/-! ## Topics and envelopes -/

/-- `KAFKA_TOPICS`.  Every producer here uses the topic as the event type. -/
inductive KafkaTopic where
  | rideRequested | rideCancelled | driverStatusChanged | driverLocationUpdated
  | driverReserved | driverAccepted | driverRejected | tripStarted | tripCompleted
  deriving DecidableEq, Repr

/-- The name of a topic. -/
def KafkaTopic.text : KafkaTopic → String
  | .rideRequested => "ride.requested"
  | .rideCancelled => "ride.cancelled"
  | .driverStatusChanged => "driver.status.changed"
  | .driverLocationUpdated => "driver.location.updated"
  | .driverReserved => "driver.reserved"
  | .driverAccepted => "driver.accepted"
  | .driverRejected => "driver.rejected"
  | .tripStarted => "trip.started"
  | .tripCompleted => "trip.completed"

/-- What the payload guards of the consumers look at. -/
structure Payload where
  rideId : Option String
  riderId : Option String
  driverId : Option String
  pickup : Option GeoPoint
  destination : Option GeoPoint
  reason : JsText
  deriving DecidableEq, Repr

/-- The payload with no fields. -/
def Payload.empty : Payload :=
  ⟨none, none, none, none, none, .undefined⟩

/-- `EventEnvelope`, less the version, timestamp and producer, which no consumer
reads.  `payload` is `none` for a JSON `null`. -/
structure EventEnvelope where
  eventId : Nat
  eventType : KafkaTopic
  correlationId : String
  payload : Option Payload
  deriving DecidableEq, Repr

/-! ## Requests between services -/

/-- How a PATCH to another service can end. -/
inductive PatchReply where
  | response (status : Nat)
  | error (message : String)
  deriving DecidableEq, Repr

/-- `res.ok` -/
def PatchReply.isOk : PatchReply → Bool
  | .response status => decide (200 ≤ status ∧ status < 300)
  | .error _ => false

end RydTrip
