import RydTrip.TripService.Repository

/-!
# The trip service

`services/trip-service/src/trips/trips.service.ts`, method by method.  The
great-circle distance is a parameter, and is `none` where it is `NaN`.
`Distance` has the one of the source.  The draw of `randomInt` is an argument of
`accept`.  `Math.round` on a rational is `⌊x + 1/2⌋`.
-/

namespace RydTrip

namespace TripService

open Process

/-- `CONSUMER_NAME`, the `processed_events` key. -/
def consumerName : String := "trip-service"

/-- `BASE_FARE` -/
def baseFare : Rat := 40

/-- `PER_KM_RATE` -/
def perKmRate : Rat := 12

/-- `DEFAULT_HISTORY_LIMIT` -/
def defaultHistoryLimit : Int := 20

/-- `MAX_HISTORY_LIMIT` -/
def maxHistoryLimit : Int := 50

/-- `Math.round` -/
def jsRound (x : Rat) : Rat := (x + 1 / 2).floor

/-- `String(n).padStart(4, '0')` -/
def padOtp (n : Nat) : String :=
  let digits := toString n
  String.ofList (List.replicate (4 - digits.length) '0') ++ digits

namespace TripsService

/-! ## Guards and reads -/

/-- Throws when the transition is not in the table. -/
def guardTransition (src tgt : RideStatus) : Trip Unit :=
  if canTransitionRideStatus src tgt then pure ()
  else throw (.conflict (invalidRideTransitionMessage src tgt))

def findById (id : String) : Trip Ride := do
  match ← TripsRepository.findById id with
  | some ride => return ride
  | none => throw (.notFound s!"Ride {id} not found")

def findActiveForDriver (driverId : String) : Trip (Option Ride) :=
  TripsRepository.findActiveByDriver driverId

/-- `Math.min(Math.max(limit, 1), MAX_HISTORY_LIMIT)` -/
def clampLimit (limit : Option Int) : Int :=
  min (max (limit.getD defaultHistoryLimit) 1) maxHistoryLimit

def findHistoryForRider (riderId : String) (limit : Option Int) : Trip (List Ride) :=
  TripsRepository.findByRider riderId (clampLimit limit)

def findHistoryForDriver (driverId : String) (limit : Option Int) : Trip (List Ride) :=
  TripsRepository.findByDriver driverId (clampLimit limit)

def getOtpForRider (id : String) (callerRiderId : Option String) : Trip (Option String) := do
  let ride ← findById id
  match truthy callerRiderId with
  | some caller =>
      if ride.riderId ≠ caller then
        throw (.forbidden "Cannot view another rider's OTP")
      else TripsRepository.getOtp id
  | none => TripsRepository.getOtp id

/-! ## The status sync -/

/-- A failed PATCH is logged and swallowed. -/
def syncDriverStatusBestEffort (driverId : String) (status : DriverStatus) : Trip Unit :=
  tryCatchThe TripError
    (do
      let res : PatchReply ← Prog.perform (Cmd.patch driverId status)
      match res with
      | .response code =>
          if res.isOk then pure ()
          else throw (.error s!"driver-service rejected status sync for {driverId}: HTTP {code}")
      | .error message => throw (.error message))
    fun _ => pure ()

/-- The reply does not matter. -/
theorem syncDriverStatusBestEffort_eq (driverId : String) (status : DriverStatus) :
    syncDriverStatusBestEffort driverId status =
      .call (.patch driverId status) fun _ => .ret () := by
  unfold syncDriverStatusBestEffort
  simp only [Prog.perform_bind, Prog.tryCatchThe_eq, Prog.call_tryCatch]
  congr
  funext res
  cases res with
  | error message => rfl
  | response code =>
      dsimp only
      split <;> rfl

/-- The sync for the driver of a ride, if it has one. -/
def syncRideDriver (ride : Ride) (status : DriverStatus) : Trip Unit :=
  match truthy ride.driverId with
  | some driverId => syncDriverStatusBestEffort driverId status
  | none => pure ()

/-! ## Status changes -/

/-- The default of `cancel`'s `reason` applies to `undefined` only. -/
def cancelReason : JsText → JsText
  | .undefined => .text CancellationReason.riderCancelled.text
  | reason => reason

def cancel (id : String) (reason : JsText) (tx : Option Tx) : Trip (Ride × Option Tx) := do
  let ride ← findById id
  guardTransition ride.status .cancelled
  let (cancelled, tx) ← TripsRepository.transition id .cancelled
    { cancellationReason := cancelReason reason } tx
  syncRideDriver cancelled .available
  return (cancelled, tx)

def transitionTo (id : String) (tgt : RideStatus) : Trip Ride := do
  let ride ← findById id
  guardTransition ride.status tgt
  return (← TripsRepository.transition id tgt {} none).1

def accept (id : String) (draw : Fin 10000) : Trip Ride := do
  let ride ← findById id
  guardTransition ride.status .driverArriving
  let otp := padOtp draw
  return (← TripsRepository.transition id .driverArriving { otp := some otp } none).1

def decline (id : String) : Trip Ride := do
  return (← cancel id (.text CancellationReason.driverCancelled.text) none).1

def markDriverArrived (id : String) : Trip Ride :=
  transitionTo id .driverArrived

/-- The ownership check of `start`. -/
def guardCaller (ride : Ride) (callerDriverId : Option String) : Trip Unit :=
  match truthy callerDriverId with
  | some caller =>
      if ride.driverId ≠ some caller then
        throw (.forbidden "Only the assigned driver can start this trip")
      else pure ()
  | none => pure ()

/-- The code check of `start`. -/
def guardOtp (storedOtp : Option String) (otp : String) : Trip Unit :=
  match truthy storedOtp with
  | some stored => if stored ≠ otp then throw (.badRequest "Incorrect OTP") else pure ()
  | none => throw (.badRequest "Incorrect OTP")

def start (id : String) (otp : String) (callerDriverId : Option String) : Trip Ride := do
  let ride ← findById id
  guardTransition ride.status .inProgress
  guardCaller ride callerDriverId
  let storedOtp ← TripsRepository.getOtp id
  guardOtp storedOtp otp
  let (started, _) ← TripsRepository.transition id .inProgress { clearOtp := true } none
  syncRideDriver started .onTrip
  return started

section Complete

variable (haversineKm : GeoPoint → GeoPoint → Option Rat)

/-- The distance in kilometres, to two decimals, unless it is `NaN`. -/
def tripDistance (ride : Ride) : Option Rat :=
  (haversineKm ride.pickup ride.destination).map fun km => jsRound (km * 100) / 100

/-- The fare for a distance, which is `NaN` if the distance is. -/
def fareFor (distanceKm : Option Rat) : Option Rat :=
  distanceKm.map fun km => jsRound (baseFare + perKmRate * km)

def complete (id : String) : Trip Ride := do
  let current ← findById id
  guardTransition current.status .completed
  let distanceKm := tripDistance haversineKm current
  let fare := fareFor distanceKm
  let (ride, _) ← TripsRepository.transition id .completed
    { fare := some fare, distanceKm := some distanceKm } none
  syncRideDriver ride .available
  return ride

end Complete

/-! ## Event handlers

A processed event and a skipped duplicate differ in what is logged only. -/

def handleRideRequested (input : CreateRideInput) (eventId : Nat) : Trip Unit := do
  let _ ← TripsRepository.runIdempotent eventId consumerName fun tx => do
    let (ride, tx) ← TripsRepository.create input tx
    TripsRepository.transition ride.id .matching {} tx

def handleRideCancelled (rideId : String) (reason : JsText) (eventId : Nat) : Trip Unit := do
  let _ ← TripsRepository.runIdempotent eventId consumerName fun tx => cancel rideId reason tx

def handleDriverReserved (rideId driverId : String) (eventId : Nat) : Trip Unit := do
  let ride ← findById rideId
  guardTransition ride.status .matched
  let _ ← TripsRepository.runIdempotent eventId consumerName fun tx =>
    TripsRepository.transition rideId .matched { driverId := some driverId } tx

def handleDriverRejected (rideId : String) (eventId : Nat) : Trip Unit := do
  let _ ← TripsRepository.runIdempotent eventId consumerName fun tx =>
    cancel rideId (.text CancellationReason.noDriversAvailable.text) tx

end TripsService

end TripService

end RydTrip
