import Mathlib.Data.List.Sort
import RydTrip.Process.Pool
import RydTrip.TripService.Consumer

/-!
# Concurrent trip-service operations

The trip service as a `Machine`: any number of HTTP requests and event handlers
over one database, where each await is an atomic step.  The oracle decides how
driver-service answers and when the database or the dead letter topic fails.  A
lost reply is a failure the client sees although the statement took effect.
-/

namespace RydTrip

namespace TripService

open Process

/-! ## Database calls -/

namespace TripDb

def newestFirst (rows : List RideRow) : List RideRow :=
  rows.insertionSort fun a b => b.createdAt ≤ a.createdAt

/-- `findFirst` of `findActiveByDriver`. -/
def findActive (db : TripDb) (driverId : String) : Option RideRow :=
  (newestFirst (db.rides.filter fun row =>
    row.driverId = some driverId ∧ row.status ≠ .completed ∧ row.status ≠ .cancelled)).head?

/-- `findMany` of `findByRider`. -/
def findByRider (db : TripDb) (riderId : String) (limit : Int) : List RideRow :=
  (newestFirst (db.rides.filter fun row => row.riderId = riderId)).take limit.toNat

/-- `findMany` of `findByDriver`. -/
def findByDriver (db : TripDb) (driverId : String) (limit : Int) : List RideRow :=
  (newestFirst (db.rides.filter fun row => row.driverId = some driverId)).take limit.toNat

/-- The first statement of `runIdempotent`. -/
def beginProcessed (db : TripDb) (key : ProcessedEventRow) : Except PrismaError Unit :=
  if db.processed key then .error .uniqueConstraint else .ok ()

/-- A database call that the database answers. -/
def exec (db : TripDb) : (c : DbCmd) → Except PrismaError (DbValue c × TripDb)
  | .findRide id => .ok (db.findRide id, db)
  | .getOtp id => .ok ((db.findRide id).bind (·.otp), db)
  | .findActive driverId => .ok (db.findActive driverId, db)
  | .findByRider riderId limit => .ok (db.findByRider riderId limit, db)
  | .findByDriver driverId limit => .ok (db.findByDriver driverId limit, db)
  | .begin key => (db.beginProcessed key).map (·, db)
  | .exec tx e => (tx.exec e db).map (·, db)
  | .commit tx => (tx.commit db).map ((), ·)
  | .transact e => e.apply db

end TripDb

/-- What the client sees of a database call and what the call leaves behind.  A
call that is refused, or whose reply is lost, rejects with an error of the
connection, whatever the answer of the database is. -/
def settle {α : Type} (fault : Fault) (db : TripDb) :
    Except PrismaError (α × TripDb) → Except PrismaError α × TripDb
  | .error err =>
      match fault with
      | .none => (.error err, db)
      | .refused message => (.error (.other message), db)
      | .lost message => (.error (.other message), db)
  | .ok (a, db') =>
      match fault with
      | .none => (.ok a, db')
      | .refused message => (.error (.other message), db)
      | .lost message => (.error (.other message), db')

/-- An error of the database is seen as an error, and leaves it alone. -/
theorem settle_error {α : Type} (fault : Fault) (db : TripDb) (err : PrismaError) :
    ∃ err', settle fault db (.error err : Except PrismaError (α × TripDb)) = (.error err', db) := by
  cases fault <;> exact ⟨_, rfl⟩

theorem settle_error_db {α : Type} (fault : Fault) (db : TripDb) (err : PrismaError) :
    (settle fault db (.error err : Except PrismaError (α × TripDb))).2 = db := by
  obtain ⟨err', h⟩ := settle_error (α := α) fault db err
  rw [h]

/-! ## The machine -/

/-- The database and what has left the service, newest first. -/
structure TripHost where
  db : TripDb
  patches : List (String × DriverStatus)
  parked : List DlqFields
  deriving DecidableEq, Repr

def TripHost.empty : TripHost := ⟨.empty, [], []⟩

structure Oracle where
  fault : Fault := .none
  patchReply : PatchReply := .response 200
  parkReply : Except String Unit := .ok ()

def TripHost.exec (o : Oracle) (w : TripHost) : (c : Cmd) → Reply c × TripHost
  | .db c =>
      let (r, db) := settle o.fault w.db (w.db.exec c)
      (r, { w with db := db })
  | .patch driverId status =>
      (o.patchReply, { w with patches := (driverId, status) :: w.patches })
  | .park fields =>
      match o.parkReply with
      | .ok () => (.ok (), { w with parked := fields :: w.parked })
      | .error message => (.error message, w)

/-- What can be started: the routes of `trips.controller.ts`, the four event
handlers, and the delivery of an envelope to the consumer. -/
inductive Op where
  | findActiveForDriver (driverId : String)
  | findHistoryForRider (riderId : String) (limit : Option Int)
  | findHistoryForDriver (driverId : String) (limit : Option Int)
  | findOne (id : String)
  | accept (id : String) (draw : Fin 10000)
  | decline (id : String)
  | driverArrived (id : String)
  | start (id otp : String) (callerDriverId : Option String)
  | getOtp (id : String) (callerRiderId : Option String)
  | complete (id : String)
  | cancel (id : String) (reason : JsText)
  | handleRideRequested (input : CreateRideInput) (eventId : Nat)
  | handleRideCancelled (rideId : String) (reason : JsText) (eventId : Nat)
  | handleDriverReserved (rideId driverId : String) (eventId : Nat)
  | handleDriverRejected (rideId : String) (eventId : Nat)
  | consume (maxAttempts : Nat) (envelope : EventEnvelope)
  deriving DecidableEq, Repr

/-- What an operation resolves with. -/
inductive Response where
  | done
  | ride (ride : Option Ride)
  | rides (rides : List Ride)
  | otp (otp : Option String)
  deriving DecidableEq, Repr

section Machine

variable (haversineKm : GeoPoint → GeoPoint → Option Rat)

def TripsService.program : Op → Trip Response
  | .findActiveForDriver driverId => do return .ride (← findActiveForDriver driverId)
  | .findHistoryForRider riderId limit => do return .rides (← findHistoryForRider riderId limit)
  | .findHistoryForDriver driverId limit => do
      return .rides (← findHistoryForDriver driverId limit)
  | .findOne id => do return .ride (some (← findById id))
  | .accept id draw => do return .ride (some (← accept id draw))
  | .decline id => do return .ride (some (← decline id))
  | .driverArrived id => do return .ride (some (← markDriverArrived id))
  | .start id otp callerDriverId => do return .ride (some (← start id otp callerDriverId))
  | .getOtp id callerRiderId => do return .otp (← getOtpForRider id callerRiderId)
  | .complete id => do return .ride (some (← complete haversineKm id))
  | .cancel id reason => do return .ride (some (← cancel id reason none).1)
  | .handleRideRequested input eventId => do
      handleRideRequested input eventId
      return .done
  | .handleRideCancelled rideId reason eventId => do
      handleRideCancelled rideId reason eventId
      return .done
  | .handleDriverReserved rideId driverId eventId => do
      handleDriverReserved rideId driverId eventId
      return .done
  | .handleDriverRejected rideId eventId => do
      handleDriverRejected rideId eventId
      return .done
  | .consume maxAttempts envelope => do
      RideEventsConsumer.consume maxAttempts envelope
      return .done

/-- By itself the world only lets time pass. -/
def machine : Machine TripHost Op Cmd Reply TripError Response Oracle Unit where
  exec o c w := some (w.exec o c)
  start op w := some (TripsService.program haversineKm op, w)
  env _ w := some { w with db := { w.db with now := w.db.now + 1 } }

end Machine

abbrev TripPool : Type := Pool TripHost Op Cmd Reply TripError Response

abbrev TripAction : Type := Action Op Oracle Unit

end TripService

end RydTrip
