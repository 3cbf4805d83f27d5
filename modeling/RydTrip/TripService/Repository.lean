import RydTrip.TripService.Database
import RydTrip.EventConsumer

/-!
# The trip repository

`services/trip-service/src/trips/trips.repository.ts`, and the signature of the
commands that the trip service issues.

A Prisma interactive transaction is a value here.  `Tx` holds the
`processed_events` key it was opened with and the statements staged so far.  A
statement inside the transaction is checked against the committed database and
staged (`exec`), and `commit` applies everything that was staged in one atomic
step or nothing.  Outside a transaction `create` and `transition` open one of
their own (`transact`), which is a single atomic step.  Row locks are not
modelled, so the commits of the model interleave in every way the ones of the
source can, and in some more.
-/

namespace RydTrip

namespace TripService

open Process

/-! ## Statements and transactions -/

/-- The `options` of `transition`.  A missing field is `none`, and `clearOtp`
is `false`.  A number that is `NaN` is `some none`. -/
structure TransitionOptions where
  cancellationReason : JsText := .undefined
  driverId : Option String := none
  fare : Option (Option Rat) := none
  distanceKm : Option (Option Rat) := none
  otp : Option String := none
  clearOtp : Bool := false
  deriving DecidableEq, Repr

/-- The two `exec` closures of the repository. -/
inductive Exec where
  | create (input : CreateRideInput)
  | transition (id : String) (tgt : RideStatus) (options : TransitionOptions)
  deriving DecidableEq, Repr

/-- An open transaction of `runIdempotent`. -/
structure Tx where
  key : ProcessedEventRow
  staged : List Exec
  deriving DecidableEq, Repr

def eventTypeForStatus : RideStatus → String
  | .requested => "ride.requested"
  | .matching => "ride.matching"
  | .matched => "ride.matched"
  | .driverArriving => "driver.arriving"
  | .driverArrived => "driver.arrived"
  | .inProgress => "trip.started"
  | .completed => "trip.completed"
  | .cancelled => "ride.cancelled"

/-- What a `cancellationReason` does to its column.  A truthy one has to be a
string or an update of the column. -/
def storedReason : JsText → Except PrismaError (Option (Option String))
  | .undefined => .ok none
  | .falsy => .ok none
  | .text s => .ok (if s = "" then none else some (some s))
  | .update set => .ok (some set)
  | .other => .error (.other "Argument cancellationReason: Invalid value provided.")

/-- The metadata of the audit row: the reason, if it is truthy. -/
def auditMetadata : JsText → Option JsText
  | .undefined => none
  | .falsy => none
  | .text s => if s = "" then none else some (.text s)
  | .update set => some (.update set)
  | .other => some .other

/-- The `data` of the update in `transition`, given what the reason does.  `NaN`
is sent to the database as `null`. -/
def TransitionOptions.data (options : TransitionOptions) (tgt : RideStatus)
    (reason : Option (Option String)) : RideUpdate where
  status := tgt
  cancellationReason := reason
  driverId := truthy options.driverId
  fare := options.fare
  distanceKm := options.distanceKm
  otp := if options.clearOtp then some none else options.otp.map some

/-- What an `exec` closure does to the database. -/
def Exec.apply : Exec → TripDb → Except PrismaError (RideRow × TripDb)
  | .create input, db => do
      let (created, db) ← db.createRide input
      return (created,
        db.createTripEvent ⟨created.id, eventTypeForStatus .requested, none⟩)
  | .transition id tgt options, db => do
      let reason ← storedReason options.cancellationReason
      let (updated, db) ← db.updateRide id (options.data tgt reason)
      return (updated, db.createTripEvent
        ⟨id, eventTypeForStatus tgt, auditMetadata options.cancellationReason⟩)

/-- The staged statements, one after the other. -/
def applyAll : List Exec → TripDb → Except PrismaError TripDb
  | [], db => .ok db
  | e :: es, db => do
      let (_, db) ← e.apply db
      applyAll es db

/-- What the statement `e` sees inside the transaction. -/
def Tx.exec (tx : Tx) (e : Exec) (db : TripDb) : Except PrismaError RideRow := do
  let db ← applyAll tx.staged db
  let (row, _) ← e.apply db
  return row

/-- The `processed_events` row and everything staged, or nothing. -/
def Tx.commit (tx : Tx) (db : TripDb) : Except PrismaError TripDb := do
  let db ← db.createProcessedEvent tx.key
  applyAll tx.staged db

/-! ## What the statements do -/

/-- A transition rewrites the row it names and appends its audit row. -/
theorem Exec.transition_ok {db db' : TripDb} {id : String} {tgt : RideStatus}
    {options : TransitionOptions} {row' : RideRow}
    (h : (Exec.transition id tgt options).apply db = .ok (row', db')) :
    ∃ row reason, db.findRide id = some row ∧
      storedReason options.cancellationReason = .ok reason ∧
      row' = (options.data tgt reason).apply db.now row ∧
      (∀ id', db'.findRide id' = if id' = id then some row' else db.findRide id') ∧
      db'.tripEvents = db.tripEvents ++
        [⟨id, eventTypeForStatus tgt, auditMetadata options.cancellationReason⟩] ∧
      db'.processedEvents = db.processedEvents ∧ db'.now = db.now := by
  obtain ⟨reason, hreason, h⟩ := bind_eq_ok.mp h
  obtain ⟨⟨row₁, db₁⟩, hu, h⟩ := bind_eq_ok.mp h
  cases h
  obtain ⟨row, hrow, hrow', hfind, hte, hpe, hnow⟩ := TripDb.updateRide_ok hu
  refine ⟨row, reason, hrow, hreason, hrow', hfind, ?_, hpe, hnow⟩
  rw [TripDb.createTripEvent, hte]

/-- An insert adds a REQUESTED row under a new id and appends its audit row. -/
theorem Exec.create_ok {db db' : TripDb} {input : CreateRideInput} {row : RideRow}
    (h : (Exec.create input).apply db = .ok (row, db')) :
    db.findRide input.id = none ∧ row.id = input.id ∧ row.status = .requested ∧
      row.driverId = none ∧
      (∀ id, db'.findRide id = if id = input.id then some row else db.findRide id) ∧
      db'.tripEvents = db.tripEvents ++ [⟨input.id, eventTypeForStatus .requested, none⟩] ∧
      db'.processedEvents = db.processedEvents ∧ db'.now = db.now := by
  obtain ⟨⟨row₁, db₁⟩, hc, h⟩ := bind_eq_ok.mp h
  cases h
  obtain ⟨hnone, hid, hst, hdr, hfind, hte, hpe, hnow⟩ := TripDb.createRide_ok hc
  refine ⟨hnone, hid, hst, hdr, hfind, ?_, hpe, hnow⟩
  rw [TripDb.createTripEvent, hte, hid]

theorem applyAll_cons {e : Exec} {es : List Exec} {db db' : TripDb} :
    applyAll (e :: es) db = .ok db' ↔
      ∃ row db₁, e.apply db = .ok (row, db₁) ∧ applyAll es db₁ = .ok db' := by
  rw [applyAll, bind_eq_ok, Prod.exists]

theorem Tx.exec_ok {tx : Tx} {e : Exec} {db : TripDb} {row : RideRow} :
    tx.exec e db = .ok row ↔
      ∃ db₁ db₂, applyAll tx.staged db = .ok db₁ ∧ e.apply db₁ = .ok (row, db₂) := by
  simp only [Tx.exec, bind_eq_ok, Prod.exists, pure, Except.pure, Except.ok.injEq]
  constructor
  · rintro ⟨db₁, happ, row, db₂, he, rfl⟩
    exact ⟨db₁, db₂, happ, he⟩
  · rintro ⟨db₁, db₂, happ, he⟩
    exact ⟨db₁, happ, row, db₂, he, rfl⟩

theorem Tx.commit_ok {tx : Tx} {db db' : TripDb} :
    tx.commit db = .ok db' ↔
      ∃ db₁, db.createProcessedEvent tx.key = .ok db₁ ∧ applyAll tx.staged db₁ = .ok db' :=
  bind_eq_ok

/-! ## The command signature -/

/-- A call of the database client. -/
inductive DbCmd where
  | findRide (id : String)
  | getOtp (id : String)
  | findActive (driverId : String)
  | findByRider (riderId : String) (limit : Int)
  | findByDriver (driverId : String) (limit : Int)
  | begin (key : ProcessedEventRow)
  | exec (tx : Tx) (e : Exec)
  | commit (tx : Tx)
  | transact (e : Exec)
  deriving DecidableEq, Repr

/-- What it resolves with. -/
@[reducible] def DbValue : DbCmd → Type
  | .findRide _ => Option RideRow
  | .getOtp _ => Option String
  | .findActive _ => Option RideRow
  | .findByRider .. => List RideRow
  | .findByDriver .. => List RideRow
  | .begin _ => Unit
  | .exec .. => RideRow
  | .commit _ => Unit
  | .transact _ => RideRow

/-- One await of the trip service. -/
inductive Cmd where
  | db (c : DbCmd)
  | patch (driverId : String) (status : DriverStatus)
  | park (fields : DlqFields)
  deriving DecidableEq, Repr

/-- How it ends.  Database calls reject with a Prisma error, and a park that
rejects leaves the message unacknowledged. -/
@[reducible] def Reply : Cmd → Type
  | .db c => Except PrismaError (DbValue c)
  | .patch .. => PatchReply
  | .park _ => Except String Unit

/-- The exceptions of the trip service. -/
inductive TripError where
  | notFound (message : String)
  | conflict (message : String)
  | forbidden (message : String)
  | badRequest (message : String)
  | prisma (err : PrismaError)
  | error (message : String)
  deriving DecidableEq, Repr

def TripError.message : TripError → String
  | .notFound message => message
  | .conflict message => message
  | .forbidden message => message
  | .badRequest message => message
  | .prisma err => err.message
  | .error message => message

/-- The asynchronous code of the trip service. -/
abbrev Trip (α : Type) : Type := Prog Cmd Reply TripError α

/-- Await a database call. -/
def query (c : DbCmd) : Trip (DbValue c) :=
  .call (.db c) fun
    | .ok a => pure a
    | .error err => throw (.prisma err)

/-! ## The repository -/

def toDomain (row : RideRow) : Ride where
  id := row.id
  riderId := row.riderId
  driverId := row.driverId
  pickup := row.pickup
  destination := row.destination
  status := row.status
  cancellationReason := row.cancellationReason
  fare := row.fare
  distanceKm := row.distanceKm
  createdAt := row.createdAt
  updatedAt := row.updatedAt

inductive IdempotentOutcome (α : Type) where
  | duplicate
  | processed (result : α)

namespace TripsRepository

/-- `tx ? await exec(tx) : await this.prisma.$transaction(exec)`. -/
def runExec (e : Exec) : Option Tx → Trip (Ride × Option Tx)
  | some tx => do
      let row ← query (.exec tx e)
      return (toDomain row, some { tx with staged := tx.staged ++ [e] })
  | none => do
      let row ← query (.transact e)
      return (toDomain row, none)

/-- Runs `work` in a transaction that starts with the `processed_events` insert.
The transaction is handed on by `work` with the statements it has staged. -/
def runIdempotent {α : Type} (eventId : Nat) (consumerName : String)
    (work : Option Tx → Trip (α × Option Tx)) : Trip (IdempotentOutcome α) :=
  tryCatchThe TripError
    (do
      let key : ProcessedEventRow := ⟨eventId, consumerName⟩
      query (.begin key)
      let (result, tx) ← work (some ⟨key, []⟩)
      match tx with
      | some tx => query (.commit tx)
      | none => pure ()
      return .processed result)
    fun err =>
      match err with
      | .prisma .uniqueConstraint => return .duplicate
      | err => throw err

def create (input : CreateRideInput) (tx : Option Tx) : Trip (Ride × Option Tx) :=
  runExec (.create input) tx

def findById (id : String) : Trip (Option Ride) := do
  let row ← query (.findRide id)
  return row.map toDomain

def findActiveByDriver (driverId : String) : Trip (Option Ride) := do
  let row ← query (.findActive driverId)
  return row.map toDomain

def findByRider (riderId : String) (limit : Int) : Trip (List Ride) := do
  let rows ← query (.findByRider riderId limit)
  return rows.map toDomain

def findByDriver (driverId : String) (limit : Int) : Trip (List Ride) := do
  let rows ← query (.findByDriver driverId limit)
  return rows.map toDomain

def getOtp (id : String) : Trip (Option String) := do
  query (.getOtp id)

def transition (id : String) (tgt : RideStatus) (options : TransitionOptions)
    (tx : Option Tx) : Trip (Ride × Option Tx) :=
  runExec (.transition id tgt options) tx

end TripsRepository

end TripService

end RydTrip
