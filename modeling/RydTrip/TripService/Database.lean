import RydTrip.TripService.RideStateMachine

/-!
# The trip database

The three tables of `services/trip-service/prisma/schema.prisma` and the
statements the repository issues on them.  `rides` and `processed_events` are
keyed, so an insert of an existing key is Prisma's P2002 and an update of a
missing row is P2025.  Rows are never deleted.  `now` is the database clock that
stamps `created_at` and `updated_at`.
-/

namespace RydTrip

namespace TripService

/-- A row of `rides`. -/
structure RideRow where
  id : String
  riderId : String
  driverId : Option String
  pickup : GeoPoint
  destination : GeoPoint
  status : RideStatus
  cancellationReason : Option String
  otp : Option String
  fare : Option Rat
  distanceKm : Option Rat
  createdAt : Nat
  updatedAt : Nat
  deriving DecidableEq, Repr

/-- A row of `trip_events`.  The metadata is the cancellation reason as it was
sent, if any. -/
structure TripEventRow where
  rideId : String
  eventType : String
  metadata : Option JsText
  deriving DecidableEq, Repr

/-- A row of `processed_events`. -/
structure ProcessedEventRow where
  eventId : Nat
  consumerName : String
  deriving DecidableEq, Repr

/-- The database.  Rows are listed oldest first. -/
structure TripDb where
  rides : List RideRow
  tripEvents : List TripEventRow
  processedEvents : List ProcessedEventRow
  now : Nat
  deriving DecidableEq, Repr

inductive PrismaError where
  /-- P2002 -/
  | uniqueConstraint
  /-- P2025 -/
  | recordNotFound
  /-- Any other failure: a lost connection, a timeout, a rejected value. -/
  | other (message : String)
  deriving DecidableEq, Repr

def PrismaError.message : PrismaError → String
  | .uniqueConstraint => "Unique constraint failed"
  | .recordNotFound => "No record was found for an update."
  | .other message => message

/-- `CreateRideInput`. -/
structure CreateRideInput where
  id : String
  riderId : String
  pickup : GeoPoint
  destination : GeoPoint
  deriving DecidableEq, Repr

/-- The columns an update sets.  A column is left alone when its field is
`none`, and set to `NULL` by `some none`. -/
structure RideUpdate where
  status : RideStatus
  cancellationReason : Option (Option String)
  driverId : Option String
  fare : Option (Option Rat)
  distanceKm : Option (Option Rat)
  otp : Option (Option String)
  deriving DecidableEq, Repr

namespace TripDb

def empty : TripDb := ⟨[], [], [], 0⟩

/-! ## Statements -/

/-- `ride.findUnique` by id. -/
def findRide (db : TripDb) (id : String) : Option RideRow :=
  db.rides.find? fun row => row.id = id

/-- `ride.create` with status REQUESTED. -/
def createRide (db : TripDb) (input : CreateRideInput) : Except PrismaError (RideRow × TripDb) :=
  if (db.findRide input.id).isSome then .error .uniqueConstraint
  else
    let row : RideRow :=
      { id := input.id, riderId := input.riderId, driverId := none, pickup := input.pickup
        destination := input.destination, status := .requested, cancellationReason := none
        otp := none, fare := none, distanceKm := none, createdAt := db.now, updatedAt := db.now }
    .ok (row, { db with rides := db.rides ++ [row] })

end TripDb

/-- The row after an update at time `now`. -/
def RideUpdate.apply (data : RideUpdate) (now : Nat) (row : RideRow) : RideRow :=
  { row with
    status := data.status
    cancellationReason := data.cancellationReason.getD row.cancellationReason
    driverId := data.driverId.or row.driverId
    fare := data.fare.getD row.fare
    distanceKm := data.distanceKm.getD row.distanceKm
    otp := data.otp.getD row.otp
    updatedAt := now }

namespace TripDb

/-- `ride.update` by id. -/
def updateRide (db : TripDb) (id : String) (data : RideUpdate) :
    Except PrismaError (RideRow × TripDb) :=
  match db.findRide id with
  | none => .error .recordNotFound
  | some row =>
      .ok (data.apply db.now row,
        { db with rides := db.rides.map fun r => if r.id = id then data.apply db.now r else r })

/-- `tripEvent.create`. -/
def createTripEvent (db : TripDb) (event : TripEventRow) : TripDb :=
  { db with tripEvents := db.tripEvents ++ [event] }

/-- The unique key `(event_id, consumer_name)` is taken. -/
def processed (db : TripDb) (key : ProcessedEventRow) : Bool :=
  db.processedEvents.contains key

/-- `processedEvent.create`. -/
def createProcessedEvent (db : TripDb) (key : ProcessedEventRow) : Except PrismaError TripDb :=
  if db.processed key then .error .uniqueConstraint
  else .ok { db with processedEvents := db.processedEvents ++ [key] }

/-! ## What the statements do to a lookup -/

theorem findRide_id {db : TripDb} {id : String} {row : RideRow}
    (h : db.findRide id = some row) : row.id = id := by
  simpa using List.find?_some h

@[simp] theorem findRide_createTripEvent (db : TripDb) (event : TripEventRow) (id : String) :
    (db.createTripEvent event).findRide id = db.findRide id := rfl

theorem findRide_createProcessedEvent {db db' : TripDb} {key : ProcessedEventRow}
    (h : db.createProcessedEvent key = .ok db') (id : String) :
    db'.findRide id = db.findRide id := by
  unfold createProcessedEvent at h
  split at h
  · cases h
  · cases h
    rfl

@[simp] theorem apply_id (data : RideUpdate) (now : Nat) (row : RideRow) :
    (data.apply now row).id = row.id := rfl

@[simp] theorem apply_status (data : RideUpdate) (now : Nat) (row : RideRow) :
    (data.apply now row).status = data.status := rfl

theorem find?_map_update (rides : List RideRow) (id id' : String) (f : RideRow → RideRow)
    (hf : ∀ r, (f r).id = r.id) :
    (rides.map fun r => if r.id = id then f r else r).find? (fun r => r.id = id') =
      (rides.find? fun r => r.id = id').map fun r => if id' = id then f r else r := by
  have hid : ∀ r : RideRow, (if r.id = id then f r else r).id = r.id := by
    intro r
    split <;> simp [hf]
  rw [List.find?_map]
  have hfun : ((fun r : RideRow => decide (r.id = id')) ∘ fun r => if r.id = id then f r else r) =
      fun r => decide (r.id = id') := by
    funext r
    simp only [Function.comp, hid]
  rw [hfun]
  cases h : rides.find? fun r => r.id = id' with
  | none => rfl
  | some r =>
      have hr : r.id = id' := by simpa using List.find?_some h
      rw [Option.map_some, Option.map_some, hr]

/-- A successful update rewrites the row it names and no other. -/
theorem updateRide_ok {db db' : TripDb} {id : String} {data : RideUpdate} {row' : RideRow}
    (h : db.updateRide id data = .ok (row', db')) :
    ∃ row, db.findRide id = some row ∧ row' = data.apply db.now row ∧
      (∀ id', db'.findRide id' = if id' = id then some row' else db.findRide id') ∧
      db'.tripEvents = db.tripEvents ∧ db'.processedEvents = db.processedEvents ∧
      db'.now = db.now := by
  unfold updateRide at h
  split at h
  · cases h
  · next row hrow =>
    cases h
    refine ⟨row, hrow, rfl, fun id' => ?_, rfl, rfl, rfl⟩
    have hf := find?_map_update db.rides id id' (data.apply db.now) fun r => rfl
    by_cases hid : id' = id
    · subst hid
      simp only [if_true] at hf ⊢
      exact hf.trans (by rw [show db.rides.find? _ = _ from hrow]; rfl)
    · simp only [hid, if_false, Option.map_id'] at hf ⊢
      exact hf

/-- A successful insert adds the row and keeps every other. -/
theorem createRide_ok {db db' : TripDb} {input : CreateRideInput} {row : RideRow}
    (h : db.createRide input = .ok (row, db')) :
    db.findRide input.id = none ∧ row.id = input.id ∧ row.status = .requested ∧
      row.driverId = none ∧
      (∀ id, db'.findRide id = if id = input.id then some row else db.findRide id) ∧
      db'.tripEvents = db.tripEvents ∧ db'.processedEvents = db.processedEvents ∧
      db'.now = db.now := by
  unfold createRide at h
  split at h
  · cases h
  · next hnone =>
    cases h
    rw [Bool.not_eq_true, Option.isSome_eq_false_iff, Option.isNone_iff_eq_none] at hnone
    refine ⟨hnone, rfl, rfl, rfl, fun id => ?_, rfl, rfl, rfl⟩
    unfold findRide at hnone ⊢
    rw [List.find?_append]
    by_cases hid : id = input.id
    · subst hid
      simp [hnone]
    · simp only [hid, if_false]
      cases hfind : db.rides.find? fun row => row.id = id with
      | some row => rfl
      | none => simp [Ne.symm hid]

end TripDb

end TripService

end RydTrip
