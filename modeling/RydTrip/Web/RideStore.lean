import RydTrip.EventSchema

/-!
# The ride store of the web app

The store holds the active ride and replaces it as a whole.  An action does not
say which ride it is meant for: it works on the ride that is active when it
runs.  The lemmas below say what each action does to the part of the ride the
rider sees, and when it changes nothing there.
-/

namespace RydTrip

namespace Web

/-! ## Rides -/

inductive RideStatus where
  | idle
  | requested
  | matching
  | matched
  | driverArriving
  | driverArrived
  | inProgress
  | completed
  | cancelled
  deriving DecidableEq, Repr

structure LocationPoint where
  latitude : ℚ
  longitude : ℚ
  address : String
  name : Option String
  deriving DecidableEq, Repr

structure DriverInfo where
  id : String
  name : String
  rating : Option ℚ
  totalTrips : Option ℚ
  vehicleModel : String
  vehicleColor : Option String
  licensePlate : Option String
  phone : String
  currentLocation : LocationPoint
  deriving DecidableEq, Repr

/-- A ride, with the fields that the store and the rider's page read or write. -/
structure Ride where
  id : String
  driver : Option DriverInfo
  pickup : LocationPoint
  status : RideStatus
  updatedAt : String
  otp : Option String
  deriving DecidableEq, Repr

namespace Ride

/-- The ride that `createRide` returns. -/
def create (rideId : String) (pickup : LocationPoint) (now : String) : Ride where
  id := rideId
  driver := none
  pickup := pickup
  status := .requested
  updatedAt := now
  otp := none

end Ride

/-! ## The store -/

structure RideStore where
  activeRide : Option Ride
  driverLocation : Option LocationPoint
  history : List Ride
  deriving DecidableEq, Repr

namespace RideStore

def new : RideStore where
  activeRide := none
  driverLocation := none
  history := []

def setActiveRide (store : RideStore) (ride : Option Ride) : RideStore :=
  { store with
    activeRide := ride
    driverLocation := (ride.bind Ride.driver).map DriverInfo.currentLocation }

def updateRideStatus (store : RideStore) (status : RideStatus) (now : String) : RideStore :=
  match store.activeRide with
  | none => store
  | some current =>
      let updated := { current with status := status, updatedAt := now }
      { store with
        activeRide := some updated
        history := if status = .completed then updated :: store.history else store.history }

def setOtp (store : RideStore) (otp : String) : RideStore :=
  match store.activeRide with
  | none => store
  | some current => { store with activeRide := some { current with otp := some otp } }

def assignDriver (store : RideStore) (driver : DriverInfo) (now : String) : RideStore :=
  match store.activeRide with
  | none => store
  | some current =>
      { store with
        activeRide :=
          some { current with driver := some driver, status := .matched, updatedAt := now }
        driverLocation := some driver.currentLocation }

def updateDriverLocation (store : RideStore) (loc : LocationPoint) : RideStore :=
  { store with driverLocation := some loc }

def cancelActiveRide (store : RideStore) (now : String) : RideStore :=
  match store.activeRide with
  | none => store
  | some current =>
      let cancelled := { current with status := .cancelled, updatedAt := now }
      { store with activeRide := some cancelled, history := cancelled :: store.history }

def resetRide (store : RideStore) : RideStore :=
  { store with activeRide := none, driverLocation := none }

end RideStore

/-! ## What the rider sees -/

/-- The part of a ride that the rider's view follows. -/
structure RideView where
  id : String
  status : RideStatus
  driver : Option DriverInfo
  otp : Option String
  deriving DecidableEq, Repr

def Ride.view (ride : Ride) : RideView where
  id := ride.id
  status := ride.status
  driver := ride.driver
  otp := ride.otp

namespace RideStore

def view (store : RideStore) : Option RideView := store.activeRide.map Ride.view

/-- The active ride, if there is one, is not `rideId`. -/
def Foreign (store : RideStore) (rideId : String) : Prop :=
  store.activeRide.map Ride.id ≠ some rideId

instance (store : RideStore) (rideId : String) : Decidable (store.Foreign rideId) :=
  inferInstanceAs (Decidable (_ ≠ _))

theorem view_updateRideStatus (store : RideStore) (status : RideStatus) (now : String) :
    (store.updateRideStatus status now).view =
      store.view.map fun view => { view with status := status } := by
  unfold updateRideStatus view
  cases h : store.activeRide with
  | none => rw [h]; rfl
  | some current => rfl

theorem view_assignDriver (store : RideStore) (driver : DriverInfo) (now : String) :
    (store.assignDriver driver now).view =
      store.view.map fun view => { view with driver := some driver, status := .matched } := by
  unfold assignDriver view
  cases h : store.activeRide with
  | none => rw [h]; rfl
  | some current => rfl

/-- A status is not seen exactly if it is the one the active ride has. -/
theorem view_updateRideStatus_eq_iff {store : RideStore} {status : RideStatus} {now : String} :
    (store.updateRideStatus status now).view = store.view ↔
      ∀ ride, store.activeRide = some ride → ride.status = status := by
  rw [view_updateRideStatus, view]
  cases store.activeRide with
  | none => simp
  | some current => simp [Ride.view, eq_comm]

/-- A driver is not seen exactly if the active ride has been matched to it. -/
theorem view_assignDriver_eq_iff {store : RideStore} {driver : DriverInfo} {now : String} :
    (store.assignDriver driver now).view = store.view ↔
      ∀ ride, store.activeRide = some ride →
        ride.driver = some driver ∧ ride.status = .matched := by
  rw [view_assignDriver, view]
  cases store.activeRide with
  | none => simp
  | some current => simp [Ride.view, eq_comm, and_comm]

end RideStore

end Web

end RydTrip
