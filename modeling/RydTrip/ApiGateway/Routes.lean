import RydTrip.Http.Router

/-!
# What the gateway and the services route

`services/api-gateway/src/proxy/routes.ts`, and the route tables of the
controllers behind the gateway.  Paths are cut into segments, so a regular
expression such as `/^\/drivers\/[^/]+\/location$/` is a list of pieces, and a
prefix is the segments it consists of.
-/

namespace RydTrip

namespace ApiGateway

open Http

/-! ## The proxy -/

/-- The services that have a route, each under its own URL. -/
inductive Service where
  | location | rider | driver | trip
  deriving DecidableEq, Repr

structure ProxyRoute where
  pathPrefix : List String
  target : Service
  pattern : Option Pattern := none

/-- `DRIVER_LOCATION_PATTERN` -/
def driverLocationPattern : Pattern := [.lit "drivers", .any, .lit "location"]

def getProxyRoutes : List ProxyRoute :=
  [{ pathPrefix := ["drivers", "*", "location"], target := .location
     pattern := some driverLocationPattern },
    { pathPrefix := ["drivers", "nearby"], target := .location },
    { pathPrefix := ["drivers", "any-online"], target := .location },
    { pathPrefix := ["riders"], target := .rider },
    { pathPrefix := ["rides"], target := .rider },
    { pathPrefix := ["drivers"], target := .driver },
    { pathPrefix := ["trips"], target := .trip }]

/-- `route.pattern?.test(path)` -/
def ProxyRoute.test (route : ProxyRoute) (path : List Segment) : Bool :=
  route.pattern.any fun pattern => (pattern.match? exact path).isSome

/-- `path === route.prefix || path.startsWith(route.prefix + '/')` -/
def ProxyRoute.hasPrefix (route : ProxyRoute) (path : List Segment) : Bool :=
  (route.pathPrefix.map String.toList).isPrefixOf path

def matchRoute (path : List Segment) (routes : List ProxyRoute) : Option ProxyRoute :=
  (routes.find? fun route => route.test path).or (routes.find? fun route => route.hasPrefix path)

/-! ## The controllers -/

/-- The methods of the controllers. -/
inductive Handler where
  | updateLocation | findNearby | findAnyOnline
  | createRider | loginRider | findRider | findRiderContact | updateRider
  | createRide | cancelRide
  | createDriver | loginDriver | findDriver | findVehicleType | findDriverContact
  | updateDriverStatus | updateDriver
  | findActiveForDriver | findHistoryForRider | findHistoryForDriver | findTrip
  | accept | decline | driverArrived | start | getOtp | complete | cancel
  deriving DecidableEq, Repr

/-- `locations.controller.ts` -/
def locationRoutes : List (Route Handler) :=
  [⟨"POST", [.lit "drivers", .any, .lit "location"], .updateLocation⟩,
    ⟨"GET", [.lit "drivers", .lit "nearby"], .findNearby⟩,
    ⟨"GET", [.lit "drivers", .lit "any-online"], .findAnyOnline⟩]

/-- `riders.controller.ts` and `rides.controller.ts` -/
def riderRoutes : List (Route Handler) :=
  [⟨"POST", [.lit "riders"], .createRider⟩,
    ⟨"POST", [.lit "riders", .lit "login"], .loginRider⟩,
    ⟨"GET", [.lit "riders", .any], .findRider⟩,
    ⟨"GET", [.lit "riders", .any, .lit "contact"], .findRiderContact⟩,
    ⟨"PATCH", [.lit "riders", .any], .updateRider⟩,
    ⟨"POST", [.lit "rides"], .createRide⟩,
    ⟨"POST", [.lit "rides", .any, .lit "cancel"], .cancelRide⟩]

/-- `drivers.controller.ts` -/
def driverRoutes : List (Route Handler) :=
  [⟨"POST", [.lit "drivers"], .createDriver⟩,
    ⟨"POST", [.lit "drivers", .lit "login"], .loginDriver⟩,
    ⟨"GET", [.lit "drivers", .any], .findDriver⟩,
    ⟨"GET", [.lit "drivers", .any, .lit "vehicle"], .findVehicleType⟩,
    ⟨"GET", [.lit "drivers", .any, .lit "contact"], .findDriverContact⟩,
    ⟨"PATCH", [.lit "drivers", .any, .lit "status"], .updateDriverStatus⟩,
    ⟨"PATCH", [.lit "drivers", .any], .updateDriver⟩]

/-- `trips.controller.ts` -/
def tripRoutes : List (Route Handler) :=
  [⟨"GET", [.lit "trips", .lit "driver", .any, .lit "active"], .findActiveForDriver⟩,
    ⟨"GET", [.lit "trips", .lit "rider", .any, .lit "history"], .findHistoryForRider⟩,
    ⟨"GET", [.lit "trips", .lit "driver", .any, .lit "history"], .findHistoryForDriver⟩,
    ⟨"GET", [.lit "trips", .any], .findTrip⟩,
    ⟨"POST", [.lit "trips", .any, .lit "accept"], .accept⟩,
    ⟨"POST", [.lit "trips", .any, .lit "decline"], .decline⟩,
    ⟨"POST", [.lit "trips", .any, .lit "driver-arrived"], .driverArrived⟩,
    ⟨"POST", [.lit "trips", .any, .lit "start"], .start⟩,
    ⟨"GET", [.lit "trips", .any, .lit "otp"], .getOtp⟩,
    ⟨"POST", [.lit "trips", .any, .lit "complete"], .complete⟩,
    ⟨"POST", [.lit "trips", .any, .lit "cancel"], .cancel⟩]

def upstreamRoutes : Service → List (Route Handler)
  | .location => locationRoutes
  | .rider => riderRoutes
  | .driver => driverRoutes
  | .trip => tripRoutes

end ApiGateway

end RydTrip
