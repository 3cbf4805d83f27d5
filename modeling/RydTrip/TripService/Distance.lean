import RydTrip.Json.Double
import RydTrip.TripService.Service

/-!
# The great-circle distance

`haversineKm` of `services/trip-service/src/trips/trips.service.ts`, in double
precision.  A number is a rational, or `none` when it is not finite.  Infinity
and `NaN` need no distinction, since an angle that overflows has no sine and all
that is made from `NaN` is `NaN`.  What the language leaves to the engine, the
values of `Math` and of `**`, is a parameter.

Rounding can make the haversine of two points that are almost antipodal greater
than one.  Its root has no arcsine then, and the distance is `NaN`.
-/

namespace RydTrip

namespace TripService

/-- The double next to a number, unless it overflows. -/
def toDouble (x : Rat) : Option Rat :=
  if Json.nearest |x| < 2 ^ 1024 then
    some (if x < 0 then -Json.nearest |x| else Json.nearest |x|)
  else none

/-- The values of `Math` at finite numbers, where they are finite. -/
structure JsMath where
  sin : Rat → Rat
  cos : Rat → Rat
  /-- From -1 to 1. -/
  asin : Rat → Rat
  /-- From 0 on. -/
  sqrt : Rat → Rat
  /-- `x ** 2` -/
  square : Rat → Rat

namespace JsMath

/-- `Math.PI` -/
def PI : Rat := 884279719003555 / 2 ^ 48

/-- `Math.asin` -/
def arcsine (math : JsMath) (x : Rat) : Option Rat :=
  if |x| ≤ 1 then some (math.asin x) else none

/-- `Math.sqrt` -/
def root (math : JsMath) (x : Rat) : Option Rat :=
  if 0 ≤ x then some (math.sqrt x) else none

end JsMath

/-- `EARTH_RADIUS_KM` -/
def earthRadiusKm : Rat := 6371

namespace TripsService

def toRad (deg : Rat) : Option Rat := do
  let product ← toDouble (deg * JsMath.PI)
  toDouble (product / 180)

/-- The `h` of `haversineKm`. -/
def haversine (math : JsMath) (a b : GeoPoint) : Option Rat := do
  let dLat ← toRad (← toDouble (b.lat - a.lat))
  let dLng ← toRad (← toDouble (b.lng - a.lng))
  let lat1 ← toRad a.lat
  let lat2 ← toRad b.lat
  let sinLat := math.sin (← toDouble (dLat / 2))
  let sinLng := math.sin (← toDouble (dLng / 2))
  let product ← toDouble (math.cos lat1 * math.cos lat2)
  toDouble (math.square sinLat + (← toDouble (product * math.square sinLng)))

def haversineKm (math : JsMath) (a b : GeoPoint) : Option Rat := do
  let h ← haversine math a b
  let angle ← math.arcsine (← math.root h)
  toDouble (2 * earthRadiusKm * angle)

/-- Coordinates whose difference overflows have no distance. -/
example (math : JsMath) : haversineKm math ⟨-10 ^ 308, 0⟩ ⟨10 ^ 308, 0⟩ = none := by
  have hoverflow : toDouble (10 ^ 308 - -10 ^ 308) = none := by decide +kernel
  simp only [haversineKm, haversine, hoverflow]
  rfl

/-- A haversine whose root is greater than one has no distance. -/
theorem haversineKm_eq_none {math : JsMath} {a b : GeoPoint} {h : Rat}
    (hh : haversine math a b = some h) (hroot : 1 < math.sqrt h) :
    haversineKm math a b = none := by
  have harcsine : math.arcsine (math.sqrt h) = none :=
    if_neg (not_le.mpr (hroot.trans_le (le_abs_self _)))
  unfold haversineKm JsMath.root
  rw [hh]
  by_cases hpos : 0 ≤ h
  · simp only [if_pos hpos, Option.bind_eq_bind, Option.bind_some, harcsine, Option.bind_none]
  · simp only [if_neg hpos, Option.bind_eq_bind, Option.bind_some, Option.bind_none]

end TripsService

/-! ### Two points -/

/-- Latitude 57.59830093383789, longitude 0. -/
def northPoint : GeoPoint := ⟨60396196 / 2 ^ 20, 0⟩

/-- Latitude -57.59830188751221, longitude 180. -/
def southPoint : GeoPoint := ⟨-60396197 / 2 ^ 20, 180⟩

/-- What V8 computes on the way from the one to the other, and from zero. -/
def engineMath : JsMath where
  sin x :=
    if x = 884279719003555 / 2 ^ 49 then 1
    else if x = -1131844661922529 / 2 ^ 50 then -7604886777659397 / 2 ^ 53
    else 0
  cos x :=
    if x = 0 then 1
    else if x = 4527378610209455 / 2 ^ 52 then 4826524228110391 / 2 ^ 53
    else if x = -4527378685170775 / 2 ^ 52 then 4826524101528901 / 2 ^ 53
    else 0
  asin _ := 0
  sqrt x := if x = 2251799813685249 / 2 ^ 51 then 4503599627370497 / 2 ^ 52 else 0
  square x :=
    if x = 1 then 1
    else if x = -7604886777659397 / 2 ^ 53 then 401306091836603 / 2 ^ 49
    else 0

/-- The points are so close to antipodal that their distance is `NaN`. -/
example : TripsService.haversineKm engineMath northPoint southPoint = none := by
  have hh : TripsService.haversine engineMath northPoint southPoint = some (1 + 1 / 2 ^ 51) := by
    decide +kernel
  exact TripsService.haversineKm_eq_none hh (by decide +kernel)

end TripService

end RydTrip
