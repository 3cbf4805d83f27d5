import Mathlib.Data.Rat.Defs
import RydTrip.Process.Pool
import RydTrip.EventSchema

/-!
# The driver geo index

`libraries/redis-client/src/driver-geo-index.ts` over a Redis server.  A
pipeline is a list of separate commands whose errors are collected, not thrown.
The set `drivers:geo` has no expiry of its own.  A `driver:{id}:state` hash is
the heartbeat, and it is gone once its time has run out.

Distances are not computed: the oracle of a search lists the drivers in range,
nearest first, with their distances, and the server keeps the members of the set
among them.
-/

namespace RydTrip

open Process

structure NearbyDriver where
  driverId : String
  lat : Rat
  lng : Rat
  distanceKm : Rat
  deriving DecidableEq, Repr

structure OnlineDriver where
  driverId : String
  lat : Rat
  lng : Rat
  deriving DecidableEq, Repr

namespace GeoIndex

/-! ## Commands -/

/-- One Redis command. -/
inductive Cmd where
  | geoadd (lng lat : Rat) (driverId : String)
  | hset (driverId : String) (lat lng : Rat) (updatedAt : Nat)
  | expire (driverId : String) (seconds : Nat)
  | exists (driverId : String)
  | geosearch (lng lat radiusKm : Rat) (limit : Nat)
  | zrem (driverIds : List String)
  | zrange (start stop : Int)
  | geopos (driverIds : List String)
  deriving DecidableEq, Repr

/-- What it returns. -/
@[reducible] def Value : Cmd → Type
  | .geoadd .. => Nat
  | .hset .. => Nat
  | .expire .. => Nat
  | .exists _ => Nat
  | .geosearch .. => List NearbyDriver
  | .zrem _ => Nat
  | .zrange .. => List String
  | .geopos _ => List (Option GeoPoint)

/-- How it ends. -/
@[reducible] def Reply (c : Cmd) : Type := Except String (Value c)

abbrev GeoProg (α : Type) : Type := Prog Cmd Reply String α

/-- Await a call that rejects with an error. -/
def orThrow {α : Type} : Except String α → GeoProg α
  | .ok a => pure a
  | .error message => throw message

/-! ## `DriverGeoIndex` -/

namespace DriverGeoIndex

def upsertLocation (driverId : String) (lat lng : Rat) (heartbeatTtlSeconds updatedAt : Nat) :
    GeoProg Unit := do
  let _ ← Prog.perform (Cmd.geoadd lng lat driverId)
  let _ ← Prog.perform (Cmd.hset driverId lat lng updatedAt)
  let _ ← Prog.perform (Cmd.expire driverId heartbeatTtlSeconds)

def isStale (driverId : String) : GeoProg Bool := do
  let reply : Except String Nat ← Prog.perform (Cmd.exists driverId)
  let found ← orThrow reply
  return found = 0

/-- The pipeline of `EXISTS` commands. -/
def stalenessPipeline : List String → GeoProg (List (Except String Nat))
  | [] => pure []
  | driverId :: driverIds => do
      let result : Except String Nat ← Prog.perform (Cmd.exists driverId)
      let results ← stalenessPipeline driverIds
      return result :: results

/-- `existsResult && !existsResult[0] ? existsResult[1] : 0` -/
def existsOrZero : Except String Nat → Nat
  | .ok found => found
  | .error _ => 0

/-- The lazy cleanup. -/
def evict (staleDriverIds : List String) : GeoProg Unit :=
  if staleDriverIds.length > 0 then do
    let reply : Except String Nat ← Prog.perform (Cmd.zrem staleDriverIds)
    let _ ← orThrow reply
  else pure ()

def findNearby (lat lng radiusKm : Rat) (limit : Nat) : GeoProg (List NearbyDriver) := do
  let reply : Except String (List NearbyDriver) ←
    Prog.perform (Cmd.geosearch lng lat radiusKm limit)
  let raw ← orThrow reply
  if raw.length = 0 then return []
  else
    let results ← stalenessPipeline (raw.map (·.driverId))
    let checked := raw.zip results
    let stale := checked.filter fun (_, result) => existsOrZero result = 0
    let live := checked.filter fun (_, result) => existsOrZero result ≠ 0
    evict (stale.map (·.1.driverId))
    return live.map (·.1)

def findAnyOnline (limit : Nat) : GeoProg (List OnlineDriver) := do
  let reply : Except String (List String) ← Prog.perform (Cmd.zrange 0 (limit - 1))
  let memberIds ← orThrow reply
  if memberIds.length = 0 then return []
  else
    let reply : Except String (List (Option GeoPoint)) ← Prog.perform (Cmd.geopos memberIds)
    let positions ← orThrow reply
    let results ← stalenessPipeline memberIds
    let checked := memberIds.zip (positions.zip results)
    let stale := checked.filter fun (_, pos, result) => existsOrZero result = 0 ∨ pos = none
    let live := checked.filterMap fun (driverId, pos, result) =>
      if existsOrZero result = 0 then none
      else pos.map fun p => (⟨driverId, p.lat, p.lng⟩ : OnlineDriver)
    evict (stale.map (·.1))
    return live

end DriverGeoIndex

/-! ## The server -/

/-- A `driver:{id}:state` hash and the time at which it expires, if any. -/
structure StateKey where
  lat : Rat
  lng : Rat
  updatedAt : Nat
  expiresAt : Option Nat
  deriving DecidableEq, Repr

structure GeoHost where
  /-- `drivers:geo` -/
  geo : String → Option GeoPoint
  state : String → Option StateKey
  now : Nat

namespace GeoHost

/-- The key if its time has not run out. -/
def lookup (w : GeoHost) (driverId : String) : Option StateKey :=
  (w.state driverId).filter fun key => key.expiresAt.all (w.now < ·)

def geoadd (w : GeoHost) (driverId : String) (point : GeoPoint) : GeoHost :=
  { w with geo := Function.update w.geo driverId (some point) }

def setState (w : GeoHost) (driverId : String) (key : Option StateKey) : GeoHost :=
  { w with state := Function.update w.state driverId key }

/-- `HSET` keeps the expiry of a key that is alive. -/
def hset (w : GeoHost) (driverId : String) (lat lng : Rat) (updatedAt : Nat) : GeoHost :=
  w.setState driverId (some ⟨lat, lng, updatedAt, (w.lookup driverId).bind (·.expiresAt)⟩)

/-- `EXPIRE` with no time left deletes the key. -/
def expire (w : GeoHost) (driverId : String) (seconds : Nat) : Nat × GeoHost :=
  match w.lookup driverId with
  | none => (0, w)
  | some key =>
      (1, w.setState driverId
        (if seconds = 0 then none else some { key with expiresAt := some (w.now + seconds) }))

def zrem (w : GeoHost) (driverIds : List String) : GeoHost :=
  { w with geo := fun driverId => if driverId ∈ driverIds then none else w.geo driverId }

/-- The members among the drivers in range. -/
def search (w : GeoHost) (inRange : List (String × Rat)) : List NearbyDriver :=
  inRange.filterMap fun (driverId, distanceKm) =>
    (w.geo driverId).map fun p => ⟨driverId, p.lat, p.lng, distanceKm⟩

/-- The number of elements from the start up to the index `stop`, which counts
from the end if it is negative. -/
def rangeLength (length : Nat) (stop : Int) : Nat :=
  (if stop < 0 then length + stop + 1 else stop + 1).toNat

end GeoHost

structure Oracle where
  fault : Fault := .none
  /-- The drivers in range, or all members in the order of the set. -/
  order : List (String × Rat) := []

/-- A command that is carried out. -/
def GeoHost.answer (o : Oracle) (w : GeoHost) : (c : Cmd) → Value c × GeoHost
  | .geoadd lng lat driverId =>
      (if (w.geo driverId).isSome then 0 else 1, w.geoadd driverId ⟨lat, lng⟩)
  | .hset driverId lat lng updatedAt =>
      (if (w.lookup driverId).isSome then 0 else 3, w.hset driverId lat lng updatedAt)
  | .expire driverId seconds => w.expire driverId seconds
  | .exists driverId => (if (w.lookup driverId).isSome then 1 else 0, w)
  | .geosearch _ _ _ limit => ((w.search o.order).take limit, w)
  | .zrem driverIds => ((driverIds.filter fun d => (w.geo d).isSome).length, w.zrem driverIds)
  | .zrange start stop =>
      let members := (w.search o.order).map (·.driverId)
      ((members.take (GeoHost.rangeLength members.length stop)).drop start.toNat, w)
  | .geopos driverIds => (driverIds.map w.geo, w)

def GeoHost.exec (o : Oracle) (w : GeoHost) (c : Cmd) : Reply c × GeoHost :=
  o.fault.settle w (w.answer o c).1 (w.answer o c).2

inductive Call where
  | upsertLocation (driverId : String) (lat lng : Rat) (heartbeatTtlSeconds : Nat)
  | isStale (driverId : String)
  | findNearby (lat lng radiusKm : Rat) (limit : Nat)
  | findAnyOnline (limit : Nat)
  deriving DecidableEq, Repr

inductive Response where
  | done
  | stale (b : Bool)
  | nearby (drivers : List NearbyDriver)
  | online (drivers : List OnlineDriver)
  deriving DecidableEq, Repr

/-- The program of a call that starts at the time `now`. -/
def Call.prog (now : Nat) : Call → GeoProg Response
  | .upsertLocation driverId lat lng heartbeatTtlSeconds => do
      DriverGeoIndex.upsertLocation driverId lat lng heartbeatTtlSeconds now
      return .done
  | .isStale driverId => do return .stale (← DriverGeoIndex.isStale driverId)
  | .findNearby lat lng radiusKm limit => do
      return .nearby (← DriverGeoIndex.findNearby lat lng radiusKm limit)
  | .findAnyOnline limit => do return .online (← DriverGeoIndex.findAnyOnline limit)

/-- Any number of clients of the index, and the clock of the server. -/
def machine : Machine GeoHost Call Cmd Reply String Response Oracle Unit where
  exec o c w := some (w.exec o c)
  start call w := some (call.prog w.now, w)
  env _ w := some { w with now := w.now + 1 }

abbrev GeoPool : Type := Pool GeoHost Call Cmd Reply String Response

abbrev GeoAction : Type := Action Call Oracle Unit

abbrev GeoLog : Type := Log Cmd Reply

/-- No call has started. -/
def initial (w : GeoHost) : GeoPool := ⟨w, fun _ => none⟩

end GeoIndex

end RydTrip
