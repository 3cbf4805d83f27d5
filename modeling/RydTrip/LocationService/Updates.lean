import RydTrip.DispatchService.RedisDomain

/-!
# Location updates

`services/location-service/src/locations`: an update goes to the geo index and,
when that resolves, to Kafka.  The pipeline of the index resolves with a list of
errors and results that nobody reads.  So an update is acknowledged and
announced whatever became of its commands, and one of them is bound to fail on
the latitudes that the DTO takes and the projection of Redis does not have.
-/

namespace RydTrip

namespace Location

open Process

/-- The `driver.location.updated` event of an update.  Its key is the driver. -/
structure LocationUpdated where
  driverId : String
  lat : Rat
  lng : Rat
  correlationId : String
  deriving DecidableEq, Repr

/-- `UpdateLocationDto` -/
structure UpdateLocationDto where
  lat : Rat
  lng : Rat
  minLat : -90 ≤ lat
  maxLat : lat ≤ 90
  minLng : -180 ≤ lng
  maxLng : lng ≤ 180

def UpdateLocationDto.point (dto : UpdateLocationDto) : GeoPoint := ⟨dto.lat, dto.lng⟩

/-- One await of the location service. -/
inductive Cmd where
  | redis (c : GeoIndex.Cmd)
  | publish (event : LocationUpdated)
  deriving DecidableEq, Repr

/-- How it ends. -/
@[reducible] def Reply : Cmd → Type
  | .redis c => GeoIndex.Reply c
  | .publish _ => Except String Unit

abbrev LocationProg (α : Type) : Type := Prog Cmd Reply String α

/-! ## `LocationsService` -/

namespace LocationsService

/-- `Number(process.env.DRIVER_HEARTBEAT_TTL_SECONDS) || DEFAULT_HEARTBEAT_TTL_SECONDS`.
A setting below zero, with which `EXPIRE` deletes the key, and one that is no
whole number, which `EXPIRE` refuses, are left out. -/
def heartbeatTtlSeconds (setting : Option Nat) : Nat :=
  match setting with
  | some seconds => if seconds = 0 then 30 else seconds
  | none => 30

/-- `RedisService.upsertLocation` -/
def upsertLocation (driverId : String) (lat lng : Rat) (seconds updatedAt : Nat) :
    LocationProg Unit :=
  (GeoIndex.DriverGeoIndex.upsertLocation driverId lat lng seconds updatedAt).expand fun c =>
    Prog.perform (Cmd.redis c)

def publish (event : LocationUpdated) : LocationProg Unit := do
  let reply : Except String Unit ← Prog.perform (Cmd.publish event)
  match reply with
  | .ok () => pure ()
  | .error message => throw message

def updateLocation (setting : Option Nat) (now : Nat) (driverId : String) (lat lng : Rat)
    (correlationId : String) : LocationProg Unit := do
  upsertLocation driverId lat lng (heartbeatTtlSeconds setting) now
  publish ⟨driverId, lat, lng, correlationId⟩

end LocationsService

/-! ## Redis and Kafka -/

/-- The server and the events that are published, newest first. -/
structure LocationHost where
  redis : GeoIndex.GeoHost
  published : List LocationUpdated

/-- What goes wrong with the commands of one update. -/
structure Faults where
  geoadd : Fault := .none
  hset : Fault := .none
  expire : Fault := .none
  kafka : Fault := .none

/-- `GEOADD` takes the points that `GEOSEARCH` takes for a centre. -/
def Faults.redis (faults : Faults) : GeoIndex.Cmd → Fault
  | .geoadd lng lat _ =>
      if Dispatch.InDomain ⟨lat, lng⟩ then faults.geoadd
      else .refused "ERR invalid longitude,latitude pair"
  | .hset .. => faults.hset
  | .expire .. => faults.expire
  | _ => .none

def answer (faults : Faults) (c : Cmd) (w : LocationHost) : Reply c × LocationHost :=
  match c with
  | .redis c =>
      let (reply, redis) := w.redis.exec ⟨faults.redis c, []⟩ c
      (reply, { w with redis := redis })
  | .publish event =>
      faults.kafka.settle w () { w with published := event :: w.published }

/-! ## Updates that take effect -/

/-- The driver is in the set at the point, and so is its heartbeat, with an
expiry. -/
structure Located (w : GeoIndex.GeoHost) (driverId : String) (point : GeoPoint) : Prop where
  geo : w.geo driverId = some point
  heartbeat : ∃ key, w.lookup driverId = some key ∧ key.lat = point.lat ∧ key.lng = point.lng ∧
    key.expiresAt.isSome

/-- One of the three commands fails. -/
def Fails (faults : Faults) (driverId : String) (dto : UpdateLocationDto) : Prop :=
  faults.redis (.geoadd dto.lng dto.lat driverId) ≠ .none ∨ faults.hset ≠ .none ∨
    faults.expire ≠ .none

section Updates

variable {setting : Option Nat} {faults : Faults} {w : LocationHost}
    {driverId correlationId : String}
  {dto : UpdateLocationDto}

/-- The server after the three commands. -/
def afterUpsert (setting : Option Nat) (faults : Faults) (w : GeoIndex.GeoHost) (driverId : String)
    (dto : UpdateLocationDto) : GeoIndex.GeoHost :=
  let w₁ := (w.exec ⟨faults.redis (.geoadd dto.lng dto.lat driverId), []⟩
    (.geoadd dto.lng dto.lat driverId)).2
  let w₂ := (w₁.exec ⟨faults.hset, []⟩ (.hset driverId dto.lat dto.lng w.now)).2
  (w₂.exec ⟨faults.expire, []⟩
    (.expire driverId (LocationsService.heartbeatTtlSeconds setting))).2

/-- Whatever the commands of the pipeline return, the event is published, and the
call ends as that ends. -/
theorem eval_updateLocation (setting : Option Nat) (faults : Faults) (w : LocationHost)
    (driverId correlationId : String) (dto : UpdateLocationDto) :
    (LocationsService.updateLocation setting w.redis.now driverId dto.lat dto.lng
        correlationId).eval (answer faults) w =
      faults.kafka.settle { w with redis := afterUpsert setting faults w.redis driverId dto } ()
        { redis := afterUpsert setting faults w.redis driverId dto
          published := ⟨driverId, dto.lat, dto.lng, correlationId⟩ :: w.published } := by
  obtain ⟨geoadd, hset, expire, kafka⟩ := faults
  cases kafka with
  | none => rfl
  | refused message => rfl
  | lost message => rfl

theorem heartbeatTtlSeconds_pos (setting : Option Nat) :
    0 < LocationsService.heartbeatTtlSeconds setting := by
  cases setting with
  | none => decide
  | some seconds =>
      show 0 < if seconds = 0 then 30 else seconds
      split
      · decide
      · omega

theorem lookup_setState_self (w : GeoIndex.GeoHost) (driverId : String)
    (key : Option GeoIndex.StateKey) :
    (w.setState driverId key).lookup driverId =
      key.filter fun k => k.expiresAt.all (w.now < ·) := by
  show Option.filter _ (Function.update w.state driverId key driverId) = _
  rw [Function.update_self]
  rfl

theorem lookup_hset (w : GeoIndex.GeoHost) (driverId : String) (lat lng : Rat) (updatedAt : Nat) :
    ∃ key, (w.hset driverId lat lng updatedAt).lookup driverId = some key ∧ key.lat = lat ∧
      key.lng = lng := by
  -- an expiry that is kept is the one of a key that is alive
  have halive : ((w.lookup driverId).bind (·.expiresAt)).all (w.now < ·) = true := by
    cases hkey : w.lookup driverId with
    | none => rfl
    | some key => exact (Option.filter_eq_some_iff.mp hkey).2
  refine ⟨⟨lat, lng, updatedAt, (w.lookup driverId).bind (·.expiresAt)⟩, ?_, rfl, rfl⟩
  unfold GeoIndex.GeoHost.hset
  rw [lookup_setState_self]
  exact Option.filter_eq_some_iff.mpr ⟨rfl, halive⟩

theorem lookup_expire {w : GeoIndex.GeoHost} {driverId : String} {key : GeoIndex.StateKey}
    {seconds : Nat} (hkey : w.lookup driverId = some key) (hpos : 0 < seconds) :
    (w.expire driverId seconds).2.lookup driverId =
      some { key with expiresAt := some (w.now + seconds) } := by
  have hlater : w.now < w.now + seconds := by omega
  unfold GeoIndex.GeoHost.expire
  rw [hkey]
  dsimp only
  rw [lookup_setState_self, if_neg (by omega)]
  exact Option.filter_eq_some_iff.mpr ⟨rfl, decide_eq_true hlater⟩

theorem geo_expire (w : GeoIndex.GeoHost) (driverId : String) (seconds : Nat) :
    (w.expire driverId seconds).2.geo = w.geo := by
  unfold GeoIndex.GeoHost.expire
  split
  · rfl
  · rfl

/-- If none of them fails, the commands do what they are for. -/
theorem located_afterUpsert (setting : Option Nat) (w : GeoIndex.GeoHost)
    (h : ¬ Fails faults driverId dto) :
    Located (afterUpsert setting faults w driverId dto) driverId dto.point := by
  obtain ⟨hgeoadd, h⟩ := not_or.mp h
  obtain ⟨hhset, hexpire⟩ := not_or.mp h
  rw [not_ne_iff] at hgeoadd hhset hexpire
  obtain ⟨key, hkey, hlat, hlng⟩ := lookup_hset (w.geoadd driverId dto.point) driverId dto.lat
    dto.lng w.now
  have hlookup := lookup_expire hkey (heartbeatTtlSeconds_pos setting)
  unfold afterUpsert
  rw [hgeoadd, hhset, hexpire]
  constructor
  · exact (congrFun (geo_expire _ driverId _) driverId).trans (Function.update_self ..)
  · exact ⟨_, hlookup, hlat, hlng, rfl⟩

/-- What an update promises.  If it resolves, the driver is where it says.  If one
of its commands fails, it throws and publishes nothing. -/
structure TakesEffect (setting : Option Nat) (faults : Faults) (w : LocationHost)
    (driverId correlationId : String) (dto : UpdateLocationDto) : Prop where
  resolved : ((LocationsService.updateLocation setting w.redis.now driverId dto.lat dto.lng
      correlationId).eval (answer faults) w).1 = .ok () →
    Located ((LocationsService.updateLocation setting w.redis.now driverId dto.lat dto.lng
      correlationId).eval (answer faults) w).2.redis driverId dto.point
  failed : Fails faults driverId dto →
    (∃ message, ((LocationsService.updateLocation setting w.redis.now driverId dto.lat dto.lng
        correlationId).eval (answer faults) w).1 = .error message) ∧
      ((LocationsService.updateLocation setting w.redis.now driverId dto.lat dto.lng
        correlationId).eval (answer faults) w).2.published = w.published

/-- An update keeps its promise if no command fails, and otherwise only where
Kafka refuses the event. -/
theorem takesEffect_iff (setting : Option Nat) (faults : Faults) (w : LocationHost)
    (driverId correlationId : String) (dto : UpdateLocationDto) :
    TakesEffect setting faults w driverId correlationId dto ↔
      (¬ Fails faults driverId dto ∨ ∃ message, faults.kafka = .refused message) := by
  have hcall := eval_updateLocation setting faults w driverId correlationId dto
  constructor
  · intro h
    by_cases hfails : Fails faults driverId dto
    · obtain ⟨⟨message, herror⟩, hpublished⟩ := h.failed hfails
      rw [hcall] at herror hpublished
      cases hkafka : faults.kafka with
      | none =>
          rw [hkafka] at herror
          cases herror
      | refused message => exact .inr ⟨message, rfl⟩
      | lost message =>
          rw [hkafka] at hpublished
          exact absurd hpublished (List.cons_ne_self _ _)
    · exact .inl hfails
  · intro h
    constructor
    · intro hok
      rw [hcall] at hok ⊢
      rcases h with hfine | ⟨message, hkafka⟩
      · have hredis : (faults.kafka.settle
            { w with redis := afterUpsert setting faults w.redis driverId dto } ()
            { redis := afterUpsert setting faults w.redis driverId dto
              published := ⟨driverId, dto.lat, dto.lng, correlationId⟩ :: w.published }).2.redis =
            afterUpsert setting faults w.redis driverId dto :=
          Fault.settle_world faults.kafka () rfl
        rw [hredis]
        exact located_afterUpsert setting w.redis hfine
      · rw [hkafka] at hok
        cases hok
    · intro hfails
      rcases h with hfine | ⟨message, hkafka⟩
      · exact absurd hfails hfine
      · rw [hcall, hkafka]
        exact ⟨⟨message, rfl⟩, rfl⟩

end Updates

/-- The body `{"lat": 86, "lng": 0}`. -/
def beyondProjection : UpdateLocationDto where
  lat := 86
  lng := 0
  minLat := Dispatch.farNorth.minLat
  maxLat := Dispatch.farNorth.maxLat
  minLng := Dispatch.farNorth.minLng
  maxLng := Dispatch.farNorth.maxLng

/-- It is accepted and announced, and the driver is not in the set. -/
theorem not_takesEffect_beyondProjection :
    ¬ TakesEffect none {} ⟨⟨fun _ => none, fun _ => none, 0⟩, []⟩ "d" "c" beyondProjection := by
  intro h
  obtain ⟨hgeo, -⟩ := h.resolved rfl
  revert hgeo
  decide +kernel

end Location

end RydTrip
