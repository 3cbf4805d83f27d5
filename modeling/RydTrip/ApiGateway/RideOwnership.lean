import RydTrip.ApiGateway.Agreement
import RydTrip.ApiGateway.Trips
import RydTrip.RiderService.Rides
import RydTrip.TripService.Steps

/-!
# In whose name a ride is requested

`POST /rides` on its way from the gateway through `rides.controller.ts` and
`rides.service.ts` of rider-service to the consumer of trip-service.  The rider
of the ride is the one that the body names.  Nobody compares it with the token:
the gateway looks at ids in the path only, and rider-service does not read the
headers that the gateway adds.

What `@IsUUID()` accepts is left open.
-/

namespace RydTrip

namespace ApiGateway

open Http Process Rides TripService

/-! ## DTO and controller -/

/-- What `CreateRideDto` looks at in a body.  A place that `@ValidateNested()`
finds fault with is `none`. -/
structure RideBody where
  riderId : JsonField := .missing
  pickup : Option Nested := some .missing
  destination : Option Nested := some .missing

/-- What passes `CreateRideDto`. -/
def createRideDto (isUUID : String → Bool) (body : RideBody) : Option CreateRideDto :=
  match body.riderId with
  | .text riderId =>
      if isUUID riderId then do return ⟨riderId, ← body.pickup, ← body.destination⟩ else none
  | _ => none

/-- What `RidesController.create` is called with, if the request ends there. -/
def Forwarded.createRide? (isUUID : String → Bool) (forwarded : Forwarded RideBody) :
    Option CreateRideDto :=
  if forwarded.target = .rider then
    match dispatch forwarded.method forwarded.path riderRoutes with
    | .found ⟨_, _, .createRide⟩ _ => createRideDto isUUID (forwarded.body.getD {})
    | _ => none
  else none

/-- `RidesService.create`, as far as what it publishes.  `riders` are the ids
that it finds. -/
def RidesService.create (riders : List String) (request : RideRequest) (eventId : Nat) :
    Except String EventEnvelope :=
  if riders.contains request.dto.riderId then .ok (request.envelope eventId)
  else .error s!"Rider {request.dto.riderId} not found"

/-- What is drawn for a request on its way. -/
structure RideDraws where
  correlationId : String
  rideId : String
  eventId : Nat

/-- A `ride.requested` event, and the request that has led to it. -/
structure Published where
  req : Request RideBody
  envelope : EventEnvelope

/-- What a request publishes. -/
def Request.published? (isUUID : String → Bool) (jwt : JwtService) (riders : List String)
    (draws : RideDraws) (req : Request RideBody) : Option Published := do
  match forward jwt req draws.correlationId with
  | .error _ => none
  | .ok (_, forwarded) =>
      let dto ← forwarded.createRide? isUUID
      match RidesService.create riders ⟨dto, draws.rideId, forwarded.correlationId⟩
          draws.eventId with
      | .error _ => none
      | .ok envelope => return ⟨req, envelope⟩

/-! ## The machine -/

/-- Trip-service, the accounts of rider-service, and the topic between them. -/
structure RideHost where
  trip : TripHost
  riders : List String
  topic : List Published

/-- What happens around trip-service. -/
inductive HostEvent where
  | tick
  | register (riderId : String)
  | request (req : Request RideBody) (draws : RideDraws)

/-- A ride is requested by an event from the topic.  Everything else can be
started at any time, and an event can be delivered any number of times. -/
def deliverable (topic : List Published) : Op → Bool
  | .handleRideRequested .. => false
  | .consume _ envelope =>
      envelope.eventType ≠ .rideRequested || topic.any fun p => p.envelope = envelope
  | _ => true

def rideMachine (haversineKm : GeoPoint → GeoPoint → Option Rat) (isUUID : String → Bool)
    (jwt : JwtService) : Machine RideHost Op Cmd Reply TripError Response Oracle HostEvent where
  exec o c w := some ((w.trip.exec o c).1, { w with trip := (w.trip.exec o c).2 })
  start op w :=
    if deliverable w.topic op then some (TripsService.program haversineKm op, w) else none
  env event w :=
    match event with
    | .tick => some { w with trip.db.now := w.trip.db.now + 1 }
    | .register riderId => some { w with riders := riderId :: w.riders }
    | .request req draws =>
        some { w with topic := (req.published? isUUID jwt w.riders draws).toList ++ w.topic }

abbrev RidePool : Type := Pool RideHost Op Cmd Reply TripError Response

abbrev RideAction : Type := Action Op Oracle HostEvent

/-- No rides, no riders and no events. -/
def noRides : RidePool := ⟨⟨.empty, [], []⟩, fun _ => none⟩

/-! ## What is wanted -/

/-- The step commits a ride that this request has asked for. -/
def Creates (s : RidePool) (a : RideAction) (t : RidePool) (req : Request RideBody)
    (row : RideRow) : Prop :=
  ∃ i o th n p, a = .run i o ∧ s.threads i = some th ∧ th.call = .consume n p.envelope ∧
    p ∈ s.world.topic ∧ p.req = req ∧ s.world.trip.db.findRide row.id = none ∧
    t.world.trip.db.findRide row.id = some row

/-- In no run does the request of a rider create a ride in the name of another. -/
def OwnsRides (haversineKm : GeoPoint → GeoPoint → Option Rat) (isUUID : String → Bool)
    (jwt : JwtService) (req : Request RideBody) : Prop :=
  ∀ acts s a t row user, (rideMachine haversineKm isUUID jwt).run noRides acts = some s →
    (rideMachine haversineKm isUUID jwt).next s a = some t → Creates s a t req row →
    req.user? jwt = some user → user.role = .rider → row.riderId = user.sub

/-! ## When it holds -/

/-- The body of a rider's request names the rider of the token, unless no ride
comes of it. -/
def NamesOwnRider (isUUID : String → Bool) (jwt : JwtService) (req : Request RideBody) : Prop :=
  ∀ user uuid route forwarded dto, req.user? jwt = some user → user.role = .rider →
    forward jwt req uuid = .ok (route, forwarded) → forwarded.createRide? isUUID = some dto →
    dto.pickup.point?.isSome = true → dto.destination.point?.isSome = true →
    dto.riderId = user.sub

/-! ## Where a ride comes from -/

/-- The event is one that this request publishes in some run. -/
def Requested (isUUID : String → Bool) (jwt : JwtService) (req : Request RideBody)
    (envelope : EventEnvelope) : Prop :=
  ∃ uuid route forwarded dto rideId eventId, forward jwt req uuid = .ok (route, forwarded) ∧
    forwarded.createRide? isUUID = some dto ∧
    envelope = RideRequest.envelope ⟨dto, rideId, forwarded.correlationId⟩ eventId

section Requests

variable {isUUID : String → Bool} {jwt : JwtService} {req : Request RideBody}

theorem published?_eq_some {riders : List String} {draws : RideDraws} {p : Published}
    (h : req.published? isUUID jwt riders draws = some p) :
    p.req = req ∧ Requested isUUID jwt req p.envelope := by
  unfold Request.published? at h
  split at h
  · cases h
  next route forwarded hforward =>
    obtain ⟨dto, hdto, h⟩ := Option.bind_eq_some_iff.mp h
    unfold RidesService.create at h
    split at h
    · cases h
    next envelope henvelope =>
      cases h
      split at henvelope
      · cases henvelope
        exact ⟨rfl, _, _, _, dto, _, _, hforward, hdto, rfl⟩
      · cases henvelope

theorem Requested.eventType {envelope : EventEnvelope} (h : Requested isUUID jwt req envelope) :
    envelope.eventType = .rideRequested := by
  obtain ⟨uuid, route, forwarded, dto, rideId, eventId, -, -, rfl⟩ := h
  rfl

/-- The input of the ride is what the body says. -/
theorem Requested.input {envelope : EventEnvelope} (h : Requested isUUID jwt req envelope)
    {input : CreateRideInput} (hinput : RideEventsConsumer.rideRequestedPayload envelope.payload =
      some input) :
    ∃ uuid route forwarded dto, forward jwt req uuid = .ok (route, forwarded) ∧
      forwarded.createRide? isUUID = some dto ∧ dto.pickup.point?.isSome = true ∧
      dto.destination.point?.isSome = true ∧ input.riderId = dto.riderId := by
  obtain ⟨uuid, route, forwarded, dto, rideId, eventId, hforward, hdto, rfl⟩ := h
  refine ⟨uuid, route, forwarded, dto, hforward, hdto, ?_⟩
  cases hpickup : dto.pickup.point? with
  | none =>
      simp [RideEventsConsumer.rideRequestedPayload, RideRequest.envelope, RideRequest.payload,
        hpickup] at hinput
  | some pickup =>
      cases hdestination : dto.destination.point? with
      | none =>
          simp [RideEventsConsumer.rideRequestedPayload, RideRequest.envelope, RideRequest.payload,
            hdestination] at hinput
      | some destination =>
          simp only [RideEventsConsumer.rideRequestedPayload, RideRequest.envelope,
            RideRequest.payload, hpickup, hdestination] at hinput
          cases hinput
          exact ⟨rfl, rfl, rfl⟩

end Requests

section Steps

variable {haversineKm : GeoPoint → GeoPoint → Option Rat} {isUUID : String → Bool}
  {jwt : JwtService}

/-- A ride that is new after a step was asked for by the event of its thread. -/
theorem event_of_new_row {s t : TripPool} {i : Nat} {o : Oracle} {row : RideRow}
    {th : Thread Op Cmd Reply TripError Response} (hs : ThreadsCommit s)
    (hstep : (machine haversineKm).Step s (.run i o) t) (hi : s.threads i = some th)
    (hnone : s.world.db.findRide row.id = none) (hrow : t.world.db.findRide row.id = some row) :
    ∃ input eventId, th.call.event = some (.requested input, eventId) ∧
      row.riderId = input.riderId := by
  by_cases hcom : ∃ op log key es, CommitsAt s (.run i o) op log key es
  · obtain ⟨op, log, key, es, hc⟩ := hcom
    have hcall : th.call = op := by
      obtain ⟨i', o', c, k, v, db, ⟨⟩, hi', -⟩ := hc
      rw [hi] at hi'
      cases hi'
      rfl
    obtain ⟨db₁, hsame, happ⟩ := applyCommit_rows (hc.applied hstep)
    rw [← hsame] at hnone
    rcases (hs.writes hc).1.cases with ⟨id, tgt, options, rfl, -⟩ | ⟨input, eventId, hevent, rfl⟩
    · obtain ⟨row₀, row', reason, hrow₀, -, hfind⟩ := applyAll_transition happ
      rw [hfind] at hrow
      split at hrow
      next hid =>
        rw [hid, hrow₀] at hnone
        cases hnone
      next =>
        rw [hnone] at hrow
        cases hrow
    · refine ⟨input, eventId, hcall ▸ hevent, ?_⟩
      by_cases hid : row.id = input.id
      · rw [hid] at hrow
        exact riderId_of_create happ hrow
      · obtain ⟨-, -, hothers⟩ := applyAll_create happ
        rw [hothers _ hid, hnone] at hrow
        cases hrow
  · push Not at hcom
    rw [(sameTables_of_not_commits hstep hcom).findRide, hnone] at hrow
    cases hrow

/-- The part of trip-service. -/
def tripPool (s : RidePool) : TripPool := ⟨s.world.trip, s.threads⟩

/-- What a step is to trip-service. -/
theorem tripPool_step {s t : RidePool} {a : RideAction}
    (h : (rideMachine haversineKm isUUID jwt).Step s a t) :
    tripPool t = tripPool s ∨ ∃ b, (machine haversineKm).Step (tripPool s) b (tripPool t) ∧
      ∀ i o, a = .run i o → b = .run i o := by
  cases h with
  | @spawn i op p w hi hp =>
      simp only [rideMachine] at hp
      split at hp
      · cases hp
        exact .inr ⟨.spawn i op, .spawn hi rfl, nofun⟩
      · cases hp
  | @run i o op c k log r w hi hr =>
      cases hr
      refine .inr ⟨.run i o, .run hi rfl, fun i' o' heq => ?_⟩
      cases heq
      rfl
  | @env event w hw =>
      cases event with
      | tick =>
          cases hw
          exact .inr ⟨.env (), .env rfl, nofun⟩
      | register riderId =>
          cases hw
          exact .inl rfl
      | request req draws =>
          cases hw
          exact .inl rfl

/-- Operations commit their own writes, and events come from requests. -/
structure Traced (isUUID : String → Bool) (jwt : JwtService) (s : RidePool) : Prop where
  commit : ThreadsCommit (tripPool s)
  topic : ∀ p ∈ s.world.topic, Requested isUUID jwt p.req p.envelope

theorem noRides_traced : Traced isUUID jwt noRides where
  commit := initial_threadsCommit .empty
  topic p hp := by cases hp

theorem Traced.step {s t : RidePool} {a : RideAction} (hs : Traced isUUID jwt s)
    (h : (rideMachine haversineKm isUUID jwt).Step s a t) : Traced isUUID jwt t where
  commit := by
    rcases tripPool_step h with heq | ⟨b, hstep, -⟩
    · rw [heq]
      exact hs.commit
    · exact hs.commit.step hstep
  topic := by
    cases h with
    | spawn hi hp =>
        simp only [rideMachine] at hp
        split at hp
        · cases hp
          exact hs.topic
        · cases hp
    | run hi hr =>
        cases hr
        exact hs.topic
    | @env event w hw =>
        cases event with
        | tick =>
            cases hw
            exact hs.topic
        | register riderId =>
            cases hw
            exact hs.topic
        | request req draws =>
            cases hw
            intro p hp
            rcases List.mem_append.mp hp with hnew | hold
            · obtain ⟨rfl, hrequested⟩ := published?_eq_some (Option.mem_toList.mp hnew)
              exact hrequested
            · exact hs.topic p hold

theorem NamesOwnRider.ownsRides {req : Request RideBody} (h : NamesOwnRider isUUID jwt req) :
    OwnsRides haversineKm isUUID jwt req := by
  rintro acts s a t row user hrun hnext ⟨i, o, th, n, p, rfl, hi, hcall, hp, rfl, hnone, hrow⟩
    huser hrole
  have hs : Traced isUUID jwt s :=
    Machine.run_invariant' noRides_traced (fun _ _ _ hs hstep => hs.step hstep) hrun
  rcases tripPool_step ((rideMachine haversineKm isUUID jwt).step_of_next hnext) with
    heq | ⟨b, hstep, hb⟩
  · have hworld : t.world.trip = s.world.trip := congrArg Pool.world heq
    rw [hworld, hnone] at hrow
    cases hrow
  · cases hb i o rfl
    obtain ⟨input, eventId, hevent, hrider⟩ := event_of_new_row hs.commit hstep hi hnone hrow
    rw [hcall] at hevent
    obtain ⟨event, hof, heq⟩ := Option.map_eq_some_iff.mp hevent
    cases heq
    have hinput : RideEventsConsumer.rideRequestedPayload p.envelope.payload = some input := by
      have htype : p.envelope.eventType = .rideRequested := (hs.topic p hp).eventType
      unfold TripService.RideEvent.ofEnvelope at hof
      rw [htype] at hof
      obtain ⟨input', hinput', heq⟩ := Option.map_eq_some_iff.mp hof
      cases heq
      exact hinput'
    obtain ⟨uuid, route, forwarded, dto, hforward, hdto, hpickup, hdestination, hriderId⟩ :=
      (hs.topic p hp).input hinput
    rw [hrider, hriderId]
    exact h user uuid route forwarded dto huser hrole hforward hdto hpickup hdestination

end Steps

/-! ## Any ride that is asked for -/

section Runs

variable {haversineKm : GeoPoint → GeoPoint → Option Rat} {isUUID : String → Bool}
  {jwt : JwtService} {req : Request RideBody} {uuid : String} {route : ProxyRoute}
  {forwarded : Forwarded RideBody} {dto : CreateRideDto} {riders : List String}

theorem published?_of_forward (draws : RideDraws)
    (hforward : forward jwt req draws.correlationId = .ok (route, forwarded))
    (hdto : forwarded.createRide? isUUID = some dto) (hrider : dto.riderId ∈ riders) :
    req.published? isUUID jwt riders draws =
      some ⟨req, RideRequest.envelope ⟨dto, draws.rideId, forwarded.correlationId⟩
        draws.eventId⟩ := by
  have hcreate : RidesService.create riders ⟨dto, draws.rideId, forwarded.correlationId⟩
      draws.eventId = .ok (RideRequest.envelope ⟨dto, draws.rideId, forwarded.correlationId⟩
        draws.eventId) := if_pos (List.contains_iff_mem.mpr hrider)
  unfold Request.published?
  rw [hforward]
  dsimp only
  rw [hdto, Option.bind_eq_bind, Option.bind_some, hcreate]
  rfl

variable (haversineKm) in
/-- What is asked for and has two places is created, once its rider exists. -/
theorem exists_creates (hforward : forward jwt req uuid = .ok (route, forwarded))
    (hdto : forwarded.createRide? isUUID = some dto) (hpickup : dto.pickup.point?.isSome = true)
    (hdestination : dto.destination.point?.isSome = true) :
    ∃ acts s a t row, (rideMachine haversineKm isUUID jwt).run noRides acts = some s ∧
      (rideMachine haversineKm isUUID jwt).next s a = some t ∧ Creates s a t req row ∧
      row.riderId = dto.riderId := by
  obtain ⟨pickup, hpickup⟩ := Option.isSome_iff_exists.mp hpickup
  obtain ⟨destination, hdestination⟩ := Option.isSome_iff_exists.mp hdestination
  let draws : RideDraws := ⟨uuid, "ride-1", 0⟩
  let payload : Payload :=
    { Payload.empty with
      rideId := some "ride-1", riderId := some dto.riderId
      pickup := some pickup, destination := some destination }
  let envelope : EventEnvelope := ⟨0, .rideRequested, forwarded.correlationId, some payload⟩
  have hpublished : req.published? isUUID jwt [dto.riderId] draws = some ⟨req, envelope⟩ := by
    rw [published?_of_forward draws hforward hdto (.head _)]
    simp only [RideRequest.envelope, RideRequest.payload, hpickup, hdestination]
    rfl
  let arrived : RidePool := ⟨⟨.empty, [dto.riderId], [⟨req, envelope⟩]⟩, fun _ => none⟩
  let called : RidePool :=
    ⟨arrived.world, Function.update arrived.threads 0
      (some ⟨.consume 1 envelope,
        TripsService.program haversineKm (.consume 1 envelope), []⟩)⟩
  let m := rideMachine haversineKm isUUID jwt
  have harrive : m.run noRides [.env (.register dto.riderId), .env (.request req draws)] =
      some arrived := by
    change some (⟨⟨.empty, [dto.riderId],
      (req.published? isUUID jwt [dto.riderId] draws).toList ++ []⟩, fun _ => none⟩ : RidePool) = _
    rw [hpublished]
    rfl
  have hcall : m.next arrived (.spawn 0 (.consume 1 envelope)) = some called := by
    refine m.next_of_step (.spawn rfl (if_pos ?_))
    simp [deliverable, arrived]
  let row : RideRow :=
    { id := "ride-1", riderId := dto.riderId, driverId := none, pickup := pickup
      destination := destination, status := .matching, cancellationReason := none, otp := none
      fare := none, distanceKm := none, createdAt := 0, updatedAt := 0 }
  -- the transaction is opened and the two statements are staged, then it commits
  have hcommit : ∃ s t, m.run called [.run 0 {}, .run 0 {}, .run 0 {}] = some s ∧
      m.next s (.run 0 {}) = some t ∧ Creates s (.run 0 {}) t req row :=
    ⟨_, _, rfl, rfl, 0, {}, _, 1, ⟨req, envelope⟩, rfl, rfl, rfl, .head _, rfl, rfl, rfl⟩
  obtain ⟨s, t, hrun, hnext, hcreates⟩ := hcommit
  refine ⟨[.env (.register dto.riderId), .env (.request req draws)] ++
    .spawn 0 (.consume 1 envelope) :: [.run 0 {}, .run 0 {}, .run 0 {}], s, .run 0 {}, t, row, ?_,
    hnext, hcreates, rfl⟩
  rw [Machine.run_append, harrive, Option.bind_some, Machine.run_cons, hcall, Option.bind_some]
  exact hrun

end Runs

/-- The rides of a request are its rider's exactly if its body names the rider of
the token, or no ride comes of it. -/
theorem ownsRides_iff (haversineKm : GeoPoint → GeoPoint → Option Rat) (isUUID : String → Bool)
    (jwt : JwtService) (req : Request RideBody) :
    OwnsRides haversineKm isUUID jwt req ↔ NamesOwnRider isUUID jwt req := by
  constructor
  · intro h user uuid route forwarded dto huser hrole hforward hdto hpickup hdestination
    obtain ⟨acts, s, a, t, row, hrun, hnext, hcreates, hrider⟩ :=
      exists_creates haversineKm hforward hdto hpickup hdestination
    rw [← hrider]
    exact h acts s a t row user hrun hnext hcreates huser hrole
  · exact NamesOwnRider.ownsRides

/-! ## A ride in another rider's name -/

def riderA : String := "11111111-1111-4111-8111-111111111111"

def riderB : String := "22222222-2222-4222-8222-222222222222"

/-- A place that passes `GeoPointDto`. -/
def place : Nested := .one ⟨13, 78, by decide, by decide, by decide, by decide⟩

/-- `POST /rides` with a token of `riderA` and the id of `riderB`. -/
def foreignRequest : Request RideBody where
  method := "POST"
  path := "rides".toList
  headers name := if name = "authorization" then some "Bearer t" else none
  limit := none
  body := { riderId := .text riderB, pickup := some place, destination := some place }

theorem not_ownsRides_foreign : ¬ ∀ haversineKm isUUID jwt req,
    OwnsRides haversineKm isUUID jwt req := by
  intro h
  let isUUID (text : String) : Bool := text = riderA || text = riderB
  let jwt : JwtService := trusting ⟨riderA, .rider⟩ (by decide)
  have hreaches : ∃ route forwarded dto,
      forward jwt foreignRequest "c" = .ok (route, forwarded) ∧
        forwarded.createRide? isUUID = some dto ∧ dto.pickup.point?.isSome = true ∧
        dto.destination.point?.isSome = true ∧ dto.riderId = riderB :=
    ⟨_, _, _, rfl, rfl, rfl, rfl, rfl⟩
  obtain ⟨route, forwarded, dto, hforward, hdto, hpickup, hdestination, hnamed⟩ := hreaches
  obtain ⟨acts, s, a, t, row, hrun, hnext, hcreates, hrider⟩ :=
    exists_creates (fun _ _ => some 0) hforward hdto hpickup hdestination
  have howns := h (fun _ _ => some 0) isUUID jwt foreignRequest acts s a t row ⟨riderA, .rider⟩ hrun
    hnext hcreates rfl rfl
  rw [hrider, hnamed] at howns
  exact absurd howns (by decide)

end ApiGateway

end RydTrip
