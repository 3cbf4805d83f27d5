import RydTrip.ApiGateway.Guard
import RydTrip.TripService.Machine

/-!
# The trip service behind the gateway

`services/trip-service/src/trips/trips.controller.ts` with its DTOs: what a
forwarded request calls, and what the client is answered.  Besides requests,
only Kafka events start operations of the trip service.

The other services answer without looking at the trip database, so what they
answer is a parameter.
-/

namespace RydTrip

namespace ApiGateway

open Http Process TripService

/-! ## DTOs -/

/-- A field of a JSON body. -/
inductive JsonField where
  | missing
  | null
  | text (s : String)
  | other
  deriving DecidableEq, Repr

/-- What the DTOs look at in a body.  An array is checked like an object that has
none of the fields. -/
structure Body where
  otp : JsonField := .missing
  reason : JsonField := .missing
  deriving DecidableEq, Repr

/-- `/^\d{4}$/` -/
def isPickupCode (otp : String) : Bool := otp.length = 4 && otp.toList.all Char.isDigit

/-- `StartTripDto`, or what is wrong with the body. -/
def startTripDto (body : Body) : Except (List String) String :=
  match body.otp with
  | .text otp => if isPickupCode otp then .ok otp else .error ["otp must be exactly 4 digits"]
  | _ => .error ["otp must be exactly 4 digits", "otp must be a string"]

def cancellationReasons : List String :=
  [CancellationReason.riderCancelled, .driverCancelled, .noDriversAvailable, .riderNoShow,
    .systemCancelled].map CancellationReason.text

def reasonMessage : String :=
  "reason must be one of the following values: " ++ ", ".intercalate cancellationReasons

/-- The reason of `CancelTripDto`, or what is wrong with the body. -/
def cancelTripDto (body : Body) : Except (List String) JsText :=
  match body.reason with
  | .missing => .ok .undefined
  | .null => .ok .falsy
  | .text reason =>
      if cancellationReasons.contains reason then .ok (.text reason)
      else .error [reasonMessage]
  | .other => .error [reasonMessage]

/-! ## The controller -/

/-- What the controller does with a request. -/
inductive TripCall where
  | op (op : Op)
  | notFound
  | badRequest (messages : List String)
  deriving DecidableEq, Repr

/-- The body, if there is one. -/
def Forwarded.json (forwarded : Forwarded Body) : Body := forwarded.body.getD {}

/-- `x-user-id` -/
def Forwarded.userId (forwarded : Forwarded Body) : Option String :=
  forwarded.user.map AuthenticatedUser.sub

/-- The methods of `TripsController`.  `draw` is the one of `randomInt`. -/
def TripsController.call (forwarded : Forwarded Body) (draw : Fin 10000) (handler : Handler)
    (id : String) : TripCall :=
  match handler with
  | .findActiveForDriver => .op (.findActiveForDriver id)
  | .findHistoryForRider => .op (.findHistoryForRider id forwarded.limit)
  | .findHistoryForDriver => .op (.findHistoryForDriver id forwarded.limit)
  | .findTrip => .op (.findOne id)
  | .accept => .op (.accept id draw)
  | .decline => .op (.decline id)
  | .driverArrived => .op (.driverArrived id)
  | .start =>
      match startTripDto forwarded.json with
      | .ok otp => .op (.start id otp forwarded.userId)
      | .error messages => .badRequest messages
  | .getOtp => .op (.getOtp id forwarded.userId)
  | .complete => .op (.complete id)
  | .cancel =>
      match cancelTripDto forwarded.json with
      | .ok reason => .op (.cancel id reason)
      | .error messages => .badRequest messages
  | _ => .notFound

/-- Every route of the controller has one parameter. -/
def tripCall (forwarded : Forwarded Body) (draw : Fin 10000) : TripCall :=
  match dispatch forwarded.method forwarded.path tripRoutes with
  | .found route [id] => TripsController.call forwarded draw route.handler id
  | .found .. => .notFound
  | .notFound => .notFound
  | .badRequest => .badRequest ["Failed to decode param"]

/-! ## Arrivals -/

/-- What reaches the trip service from outside: a request to the gateway, with
the draws made on its way, or the delivery of an event. -/
inductive Arrival where
  | request (req : Request Body) (uuid : String) (draw : Fin 10000)
  | event (maxAttempts : Nat) (envelope : EventEnvelope)

/-- The operation of the trip service that a forwarded request starts, if any. -/
def Forwarded.op? (forwarded : Forwarded Body) (draw : Fin 10000) : Option Op :=
  if forwarded.target = .trip then
    match tripCall forwarded draw with
    | .op op => some op
    | _ => none
  else none

/-- The operation that an arrival starts, if any. -/
def Arrival.op? (jwt : JwtService) : Arrival → Option Op
  | .event maxAttempts envelope => some (.consume maxAttempts envelope)
  | .request req uuid draw =>
      match forward jwt req uuid with
      | .error _ => none
      | .ok (_, forwarded) => forwarded.op? draw

/-- The user whose token came with the request. -/
def verified (jwt : JwtService) (req : Request Body) : Option AuthenticatedUser :=
  (bearerToken (req.headers "authorization")).bind jwt.verify

/-! ## Who is behind an operation -/

section Caller

variable {jwt : JwtService} {req : Request Body} {uuid : String}

/-- No public route goes to the trip service. -/
theorem not_public_of_trip {method : String} {path : List Segment} {proxied : ProxyRoute}
    (h : matchRoute path getProxyRoutes = some proxied) (htrip : proxied.target = .trip) :
    isPublicRoute method path = false := by
  have hmem : proxied ∈ getProxyRoutes := by
    rcases Option.or_eq_some_iff.mp h with hfind | ⟨-, hfind⟩
    · exact List.mem_of_find?_eq_some hfind
    · exact List.mem_of_find?_eq_some hfind
  have hroutes : ∀ route ∈ getProxyRoutes, route.target = .trip →
      route.pattern = none ∧ route.pathPrefix = ["trips"] := by decide
  obtain ⟨hpattern, hpathPrefix⟩ := hroutes proxied hmem htrip
  have hfirst : ∃ rest, path = "trips".toList :: rest := by
    rcases Option.or_eq_some_iff.mp h with hfind | ⟨-, hfind⟩
    · have htest := List.find?_some (p := fun route : ProxyRoute => route.test path) hfind
      rw [ProxyRoute.test, hpattern] at htest
      cases htest
    · have hpre := List.find?_some (p := fun route : ProxyRoute => route.hasPrefix path) hfind
      rw [ProxyRoute.hasPrefix, hpathPrefix] at hpre
      obtain ⟨rest, rfl⟩ := List.isPrefixOf_iff_prefix.mp hpre
      exact ⟨rest, rfl⟩
  obtain ⟨rest, rfl⟩ := hfirst
  have hpaths : ∀ route ∈ publicRoutes, route.2.map String.toList ≠ "trips".toList :: rest := by
    have hheads : ∀ route ∈ publicRoutes, (route.2.map String.toList).head? ≠
        some "trips".toList := by decide
    intro route hroute heq
    refine hheads route hroute ?_
    rw [heq]
    rfl
  have hpatterns : ∀ route ∈ publicPatterns,
      route.2.match? exact ("trips".toList :: rest) = none := by
    intro route hroute
    rw [List.mem_singleton.mp hroute]
    rfl
  unfold isPublicRoute
  rw [Bool.or_eq_false_iff]
  constructor
  · rw [List.any_eq_false]
    intro route hroute
    rw [decide_eq_false (hpaths route hroute), Bool.and_false]
    exact Bool.false_ne_true
  · rw [List.any_eq_false]
    intro route hroute
    rw [hpatterns route hroute, Option.isSome_none, Bool.and_false]
    exact Bool.false_ne_true

/-- The trip service is told the `sub` of the token that was verified. -/
theorem forward_trip {route : ProxyRoute} {forwarded : Forwarded Body}
    (h : forward jwt req uuid = .ok (route, forwarded)) (htrip : forwarded.target = .trip) :
    ∃ user, verified jwt req = some user ∧ forwarded.user = some user := by
  obtain ⟨hactive, hroute, htarget, -⟩ := forward_ok h
  exact verified_of_canActivate hroute
    (not_public_of_trip hroute (htarget.symm.trans htrip)) hactive

theorem Forwarded.op?_eq_some {forwarded : Forwarded Body} {draw : Fin 10000} {op : Op} :
    forwarded.op? draw = some op ↔ forwarded.target = .trip ∧ tripCall forwarded draw = .op op := by
  unfold Forwarded.op?
  split
  next htrip =>
    rw [and_iff_right htrip]
    cases tripCall forwarded draw with
    | op op' => rw [Option.some.injEq, TripCall.op.injEq]
    | notFound => exact ⟨nofun, nofun⟩
    | badRequest messages => exact ⟨nofun, nofun⟩
  next htrip => exact ⟨nofun, fun h => absurd h.1 htrip⟩

/-- An operation that knows its caller was called by the user of a verified
token. -/
theorem op?_request {draw : Fin 10000} {op : Op}
    (h : (Arrival.request req uuid draw).op? jwt = some op) :
    ∃ route forwarded user, forward jwt req uuid = .ok (route, forwarded) ∧
      forwarded.target = .trip ∧ verified jwt req = some user ∧ forwarded.user = some user ∧
      tripCall forwarded draw = .op op := by
  cases hforward : forward jwt req uuid with
  | error reply =>
      simp only [Arrival.op?, hforward] at h
      cases h
  | ok p =>
      obtain ⟨route, forwarded⟩ := p
      simp only [Arrival.op?, hforward] at h
      obtain ⟨htrip, hcall⟩ := Forwarded.op?_eq_some.mp h
      obtain ⟨user, hverified, huser⟩ := forward_trip hforward htrip
      exact ⟨route, forwarded, user, rfl, htrip, hverified, huser, hcall⟩

/-- An operation comes from a route of the controller. -/
theorem tripCall_op {forwarded : Forwarded Body} {draw : Fin 10000} {op : Op}
    (h : tripCall forwarded draw = .op op) :
    ∃ route ∈ tripRoutes, ∃ id, route.answers forwarded.method = true ∧
      TripsController.call forwarded draw route.handler id = .op op := by
  unfold tripCall at h
  split at h
  next route id hfound =>
    obtain ⟨hmem, hanswers, -⟩ := dispatch_found hfound
    exact ⟨route, hmem, id, hanswers, h⟩
  all_goals cases h

theorem TripsController.call_start {forwarded : Forwarded Body} {draw : Fin 10000}
    {handler : Handler} {param id otp : String} {caller : Option String}
    (h : TripsController.call forwarded draw handler param = .op (.start id otp caller)) :
    handler = .start ∧ caller = forwarded.userId := by
  cases handler with
  | start =>
      unfold TripsController.call at h
      cases hdto : startTripDto forwarded.json with
      | ok code =>
          simp only [hdto] at h
          cases h
          exact ⟨rfl, rfl⟩
      | error messages =>
          simp only [hdto] at h
          cases h
  | cancel =>
      unfold TripsController.call at h
      cases hdto : cancelTripDto forwarded.json <;> simp only [hdto] at h <;> cases h
  | _ => cases h

theorem TripsController.call_getOtp {forwarded : Forwarded Body} {draw : Fin 10000}
    {handler : Handler} {param id : String} {caller : Option String}
    (h : TripsController.call forwarded draw handler param = .op (.getOtp id caller)) :
    handler = .getOtp ∧ caller = forwarded.userId := by
  cases handler with
  | getOtp =>
      cases h
      exact ⟨rfl, rfl⟩
  | start =>
      unfold TripsController.call at h
      cases hdto : startTripDto forwarded.json <;> simp only [hdto] at h <;> cases h
  | cancel =>
      unfold TripsController.call at h
      cases hdto : cancelTripDto forwarded.json <;> simp only [hdto] at h <;> cases h
  | _ => cases h

/-- An operation comes from a route that answers the method of the request, and
is called for the user of the token. -/
theorem op?_called {draw : Fin 10000} {op : Op}
    (h : (Arrival.request req uuid draw).op? jwt = some op) :
    ∃ forwarded : Forwarded Body, ∃ route ∈ tripRoutes, ∃ param user,
      verified jwt req = some user ∧ forwarded.userId = some user.sub ∧
      route.answers req.method = true ∧
      TripsController.call forwarded draw route.handler param = .op op := by
  obtain ⟨proxied, forwarded, user, hforward, -, hverified, huser, hcall⟩ := op?_request h
  obtain ⟨-, -, -, hmethod, -⟩ := forward_ok hforward
  obtain ⟨route, hmem, param, hanswers, hcall⟩ := tripCall_op hcall
  rw [hmethod] at hanswers
  refine ⟨forwarded, route, hmem, param, user, hverified, ?_, hanswers, hcall⟩
  rw [Forwarded.userId, huser]
  rfl

/-- A start is a POST, called for the user of the token. -/
theorem caller_of_start {draw : Fin 10000} {id otp : String} {caller : Option String}
    (h : (Arrival.request req uuid draw).op? jwt = some (.start id otp caller)) :
    req.method = "POST" ∧ ∃ user, verified jwt req = some user ∧ caller = some user.sub := by
  obtain ⟨forwarded, route, hmem, param, user, hverified, huser, hanswers, hcall⟩ := op?_called h
  obtain ⟨hhandler, rfl⟩ := TripsController.call_start hcall
  refine ⟨?_, user, hverified, huser⟩
  have hall : ∀ route ∈ tripRoutes, route.handler = .start → route.method = "POST" := by decide
  rw [Route.answers, hall route hmem hhandler] at hanswers
  simpa using hanswers

/-- A code is asked for by GET or HEAD, for the user of the token. -/
theorem caller_of_getOtp {draw : Fin 10000} {id : String} {caller : Option String}
    (h : (Arrival.request req uuid draw).op? jwt = some (.getOtp id caller)) :
    (req.method = "GET" ∨ req.method = "HEAD") ∧
      ∃ user, verified jwt req = some user ∧ caller = some user.sub := by
  obtain ⟨forwarded, route, hmem, param, user, hverified, huser, hanswers, hcall⟩ := op?_called h
  obtain ⟨hhandler, rfl⟩ := TripsController.call_getOtp hcall
  refine ⟨?_, user, hverified, huser⟩
  have hall : ∀ route ∈ tripRoutes, route.handler = .getOtp → route.method = "GET" := by decide
  rw [Route.answers, hall route hmem hhandler] at hanswers
  simpa using hanswers

/-- The `sub` of a verified token is not empty. -/
theorem truthy_sub {user : AuthenticatedUser} (h : verified jwt req = some user) :
    truthy (some user.sub) = some user.sub := by
  obtain ⟨token, -, huser⟩ := Option.bind_eq_some_iff.mp h
  refine truthy_eq_some.mpr ⟨rfl, fun hempty => ?_⟩
  have hplain := jwt.isPlain_sub token user huser
  rw [hempty] at hplain
  cases hplain

end Caller

end ApiGateway

end RydTrip
