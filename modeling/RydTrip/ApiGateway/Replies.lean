import RydTrip.ApiGateway.Trips

/-!
# What a client is answered

The way back through `services/api-gateway/src/proxy/proxy.controller.ts`, and
the trip service behind it as a `Machine` whose threads end with what the client
receives.  How the connection to a service fares, and what the other services
answer, comes with the call.
-/

namespace RydTrip

namespace ApiGateway

open Http Process TripService

/-! ## Replies -/

inductive ReplyBody where
  | response (response : Response)
  | message (message : String)
  | messages (messages : List String)
  /-- A body of another service. -/
  | text (text : String)
  deriving DecidableEq, Repr

/-- The answer of a service.  All of them are JSON. -/
structure HttpReply where
  status : Nat
  body : ReplyBody
  deriving DecidableEq, Repr

/-- What the client receives. -/
inductive GatewayReply where
  | own (reply : OwnReply)
  | relayed (correlationId : String) (reply : HttpReply)
  deriving DecidableEq, Repr

/-- The answer to an exception, by its class. -/
def errorReply : TripError → HttpReply
  | .notFound message => ⟨404, .message message⟩
  | .conflict message => ⟨409, .message message⟩
  | .forbidden message => ⟨403, .message message⟩
  | .badRequest message => ⟨400, .message message⟩
  | .prisma _ => ⟨500, .message "Internal server error"⟩
  | .error _ => ⟨500, .message "Internal server error"⟩

/-- The answer to a request that a handler has ended. -/
def tripReply (method : String) : Except TripError Response → HttpReply
  | .ok response => ⟨if method = "POST" then 201 else 200, .response response⟩
  | .error err => errorReply err

/-! ## Serving a request -/

/-- An arrival at the gateway, with how the connection to the service it is
forwarded to fares, and what that service answers if it is another one. -/
structure GatewayCall where
  arrival : Arrival
  connection : Fault := .none
  elsewhere : HttpReply := ⟨200, .text ""⟩

/-- What comes back of an answer.  One to HEAD has no body, and an empty body is
not JSON. -/
def relay (route : ProxyRoute) (forwarded : Forwarded Body) (reply : HttpReply) : GatewayReply :=
  if forwarded.method = "HEAD" then .own (badGatewayReply route)
  else .relayed forwarded.correlationId reply

section Serve

variable (haversineKm : GeoPoint → GeoPoint → Option Rat)

/-- The trip service. -/
def serveTrip (forwarded : Forwarded Body) (draw : Fin 10000) : Trip HttpReply :=
  match tripCall forwarded draw with
  | .op op => do
      let outcome ← (TripsService.program haversineKm op).attempt
      return tripReply forwarded.method outcome
  | .notFound =>
      let path := "/".intercalate (forwarded.path.map String.ofList)
      return ⟨404, .message s!"Cannot {forwarded.method} /{path}"⟩
  | .badRequest messages => return ⟨400, .messages messages⟩

/-- The service that the request is forwarded to. -/
def serve (forwarded : Forwarded Body) (draw : Fin 10000) (elsewhere : HttpReply) :
    Trip HttpReply :=
  if forwarded.target = .trip then serveTrip haversineKm forwarded draw else pure elsewhere

/-- The call, up to what the client receives, if there is one. -/
def handle (jwt : JwtService) (call : GatewayCall) : Trip (Option GatewayReply) :=
  match call.arrival with
  | .event maxAttempts envelope => do
      RideEventsConsumer.consume maxAttempts envelope
      return none
  | .request req uuid draw =>
      match forward jwt req uuid with
      | .error reply => return some (.own reply)
      | .ok (route, forwarded) =>
          match call.connection with
          | .refused _ => return some (.own (badGatewayReply route))
          | .lost _ => do
              let _ ← serve haversineKm forwarded draw call.elsewhere
              return some (.own (badGatewayReply route))
          | .none => do
              let reply ← serve haversineKm forwarded draw call.elsewhere
              return some (relay route forwarded reply)

/-- The trip service behind the gateway. -/
def gatewayMachine (jwt : JwtService) :
    Machine TripHost GatewayCall Cmd Reply TripError (Option GatewayReply) Oracle Unit where
  exec o c w := some (w.exec o c)
  start call w := some (handle haversineKm jwt call, w)
  env _ w := some { w with db := { w.db with now := w.db.now + 1 } }

end Serve

abbrev GatewayPool : Type :=
  Pool TripHost GatewayCall Cmd Reply TripError (Option GatewayReply)

abbrev GatewayAction : Type := Action GatewayCall Oracle Unit

/-- Any database, and no call yet. -/
def initialGateway (db : TripDb) : GatewayPool := ⟨⟨db, [], []⟩, fun _ => none⟩

/-- What is received of a program that has ended. -/
def replyOf : Trip (Option GatewayReply) → Option GatewayReply
  | .ret reply => reply
  | _ => none

/-- What the client of thread `i` has received. -/
def received (s : GatewayPool) (i : Nat) : Option GatewayReply :=
  (s.threads i).bind fun th => replyOf th.prog

section Serve

variable {haversineKm : GeoPoint → GeoPoint → Option Rat} {draw : Fin 10000}
  {forwarded : Forwarded Body}

theorem serveTrip_op {op : Op} (h : tripCall forwarded draw = .op op) :
    serveTrip haversineKm forwarded draw =
      (TripsService.program haversineKm op).attempt >>= fun outcome =>
        .ret (tripReply forwarded.method outcome) := by
  unfold serveTrip
  rw [h]
  rfl

end Serve

end ApiGateway

end RydTrip
