import RydTrip.TripService.Consumer
import RydTrip.Wire.Published

/-!
# What the consumers make of a message

The payload guards of `ride-events.consumer.ts` and `ride-requested.consumer.ts`
on the values that `JSON.parse` gives, and which method of a service is called
with what.  Every event that a service publishes is understood: the fields
arrive as they were sent, whatever characters and numbers they hold.  The one
exception is a ride whose request came without a point, and it is told apart.

Both handlers first print a line about the envelope, which throws for an id or a
type that no service publishes.  The tag on the active span is left out.
-/

namespace RydTrip

namespace Wire

open Json (JsString Text Value)
open ReplayDlq (jsString)

/-! ## Reading -/

/-- The string, where `typeof` says that it is one. -/
def asString : Option Value → Option JsString
  | some (.string s) => some s
  | _ => none

/-- The value, where `!!` says that it is there. -/
def present (v : Option Value) : Option Value := v.filter Value.truthy

inductive HandlerError where
  /-- A property of `null` is read, or a value cannot be printed. -/
  | typeError
  /-- `malformed ${topic} payload for eventId=${eventId}` -/
  | malformed (topic : KafkaTopic) (eventId : Option Value)

/-- The line that a handler begins with. -/
def consumed (envelope : Value) : Except HandlerError Unit :=
  (ReplayDlq.log [envelope.get (jsString "eventType"), envelope.get (jsString "eventId"),
    envelope.get (jsString "correlationId")]).mapError fun _ => .typeError

theorem consumed_eq_ok {envelope : Value} {eventType eventId correlationId : JsString}
    (htype : envelope.get (jsString "eventType") = some (.string eventType))
    (hid : envelope.get (jsString "eventId") = some (.string eventId))
    (hcorrelation : envelope.get (jsString "correlationId") = some (.string correlationId)) :
    consumed envelope = .ok () := by
  rw [consumed, htype, hid, hcorrelation]
  rfl

/-! ## Trip-service -/

namespace RideEventsConsumer

/-- The calls of `TripsService`. -/
inductive Call where
  | handleRideRequested (id riderId : JsString) (pickup destination : Value)
      (eventId : Option Value)
  | handleRideCancelled (rideId : JsString) (reason eventId : Option Value)
  | handleDriverReserved (rideId driverId : JsString) (eventId : Option Value)
  | handleDriverRejected (rideId : JsString) (eventId : Option Value)

/-- `isRideRequestedPayload`, and the call that follows it. -/
def rideRequested (payload eventId : Option Value) : Option Call := do
  let p ← present payload
  return .handleRideRequested (← asString (p.get (jsString "rideId")))
    (← asString (p.get (jsString "riderId"))) (← present (p.get (jsString "pickup")))
    (← present (p.get (jsString "destination"))) eventId

/-- `isRideCancelledPayload` -/
def rideCancelled (payload eventId : Option Value) : Option Call := do
  let p ← present payload
  return .handleRideCancelled (← asString (p.get (jsString "rideId")))
    (p.get (jsString "reason")) eventId

/-- `isDriverReservedPayload` -/
def driverReserved (payload eventId : Option Value) : Option Call := do
  let p ← present payload
  return .handleDriverReserved (← asString (p.get (jsString "rideId")))
    (← asString (p.get (jsString "driverId"))) eventId

/-- `isDriverRejectedPayload` -/
def driverRejected (payload eventId : Option Value) : Option Call := do
  let p ← present payload
  return .handleDriverRejected (← asString (p.get (jsString "rideId"))) eventId

/-- A handled event whose payload fails its guard is malformed. -/
def orMalformed (topic : KafkaTopic) (eventId : Option Value) :
    Option Call → Except HandlerError (Option Call)
  | some call => .ok (some call)
  | none => .error (.malformed topic eventId)

/-- The callback given to `EventConsumer.run`, up to the call it makes. -/
def handler (envelope : Value) : Except HandlerError (Option Call) :=
  match envelope with
  | .null => .error .typeError
  | envelope => do
      consumed envelope
      let eventType := asString (envelope.get (jsString "eventType"))
      let eventId := envelope.get (jsString "eventId")
      let payload := envelope.get (jsString "payload")
      if eventType = some (jsString KafkaTopic.rideRequested.text) then
        orMalformed .rideRequested eventId (rideRequested payload eventId)
      else if eventType = some (jsString KafkaTopic.rideCancelled.text) then
        orMalformed .rideCancelled eventId (rideCancelled payload eventId)
      else if eventType = some (jsString KafkaTopic.driverReserved.text) then
        orMalformed .driverReserved eventId (driverReserved payload eventId)
      else if eventType = some (jsString KafkaTopic.driverRejected.text) then
        orMalformed .driverRejected eventId (driverRejected payload eventId)
      else .ok none

theorem topicText_inj {a b : KafkaTopic} : jsString a.text = jsString b.text ↔ a = b := by
  refine ⟨fun h => ?_, fun h => h ▸ rfl⟩
  revert h
  cases a <;> cases b <;> decide +kernel

/-- The branch of a topic. -/
def handlerFor (payload eventId : Option Value) : KafkaTopic → Except HandlerError (Option Call)
  | .rideRequested => orMalformed .rideRequested eventId (rideRequested payload eventId)
  | .rideCancelled => orMalformed .rideCancelled eventId (rideCancelled payload eventId)
  | .driverReserved => orMalformed .driverReserved eventId (driverReserved payload eventId)
  | .driverRejected => orMalformed .driverRejected eventId (driverRejected payload eventId)
  | _ => .ok none

theorem handler_of_eventType {envelope : Value} {topic : KafkaTopic}
    (hline : consumed envelope = .ok ())
    (h : asString (envelope.get (jsString "eventType")) = some (jsString topic.text)) :
    handler envelope = handlerFor (envelope.get (jsString "payload"))
      (envelope.get (jsString "eventId")) topic := by
  unfold handler
  split
  · cases h
  · rw [hline]
    simp only [h, Option.some.injEq, topicText_inj]
    cases topic <;> rfl

end RideEventsConsumer

/-! ## Dispatch-service -/

namespace RideRequestedConsumer

/-- The call of `DispatchService.handleRideRequested`, and the event id that
`wasProcessed` and `markProcessed` are given. -/
structure Call where
  rideId : JsString
  pickup : Value
  correlationId : Option Value
  eventId : Option Value

/-- `isRideRequestedPayload`, which does not ask for a destination here. -/
def rideRequested (payload correlationId eventId : Option Value) : Option Call := do
  let p ← present payload
  return ⟨← asString (p.get (jsString "rideId")), ← present (p.get (jsString "pickup")),
    correlationId, eventId⟩

/-- The callback, up to the call it makes.  It does not look at the type. -/
def handler (envelope : Value) : Except HandlerError Call :=
  match envelope with
  | .null => .error .typeError
  | envelope => do
      consumed envelope
      let eventId := envelope.get (jsString "eventId")
      match rideRequested (envelope.get (jsString "payload"))
          (envelope.get (jsString "correlationId")) eventId with
      | some call => .ok call
      | none => .error (.malformed .rideRequested eventId)

end RideRequestedConsumer

/-! ## What is to be understood -/

/-- A point as it arrives, if it does. -/
def arrives (v : Option JsValue) : Option Value := present (v.map (·.val.reread))

namespace Publication

/-- What trip-service is to do with a publication. -/
def forTrip (eventId : JsString) :
    Publication → Except HandlerError (Option RideEventsConsumer.Call)
  | .requestRide rideId riderId pickup destination =>
      match arrives pickup, arrives destination with
      | some pickup, some destination =>
          .ok (some (.handleRideRequested rideId riderId pickup destination
            (some (.string eventId))))
      | _, _ => .error (.malformed .rideRequested (some (.string eventId)))
  | .cancelRide rideId reason =>
      .ok (some (.handleRideCancelled rideId (some (cancelReason reason).reread)
        (some (.string eventId))))
  | .reserveDriver rideId driverId =>
      .ok (some (.handleDriverReserved rideId driverId (some (.string eventId))))
  | .rejectRide rideId => .ok (some (.handleDriverRejected rideId (some (.string eventId))))
  | .updateLocation .. => .ok none

/-- What dispatch-service is to do with a request. -/
def forDispatch (rideId : JsString) (pickup : Option JsValue) (correlationId eventId : JsString) :
    Except HandlerError RideRequestedConsumer.Call :=
  match arrives pickup with
  | some pickup =>
      .ok ⟨rideId, pickup, some (.string correlationId), some (.string eventId)⟩
  | none => .error (.malformed .rideRequested (some (.string eventId)))

end Publication

section RoundTrip

variable (p : Publication) (correlationId : JsString) (drawn : Drawn)

/-- The fields of the envelope that is read. -/
theorem get_envelope :
    let envelope := (Value.object (p.envelope correlationId drawn)).reread
    envelope.get (jsString "eventType") = some (.string (jsString p.topic.text)) ∧
      envelope.get (jsString "eventId") = some (.string drawn.eventId) ∧
      envelope.get (jsString "correlationId") = some (.string correlationId) ∧
      envelope.get (jsString "payload") = some p.payload.reread := by
  intro envelope
  have hget (key : JsString) (v : Value)
      (hv : (Value.object (p.envelope correlationId drawn)).get key = some v) :
      envelope.get key = some v.reread := by
    rw [Value.get_reread, hv]
    rfl
  exact ⟨hget _ (.string _) rfl, hget _ (.string _) rfl, hget _ (.string _) rfl, hget _ _ rfl⟩

theorem present_payload : present (some p.payload.reread) = some p.payload.reread := rfl

/-- The fields of a requested ride, with those that are missing. -/
theorem get_requestRide (rideId riderId : JsString) (pickup destination : Option JsValue) :
    let payload := (Publication.requestRide rideId riderId pickup destination).payload.reread
    payload.get (jsString "rideId") = some (.string rideId) ∧
      payload.get (jsString "riderId") = some (.string riderId) ∧
      present (payload.get (jsString "pickup")) = arrives pickup ∧
      present (payload.get (jsString "destination")) = arrives destination := by
  cases pickup <;> cases destination <;> exact ⟨rfl, rfl, rfl, rfl⟩

theorem handlerFor_published (p : Publication) (eventId : JsString) :
    RideEventsConsumer.handlerFor (some p.payload.reread) (some (.string eventId)) p.topic =
      p.forTrip eventId := by
  cases p with
  | requestRide rideId riderId pickup destination =>
      obtain ⟨hride, hrider, hpickup, hdestination⟩ :=
        get_requestRide rideId riderId pickup destination
      have hcall : RideEventsConsumer.rideRequested
          (some (Publication.requestRide rideId riderId pickup destination).payload.reread)
          (some (.string eventId)) = (arrives pickup).bind fun pickup =>
            (arrives destination).bind fun destination =>
              some (.handleRideRequested rideId riderId pickup destination
                (some (.string eventId))) := by
        unfold RideEventsConsumer.rideRequested
        rw [present_payload]
        simp only [Option.bind_eq_bind, Option.bind_some, hride, hrider, hpickup, hdestination,
          asString]
        rfl
      change RideEventsConsumer.orMalformed _ _ _ = Publication.forTrip eventId _
      rw [hcall, Publication.forTrip]
      cases arrives pickup with
      | none => rfl
      | some pickup => cases arrives destination <;> rfl
  | cancelRide rideId reason => rfl
  | reserveDriver rideId driverId => rfl
  | rejectRide rideId => rfl
  | updateLocation driverId lat lng => rfl

/-- Every event that is published arrives: the text of the message parses, trip-
service makes of it the call that was meant, with the fields that were sent, and
dispatch-service does the same with a request.  Only a request without a point
is malformed. -/
theorem message_understood (p : Publication) (correlationId : JsString) (drawn : Drawn) :
    ∃ envelope, Json.parse (p.message correlationId drawn).value = some envelope ∧
      RideEventsConsumer.handler envelope = p.forTrip drawn.eventId ∧
      ∀ rideId riderId pickup destination,
        p = .requestRide rideId riderId pickup destination →
        RideRequestedConsumer.handler envelope =
          Publication.forDispatch rideId pickup correlationId drawn.eventId := by
  obtain ⟨htype, hid, hcorrelation, hpayload⟩ := get_envelope p correlationId drawn
  have hline := consumed_eq_ok htype hid hcorrelation
  refine ⟨_, p.parse_message correlationId drawn, ?_, ?_⟩
  · rw [RideEventsConsumer.handler_of_eventType hline (by rw [htype]; rfl), hid, hpayload]
    exact handlerFor_published p drawn.eventId
  · rintro rideId riderId pickup destination rfl
    obtain ⟨hride, -, hpickup, -⟩ := get_requestRide rideId riderId pickup destination
    unfold RideRequestedConsumer.handler RideRequestedConsumer.rideRequested
    split
    next hnull => cases hnull
    next =>
      rw [hline]
      dsimp only [bind, Except.bind]
      rw [hid, hcorrelation, hpayload, present_payload]
      simp only [Option.bind_some, hride, hpickup, asString]
      unfold Publication.forDispatch
      cases arrives pickup <;> rfl

end RoundTrip

/-! ## The typed envelopes of the services

Elsewhere an envelope is a record, with a number for its event id.  What the
guards look at is the same.
-/

section Typed

open TripService (RideEvent)

/-- A string as the services have it. -/
def str (s : JsString) : String := .ofList s.toText

/-- A value where a string is expected and nothing is checked. -/
def jsText : Option Value → JsText
  | none => .undefined
  | some (.string s) => .text (str s)
  | some (.object [(key, .null)]) => if key = jsString "set" then .update none else .other
  | some (.object [(key, .string s)]) =>
      if key = jsString "set" then .update (some (str s)) else .other
  | some v => if v.truthy then .other else .falsy

variable (geo : Value → GeoPoint)

/-- The payload as a record.  `geo` says what point a value is. -/
def typedPayload (payload : Option Value) : Option Payload := do
  let p ← present payload
  return {
    rideId := (asString (p.get (jsString "rideId"))).map str
    riderId := (asString (p.get (jsString "riderId"))).map str
    driverId := (asString (p.get (jsString "driverId"))).map str
    pickup := (present (p.get (jsString "pickup"))).map geo
    destination := (present (p.get (jsString "destination"))).map geo
    reason := jsText (p.get (jsString "reason")) }

def RideEventsConsumer.Call.event : RideEventsConsumer.Call → RideEvent
  | .handleRideRequested id riderId pickup destination _ =>
      .requested ⟨str id, str riderId, geo pickup, geo destination⟩
  | .handleRideCancelled rideId reason _ => .cancelled (str rideId) (jsText reason)
  | .handleDriverReserved rideId driverId _ => .reserved (str rideId) (str driverId)
  | .handleDriverRejected rideId _ => .rejected (str rideId)

/-- The call that is made, if one is. -/
def called : Except HandlerError (Option RideEventsConsumer.Call) → Option RideEventsConsumer.Call
  | .ok call => call
  | .error _ => none

theorem called_orMalformed (topic : KafkaTopic) (eventId : Option Value)
    (call : Option RideEventsConsumer.Call) :
    called (RideEventsConsumer.orMalformed topic eventId call) = call := by
  cases call <;> rfl

section Guards

variable (payload eventId : Option Value)

theorem event_rideRequested :
    (RideEventsConsumer.rideRequested payload eventId).map (·.event geo) =
      (TripService.RideEventsConsumer.rideRequestedPayload (typedPayload geo payload)).map
        .requested := by
  unfold RideEventsConsumer.rideRequested typedPayload
  cases present payload with
  | none => rfl
  | some p =>
      simp only [Option.bind_eq_bind, Option.bind_some,
        TripService.RideEventsConsumer.rideRequestedPayload, Option.pure_def]
      cases asString (p.get (jsString "rideId")) with
      | none => rfl
      | some rideId =>
          cases asString (p.get (jsString "riderId")) with
          | none => rfl
          | some riderId =>
              cases present (p.get (jsString "pickup")) with
              | none => rfl
              | some pickup => cases present (p.get (jsString "destination")) <;> rfl

theorem event_rideCancelled :
    (RideEventsConsumer.rideCancelled payload eventId).map (·.event geo) =
      (TripService.RideEventsConsumer.rideCancelledPayload (typedPayload geo payload)).map fun p =>
        .cancelled p.rideId p.reason := by
  unfold RideEventsConsumer.rideCancelled typedPayload
  cases present payload with
  | none => rfl
  | some p =>
      simp only [Option.bind_eq_bind, Option.bind_some,
        TripService.RideEventsConsumer.rideCancelledPayload, Option.pure_def]
      cases asString (p.get (jsString "rideId")) <;> rfl

theorem event_driverReserved :
    (RideEventsConsumer.driverReserved payload eventId).map (·.event geo) =
      (TripService.RideEventsConsumer.driverReservedPayload (typedPayload geo payload)).map
        fun p => .reserved p.rideId p.driverId := by
  unfold RideEventsConsumer.driverReserved typedPayload
  cases present payload with
  | none => rfl
  | some p =>
      simp only [Option.bind_eq_bind, Option.bind_some,
        TripService.RideEventsConsumer.driverReservedPayload, Option.pure_def]
      cases asString (p.get (jsString "rideId")) with
      | none => rfl
      | some rideId => cases asString (p.get (jsString "driverId")) <;> rfl

theorem event_driverRejected :
    (RideEventsConsumer.driverRejected payload eventId).map (·.event geo) =
      (TripService.RideEventsConsumer.driverRejectedPayload (typedPayload geo payload)).map
        fun p => .rejected p.rideId := by
  unfold RideEventsConsumer.driverRejected typedPayload
  cases present payload with
  | none => rfl
  | some p =>
      simp only [Option.bind_eq_bind, Option.bind_some,
        TripService.RideEventsConsumer.driverRejectedPayload, Option.pure_def]
      cases asString (p.get (jsString "rideId")) <;> rfl

end Guards

/-- The handler of trip-service and its typed form agree on every JSON value
whose line can be printed. -/
theorem event_handler {envelope : Value} {topic : KafkaTopic} (n : ℕ) (correlationId : String)
    (hline : consumed envelope = .ok ())
    (h : asString (envelope.get (jsString "eventType")) = some (jsString topic.text)) :
    (called (RideEventsConsumer.handler envelope)).map (·.event geo) = RideEvent.ofEnvelope
      ⟨n, topic, correlationId, typedPayload geo (envelope.get (jsString "payload"))⟩ := by
  rw [RideEventsConsumer.handler_of_eventType hline h]
  unfold RideEventsConsumer.handlerFor RideEvent.ofEnvelope
  cases topic with
  | rideRequested => exact (congrArg _ (called_orMalformed ..)).trans (event_rideRequested ..)
  | rideCancelled => exact (congrArg _ (called_orMalformed ..)).trans (event_rideCancelled ..)
  | driverReserved => exact (congrArg _ (called_orMalformed ..)).trans (event_driverReserved ..)
  | driverRejected => exact (congrArg _ (called_orMalformed ..)).trans (event_driverRejected ..)
  | _ => rfl

end Typed

end Wire

end RydTrip
