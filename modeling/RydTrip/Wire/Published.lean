import RydTrip.Replay.Restore

/-!
# Events on the wire

`EventPublisher.publish` from `libraries/event-schema/src/kafka/publisher.ts` and
what each service hands to it: the message is the text that `JSON.stringify`
gives for the envelope.  The headers repeat two fields of the envelope, and no
consumer reads them.
-/

namespace RydTrip

namespace Wire

open Json (JsString Text Value)
open ReplayDlq (jsString jsNumber toISOString)

/-- A value as JavaScript has it, with the members of objects in the order of
enumeration. -/
abbrev JsValue : Type := {v : Value // v.Normal}

/-! ## `EventPublisher` -/

structure PublishOptions where
  correlationId : Option JsString
  key : Option JsString

/-- The two results of `randomUUID` and the clock in milliseconds. -/
structure Drawn where
  eventId : JsString
  correlationId : JsString
  now : ℕ

/-- A message, less its headers. -/
structure Message where
  key : Option JsString
  value : Text

namespace EventPublisher

/-- The envelope of an event, field by field. -/
def envelope (producerName eventType : JsString) (payload : Value) (options : PublishOptions)
    (drawn : Drawn) : List (JsString × Value) :=
  [(jsString "eventId", .string drawn.eventId),
    (jsString "eventType", .string eventType),
    (jsString "version", jsNumber 1),
    (jsString "timestamp", .string (.ofText (toISOString drawn.now))),
    (jsString "correlationId", .string (options.correlationId.getD drawn.correlationId)),
    (jsString "producer", .string producerName),
    (jsString "payload", payload)]

def publish (producerName eventType : JsString) (payload : Value) (options : PublishOptions)
    (drawn : Drawn) : Message :=
  ⟨options.key, (Value.object (envelope producerName eventType payload options drawn)).text⟩

end EventPublisher

/-! ## The publishers -/

/-- The members of an object literal that `JSON.stringify` writes: it leaves out
what is undefined. -/
def defined (fields : List (JsString × Option Value)) : List (JsString × Value) :=
  fields.filterMap fun field => field.2.map (field.1, ·)

/-- The calls of `publish`, with what varies in their payloads. -/
inductive Publication where
  /-- `RidesService.create`.  A body may come without its points. -/
  | requestRide (rideId riderId : JsString) (pickup destination : Option JsValue)
  /-- `RidesService.cancel` -/
  | cancelRide (rideId : JsString) (reason : Option JsValue)
  /-- `DispatchService.handleRideRequested`, for a driver that is won -/
  | reserveDriver (rideId driverId : JsString)
  /-- and when there is none -/
  | rejectRide (rideId : JsString)
  /-- `LocationsService.updateLocation` -/
  | updateLocation (driverId : JsString) (lat lng : Json.Double)

namespace Publication

def topic : Publication → KafkaTopic
  | .requestRide .. => .rideRequested
  | .cancelRide .. => .rideCancelled
  | .reserveDriver .. => .driverReserved
  | .rejectRide .. => .driverRejected
  | .updateLocation .. => .driverLocationUpdated

/-- The name that the service gives its publisher. -/
def producerName : Publication → String
  | .requestRide .. => "rider-service"
  | .cancelRide .. => "rider-service"
  | .reserveDriver .. => "dispatch-service"
  | .rejectRide .. => "dispatch-service"
  | .updateLocation .. => "location-service"

def key : Publication → JsString
  | .requestRide rideId _ _ _ => rideId
  | .cancelRide rideId _ => rideId
  | .reserveDriver rideId _ => rideId
  | .rejectRide rideId => rideId
  | .updateLocation driverId _ _ => driverId

/-- The default of `cancel`'s `reason` applies to `undefined`. -/
def cancelReason (reason : Option JsValue) : Value :=
  (reason.map Subtype.val).getD (.string (jsString CancellationReason.riderCancelled.text))

def fields : Publication → List (JsString × Option Value)
  | .requestRide rideId riderId pickup destination =>
      [(jsString "rideId", some (.string rideId)), (jsString "riderId", some (.string riderId)),
        (jsString "pickup", pickup.map Subtype.val),
        (jsString "destination", destination.map Subtype.val)]
  | .cancelRide rideId reason =>
      [(jsString "rideId", some (.string rideId)),
        (jsString "reason", some (cancelReason reason))]
  | .reserveDriver rideId driverId =>
      [(jsString "rideId", some (.string rideId)), (jsString "driverId", some (.string driverId))]
  | .rejectRide rideId =>
      [(jsString "rideId", some (.string rideId)),
        (jsString "reason", some (.string (jsString CancellationReason.noDriversAvailable.text)))]
  | .updateLocation driverId lat lng =>
      [(jsString "driverId", some (.string driverId)), (jsString "lat", some (.number lat)),
        (jsString "lng", some (.number lng))]

def payload (p : Publication) : Value := .object (defined p.fields)

/-- The envelope that is published under a correlation id. -/
def envelope (p : Publication) (correlationId : JsString) (drawn : Drawn) :
    List (JsString × Value) :=
  EventPublisher.envelope (jsString p.producerName) (jsString p.topic.text) p.payload
    ⟨some correlationId, some p.key⟩ drawn

def message (p : Publication) (correlationId : JsString) (drawn : Drawn) : Message :=
  EventPublisher.publish (jsString p.producerName) (jsString p.topic.text) p.payload
    ⟨some correlationId, some p.key⟩ drawn

end Publication

/-! ## What is published can be read -/

theorem keys_defined_sublist (fields : List (JsString × Option Value)) :
    ((defined fields).map Prod.fst).Sublist (fields.map Prod.fst) := by
  induction fields with
  | nil => exact .slnil
  | cons field fields ih =>
      obtain ⟨key, v⟩ := field
      cases v with
      | none => exact ih.cons key
      | some v => exact ih.cons_cons key

theorem normal_defined {fields : List (JsString × Option Value)}
    (hnames : ∀ key ∈ fields.map Prod.fst, Json.arrayIndex key = none)
    (hdistinct : (fields.map Prod.fst).Nodup)
    (hnormal : ∀ field ∈ fields, ∀ v ∈ field.2, v.Normal) :
    (Value.object (defined fields)).Normal := by
  have hsub := keys_defined_sublist fields
  refine ⟨Json.ordered_of_names (fun key hkey => hnames key (hsub.subset hkey))
    (hdistinct.sublist hsub), Json.normalMembers_iff.mpr fun m hm => ?_⟩
  obtain ⟨field, hfield, hm⟩ := List.mem_filterMap.mp hm
  obtain ⟨v, hv, rfl⟩ := Option.map_eq_some_iff.mp hm
  exact hnormal field hfield v hv

/-- The names of the fields of a payload. -/
def fieldNames : KafkaTopic → List JsString
  | .rideRequested =>
      [jsString "rideId", jsString "riderId", jsString "pickup", jsString "destination"]
  | .rideCancelled => [jsString "rideId", jsString "reason"]
  | .driverReserved => [jsString "rideId", jsString "driverId"]
  | .driverRejected => [jsString "rideId", jsString "reason"]
  | .driverLocationUpdated => [jsString "driverId", jsString "lat", jsString "lng"]
  | _ => []

theorem Publication.fields_names (p : Publication) :
    p.fields.map Prod.fst = fieldNames p.topic := by
  cases p <;> rfl

theorem fieldNames_plain (topic : KafkaTopic) :
    (∀ key ∈ fieldNames topic, Json.arrayIndex key = none) ∧ (fieldNames topic).Nodup := by
  cases topic <;> decide +kernel

theorem Publication.payload_normal (p : Publication) : p.payload.Normal := by
  have hvalue (o : Option JsValue) : ∀ v ∈ o.map Subtype.val, v.Normal := by
    intro v hv
    obtain ⟨w, -, rfl⟩ := Option.map_eq_some_iff.mp hv
    exact w.property
  refine normal_defined ?_ ?_ ?_
  · rw [p.fields_names]
    exact (fieldNames_plain p.topic).1
  · rw [p.fields_names]
    exact (fieldNames_plain p.topic).2
  · cases p with
    | requestRide rideId riderId pickup destination =>
        simp only [fields, List.forall_mem_cons]
        refine ⟨?_, ?_, hvalue pickup, hvalue destination, nofun⟩ <;> rintro v ⟨⟩ <;> trivial
    | cancelRide rideId reason =>
        simp only [fields, List.forall_mem_cons]
        refine ⟨?_, ?_, nofun⟩
        · rintro v ⟨⟩
          trivial
        · rintro v ⟨⟩
          cases reason with
          | none => trivial
          | some reason => exact reason.property
    | reserveDriver rideId driverId =>
        simp only [fields, List.forall_mem_cons]
        refine ⟨?_, ?_, nofun⟩ <;> rintro v ⟨⟩ <;> trivial
    | rejectRide rideId =>
        simp only [fields, List.forall_mem_cons]
        refine ⟨?_, ?_, nofun⟩ <;> rintro v ⟨⟩ <;> trivial
    | updateLocation driverId lat lng =>
        simp only [fields, List.forall_mem_cons]
        refine ⟨?_, ?_, ?_, nofun⟩ <;> rintro v ⟨⟩ <;> trivial

/-- The names of the fields of an envelope. -/
def envelopeNames : List JsString :=
  [jsString "eventId", jsString "eventType", jsString "version", jsString "timestamp",
    jsString "correlationId", jsString "producer", jsString "payload"]

theorem EventPublisher.envelope_normal (producerName eventType : JsString) {payload : Value}
    (hpayload : payload.Normal) (options : PublishOptions) (drawn : Drawn) :
    (Value.object (envelope producerName eventType payload options drawn)).Normal := by
  have hnames : (envelope producerName eventType payload options drawn).map Prod.fst =
      envelopeNames := by
    simp only [envelope, envelopeNames, List.map_cons, List.map_nil]
  refine ⟨Json.ordered_of_names ?_ ?_, trivial, trivial, trivial, trivial, trivial, trivial,
    hpayload, trivial⟩
  · rw [hnames]
    decide +kernel
  · rw [hnames]
    decide +kernel

/-- A consumer reads the envelope that was published. -/
theorem Publication.parse_message (p : Publication) (correlationId : JsString) (drawn : Drawn) :
    Json.parse (p.message correlationId drawn).value =
      some (Value.object (p.envelope correlationId drawn)).reread :=
  Json.parse_text (EventPublisher.envelope_normal _ _ p.payload_normal _ _)

end Wire

end RydTrip
