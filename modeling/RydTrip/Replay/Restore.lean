import RydTrip.Replay.Records

/-!
# Parking a message and sending it again

What a parked record says of its message (`Tells`) holds whatever the awaits of
the consumer come to.  The script reads the record back as it was written, up to
what numbers lose in JSON, and sends the envelope again unless a condition takes
it for false.  After the send it prints the id and the type of the event, and if
that throws, the record is delivered again and its envelope is sent again.

So a message comes back whole and once exactly if its value is neither `null`,
`false`, zero nor the empty string, holds no number beyond the range of a double
and no negative zero, and has an id and a type that can be printed.
-/

namespace RydTrip

namespace EventConsumer

namespace Kafka

open Process

variable {J S : Type}

/-! ## What a record tells -/

/-- The record has the envelope of the message it was made for, unless the
message was not JSON. -/
structure Tells (groupId : String) (parse : String → Except String J) (payload : KafkaMessage)
    (record : DlqRecord J) : Prop where
  of : record.Of groupId payload
  malformed : record.dlqReason = .malformedJson → record.envelope = none
  failed : record.dlqReason = .handlerFailed → ∃ raw envelope, payload.value = some raw ∧
    parse raw = .ok envelope ∧ record.envelope = some envelope

section Parking

variable {o : Outcomes} {groupId : String} {stringify : DlqRecord J → S}
  {payload : KafkaMessage} {w : Host J S}

variable (o) (groupId) (stringify) (payload) in
/-- Whatever parking comes to, at most one record is added. -/
theorem parkOnDlq_parked (fields : ParkFields J) :
    ((parkOnDlq groupId stringify payload fields).eval (answer o) w).2.parked = w.parked ∨
      ∃ record : DlqRecord J,
        ((parkOnDlq groupId stringify payload fields).eval (answer o) w).2.parked =
          ⟨dlqTopic groupId, payload.key, stringify record⟩ :: w.parked ∧
        record.Of groupId payload ∧ record.dlqReason = fields.dlqReason ∧
        record.envelope = fields.envelope := by
  unfold parkOnDlq
  rw [Prog.eval_bind]
  rcases ensureDlqTopic_eval (o := o) (w := w) (dlqTopic groupId) with
    ⟨b, heval, -⟩ | ⟨message, heval, -⟩
  · rw [heval]
    simp only [Prog.perform_bind, Prog.eval_call, answer]
    cases hsend : o.send with
    | none => exact .inr ⟨_, rfl, ⟨rfl, rfl, rfl, rfl, rfl⟩, rfl, rfl⟩
    | refused message => exact .inl rfl
    | lost message => exact .inr ⟨_, rfl, ⟨rfl, rfl, rfl, rfl, rfl⟩, rfl, rfl⟩
  · rw [heval]
    exact .inl rfl

/-- What is parked tells of its message, however the awaits end. -/
theorem process_tells {parse : String → Except String J} {maxAttempts : Nat}
    {dlqTopicEnsured : Bool} {dlt : DltMessage S}
    (h : dlt ∈ (process o groupId parse stringify maxAttempts payload dlqTopicEnsured).2.parked) :
    ∃ record, dlt.value = stringify record ∧ Tells groupId parse payload record := by
  cases hvalue : truthy payload.value with
  | none =>
      unfold process eachMessage at h
      rw [hvalue] at h
      cases h
  | some raw =>
      obtain ⟨hsome, hraw⟩ := truthy_eq_some.mp hvalue
      rw [process_eq hsome hraw] at h
      cases hparse : parse raw with
      | error err =>
          rw [hparse] at h
          dsimp only at h
          rcases parkOnDlq_parked o groupId stringify payload (w := .start dlqTopicEnsured)
            ⟨.malformedJson, none, some raw, 1,
              s!"Failed to parse event envelope: {err}"⟩ with
            heq | ⟨record, heq, hof, hreason, henvelope⟩
          · rw [heq] at h
            cases h
          · rw [heq] at h
            cases List.mem_singleton.mp h
            refine ⟨record, rfl, hof, fun _ => henvelope, fun hfailed => ?_⟩
            rw [hreason] at hfailed
            cases hfailed
      | ok envelope =>
          rw [hparse] at h
          dsimp only at h
          rcases Nat.eq_zero_or_pos maxAttempts with rfl | hmax
          · cases h
          · rcases attempts_eval o groupId stringify payload envelope dlqTopicEnsured hmax with
              ⟨k, -, -, -, -, heval⟩ | ⟨-, err, heval⟩
            · rw [heval] at h
              cases h
            · rw [heval] at h
              rcases parkOnDlq_parked o groupId stringify payload
                (w := ⟨dlqTopicEnsured, List.replicate maxAttempts envelope, []⟩)
                ⟨.handlerFailed, some envelope, none, maxAttempts, err⟩ with
                heq | ⟨record, heq, hof, hreason, henvelope⟩
              · rw [heq] at h
                cases h
              · rw [heq] at h
                cases List.mem_singleton.mp h
                refine ⟨record, rfl, hof, fun hmalformed => ?_, fun _ => ?_⟩
                · rw [hreason] at hmalformed
                  cases hmalformed
                · exact ⟨raw, envelope, hsome, hparse, henvelope⟩

end Parking

end Kafka

end EventConsumer

namespace ReplayDlq

open EventConsumer.Kafka
open Json (JsString Text Value)

/-! ## Reading a record back -/

/-- The names of the fields of a record. -/
def fieldNames : List JsString :=
  [jsString "dlqReason", jsString "envelope", jsString "rawValue", jsString "attempts",
    jsString "errorMessage", jsString "consumerGroup", jsString "originalTopic",
    jsString "originalPartition", jsString "originalOffset", jsString "originalKey",
    jsString "failedAt"]

theorem fields_names (record : DlqRecord Value) :
    (fields record).map Prod.fst = fieldNames := by
  simp only [fields, fieldNames, List.map_cons, List.map_nil]

theorem fields_ordered (record : DlqRecord Value) : Json.Ordered (fields record) := by
  refine Json.ordered_of_names ?_ ?_
  · rw [fields_names]
    decide +kernel
  · rw [fields_names]
    decide +kernel

theorem fields_normal {record : DlqRecord Value} (h : ∀ v ∈ record.envelope, v.Normal) :
    (Value.object (fields record)).Normal := by
  have hnullable (s : Option String) : (nullable s).Normal := by
    cases s with
    | none => trivial
    | some s => trivial
  have henvelope : (record.envelope.getD .null).Normal := by
    cases he : record.envelope with
    | none => trivial
    | some v => exact h v he
  exact ⟨fields_ordered record, trivial, henvelope, hnullable _, trivial, trivial, trivial, trivial,
    trivial, trivial, hnullable _, trivial, trivial⟩

/-- The script reads the record that was written. -/
theorem parse_recordText {record : DlqRecord Value} (h : ∀ v ∈ record.envelope, v.Normal) :
    Json.parse (recordText record).toList = some (Value.object (fields record)).reread := by
  rw [recordText, String.toList_ofList, Json.parse_text (fields_normal h)]

/-! ## Sending again -/

/-- The key that the producer writes for a field. -/
def kafkaKey : Option Value → Option String
  | some (.string s) => some (.ofList s.toText)
  | _ => none

theorem kafkaKey_nullable (s : Option String) : kafkaKey (some (nullable s).reread) = s := by
  cases s with
  | none => rfl
  | some s =>
      change some (String.ofList (JsString.toText (JsString.ofText s.toList))) = some s
      rw [Json.toText_ofText, String.ofList_toList]

/-- The record as the script has it, and the fields that it looks at. -/
theorem read_record {record : DlqRecord Value} (h : ∀ v ∈ record.envelope, v.Normal) :
    truthy (some (recordText record)) = some (recordText record) ∧
      ∃ members, Json.parse (recordText record).toList = some (.object members) ∧
        (Value.object members).get (jsString "envelope") =
          some (record.envelope.getD .null).reread ∧
        (Value.object members).get (jsString "originalTopic") =
          some (.string (jsString record.originalTopic)) ∧
        (Value.object members).get (jsString "originalKey") =
          some (nullable record.originalKey).reread := by
  have hget (key : JsString) (v : Value) (hv : (Value.object (fields record)).get key = some v) :
      (Value.object (Json.membersReread (fields record))).get key = some v.reread := by
    have hreread := Value.get_reread (fields record) key
    rw [hv] at hreread
    exact hreread
  refine ⟨truthy_eq_some.mpr ⟨rfl, fun hempty => ?_⟩, _, parse_recordText h,
    hget _ _ rfl, hget _ (.string (jsString record.originalTopic)) rfl, hget _ _ rfl⟩
  have htext := congrArg String.toList hempty
  rw [recordText, String.toList_ofList] at htext
  cases htext

section Sending

variable {takes : Sent → Except String Unit} {record : DlqRecord Value}

/-- A record whose envelope counts for false is skipped. -/
theorem eachMessage_skip (h : ∀ v ∈ record.envelope, v.Normal)
    (hfalse : (record.envelope.getD .null).reread.truthy = false) (dryRun : Bool)
    (highWatermark : ℕ) (fault : Process.Fault) (w : Totals) :
    (eachMessage takes dryRun highWatermark fault (some (recordText record)) w).2.sent =
      w.sent := by
  obtain ⟨htext, members, hparse, henvelope, -, -⟩ := read_record h
  rw [eachMessage_eq htext hparse nofun, replayRecord, henvelope, Option.filter_some, hfalse,
    if_neg Bool.false_ne_true]
  exact Totals.close_sent _ _ _ rfl

/-- What the script sends for a record. -/
def resent (record : DlqRecord Value) : Sent :=
  ⟨some (.string (jsString record.originalTopic)), some (nullable record.originalKey).reread,
    .ofList (record.envelope.getD .null).reread.text⟩

/-- The id and the type of an event can be printed. -/
def Named (envelope : Value) : Prop :=
  Prints [envelope.get (jsString "eventId"), envelope.get (jsString "eventType")]

/-- The envelope of any other record is sent, and then the line is printed. -/
theorem eachMessage_send (h : ∀ v ∈ record.envelope, v.Normal)
    (htrue : (record.envelope.getD .null).reread.truthy = true)
    (htakes : takes (resent record) = .ok ()) (highWatermark : ℕ) (w : Totals) :
    ((eachMessage takes false highWatermark .none (some (recordText record)) w).1.isOk = true ↔
        Named (record.envelope.getD .null).reread) ∧
      (eachMessage takes false highWatermark .none (some (recordText record)) w).2.sent =
        resent record :: w.sent := by
  obtain ⟨htext, members, hparse, henvelope, htopic, hkey⟩ := read_record h
  have hrepublished : republished (.object members) (record.envelope.getD .null).reread =
      resent record := by
    rw [republished, htopic, hkey]
    rfl
  have hline : Prints (replayedLine (.object members) (record.envelope.getD .null).reread) ↔
      Named (record.envelope.getD .null).reread := by
    rw [replayedLine, htopic, Named]
    simp only [prints_cons]
    refine and_congr_right fun _ => and_congr_right fun _ => and_iff_right fun u hu => ?_
    cases hu
    rfl
  rw [eachMessage_eq htext hparse nofun, replayRecord, henvelope, Option.filter_some, htrue,
    if_pos rfl]
  dsimp only
  rw [if_neg Bool.false_ne_true, hrepublished, send, htakes]
  exact ⟨(Totals.close_isOk _ _ _ _ ▸ log_isOk).trans hline, Totals.close_sent _ _ _ rfl⟩

end Sending

/-- kafkajs and the broker take what goes to the topic of the message with its
key. -/
def TakesFor (takes : Sent → Except String Unit) (payload : KafkaMessage) : Prop :=
  ∀ value, takes ⟨some (.string (jsString payload.topic)), some (nullable payload.key), value⟩ =
    .ok ()

/-- Whenever the script comes to the record with this text, it sends one message
and resolves: the message goes to the original topic, with the original key and
with a value that denotes `v`. -/
def Restores (takes : Sent → Except String Unit) (payload : KafkaMessage) (v : Value)
    (text : String) : Prop :=
  ∀ highWatermark w, ∃ w' sent,
    eachMessage takes false highWatermark .none (some text) w = (.ok (), w') ∧
      w'.sent = sent :: w.sent ∧ sent.topic = some (.string (jsString payload.topic)) ∧
      kafkaKey sent.key = payload.key ∧ Json.parse sent.value.toList = some v

/-- The script never sends anything for the record with this text. -/
def NeverSent (takes : Sent → Except String Unit) (text : String) : Prop :=
  ∀ dryRun highWatermark fault w,
    (eachMessage takes dryRun highWatermark fault (some text) w).2.sent = w.sent

theorem nullable_reread (s : Option String) : (nullable s).reread = nullable s := by
  cases s with
  | none => rfl
  | some s => rfl

theorem restores_iff {takes : Sent → Except String Unit} {groupId : String}
    {payload : KafkaMessage} {record : DlqRecord Value} {v : Value}
    (htakes : TakesFor takes payload) (hof : record.Of groupId payload)
    (henvelope : record.envelope = some v) (hv : v.Normal) :
    Restores takes payload v (recordText record) ↔ v.truthy = true ∧ v.Exact ∧ Named v := by
  obtain ⟨-, htopic, -, -, hkey⟩ := hof
  have hnormal : ∀ u ∈ record.envelope, u.Normal := by
    intro u hu
    rw [henvelope] at hu
    cases hu
    exact hv
  have hget : (record.envelope.getD .null).reread = v.reread := by rw [henvelope, Option.getD_some]
  have htaken : takes (resent record) = .ok () := by
    rw [resent, htopic, hkey, nullable_reread]
    exact htakes _
  constructor
  · intro hrestores
    obtain ⟨w', sent, heval, hsent, -, -, hparse⟩ := hrestores 0 .start
    cases htruthy : v.reread.truthy with
    | false =>
        have hskip : (eachMessage takes false 0 .none (some (recordText record)) .start).2.sent =
            [] := eachMessage_skip hnormal (hget ▸ htruthy) false 0 .none .start
        rw [heval, hsent] at hskip
        cases hskip
    | true =>
        obtain ⟨hnamed, hsent'⟩ := eachMessage_send hnormal (hget ▸ htruthy) htaken 0 .start
        rw [heval] at hnamed hsent'
        dsimp only at hsent'
        rw [hsent] at hsent'
        cases hsent'
        rw [resent, hget, String.toList_ofList, Json.parse_text hv.reread, Value.reread_reread]
          at hparse
        have hsame : v.reread = v := Option.some.inj hparse
        have hnamed := hnamed.mp rfl
        rw [hget, hsame] at hnamed
        exact ⟨hsame ▸ htruthy, v.reread_eq_iff.mp hsame, hnamed⟩
  · rintro ⟨htruthy, hexact, hnamed⟩ highWatermark w
    have hsame : v.reread = v := v.reread_eq_iff.mpr hexact
    rw [hsame] at hget
    obtain ⟨hok, hsent⟩ :=
      eachMessage_send hnormal (by rw [hget]; exact htruthy) htaken highWatermark w
    rw [hget] at hok
    have hok := hok.mpr hnamed
    cases heval : eachMessage takes false highWatermark .none (some (recordText record)) w with
    | mk result w' =>
        rw [heval] at hok hsent
        cases result with
        | error message => cases hok
        | ok done =>
            refine ⟨w', resent record, rfl, hsent, ?_, ?_, ?_⟩
            · rw [resent, htopic]
            · rw [← hkey]
              exact kafkaKey_nullable _
            · rw [resent, hget, String.toList_ofList, Json.parse_text hv, hsame]

theorem neverSent {takes : Sent → Except String Unit} {record : DlqRecord Value}
    (h : record.envelope = none) : NeverSent takes (recordText record) := by
  intro dryRun highWatermark fault w
  refine eachMessage_skip ?_ ?_ dryRun highWatermark fault w
  · intro v hv
    rw [h] at hv
    cases hv
  · rw [h]
    rfl

/-! ## Park, then replay -/

/-- `JSON.parse`, with the message of its error. -/
def jsonParse (syntaxError : String → String) (raw : String) : Except String Value :=
  match Json.parse raw.toList with
  | some v => .ok v
  | none => .error (syntaxError raw)

theorem jsonParse_eq_ok {syntaxError : String → String} {raw : String} {v : Value} :
    jsonParse syntaxError raw = .ok v ↔ Json.parse raw.toList = some v := by
  unfold jsonParse
  cases Json.parse raw.toList with
  | none => simp
  | some v' => simp

/-- A record that was parked because the handler failed is restored exactly if
the value of the message counts for true, loses nothing in JSON, and has an id
and a type that can be printed, and one that was parked because it was not JSON
is never sent. -/
theorem parked_restored_iff (takes : Sent → Except String Unit) (o : Outcomes) (groupId : String)
    (syntaxError : String → String) (maxAttempts : ℕ) (payload : KafkaMessage)
    (dlqTopicEnsured : Bool) (dlt : DltMessage String) (htakes : TakesFor takes payload)
    (hparked : dlt ∈ (process o groupId (jsonParse syntaxError) recordText maxAttempts payload
      dlqTopicEnsured).2.parked) :
    ∃ record, dlt.value = recordText record ∧
      (record.dlqReason = .handlerFailed → ∃ raw v, payload.value = some raw ∧
        Json.parse raw.toList = some v ∧
        (Restores takes payload v dlt.value ↔ v.truthy = true ∧ v.Exact ∧ Named v)) ∧
      (record.dlqReason = .malformedJson → NeverSent takes dlt.value) := by
  obtain ⟨record, htext, htells⟩ := process_tells hparked
  rw [htext]
  refine ⟨record, rfl, fun hfailed => ?_, fun hmalformed => ?_⟩
  · obtain ⟨raw, v, hvalue, hparse, henvelope⟩ := htells.failed hfailed
    have hparse := jsonParse_eq_ok.mp hparse
    exact ⟨raw, v, hvalue, hparse,
      restores_iff htakes htells.of henvelope (Json.parse_normal hparse)⟩
  · exact neverSent (htells.malformed hmalformed)

/-- A message of a ride with this value. -/
def rideMessage (raw : String) : KafkaMessage := ⟨"ride-events", 0, "5", some "r1", some raw⟩

theorem parked_restored_iff_array : ∃ dlt : DltMessage String,
    dlt ∈ (process poison "trip-service" (jsonParse fun _ => "") recordText 1 (rideMessage "[]")
      true).2.parked ∧
    TakesFor kafkajs (rideMessage "[]") ∧
    ∃ record, dlt.value = recordText record ∧
      (record.dlqReason = .handlerFailed → ∃ raw v, (rideMessage "[]").value = some raw ∧
        Json.parse raw.toList = some v ∧
        (Restores kafkajs (rideMessage "[]") v dlt.value ↔
          v.truthy = true ∧ v.Exact ∧ Named v)) ∧
      (record.dlqReason = .malformedJson → NeverSent kafkajs dlt.value) :=
  ⟨_, .head _, fun _ => rfl,
    parked_restored_iff kafkajs poison "trip-service" (fun _ => "") 1 (rideMessage "[]") true _
      (fun _ => rfl) (.head _)⟩

/-- The message `false` is parked because its handler fails, and is not sent
again. -/
theorem parked_not_restored : ¬ ∀ (o : Outcomes) (groupId : String) (payload : KafkaMessage)
    (raw : String) (v : Value), payload.value = some raw → Json.parse raw.toList = some v →
    ∀ dlt ∈ (process o groupId (jsonParse fun _ => "") recordText 1 payload true).2.parked,
      ∀ record, dlt.value = recordText record → record.dlqReason = .handlerFailed →
        Restores kafkajs payload v dlt.value := by
  intro hall
  have hrestores := hall poison "trip-service" (rideMessage "false") "false" (.bool false) rfl rfl
    _ (.head _) _ rfl rfl
  obtain ⟨htrue, -⟩ := (@restores_iff kafkajs "trip-service" _ _ (.bool false) (fun _ => rfl)
    ⟨rfl, rfl, rfl, rfl, rfl⟩ rfl trivial).mp hrestores
  cases htrue

end ReplayDlq

end RydTrip
