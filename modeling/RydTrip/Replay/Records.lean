import RydTrip.EventConsumer.Parking
import RydTrip.Json.Parse

/-!
# Records as text

A dead letter record is on its topic as the text that `JSON.stringify` gives,
and `eachMessage` of `scripts/replay-dlq.ts` parses that text again.  Here the
envelope is any JSON value and a key is any text, as the consumer has them.

`eachMessage` is given for any value of a message, since nothing keeps other
producers from the topic.  It rejects where a log line cannot print a value, and
where kafkajs or the broker do not take what is sent.  `Script` has the same
handler for the records of the services, after parsing.
-/

namespace RydTrip

namespace ReplayDlq

open EventConsumer.Kafka
open Json (JsString Text Value)

/-! ## The text of a record -/

/-- `n` in decimal, with at least `width` digits. -/
def padded (width n : ℕ) : Text :=
  List.replicate (width - (Nat.toDigits 10 n).length) '0' ++ Nat.toDigits 10 n

/-- The year, month and day after `days` days since 1970, in the Gregorian
calendar.  A year is counted from its March, within eras of 400 years. -/
def civil (days : ℕ) : ℕ × ℕ × ℕ :=
  let z := days + 719468
  let doe := z % 146097
  let yoe := (doe - doe / 1460 + doe / 36524 - doe / 146096) / 365
  let doy := doe - (365 * yoe + yoe / 4 - yoe / 100)
  let mp := (5 * doy + 2) / 153
  let month := if mp < 10 then mp + 3 else mp - 9
  (yoe + z / 146097 * 400 + (if month ≤ 2 then 1 else 0), month, doy - (153 * mp + 2) / 5 + 1)

/-- `toISOString` of a date, from its milliseconds. -/
def toISOString (ms : ℕ) : Text :=
  let (year, month, day) := civil (ms / 86400000)
  (if year < 10000 then padded 4 year else '+' :: padded 6 year) ++
    '-' :: padded 2 month ++ '-' :: padded 2 day ++
    'T' :: padded 2 (ms / 3600000 % 24) ++ ':' :: padded 2 (ms / 60000 % 60) ++
    ':' :: padded 2 (ms / 1000 % 60) ++ '.' :: padded 3 (ms % 1000) ++ ['Z']

/-- A string of the program as a JavaScript string. -/
def jsString (s : String) : JsString := .ofText s.toList

def nullable : Option String → Value
  | none => .null
  | some s => .string (jsString s)

def jsNumber (n : ℕ) : Value := .number (.ofDecimal false n 0)

def reasonText : DlqReason → String
  | .malformedJson => "malformed-json"
  | .handlerFailed => "handler-failed"

/-- The record that `parkOnDlq` writes, field by field. -/
def fields (record : DlqRecord Value) : List (JsString × Value) :=
  [(jsString "dlqReason", .string (jsString (reasonText record.dlqReason))),
    (jsString "envelope", record.envelope.getD .null),
    (jsString "rawValue", nullable record.rawValue),
    (jsString "attempts", jsNumber record.attempts),
    (jsString "errorMessage", .string (jsString record.errorMessage)),
    (jsString "consumerGroup", .string (jsString record.consumerGroup)),
    (jsString "originalTopic", .string (jsString record.originalTopic)),
    (jsString "originalPartition", jsNumber record.originalPartition),
    (jsString "originalOffset", .string (jsString record.originalOffset)),
    (jsString "originalKey", nullable record.originalKey),
    (jsString "failedAt", .string (.ofText (toISOString record.failedAt)))]

/-- The value of the message that holds a record. -/
def recordText (record : DlqRecord Value) : String := .ofList (Value.object (fields record)).text

/-! ## The handler -/

/-- What is handed to `producer.send`.  A field that the record does not have is
undefined. -/
structure Sent where
  topic : Option Value
  key : Option Value
  value : String

/-- The counters of the script, whether its promise is resolved, and what it has
sent, newest first. -/
structure Totals where
  seen : ℕ
  replayed : ℕ
  skipped : ℕ
  resolved : Bool
  sent : List Sent

def Totals.start : Totals := ⟨0, 0, 0, false, []⟩

/-- The test at the end of the handler. -/
def Totals.finish (w : Totals) (highWatermark : ℕ) : Totals :=
  if highWatermark ≤ w.seen then { w with resolved := true } else w

/-- `console.log` of a template literal, by the values in it.  What is undefined
prints. -/
def log (values : List (Option Value)) : Except String Unit :=
  if values.all fun v => v.all Value.printable then .ok ()
  else .error "Cannot convert object to primitive value"

/-- The record is counted, once its line is printed. -/
def Totals.close (w : Totals) (highWatermark : ℕ) (line : Except String Unit) (counted : Totals) :
    Except String Unit × Totals :=
  match line with
  | .error message => (.error message, w)
  | .ok () => (.ok (), counted.finish highWatermark)

/-- The values in the line of a record without an envelope. -/
def skippedLine (record : Value) : List (Option Value) :=
  [record.get (jsString "dlqReason"), record.get (jsString "originalTopic")]

/-- The values in the line of a dry run. -/
def dryRunLine (record envelope : Value) : List (Option Value) :=
  [envelope.get (jsString "eventId"), envelope.get (jsString "eventType"),
    record.get (jsString "originalTopic"), record.get (jsString "attempts"),
    record.get (jsString "errorMessage")]

/-- The values in the line after a send. -/
def replayedLine (record envelope : Value) : List (Option Value) :=
  [envelope.get (jsString "eventId"), envelope.get (jsString "eventType"),
    record.get (jsString "originalTopic")]

/-- The message for a record with this envelope. -/
def republished (record envelope : Value) : Sent :=
  ⟨record.get (jsString "originalTopic"), record.get (jsString "originalKey"),
    .ofList envelope.text⟩

section Handler

variable (takes : Sent → Except String Unit)

/-- `producer.send`.  `takes` has the error of a message that the client or the
broker rejects whenever it is sent, and `fault` is the outcome for one that it
takes. -/
def send (fault : Process.Fault) (sent : Sent) (w : Totals) : Except String Unit × Totals :=
  match takes sent with
  | .error message => (.error message, w)
  | .ok () => fault.settle w () { w with sent := sent :: w.sent }

/-- The part of `eachMessage` behind the parsing, for a record that is not
`null`. -/
def replayRecord (dryRun : Bool) (highWatermark : ℕ) (fault : Process.Fault) (record : Value)
    (w : Totals) : Except String Unit × Totals :=
  match (record.get (jsString "envelope")).filter Value.truthy with
  | none => w.close highWatermark (log (skippedLine record)) { w with skipped := w.skipped + 1 }
  | some envelope =>
      if dryRun then
        w.close highWatermark (log (dryRunLine record envelope))
          { w with replayed := w.replayed + 1 }
      else
        match send takes fault (republished record envelope) w with
        | (.error message, w) => (.error message, w)
        | (.ok (), w) =>
            w.close highWatermark (log (replayedLine record envelope))
              { w with replayed := w.replayed + 1 }

/-- `eachMessage` on a message with this value. -/
def eachMessage (dryRun : Bool) (highWatermark : ℕ) (fault : Process.Fault)
    (value : Option String) (w : Totals) : Except String Unit × Totals :=
  let w := { w with seen := w.seen + 1 }
  match truthy value with
  | none => (.ok (), w)
  | some raw =>
      match Json.parse raw.toList with
      | none => (.ok (), { w with skipped := w.skipped + 1 })
      | some .null => (.error "Cannot read properties of null (reading 'envelope')", w)
      | some record => replayRecord takes dryRun highWatermark fault record w

end Handler

/-- The messages that kafkajs does not reject by itself: the topic is a string
that is not empty, and the key is a string or not there. -/
def kafkajs (sent : Sent) : Except String Unit :=
  match sent.topic, sent.key with
  | some (.string []), _ => .error "Invalid topic"
  | some (.string _), none => .ok ()
  | some (.string _), some .null => .ok ()
  | some (.string _), some (.string _) => .ok ()
  | _, _ => .error "Invalid topic or key"

/-! ## Facts about the handler -/

/-- A log line can be printed. -/
def Prints (line : List (Option Value)) : Prop := ∀ v, some v ∈ line → v.printable = true

theorem prints_cons {v : Option Value} {line : List (Option Value)} :
    Prints (v :: line) ↔ (∀ u ∈ v, u.printable = true) ∧ Prints line := by
  constructor
  · intro h
    exact ⟨fun u hu => h u (List.mem_cons.mpr (.inl hu.symm)),
      fun u hu => h u (List.mem_cons_of_mem _ hu)⟩
  · rintro ⟨hfirst, hrest⟩ u hu
    rcases List.mem_cons.mp hu with heq | hu
    · exact hfirst u heq.symm
    · exact hrest u hu

theorem log_isOk {line : List (Option Value)} : (log line).isOk = true ↔ Prints line := by
  unfold log Prints
  split
  · next h => exact iff_of_true rfl fun v hv => List.all_eq_true.mp h (some v) hv
  · next h =>
      refine iff_of_false nofun fun hprints => h (List.all_eq_true.mpr fun v hv => ?_)
      cases v with
      | none => rfl
      | some v => exact hprints v hv

@[simp] theorem Totals.finish_sent (w : Totals) (highWatermark : ℕ) :
    (w.finish highWatermark).sent = w.sent := by
  unfold Totals.finish
  split
  · rfl
  · rfl

theorem Totals.close_isOk (w : Totals) (highWatermark : ℕ) (line : Except String Unit)
    (counted : Totals) : (w.close highWatermark line counted).1.isOk = line.isOk := by
  cases line with
  | error message => rfl
  | ok done => rfl

/-- Counting a record sends nothing. -/
theorem Totals.close_sent (w : Totals) (highWatermark : ℕ) (line : Except String Unit)
    {counted : Totals} (h : counted.sent = w.sent) :
    (w.close highWatermark line counted).2.sent = w.sent := by
  cases line with
  | error message => rfl
  | ok done => exact (counted.finish_sent highWatermark).trans h

/-- For a record that is not `null`, the handler is `replayRecord`. -/
theorem eachMessage_eq {takes : Sent → Except String Unit} {dryRun : Bool} {highWatermark : ℕ}
    {fault : Process.Fault} {value : Option String} {raw : String} {record : Value} {w : Totals}
    (hvalue : truthy value = some raw) (hparse : Json.parse raw.toList = some record)
    (hne : record ≠ .null) :
    eachMessage takes dryRun highWatermark fault value w =
      replayRecord takes dryRun highWatermark fault record { w with seen := w.seen + 1 } := by
  unfold eachMessage
  dsimp only
  rw [hvalue]
  dsimp only
  rw [hparse]
  cases record with
  | null => exact absurd rfl hne
  | bool b => rfl
  | number x => rfl
  | string s => rfl
  | array elements => rfl
  | object members => rfl

end ReplayDlq

end RydTrip
