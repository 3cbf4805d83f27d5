import RydTrip.EventConsumer.Parking

/-!
# The replay script

`main` of `scripts/replay-dlq.ts`: every record that is on a dead letter topic
when the script starts is read from the beginning, and each envelope that can be
recovered goes back to its original topic.  Only `parkOnDlq` writes to such a
topic, so a record can be parsed, and what the log lines print of it are strings
and numbers.  If a `send` rejects, kafkajs delivers the record again, and the
handler counts it again.
-/

namespace RydTrip

namespace Replay

open Process EventConsumer.Kafka

/-- A message of an event topic. -/
structure Message where
  key : Option String
  envelope : EventEnvelope
  deriving DecidableEq, Repr

namespace Script

structure Args where
  topic : String
  dryRun : Bool
  deriving DecidableEq, Repr

inductive Cmd where
  | fetchTopicOffsets (topic : String)
  | nextMessage (topic : String) (offset : Nat)
  | send (topic : String) (message : Message)
  deriving DecidableEq, Repr

/-- A topic that is not there has no offsets. -/
@[reducible] def Reply : Cmd → Type
  | .fetchTopicOffsets _ => Option Nat
  | .nextMessage .. => DlqRecord EventEnvelope
  | .send .. => Except String Unit

abbrev ScriptProg (α : Type) : Type := Prog Cmd Reply String α

def eachMessage (dryRun : Bool) (record : DlqRecord EventEnvelope) : ScriptProg Unit :=
  match record.envelope with
  | none => pure ()
  | some envelope =>
      if dryRun then pure ()
      else do
        let sent : Except String Unit ← Prog.perform
          (Cmd.send record.originalTopic ⟨record.originalKey, envelope⟩)
        match sent with
        | .ok () => pure ()
        | .error message => throw message

/-- The messages from `offset` on, after `seen` calls of the handler.  The promise
is resolved when a call that does not reject has brought their number up to the
high watermark.  After `deliveries` more calls the script is stopped. -/
def readFrom (args : Args) (highWatermark : Nat) :
    (deliveries seen offset : Nat) → ScriptProg Unit
  | 0, _, _ => pure ()
  | deliveries + 1, seen, offset => do
      let record : DlqRecord EventEnvelope ← Prog.perform (Cmd.nextMessage args.topic offset)
      let outcome ← (eachMessage args.dryRun record).attempt
      match outcome with
      | .error _ => readFrom args highWatermark deliveries (seen + 1) offset
      | .ok () =>
          if highWatermark ≤ seen + 1 then pure ()
          else readFrom args highWatermark deliveries (seen + 1) (offset + 1)

def main (args : Args) (deliveries : Nat) : ScriptProg Unit := do
  let highWatermark : Option Nat ← Prog.perform (Cmd.fetchTopicOffsets args.topic)
  match highWatermark with
  | none => pure ()
  | some highWatermark =>
      if highWatermark = 0 then pure ()
      else readFrom args highWatermark deliveries 0 0

end Script

end Replay

end RydTrip
