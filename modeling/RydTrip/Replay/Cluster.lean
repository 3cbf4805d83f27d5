import RydTrip.DispatchService.Machine
import RydTrip.Process.Typestate
import RydTrip.RedisClient.IdempotencyStore
import RydTrip.Replay.Script
import RydTrip.TripService.Machine

/-!
# Topics, consumer groups and replays

Trip-service and dispatch-service as consumers of their topics, and the replay
script beside them, as one `Machine`.  A topic has one partition, which a group
reads in order, one message at a time, and a message whose handling rejects is
delivered again.  What a service parks goes to the dead letter topic of its
group.

Every dispatch that starts, and the mark that follows it, completes: Redis and
Kafka answer there.  The oracle finds the candidates, wins the reservations and
answers for driver-service.  The check of the ledger can fail, as can parking,
the database of trip-service and the script.
-/

namespace RydTrip

namespace Replay

open Process EventConsumer.Kafka

/-! ## Commands -/

inductive Group where
  | trip | dispatch
  deriving DecidableEq, Repr

namespace Group

def groupId : Group → String
  | .trip => TripService.consumerName
  | .dispatch => Dispatch.RideRequestedConsumer.consumerName

/-- The topics the group subscribes to. -/
def topics : Group → List KafkaTopic
  | .trip => [.rideRequested, .rideCancelled, .driverReserved, .driverRejected]
  | .dispatch => [.rideRequested]

end Group

/-- One await of a service or of the script.  `ack` ends the handling of a
message: the group goes on if it resolved, and starts over if it rejected. -/
inductive Cmd where
  | trip (c : TripService.Cmd)
  | dispatch (c : Dispatch.Cmd)
  | script (c : Script.Cmd)
  | ack (group : Group) (resolved : Bool)
  deriving DecidableEq, Repr

@[reducible] def Reply : Cmd → Type
  | .trip c => TripService.Reply c
  | .dispatch c => Dispatch.Reply c
  | .script c => Script.Reply c
  | .ack .. => Unit

/-! ## Programs -/

def serveTrip (c : TripService.Cmd) : Prog Cmd Reply TripService.TripError (TripService.Reply c) :=
  Prog.perform (Cmd.trip c)

def serveDispatch (c : Dispatch.Cmd) : Prog Cmd Reply Dispatch.DispatchError (Dispatch.Reply c) :=
  Prog.perform (Cmd.dispatch c)

def serveScript (c : Script.Cmd) : Prog Cmd Reply String (Script.Reply c) :=
  Prog.perform (Cmd.script c)

/-- A run of the script with that many calls of its handler at most, or the
delivery of a message to a group. -/
inductive Call where
  | replay (args : Script.Args) (deliveries : Nat)
  | deliver (group : Group) (topic : KafkaTopic) (message : Message)
  deriving DecidableEq, Repr

/-- The consumer's handling of a message. -/
def handling {ε : Type} (group : Group) (p : Prog Cmd Reply ε Unit) :
    Prog Cmd Reply String Unit := do
  let outcome ← p.attempt
  Prog.perform (Cmd.ack group outcome.isOk)

def Call.prog (cfg : Dispatch.Config) : Call → Prog Cmd Reply String Unit
  | .replay args deliveries => (Script.main args deliveries).expand serveScript
  | .deliver .trip _ message =>
      handling .trip ((TripService.RideEventsConsumer.consume EventConsumer.defaultMaxAttempts
        message.envelope).expand serveTrip)
  | .deliver .dispatch _ message =>
      handling .dispatch ((Dispatch.RideRequestedConsumer.consume cfg
        EventConsumer.defaultMaxAttempts message.envelope).expand serveDispatch)

/-! ## The world -/

structure Cluster where
  topics : String → List Message
  /-- The dead letter topics, oldest record first. -/
  dlts : String → List (DlqRecord EventEnvelope)
  offsets : Group → KafkaTopic → Nat
  /-- The message that the group is handling. -/
  inHand : Group → Option (KafkaTopic × Message)
  trips : TripService.TripHost
  ledger : IdempotencyStore
  /-- What dispatch-service has published, with the id of the event it was
  handling, newest first. -/
  outcomes : List (Nat × Dispatch.Outcome)
  now : Nat

/-- What is not determined by the code. -/
structure Oracle where
  fault : Fault := .none
  trip : TripService.Oracle := {}
  admitted : Bool := true
  candidates : List NearbyDriver := []
  won : Bool := true
  patchReply : PatchReply := .response 200
  /-- A `randomUUID`. -/
  eventId : Nat := 0

namespace Cluster

def produce (w : Cluster) (topic : String) (message : Message) : Cluster :=
  { w with topics := Function.update w.topics topic (w.topics topic ++ [message]) }

/-- The record that the group parks for the message in hand. -/
def dlqRecord (w : Cluster) (group : Group) (topic : KafkaTopic) (message : Message)
    (fields : DlqFields) : DlqRecord EventEnvelope where
  dlqReason := fields.dlqReason
  consumerGroup := group.groupId
  originalTopic := topic.text
  originalPartition := 0
  originalOffset := toString (w.offsets group topic)
  originalKey := message.key
  attempts := fields.attempts
  errorMessage := fields.errorMessage
  failedAt := w.now
  envelope := fields.envelope
  rawValue := fields.rawValue

/-- `parkOnDlq` -/
def parkOnDlq (w : Cluster) (group : Group) (fields : DlqFields) : Cluster :=
  match w.inHand group with
  | none => w
  | some (topic, message) =>
      let dlt := EventConsumer.Kafka.dlqTopic group.groupId
      { w with
        dlts := Function.update w.dlts dlt
          (w.dlts dlt ++ [w.dlqRecord group topic message fields]) }

/-- The outcome, published for the message in hand. -/
def publish (w : Cluster) (o : Oracle) (outcome : Dispatch.Outcome) (correlationId key : String) :
    Cluster :=
  match w.inHand .dispatch with
  | none => w
  | some (_, message) =>
      { w with outcomes := (message.envelope.eventId, outcome) :: w.outcomes }.produce
        outcome.topic.text
        ⟨some key, o.eventId, outcome.topic, correlationId, some outcome.payload⟩

/-- What else a command of trip-service does. -/
def afterTrip (w : Cluster) : (c : TripService.Cmd) → TripService.Reply c → Cluster
  | .park fields, .ok () => w.parkOnDlq .trip fields
  | _, _ => w

def execDispatch (o : Oracle) (w : Cluster) : (c : Dispatch.Cmd) → Dispatch.Reply c × Cluster
  | .enter .redis => (true, w)
  | .enter .driverService => (o.admitted, w)
  | .settle .. => ((), w)
  | .findNearby .. => (.ok o.candidates, w)
  | .tryReserve .. => (.ok o.won, w)
  | .patch .. => (o.patchReply, w)
  | .publish outcome correlationId key => (.ok (), w.publish o outcome correlationId key)
  | .wasProcessed consumerName eventId =>
      o.fault.settle w (w.ledger.wasProcessed w.now consumerName eventId) w
  | .markProcessed consumerName eventId =>
      (.ok (), { w with ledger := w.ledger.markProcessed w.now consumerName eventId })
  | .park fields => o.fault.settle w () (w.parkOnDlq .dispatch fields)

/-- The script waits for a message that is not there. -/
def execScript (o : Oracle) (w : Cluster) :
    (c : Script.Cmd) → Option (Script.Reply c × Cluster)
  | .fetchTopicOffsets topic =>
      some (if o.fault.isRefused then none else some (w.dlts topic).length, w)
  | .nextMessage topic offset => (w.dlts topic)[offset]?.map (·, w)
  | .send topic message => some (o.fault.settle w () (w.produce topic message))

/-- The group commits the offset of a message that it has resolved. -/
def acknowledge (w : Cluster) (group : Group) (resolved : Bool) : Cluster :=
  match w.inHand group with
  | none => w
  | some (topic, _) =>
      { w with
        inHand := Function.update w.inHand group none
        offsets :=
          if resolved then
            Function.update w.offsets group
              (Function.update (w.offsets group) topic (w.offsets group topic + 1))
          else w.offsets }

def exec (o : Oracle) (w : Cluster) : (c : Cmd) → Option (Reply c × Cluster)
  | .trip c =>
      let (r, trips) := w.trips.exec o.trip c
      some (r, { w with trips := trips }.afterTrip c r)
  | .dispatch c => some (w.execDispatch o c)
  | .script c => w.execScript o c
  | .ack group resolved => some ((), w.acknowledge group resolved)

/-- A group that is free takes the next message of one of its topics. -/
def start (w : Cluster) : Call → Option Cluster
  | .replay .. => some w
  | .deliver group topic message =>
      if topic ∈ group.topics ∧ w.inHand group = none ∧
          (w.topics topic.text)[w.offsets group topic]? = some message then
        some { w with inHand := Function.update w.inHand group (some (topic, message)) }
      else none

end Cluster

/-- The other services publish what they like, and time passes. -/
inductive Env where
  | produce (topic : String) (message : Message)
  | elapse (ms : Nat)
  deriving DecidableEq, Repr

def Cluster.env (w : Cluster) : Env → Cluster
  | .produce topic message => w.produce topic message
  | .elapse ms => { w with now := w.now + ms }

/-! ## The machine -/

def machine (cfg : Dispatch.Config) :
    Machine Cluster Call Cmd Reply String Unit Oracle Env where
  exec o c w := w.exec o c
  start call w := (w.start call).map fun w => (call.prog cfg, w)
  env a w := some (w.env a)

abbrev ClusterPool : Type := Pool Cluster Call Cmd Reply String Unit

abbrev ClusterAction : Type := Action Call Oracle Env

abbrev ClusterThread : Type := Thread Call Cmd Reply String Unit

/-- Empty topics, and nothing handled. -/
def initial (ttlSeconds : Nat) : ClusterPool where
  world :=
    { topics := fun _ => []
      dlts := fun _ => []
      offsets := fun _ _ => 0
      inHand := fun _ => none
      trips := .empty
      ledger := .new ttlSeconds
      outcomes := []
      now := 0 }
  threads _ := none

/-- What has been published while the event was handled. -/
def Cluster.outcomesFor (w : Cluster) (eventId : Nat) : List Dispatch.Outcome :=
  (w.outcomes.filter fun entry => entry.1 = eventId).map (·.2)

/-- No event is dispatched to an outcome more than once. -/
def AtMostOnce (w : Cluster) : Prop := ∀ eventId, (w.outcomesFor eventId).length ≤ 1

end Replay

end RydTrip
