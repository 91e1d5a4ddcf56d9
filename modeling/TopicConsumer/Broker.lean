import TopicConsumer.Config
import TopicConsumer.Watermarks

namespace TopicConsumer

/-- The changes of one log. -/
structure Channel where
  version : Nat := 0
  live : Bool := true
deriving DecidableEq, Repr

structure PartitionLog where
  records : List Bytes := []
  failure : Option String := none
  channel : Nat
deriving DecidableEq, Repr

/-- A broker that keeps everything in memory. Each partition has a channel on which changes of its log are counted. -/
structure Broker where
  topics : Table String (List PartitionLog) := []
  channels : List Channel := []
  /-- For a group and a partition, the offset the group reads next. -/
  committed : Table (String × PartitionKey) Int := []
  sessions : Table String Nat := []
  /-- Counts the rebalances. -/
  generation : Nat := 0
  refusing : Bool := false
  refusedPartitions : List PartitionKey := []
  closeFailure : Option String := none
  openedReaders : Nat := 0
  closedReaders : Nat := 0
  closedClients : Nat := 0

namespace Broker

def keyText (key : PartitionKey) : String := key.1 ++ "/" ++ toString key.2

def log? (b : Broker) (key : PartitionKey) : Option PartitionLog :=
  if key.2 < 0 then none
  else
    match b.topics.get? key.1 with
    | none => none
    | some logs => logs[key.2.toNat]?

def channel (b : Broker) (id : Nat) : Channel := b.channels[id]?.getD { live := false }

/-- Counts a change on a channel. -/
def touch (b : Broker) (id : Nat) : Broker :=
  { b with channels := b.channels.modify id fun c => { c with version := c.version + 1 } }

/-- Changes the log of a partition, which is counted on its channel. -/
def changeLog (b : Broker) (key : PartitionKey) (f : PartitionLog → PartitionLog) :
    Except Failure Broker :=
  match b.log? key with
  | none => .error (.broker ("unknown partition " ++ keyText key))
  | some log =>
    .ok ({ b with topics := Table.modify key.1 (·.modify key.2.toNat f) b.topics }.touch log.channel)

/-- Creates a topic with empty partitions. A topic of that name is replaced, which ends its channels;
what groups committed is kept. -/
def createTopic (b : Broker) (topic : String) (partitions : Nat) : Broker :=
  let old := ((b.topics.get? topic).getD []).map (·.channel)
  let channels := old.foldl (fun cs id => cs.modify id fun c => { c with live := false }) b.channels
  let logs : List PartitionLog :=
    (List.range partitions).map fun i => { channel := channels.length + i }
  { b with
    topics := Table.set topic logs b.topics
    channels := channels ++ List.replicate partitions {} }

def highWaterMark (b : Broker) (key : PartitionKey) : Int :=
  match b.log? key with
  | none => 0
  | some log => log.records.length

def produce (b : Broker) (key : PartitionKey) (payload : Bytes) : Except Failure (Int × Broker) :=
  match b.changeLog key fun log => { log with records := log.records ++ [payload] } with
  | .ok b => .ok (b.highWaterMark key - 1, b)
  | .error failure => .error failure

def failPartition (b : Broker) (key : PartitionKey) (reason : String) : Except Failure Broker :=
  b.changeLog key fun log => { log with failure := some reason }

def takeFailure (b : Broker) (key : PartitionKey) : Option (String × Broker) :=
  match b.log? key with
  | none => none
  | some log =>
    match log.failure with
    | none => none
    | some reason =>
      let clear (log : PartitionLog) := { log with failure := none }
      some (reason, { b with topics := Table.modify key.1 (·.modify key.2.toNat clear) b.topics })

def payload? (b : Broker) (key : PartitionKey) (offset : Int) : Option Bytes :=
  if offset < 0 then none
  else
    match b.log? key with
    | none => none
    | some log => log.records[offset.toNat]?

def partitionCount (b : Broker) (topic : String) : Except Failure Nat :=
  match b.topics.get? topic with
  | none => .error (.broker ("unknown topic '" ++ topic ++ "'"))
  | some logs => .ok logs.length

def watch (b : Broker) (key : PartitionKey) : Except Failure Nat :=
  match b.log? key with
  | none => .error (.broker ("unknown partition " ++ keyText key))
  | some log => .ok log.channel

def startPosition (b : Broker) (key : PartitionKey) : StartOffset → Int
  | .earliest => 0
  | .latest => b.highWaterMark key

def committedOffset (b : Broker) (group : String) (key : PartitionKey) : Option Int :=
  b.committed.get? (group, key)

/-- Where a group reads a partition: from what it committed, or else from the start. -/
def groupPosition (b : Broker) (group : String) (key : PartitionKey) (start : StartOffset) : Int :=
  (b.committedOffset group key).getD (b.startPosition key start)

/-- Takes the acknowledgment of a record: the group reads behind it, or further on if it already
does. -/
def accept (b : Broker) (ack : Ack) : Broker :=
  let key := (ack.group, ack.topic, ack.partition)
  let next := max ((b.committed.get? key).getD 0) (ack.offset + 1)
  { b with committed := Table.set key next b.committed }

def sessionCount (b : Broker) (group : String) : Nat := (b.sessions.get? group).getD 0

def startSession (b : Broker) (group : String) : Broker :=
  { b with sessions := Table.set group (b.sessionCount group + 1) b.sessions }

def rebalance (b : Broker) : Broker := { b with generation := b.generation + 1 }

def refusePartition (b : Broker) (key : PartitionKey) : Broker :=
  { b with refusedPartitions := key :: b.refusedPartitions }

def connect (b : Broker) : Except Failure Unit :=
  if b.refusing then .error (.broker "connection refused") else .ok ()

/-- Lets a client join the group that its settings name, and tells the group and where it starts. -/
def connectGroup (b : Broker) (settings : Settings) : Except Failure (String × StartOffset) :=
  match b.connect with
  | .error failure => .error failure
  | .ok () =>
    match settings.get? "group.id" with
    | none => .error (.invalidConfig "group.id is not set")
    | some group =>
      .ok (group, if settings.get? "auto.offset.reset" = some "latest" then .latest else .earliest)

def closeClient (b : Broker) : Except Failure Unit × Broker :=
  let result := match b.closeFailure with
    | some reason => .error (.broker reason)
    | none => .ok ()
  (result, { b with closedClients := b.closedClients + 1 })

end Broker

end TopicConsumer
