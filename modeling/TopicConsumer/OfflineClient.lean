import TopicConsumer.Failure
import TopicConsumer.Pattern
import TopicConsumer.Watermarks

namespace TopicConsumer

structure OfflineGroup where
  subscribed : Bool := false
  closed : Bool := false

/-- What became of a call: it returned, or it waits. -/
inductive Waiting (α : Type) where
  | returned (value : α)
  | pending

namespace OfflineGroup

/-- Whether something can be subscribed to: a topic with a name, or an expression for such names, which
begins with a caret. -/
def isSubject (topic : String) : Bool :=
  topic ≠ "" && (!"^".isPrefixOf topic || (Pattern.fault? topic).isNone)

/-- A subscription needs at least one topic, and every topic once. -/
def subscribe (topics : List String) : Except Failure Unit :=
  if topics ≠ [] ∧ topics.all isSubject ∧ topics.Nodup then .ok ()
  else .error (.kafka (.subscription "Local: Invalid argument or configuration"))

/-- Begins a session: the first call on an open client subscribes. -/
def enter (client : OfflineGroup) (topics : List String) : Except Failure Unit × OfflineGroup :=
  if client.closed then (.error .clientClosed, client)
  else if client.subscribed then (.ok (), client)
  else (subscribe topics, { client with subscribed := true })

/-- Runs a session, which ends at once if its token is cancelled and otherwise waits. -/
def consume (client : OfflineGroup) (topics : List String) (cancelled : Bool) :
    Waiting (Except Failure Unit) × OfflineGroup :=
  let (entered, client) := client.enter topics
  match entered with
  | .error failure => (.returned (.error failure), client)
  | .ok () => (if cancelled then .returned (.ok ()) else .pending, client)

def close (client : OfflineGroup) : OfflineGroup := { client with closed := true }

def closeWhileConsuming (client : OfflineGroup) (topics : List String) :
    Except Failure Unit × OfflineGroup :=
  let (entered, client) := client.enter topics
  match entered with
  | .error failure => (.error failure, client.close)
  | .ok () => (.error .clientClosed, client.close)

def fatal (client : OfflineGroup) : Waiting Unit :=
  if client.closed then .returned () else .pending

end OfflineGroup

structure OfflineReader where
  key : PartitionKey
  closed : Bool := false

structure OfflineDirect where
  closed : Bool := false
  readers : List OfflineReader := []

namespace OfflineDirect

def partitions (client : OfflineDirect) : Except Failure (List Int) :=
  if client.closed then .error .clientClosed else .error (.kafka (.metadata .transport))

def topicLimit : Nat := 512

/-- Opens a reader. A partition has one open reader at a time. -/
def openReader (client : OfflineDirect) (key : PartitionKey) : Except Failure Nat × OfflineDirect :=
  if client.closed then (.error .clientClosed, client)
  else if topicLimit < key.1.utf8ByteSize then
    (.error (.broker ("failed to get partition consumer " ++ key.1 ++ "/" ++ toString key.2)), client)
  else if client.readers.any fun r => r.key = key && !r.closed then
    (.error (.kafka (.subscription "_CONFLICT")), client)
  else (.ok client.readers.length, { client with readers := client.readers ++ [{ key := key }] })

def about (client : OfflineDirect) (reader : Nat) : Option (PartitionKey × Int) :=
  client.readers[reader]?.map fun r => (r.key, 0)

def next (client : OfflineDirect) (reader : Nat) : Waiting Unit :=
  if (client.readers[reader]?.any (·.closed)) then .returned () else .pending

/-- Closes a reader. After its client it has nothing left to give up, which is told once. -/
def closeReader (client : OfflineDirect) (reader : Nat) : Except Failure Unit × OfflineDirect :=
  match client.readers[reader]? with
  | none => (.ok (), client)
  | some r =>
    if r.closed then (.ok (), client)
    else
      let client' := { client with readers := client.readers.set reader { r with closed := true } }
      if client.closed then (.error (.kafka (.subscription "_INVALID_ARG")), client') else (.ok (), client')

def close (client : OfflineDirect) : OfflineDirect := { client with closed := true }

end OfflineDirect

end TopicConsumer
