import TopicConsumer.Record
import TopicConsumer.Retry
import TopicConsumer.Settings

namespace TopicConsumer

/-- Where to start reading a partition without a committed offset. -/
inductive StartOffset where
  | earliest
  | latest
deriving DecidableEq, Repr

namespace StartOffset

def name : StartOffset → String
  | earliest => "earliest"
  | latest => "latest"

def place : StartOffset → String
  | earliest => "Beginning"
  | latest => "End"

end StartOffset

/-- How the records of a partition that is read without a group are decoded: each by a task of its
own, or one after the other. -/
inductive DecodeMode where
  | concurrent
  | ordered
deriving DecidableEq, Repr

def DecodeMode.name : DecodeMode → String
  | concurrent => "concurrent"
  | ordered => "ordered"

structure Config (α : Type) where
  brokers : List String
  topic : String
  group : Option String
  bufferSize : Nat
  decoder : Decoder α
  client : Settings
  start : StartOffset
  decodeMode : DecodeMode
  retry : RetryPolicy

def sessionTimeoutKey : String := "session.timeout.ms"

/-- The session timeout of a consumer for which none is chosen, in milliseconds. -/
def defaultSessionTimeout : Nat := 6000

/-- The client properties of a consumer before any option. -/
def defaultClient (name : String) : Settings :=
  [("client.id", name), (sessionTimeoutKey, toString defaultSessionTimeout),
    ("enable.partition.eof", "false")]

namespace Config

/-- The capacity of the message queue and of the error queue. -/
def queueCapacity (config : Config α) : Nat := max config.bufferSize 1

def bootstrap (config : Config α) : String := ",".intercalate config.brokers

/-- The client properties for joining a group. Offsets are stored when a message is acknowledged, and
committed in the background. -/
def groupClient (config : Config α) (group : String) : Settings :=
  config.client
    |> Table.set "bootstrap.servers" config.bootstrap
    |> Table.set "group.id" group
    |> Table.set "auto.offset.reset" config.start.name
    |> Table.set "enable.auto.commit" "true"
    |> Table.set "enable.auto.offset.store" "false"

def directClient (config : Config α) : Settings :=
  config.client
    |> Table.set "bootstrap.servers" config.bootstrap
    |> Table.set "enable.auto.commit" "false"

end Config

end TopicConsumer
