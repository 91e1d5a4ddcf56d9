import TopicConsumer.Consumer

namespace TopicConsumer

inductive Dropping where
  | messages
  | errors
  | both
deriving DecidableEq, Repr

inductive StreamState where
  | ok
  | pending
  | closed
deriving DecidableEq, Repr

inductive ScenarioStep (α : Type) where
  | createTopic (topic : String) (partitions : Nat)
  | produce (key : PartitionKey) (payloads : List Bytes)
  | failPartition (key : PartitionKey) (reason : String)
  | failGroup (group reason : String)
  | rebalance
  | refuseConnections (refuse : Bool)
  | refusePartition (key : PartitionKey)
  | failClose (reason : String)
  | highWaterMark (key : PartitionKey)
  | committed (group : String) (key : PartitionKey)
  | sessions (group : String)
  | gauge (labels : GaugeLabels)
  | gather
  | advance (nanos : Nat)
  | cancel (token : String)
  | childToken (token child : String)
  | create (id : String) (factory : Factory α) (byConfig : Bool) (connector : Connector)
  | consume (id token : String)
  | receive (id : String) (n : Nat) (ack : Bool)
  | errors (id : String) (n : Nat)
  | drain (id : String) (ack sorted : Bool)
  | acknowledge (id : String) (index : Nat)
  | close (id : String)
  | drop (id : String)
  | dropStreams (id : String) (which : Dropping)
  | scriptFatal (id : String) (reason : Option String)
  | openDirect (id : String)
  | partitions (id topic : String)
  | openReader (id reader : String) (key : PartitionKey) (start : StartOffset)
  | closeDirect (id : String)
  | readerNext (reader : String)
  | closeReader (reader : String)
  | openGroup (id : String) (settings : Settings)
  | closeGroup (id : String)
  | fatal (id : String)
  | runSession (id run : String) (topics : List String) (token : String) (take : Option Nat)
      (failure : Option String) (ack : Bool)
  | sessionState (run : String)

inductive ScenarioAnswer (α : Type) where
  | result (result : Except Failure Unit)
  | offsets (offsets : List (Except Failure Int))
  | number (value : Int)
  | absent
  | truth (value : Bool)
  | gathered (gauge : Gauge)
  | config (config : Config α)
  | capacity (messages errors : Nat)
  | messages (messages : List (Message α × Option (Except Failure Unit))) (state : StreamState)
  | errors (errors : List Failure) (state : StreamState)
  | drained (messages : List (Message α)) (errors : List Failure) (messageState errorState : StreamState)
  | noHandle
  | partitions (partitions : List Int)
  | reader (key : PartitionKey) (high : Int)
  | record (record : Record) (high : Int)
  | pending
  | ended
  | noFailure
  | session (result : Option (Except Failure Unit)) (seen : List (Record × Int))
  | unknown

/-- What a step answers, and what it left behind. -/
structure ScenarioReport (α : Type) where
  answer : ScenarioAnswer α
  openedReaders : Nat
  closedReaders : Nat
  closedClients : Nat
  logs : List String
  calls : Table String (List ClientCall)

end TopicConsumer
