import TopicConsumer.ClientSetup
import TopicConsumer.Cursor
import TopicConsumer.Gauge
import TopicConsumer.LogLine
import TopicConsumer.Token

namespace TopicConsumer

/-- How a session of a script ends after its claims. -/
inductive ScriptEnd where
  | ok
  | closed
  | failed (reason : String)
  | wait
deriving DecidableEq, Repr

/-- A session of a script: its claims are handled one after the other. -/
structure ScriptSession where
  claims : List Feed
  ending : ScriptEnd

structure ScriptReader where
  partition : Int
  feed : Feed
  openError : Option String := none
  closeError : Option String := none

/-- What the clients of one consumer do in the place of a broker. -/
structure Script where
  sessions : List ScriptSession := []
  readers : List ScriptReader := []
  connectError : Option String := none
  partitionsError : Option String := none
  closeError : Option String := none

inductive ClientCall where
  | group (settings : Settings)
  | direct (settings : Settings)
  | session (topics : List String)
  | partitions (topic : String)
  | openReader (topic : String) (partition : Int) (start : StartOffset)
  | close
  | closeReader (partition : Int)

/-- Where the clients of a consumer are opened: at the broker, with a script, under the consumer's name,
or at a cluster that never answers. Such a client is created of its properties, which may be refused. -/
inductive Connector where
  | broker
  | script (owner : String) (script : Script)
  | silent (create : Settings → Except Failure Unit)

def Connector.isScript : Connector → Bool
  | .script _ _ => true
  | _ => false

/-- A client that is a member of a group. A script's client knows how many sessions it has started, and
one at a silent cluster whether it has tried to subscribe. -/
inductive GroupService where
  | broker (group : String) (start : StartOffset)
  | script (owner : String) (script : Script) (started : Nat)
  | silent (subscribed : Bool)

structure GroupClient where
  service : GroupService
  /-- Fatal failures not yet told; `none` tells that there will be none. -/
  fatal : List (Option Failure) := []
  closed : Bool := false

inductive DirectService where
  | broker
  | script (owner : String) (script : Script)
  | silent

structure DirectClient where
  service : DirectService
  closed : Bool := false

def DirectClient.unanswered (c : DirectClient) : Failure :=
  if c.closed then .clientClosed else .kafka (.metadata .transport)

structure Reader where
  source : Source
  /-- The owner of the script that the reader follows and the failure of its close, if any. -/
  script : Option (String × Option String) := none
  closed : Bool := false

/-- What all consumers share. -/
structure Environment where
  broker : Broker := {}
  gauge : Gauge := []
  tokens : Tokens := {}
  groupClients : List GroupClient := []
  directClients : List DirectClient := []
  /-- The clock of timers, in nanoseconds. -/
  now : Nat := 0
  /-- The clock by which failing sessions are timed, in nanoseconds. -/
  wall : Nat := 0
  /-- How far that clock gets between two readings in a row. -/
  lapse : Nat := 0
  /-- What the runtime reports of the task of a claim that has panicked. -/
  panicReport : String := "task panicked"
  logs : List String := []
  calls : List (String × ClientCall) := []

namespace Environment

def cancelled (env : Environment) (token : Token) : Bool := env.tokens.isCancelled token

/-- The clock by which failing sessions are timed has been read, and is read again. -/
def reread (env : Environment) : Environment := { env with wall := env.wall + env.lapse }

def cancel (env : Environment) (token : Token) : Environment :=
  { env with tokens := env.tokens.cancel token }

def log (env : Environment) (line : String) : Environment := { env with logs := env.logs ++ [line] }

def call (env : Environment) (owner : String) (call : ClientCall) : Environment :=
  { env with calls := env.calls ++ [(owner, call)] }

private def brokerResult : Option String → Except Failure Unit
  | none => .ok ()
  | some reason => .error (.broker reason)

def openGroup (env : Environment) (connector : Connector) (settings : Settings) :
    Except Failure Nat × Environment :=
  let add (env : Environment) (service : GroupService) : Except Failure Nat × Environment :=
    (.ok env.groupClients.length, { env with groupClients := env.groupClients ++ [⟨service, [], false⟩] })
  match connector with
  | .broker =>
    match env.broker.connectGroup settings with
    | .error failure => (.error failure, env)
    | .ok (group, start) => add env (.broker group start)
  | .script owner script =>
    let env := env.call owner (.group settings)
    match brokerResult script.connectError with
    | .error failure => (.error failure, env)
    | .ok () => add env (.script owner script 0)
  | .silent create =>
    match create settings.withStatistics with
    | .error failure => (.error failure, env)
    | .ok () => add env (.silent false)

def groupClient? (env : Environment) (client : Nat) : Option GroupClient := env.groupClients[client]?

def groupClosed (env : Environment) (client : Nat) : Bool :=
  match env.groupClient? client with
  | none => true
  | some c => c.closed

def setGroupClient (env : Environment) (client : Nat) (c : GroupClient) : Environment :=
  { env with groupClients := env.groupClients.set client c }

def closeGroup (env : Environment) (client : Nat) : Except Failure Unit × Environment :=
  match env.groupClient? client with
  | none => (.ok (), env)
  | some c =>
    if c.closed then (.ok (), env)
    else
      let env := env.setGroupClient client { c with closed := true }
      match c.service with
      | .broker _ _ =>
        let (result, broker) := env.broker.closeClient
        (result, { env with broker := broker })
      | .script owner script _ => (brokerResult script.closeError, env.call owner .close)
      | .silent _ => (.ok (), env)

def failGroup (env : Environment) (group reason : String) : Environment :=
  { env with
    groupClients := env.groupClients.map fun c =>
      match c.service with
      | .broker g _ =>
        if g = group then { c with fatal := c.fatal ++ [some (.broker reason)] } else c
      | _ => c }

def failClient (env : Environment) (client : Nat) (failure : Option Failure) : Environment :=
  match env.groupClient? client with
  | none => env
  | some c => env.setGroupClient client { c with fatal := c.fatal ++ [failure] }

/-- What waiting for a fatal failure of a client gives: that there will be none, a failure, or nothing
yet. With `stop` it is the end of the client that comes, which may overtake a failure and be overtaken. -/
def nextFatal (env : Environment) (client : Nat) (stop : Bool) : Option (Option Failure × Environment) :=
  if stop then if env.groupClosed client then some (none, env) else none
  else
    match env.groupClient? client with
    | none => none
    | some c =>
      match c.fatal with
      | [] => none
      | failure :: rest => some (failure, env.setGroupClient client { c with fatal := rest })

def openDirect (env : Environment) (connector : Connector) (settings : Settings) :
    Except Failure Nat × Environment :=
  let add (env : Environment) (service : DirectService) : Except Failure Nat × Environment :=
    (.ok env.directClients.length, { env with directClients := env.directClients ++ [⟨service, false⟩] })
  match connector with
  | .broker =>
    match env.broker.connect with
    | .error failure => (.error failure, env)
    | .ok () => add env .broker
  | .script owner script =>
    let env := env.call owner (.direct settings)
    match brokerResult script.connectError with
    | .error failure => (.error failure, env)
    | .ok () => add env (.script owner script)
  | .silent create =>
    match create settings.withStatistics with
    | .error failure => (.error failure, env)
    | .ok () => add env .silent

def partitions (env : Environment) (client : Nat) (topic : String) :
    Except Failure (List Int) × Environment :=
  match env.directClients[client]? with
  | none => (.error .clientClosed, env)
  | some c =>
    match c.service with
    | .broker =>
      if c.closed then (.error .clientClosed, env)
      else ((env.broker.partitionCount topic).map fun n => (List.range n).map Int.ofNat, env)
    | .script owner script =>
      let env := env.call owner (.partitions topic)
      ((brokerResult script.partitionsError).map fun _ => script.readers.map (·.partition), env)
    | .silent => (.error c.unanswered, env)

def openBrokerReader (env : Environment) (key : PartitionKey) (start : StartOffset) :
    Except Failure Reader × Environment :=
  if key ∈ env.broker.refusedPartitions then
    (.error (.broker ("failed to get partition consumer " ++ Broker.keyText key)), env)
  else
    match Cursor.open? env.broker key (env.broker.startPosition key start) with
    | .error failure => (.error failure, env)
    | .ok cursor =>
      (.ok { source := .log cursor },
        { env with broker := { env.broker with openedReaders := env.broker.openedReaders + 1 } })

/-- Opens a reader of a partition. In a script the first reader listed for the partition counts. -/
def openReader (env : Environment) (client : Nat) (key : PartitionKey) (start : StartOffset) :
    Except Failure Reader × Environment :=
  match env.directClients[client]? with
  | none => (.error .clientClosed, env)
  | some c =>
    match c.service with
    | .broker => if c.closed then (.error .clientClosed, env) else env.openBrokerReader key start
    | .script owner script =>
      let env := env.call owner (.openReader key.1 key.2 start)
      match script.readers.find? (·.partition = key.2) with
      | none => (.error (.broker ("unknown partition " ++ Broker.keyText key)), env)
      | some r =>
        match brokerResult r.openError with
        | .error failure => (.error failure, env)
        | .ok () =>
          (.ok { source := .feed { r.feed with key := key }, script := some (owner, r.closeError) }, env)
    | .silent => (.error c.unanswered, env)

def closeReader (env : Environment) (reader : Reader) : Except Failure Unit × Reader × Environment :=
  if reader.closed then (.ok (), reader, env)
  else
    let reader := { reader with closed := true }
    match reader.script with
    | none =>
      (.ok (), reader,
        { env with broker := { env.broker with closedReaders := env.broker.closedReaders + 1 } })
    | some (owner, closeError) =>
      (brokerResult closeError, reader, env.call owner (.closeReader reader.source.key.2))

def closeReaderLogging (env : Environment) (reader : Reader) : Reader × Environment :=
  let (result, reader, env) := env.closeReader reader
  match result with
  | .ok () => (reader, env)
  | .error failure =>
    (reader, env.log (errorLine ("failed to close partition consumer " ++
      Broker.keyText reader.source.key ++ ": " ++ failure.message)))

def closeDirect (env : Environment) (client : Nat) : Except Failure Unit × Environment :=
  match env.directClients[client]? with
  | none => (.ok (), env)
  | some c =>
    if c.closed then (.ok (), env)
    else
      let env := { env with directClients := env.directClients.set client { c with closed := true } }
      match c.service with
      | .broker =>
        let (result, broker) := env.broker.closeClient
        (result, { env with broker := broker })
      | .script owner script => (brokerResult script.closeError, env.call owner .close)
      | .silent => (.ok (), env)

def measure (env : Environment) (group : String) (source : Source) (record : Record) :
    Except Overflow Environment :=
  let labels : GaugeLabels := ⟨group, record.topic, record.partition⟩
  match Gauge.measure env.gauge labels (source.highWaterMark env.broker) record.offset with
  | .ok (_, gauge) => .ok { env with gauge := gauge }
  | .error overflow => .error overflow

end Environment

end TopicConsumer
