import TopicConsumer.Scenario.Life

namespace TopicConsumer

namespace Scenario

variable {α : Type}

/-- Lets a reader read until it has a record or waits. -/
private def readNext (env : Environment) : Nat → Reader → Stage → Environment × Reader × Found
  | 0, reader, stage => (env, reader, .going stage)
  | fuel + 1, reader, stage =>
    match reader.source.step env.broker true stage with
    | none => (env, reader, .going stage)
    | some (broker, source, found) =>
      let env := { env with broker := broker }
      let reader := { reader with source := source }
      match found with
      | .going stage => readNext env fuel reader stage
      | found => (env, reader, found)

def readerNext (s : Scenario α) (name : String) : Run α :=
  match s.readers.get? name with
  | none => (.unknown, s)
  | some reader =>
    if reader.closed then (.ended, s)
    else
      let (env, reader, found) := readNext s.world.env 8 reader .marking
      let s := { s with world := { s.world with env := env }, readers := Table.set name reader s.readers }
      match found with
      | .going _ => (.pending, s)
      | .record record => (.record record (reader.source.highWaterMark env.broker), s)
      | .failed failure => (.result (.error failure), s)
      | .ended => (.ended, s)

def closeReader (s : Scenario α) (name : String) : Run α :=
  match s.readers.get? name with
  | none => (.unknown, s)
  | some reader =>
    let (result, reader, env) := s.world.env.closeReader reader
    (.result result,
      { s with world := { s.world with env := env }, readers := Table.set name reader s.readers })

def runSession (s : Scenario α) (id run : String) (topics : List String) (tokenName : String)
    (take : Option Nat) (failure : Option String) (ack : Bool) : Run α :=
  let (token, s) := s.token tokenName
  match s.groupClients.get? id with
  | none => (.unknown, s)
  | some client =>
    let collect : CollectRun α := { acknowledging := ack, take := take, failure := failure }
    let (env, collect) := collect.start s.world.env client topics token
    ok { s with
      world := { s.world with env := env, collects := s.world.collects ++ [collect] }
      collects := Table.set run s.world.collects.length s.collects }

def sessionState (s : Scenario α) (run : String) : Run α :=
  match s.collects.get? run with
  | none => (.unknown, s)
  | some i =>
    match s.world.collects[i]? with
    | none => (.unknown, s)
    | some collect =>
      let (seen, collect') := collect.sightings
      (.session collect.result seen,
        { s with world := s.world.setCollect i (s.world.env, collect') })

private def named (result : Except Failure Nat) (s : Scenario α)
    (name : Nat → Scenario α → Scenario α) : Run α :=
  match result with
  | .ok client => ok (name client s)
  | .error failure => (.result (.error failure), s)

private def answerOf (f : β → ScenarioAnswer α) : Except Failure β → ScenarioAnswer α
  | .ok b => f b
  | .error failure => .result (.error failure)

private def produceAll (b : Broker) (key : PartitionKey) :
    List Bytes → List (Except Failure Int) → List (Except Failure Int) × Broker
  | [], out => (out.reverse, b)
  | payload :: rest, out =>
    match b.produce key payload with
    | .ok (offset, b) => produceAll b key rest (.ok offset :: out)
    | .error failure => produceAll b key rest (.error failure :: out)

def apply (s : Scenario α) : ScenarioStep α → Run α
  | .createTopic topic partitions => ok (s.changeBroker (·.createTopic topic partitions))
  | .produce key payloads =>
    let (offsets, broker) := produceAll s.world.env.broker key payloads []
    (.offsets offsets, s.changeBroker fun _ => broker)
  | .failPartition key reason =>
    match s.world.env.broker.failPartition key reason with
    | .ok broker => ok (s.changeBroker fun _ => broker)
    | .error failure => (.result (.error failure), s)
  | .failGroup group reason => ok (s.changeEnv (·.failGroup group reason))
  | .rebalance => ok (s.changeBroker (·.rebalance))
  | .refuseConnections refuse => ok (s.changeBroker fun b => { b with refusing := refuse })
  | .refusePartition key => ok (s.changeBroker (·.refusePartition key))
  | .failClose reason => ok (s.changeBroker fun b => { b with closeFailure := some reason })
  | .highWaterMark key => (.number (s.world.env.broker.highWaterMark key), s)
  | .committed group key =>
    match s.world.env.broker.committedOffset group key with
    | some offset => (.number offset, s)
    | none => (.absent, s)
  | .sessions group => (.number (s.world.env.broker.sessionCount group), s)
  | .gauge labels =>
    let (value, gauge) := Gauge.read s.world.env.gauge labels
    (.number value, s.changeEnv fun env => { env with gauge := gauge })
  | .gather => (.gathered s.world.env.gauge, s)
  | .advance nanos => ok { s with world := s.world.advance nanos }
  | .cancel name =>
    let (token, s) := s.token name
    ok (s.changeEnv (·.cancel token))
  | .childToken name child =>
    let (parent, s) := s.token name
    let (token, tokens) := s.world.env.tokens.derive parent
    ok { s.changeEnv fun env => { env with tokens := tokens } with
      tokens := Table.set child token s.tokens }
  | .create id factory byConfig connector => s.create id factory byConfig connector
  | .consume id token => s.consume id token
  | .receive id n ack => s.receiveSome id ((s.member? id).bind (·.streams)) ack n []
  | .errors id n => s.errorsSome ((s.member? id).bind (·.streams)) n []
  | .drain id ack sorted => s.drain id ((s.member? id).bind (·.streams)) ack sorted
  | .acknowledge id index => s.acknowledge id index
  | .close id => s.close id
  | .drop id => ok { s with members := Table.modify id (fun m => { m with consumer := none }) s.members }
  | .dropStreams id which => ok (s.dropReceivers ((s.member? id).bind (·.streams)) which)
  | .scriptFatal id reason => s.scriptFatal id reason
  | .openDirect id =>
    let (result, env) := s.world.env.openDirect .broker []
    named result (s.changeEnv fun _ => env) fun client s =>
      { s with directClients := Table.set id client s.directClients }
  | .partitions id topic =>
    match s.directClients.get? id with
    | none => (.unknown, s)
    | some client => (answerOf .partitions (s.world.env.partitions client topic).1, s)
  | .openReader id reader key start =>
    match s.directClients.get? id with
    | none => (.unknown, s)
    | some client =>
      let (result, env) := s.world.env.openReader client key start
      let s := s.changeEnv fun _ => env
      match result with
      | .error failure => (.result (.error failure), s)
      | .ok r =>
        (.reader key (r.source.highWaterMark env.broker),
          { s with readers := Table.set reader r s.readers })
  | .closeDirect id =>
    match s.directClients.get? id with
    | none => (.unknown, s)
    | some client =>
      let (result, env) := s.world.env.closeDirect client
      (.result result, s.changeEnv fun _ => env)
  | .readerNext reader => s.readerNext reader
  | .closeReader reader => s.closeReader reader
  | .openGroup id settings =>
    let (result, env) := s.world.env.openGroup .broker settings
    named result (s.changeEnv fun _ => env) fun client s =>
      { s with groupClients := Table.set id client s.groupClients }
  | .closeGroup id =>
    match s.groupClients.get? id with
    | none => (.unknown, s)
    | some client =>
      let (result, env) := s.world.env.closeGroup client
      (.result result, s.changeEnv fun _ => env)
  | .fatal id =>
    match s.groupClients.get? id with
    | none => (.unknown, s)
    | some client =>
      match (s.world.env.nextFatal client true).or (s.world.env.nextFatal client false) with
      | none => (.pending, s)
      | some (none, env) => (.noFailure, s.changeEnv fun _ => env)
      | some (some failure, env) => (.result (.error failure), s.changeEnv fun _ => env)
  | .runSession id run topics token take failure ack => s.runSession id run topics token take failure ack
  | .sessionState run => s.sessionState run

/-- The calls on each consumer's clients, those that close readers last and by their partition. -/
private def callTable (calls : List (String × ClientCall)) : Table String (List ClientCall) :=
  let partition : ClientCall → Option Int
    | .closeReader p => some p
    | _ => none
  let owners := calls.foldl (fun ids c => if c.1 ∈ ids then ids else ids ++ [c.1]) []
  owners.map fun id =>
    let own := (calls.filter (·.1 = id)).map (·.2)
    let closes := (own.filter fun c => (partition c).isSome).mergeSort fun a b =>
      (partition a).getD 0 ≤ (partition b).getD 0
    (id, own.filter (fun c => (partition c).isNone) ++ closes)

def step (s : Scenario α) (step : ScenarioStep α) : ScenarioReport α × Scenario α :=
  let s := s.changeEnv fun env => { env with logs := [], calls := [] }
  let (answer, s) := s.apply step
  let s := s.settle
  let broker := s.world.env.broker
  ({ answer := answer
     openedReaders := broker.openedReaders
     closedReaders := broker.closedReaders
     closedClients := broker.closedClients
     logs := sortedLines s.world.env.logs
     calls := callTable s.world.env.calls }, s)

end Scenario

end TopicConsumer
