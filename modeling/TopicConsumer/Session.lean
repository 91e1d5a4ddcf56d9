import TopicConsumer.Environment
import TopicConsumer.OfflineClient

namespace TopicConsumer

/-- Where the handler of a claim stands with its next record. -/
inductive ClaimPhase (α : Type) where
  | asking (stage : Stage)
  | taken (record : Record)
  | measured (record : Record)
  | sending (message : Message α) (ticket : Nat)
  | finished (result : Except Failure Unit)
  | crashed

structure Claim (α : Type) where
  source : Source
  /-- The group whose acknowledgments the records carry. -/
  ackGroup : Option String
  phase : ClaimPhase α := .asking .marking
  count : Nat := 0
  /-- Whether the session knows that the handler has returned. -/
  joined : Bool := false

namespace Claim

def result? (claim : Claim α) : Option (Except Failure Unit) :=
  match claim.phase with
  | .finished result => some result
  | _ => none

/-- What the task of a handler that has returned or panicked ends with. -/
def outcome? (claim : Claim α) (report : String) : Option (Except Failure Unit) :=
  match claim.phase with
  | .finished result => some result
  | .crashed => some (.error (.broker ("claim task failed: " ++ report)))
  | _ => none

def isOver (claim : Claim α) : Bool :=
  match claim.phase with
  | .finished _ => true
  | .crashed => true
  | _ => false

def finish (claim : Claim α) (result : Except Failure Unit) : Claim α :=
  { claim with phase := .finished result }

def ask (claim : Claim α) (broker : Broker) (stage : Stage) : Option (Broker × Claim α × Found) :=
  (claim.source.step broker false stage).map fun (broker, source, found) =>
    let claim := { claim with source := source }
    match found with
    | .going stage => (broker, { claim with phase := .asking stage }, found)
    | .record record =>
      let record := { record with
        ack := claim.ackGroup.map fun g => ⟨g, record.topic, record.partition, record.offset⟩ }
      (broker, { claim with phase := .taken record, count := claim.count + 1 }, .record record)
    | .failed _ => (broker, claim.finish (.ok ()), found)
    | .ended => (broker, claim.finish (.ok ()), found)

end Claim

/-- What a session still has to open: a topic, or one of its partitions. -/
inductive Opening where
  | topic (name : String)
  | partition (key : PartitionKey)
deriving DecidableEq, Repr

inductive SessionPhase where
  | opening (todo : List Opening)
  | serving
  | draining (result : Except Failure Unit)
  | script (feeds : List Feed) (ending : ScriptEnd)
  | ended (result : Except Failure Unit)
  | crashed

/-- One run of a group client between joining the group and giving up its partitions. Every claim of a session at the
broker is handled by a task of its own; a script's claims are handled one after the other. -/
structure Session (α : Type) where
  client : Nat
  group : String
  start : StartOffset
  token : Token
  /-- The rebalances seen when the session began. -/
  generation : Nat
  phase : SessionPhase
  claims : List (Claim α) := []

namespace Session

def begin (env : Environment) (client : Nat) (topics : List String) (token : Token) :
    Except Failure (Session α) × Environment :=
  match env.groupClient? client with
  | none => (.error .clientClosed, env)
  | some c =>
    match c.service with
    | .broker group start =>
      if c.closed then (.error .clientClosed, env)
      else
        let (sessionToken, tokens) := env.tokens.derive token
        (.ok ⟨client, group, start, sessionToken, env.broker.generation,
            .opening (topics.map Opening.topic), []⟩,
          { env with broker := env.broker.startSession group, tokens := tokens })
    | .script owner script started =>
      let env := env.call owner (.session topics)
      if c.closed then (.error .clientClosed, env)
      else
        let plan := script.sessions[started]?.getD ⟨[], .wait⟩
        (.ok ⟨client, "", .earliest, token, 0, .script plan.claims plan.ending, []⟩,
          env.setGroupClient client { c with service := .script owner script (started + 1) })
    | .silent subscribed =>
      let (entered, offline) := OfflineGroup.enter ⟨subscribed, c.closed⟩ topics
      (entered.map fun _ => ⟨client, "", .earliest, token, 0, .script [] .wait, []⟩,
        env.setGroupClient client { c with service := .silent offline.subscribed })

/-- Opens the next topic or partition. A failure drops the claims opened before. -/
def stepOpening (env : Environment) (s : Session α) : List Opening → Session α
  | [] => { s with phase := .serving }
  | .topic name :: rest =>
    match env.broker.partitionCount name with
    | .error failure => { s with phase := .ended (.error failure), claims := [] }
    | .ok n =>
      let partitions := (List.range n).map fun i : Nat => Opening.partition (name, Int.ofNat i)
      { s with phase := .opening (partitions ++ rest) }
  | .partition key :: rest =>
    match Cursor.open? env.broker key (env.broker.groupPosition s.group key s.start) with
    | .error failure => { s with phase := .ended (.error failure), claims := [] }
    | .ok cursor =>
      { s with
        phase := .opening rest
        claims := s.claims ++ [{ source := .log cursor, ackGroup := some s.group }] }

/-- The first claim whose task is over without the session knowing, and what it ended with. -/
def returned? (s : Session α) (report : String) : Option (Nat × Except Failure Unit) :=
  (s.claims.mapIdx fun i c => (i, c)).findSome? fun (i, c) =>
    if c.joined then none else (c.outcome? report).map (i, ·)

/-- Ends the session: its claims are cancelled, and it returns once they have all returned. -/
def windUp (env : Environment) (s : Session α) (result : Except Failure Unit) :
    Environment × Session α :=
  (env.cancel s.token, { s with phase := .draining result })

/-- Waits for what ends the session: its token, its client, a rebalance, or a claim that returns. -/
def stepServing (env : Environment) (s : Session α) : Option (Environment × Session α) :=
  if env.cancelled s.token then some (s.windUp env (.ok ()))
  else if env.groupClosed s.client then some (s.windUp env (.error .clientClosed))
  else if env.broker.generation ≠ s.generation then some (s.windUp env (.ok ()))
  else
    match s.returned? env.panicReport with
    | none => none
    | some (i, .ok ()) =>
      some (env, { s with claims := s.claims.modify i fun c => { c with joined := true } })
    | some (_, .error failure) => some (s.windUp env (.error failure))

def stepScript (env : Environment) (s : Session α) (feeds : List Feed) (ending : ScriptEnd) :
    Option (Session α) :=
  let current := s.claims.getLast?
  match current.bind Claim.result?, current.all Claim.isOver with
  | some (.error failure), _ => some { s with phase := .ended (.error failure) }
  | none, true => if current.isSome then some { s with phase := .crashed } else advance
  | some (.ok ()), _ => advance
  | none, false => none
where
  advance : Option (Session α) :=
    match feeds with
    | feed :: rest =>
      some { s with
        phase := .script rest ending
        claims := s.claims ++ [{ source := .feed feed, ackGroup := none }] }
    | [] =>
      match ending with
      | .ok => some { s with phase := .ended (.ok ()) }
      | .closed => some { s with phase := .ended (.error .clientClosed) }
      | .failed reason => some { s with phase := .ended (.error (.broker reason)) }
      | .wait =>
        if env.groupClosed s.client then some { s with phase := .ended (.error .clientClosed) }
        else if env.cancelled s.token then some { s with phase := .ended (.ok ()) }
        else none

def step (env : Environment) (s : Session α) : Option (Environment × Session α) :=
  match s.phase with
  | .opening todo => some (env, s.stepOpening env todo)
  | .serving => s.stepServing env
  | .draining result =>
    if s.claims.all Claim.isOver then some (env, { s with phase := .ended result }) else none
  | .script feeds ending => (s.stepScript env feeds ending).map (env, ·)
  | .ended _ => none
  | .crashed => none

end Session

end TopicConsumer
