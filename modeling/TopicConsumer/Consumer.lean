import TopicConsumer.Factory
import TopicConsumer.World

namespace TopicConsumer

/-- The streams of a consumer that was started: the run that fills them. -/
inductive Streams where
  | group (run : Nat)
  | direct (run : Nat)
deriving DecidableEq, Repr

structure Consumer (α : Type) where
  blueprint : Blueprint α
  connector : Connector
  token : Option Token := none
  /-- The client of a direct consumer, until it is closed. -/
  client : Option Nat := none
  /-- Set by the one start that succeeds. -/
  streams : Option Streams := none

/-- A call of close that has begun: it has returned, or waits for the client of a group run to be closed. -/
inductive CloseCall where
  | returned (result : Except Failure Unit)
  | waiting (run : Nat)

namespace Consumer

variable {α : Type}

/-- Opens a reader for every partition of a topic, or for none. -/
def openReaders (env : Environment) (client : Nat) (topic : String) (start : StartOffset) :
    Except Failure (List Reader) × Environment :=
  match env.partitions client topic with
  | (.error failure, env) => (.error failure, env)
  | (.ok [], env) => (.error (.noPartitions topic), env)
  | (.ok partitions, env) => openEach env [] partitions
where
  openEach (env : Environment) (readers : List Reader) :
      List Int → Except Failure (List Reader) × Environment
    | [] => (.ok readers, env)
    | partition :: rest =>
      match env.openReader client (topic, partition) start with
      | (.ok reader, env) => openEach env (readers ++ [reader]) rest
      | (.error failure, env) =>
        (.error failure, readers.foldl (fun env reader => (env.closeReaderLogging reader).2) env)

def closeClientLogging (env : Environment) (client : Nat) : Environment :=
  match env.closeDirect client with
  | (.ok (), env) => env
  | (.error failure, env) =>
    env.log (errorLine ("failed to close consumer: " ++ failure.message))

/-- Starts consuming until a token is cancelled, and tells the capacity of the queues. It succeeds once;
a start that fails leaves nothing open. -/
def start (w : World α) (consumer : Consumer α) (token : Token) :
    Except Failure Nat × World α × Consumer α :=
  if consumer.streams.isSome then (.error .alreadyConsuming, w, consumer)
  else
    let config := consumer.blueprint.config
    let capacity := config.queueCapacity
    match consumer.blueprint with
    | .grouped group _ =>
      let (token, tokens) := w.env.tokens.derive token
      let env := { w.env with tokens := tokens }
      let consumer := { consumer with token := some token }
      match env.openGroup consumer.connector (config.groupClient group) with
      | (.error failure, env) => (.error failure, { w with env := env }, consumer)
      | (.ok client, env) =>
        let run : GroupRun α := {
          group := group
          topic := config.topic
          decoder := config.decoder
          retry := config.retry
          client := client
          token := token
          messages := { capacity := capacity }
          errors := { capacity := capacity } }
        (.ok capacity, { w with env := env, groups := w.groups ++ [run] },
          { consumer with streams := some (.group w.groups.length) })
    | .direct _ =>
      match w.env.openDirect consumer.connector config.directClient with
      | (.error failure, env) => (.error failure, { w with env := env }, consumer)
      | (.ok client, env) =>
        match openReaders env client config.topic config.start with
        | (.error failure, env) =>
          (.error failure, { w with env := closeClientLogging env client }, consumer)
        | (.ok readers, env) =>
          let (token, tokens) := env.tokens.derive token
          let run : DirectRun α := {
            decoder := config.decoder
            mode := config.decodeMode
            token := token
            messages := { capacity := capacity }
            errors := { capacity := capacity }
            pumps := readers.map fun reader => { reader := reader } }
          (.ok capacity,
            { w with env := { env with tokens := tokens }, directs := w.directs ++ [run] },
            { consumer with
              token := some token
              client := some client
              streams := some (.direct w.directs.length) })

private def runCloser (i : Nat) : Nat → World α → World α
  | 0, w => w.settle
  | fuel + 1, w =>
    match w.step? ⟨.closer i, false⟩ with
    | none => w
    | some w => runCloser i fuel w

/-- Begins a call of close, which cancels consuming. Without a run of a group it returns at once, and a failure
to close the client is only logged. -/
def beginClose (w : World α) (consumer : Consumer α) : CloseCall × World α × Consumer α :=
  let w := match consumer.token with
    | none => w
    | some token => { w with env := w.env.cancel token }
  match consumer.streams with
  | some (.group i) =>
    match w.groups[i]? with
    | none => (.returned (.ok ()), w, consumer)
    | some run => (.waiting i, w.setGroup i (run.beginClose w.env), consumer)
  | _ =>
    match consumer.client with
    | none => (.returned (.ok ()), w, consumer)
    | some client =>
      (.returned (.ok ()), { w with env := closeClientLogging w.env client }, { consumer with client := none })

private def awaitClose (w : World α) (i : Nat) : Except Failure Unit × World α :=
  let w := runCloser i 3 w
  match w.groups[i]? with
  | none => (.ok (), w)
  | some run =>
    let result := match run.closer with
      | .returned result => result
      | _ => .ok ()
    (result, w.setGroup i (w.env, { run with closer := .idle }))

/-- Stops consuming and closes the client. A group consumer tells how the one close of its client went. -/
def close (w : World α) (consumer : Consumer α) : Except Failure Unit × World α × Consumer α :=
  match beginClose w consumer with
  | (.returned result, w, consumer) => (result, w, consumer)
  | (.waiting i, w, consumer) =>
    let (result, w) := awaitClose w i
    (result, w, consumer)

end Consumer

end TopicConsumer
