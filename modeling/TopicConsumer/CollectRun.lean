import TopicConsumer.Session

namespace TopicConsumer

/-- A session of a group client whose handlers only collect the records, and may acknowledge them. -/
structure CollectRun (α : Type) where
  acknowledging : Bool := false
  /-- How many records are taken from each claim at most. -/
  take : Option Nat := none
  /-- The reason with which every handler fails at its end, if it does. -/
  failure : Option String := none
  session : Option (Session α) := none
  result : Option (Except Failure Unit) := none
  /-- The records collected, each with the high water mark when it was taken. -/
  seen : List (Record × Int) := []

namespace CollectRun

variable {α : Type}

def ending (run : CollectRun α) : Except Failure Unit :=
  match run.failure with
  | none => .ok ()
  | some reason => .error (.broker reason)

def start (env : Environment) (run : CollectRun α) (client : Nat) (topics : List String) (token : Token) :
    Environment × CollectRun α :=
  match Session.begin env client topics token with
  | (.error failure, env) => (env, { run with result := some (.error failure) })
  | (.ok session, env) => (env, { run with session := some session })

def stepSession (env : Environment) (run : CollectRun α) : Option (Environment × CollectRun α) :=
  match run.session with
  | none => none
  | some session =>
    match session.phase with
    | .ended result => some (env, { run with session := none, result := some result })
    | .crashed => some (env, { run with session := none })
    | _ => (session.step env).map fun (env, session) => (env, { run with session := some session })

def stepHandler (env : Environment) (run : CollectRun α) (session : Token) (claim : Claim α)
    (stop : Bool) : Option (Environment × CollectRun α × Claim α) :=
  match claim.phase with
  | .asking stage =>
    if run.take.any (· ≤ claim.count) then
      if stop then none else some (env, run, claim.finish run.ending)
    else if stop then
      if env.cancelled session then some (env, run, claim.finish run.ending) else none
    else
      (claim.ask env.broker stage).map fun (broker, claim, _) =>
        ({ env with broker := broker }, run, if claim.isOver then claim.finish run.ending else claim)
  | .taken record =>
    if stop then none
    else
      let high := claim.source.highWaterMark env.broker
      let env := match run.acknowledging, record.ack with
        | true, some ack => { env with broker := env.broker.accept ack }
        | _, _ => env
      some (env, { run with seen := run.seen ++ [(record, high)] },
        { claim with phase := .asking .marking })
  | _ => none

def stepClaim (env : Environment) (run : CollectRun α) (i : Nat) (stop : Bool) :
    Option (Environment × CollectRun α) :=
  match run.session with
  | none => none
  | some session =>
    match session.claims[i]? with
    | none => none
    | some claim =>
      match run.stepHandler env session.token claim stop with
      | none => none
      | some (env, run, claim) =>
        some (env, { run with session := some { session with claims := session.claims.set i claim } })

/-- The records collected since this was last asked for, by topic and partition. -/
def sightings (run : CollectRun α) : List (Record × Int) × CollectRun α :=
  let sorted := run.seen.mergeSort fun a b =>
    decide (a.1.topic < b.1.topic) ||
      (decide (a.1.topic = b.1.topic) && decide (a.1.partition ≤ b.1.partition))
  (sorted, { run with seen := [] })

end CollectRun

end TopicConsumer
