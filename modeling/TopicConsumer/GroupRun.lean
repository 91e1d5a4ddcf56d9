import TopicConsumer.Queue
import TopicConsumer.Session

namespace TopicConsumer

/-- Sessions that have failed in a row: how many, and when the first of them did. -/
structure Streak where
  failures : UInt32 := 0
  since : Option Nat := none
deriving DecidableEq

namespace Streak

def extend (streak : Streak) (now : Nat) : Streak :=
  { failures := if streak.failures.toNat < maxCount then streak.failures + 1 else streak.failures
    since := some (streak.since.getD now) }

def elapsed (streak : Streak) (now : Nat) : Duration :=
  Duration.ofNanos (now - streak.since.getD now)

end Streak

inductive LoopPhase (α : Type) where
  | top
  | serving (session : Session α)
  | reporting (failure : Failure) (delay : Duration)
  | givingUp (failure : Failure)
  | sleeping (deadline : Nat)
  | done

inductive WatchPhase where
  | watching
  | closing (fatal : Option Failure)
  | performing (fatal : Option Failure)
  | forwarding (failure : Failure)
  | done

/-- The one close of a client: every closer gets its result. -/
inductive CloseCell where
  | idle
  | running
  | done (result : Except Failure Unit)

/-- A call of close on a consumer. -/
inductive CloserPhase where
  | idle
  | waiting
  | performing
  | returned (result : Except Failure Unit)

/-- A group consumer at work. The watchdog closes the client when consuming is cancelled or the client has failed. The
session loop runs one session after the other, and the retry policy says whether and when the next one starts. -/
structure GroupRun (α : Type) where
  group : String
  topic : String
  decoder : Decoder α
  retry : RetryPolicy
  client : Nat
  token : Token
  messages : Queue (Message α)
  errors : Queue Failure
  loop : LoopPhase α := .top
  streak : Streak := {}
  watch : WatchPhase := .watching
  closed : CloseCell := .idle
  closer : CloserPhase := .idle
  /-- Numbers the messages in the order in which they became ready. -/
  tickets : Nat := 0

namespace GroupRun

variable {α : Type}

def performClose (env : Environment) (run : GroupRun α) :
    Except Failure Unit × Environment × GroupRun α :=
  let (result, env) := env.closeGroup run.client
  (result, env, { run with closed := .done result })

/-- What the watchdog does once the client is closed. -/
def afterClose (env : Environment) (run : GroupRun α) (fatal : Option Failure)
    (result : Except Failure Unit) : Environment × GroupRun α :=
  let env := match result with
    | .ok () => env
    | .error failure =>
      env.log (errorLine ("failed to close consumer group client: " ++ failure.message))
  let watch := match fatal with
    | none => .done
    | some failure => .forwarding failure
  (env, { run with watch := watch })

/-- One step of the watchdog. With `stop` it is the step taken because consuming was cancelled or the
client is closed. -/
def stepWatch (env : Environment) (run : GroupRun α) (stop : Bool) :
    Option (Environment × GroupRun α) :=
  match run.watch, stop with
  | .watching, stop =>
    if stop && env.cancelled run.token then some (env, { run with watch := .closing none })
    else
      match env.nextFatal run.client stop with
      | none => none
      | some (none, env) =>
        some (env, { run with watch := if env.cancelled run.token then .closing none else .done })
      | some (some failure, env) =>
        some (env.log (errorLine ("consumer group client failed: " ++ failure.message)),
          { run with watch := .closing (some failure) })
  | .closing fatal, false =>
    match run.closed with
    | .idle => some (env, { run with closed := .running, watch := .performing fatal })
    | .running => none
    | .done result => some (run.afterClose env fatal result)
  | .performing fatal, false =>
    let (result, env, run) := run.performClose env
    some (run.afterClose env fatal result)
  | .forwarding _, true =>
    if env.cancelled run.token then some (env, { run with watch := .done }) else none
  | .forwarding failure, false =>
    match run.errors.offer failure with
    | .queued errors => some (env, { run with errors := errors, watch := .done })
    | .refused => some (env, { run with watch := .done })
    | .full => none
  | _, _ => none

def beginClose (env : Environment) (run : GroupRun α) : Environment × GroupRun α :=
  (env.cancel run.token, { run with closer := .waiting })

def stepCloser (env : Environment) (run : GroupRun α) : Option (Environment × GroupRun α) :=
  let wrap : Except Failure Unit → Except Failure Unit
    | .ok () => .ok ()
    | .error failure => .error (.close failure)
  match run.closer, run.closed with
  | .waiting, .idle => some (env, { run with closed := .running, closer := .performing })
  | .waiting, .done result => some (env, { run with closer := .returned (wrap result) })
  | .performing, _ =>
    let (result, env, run) := run.performClose env
    some (env, { run with closer := .returned (wrap result) })
  | _, _ => none

/-- What follows the end of a session. -/
def afterSession (env : Environment) (run : GroupRun α) :
    Except Failure Unit → Environment × GroupRun α
  | .ok () => (env, { run with loop := .top, streak := {} })
  | .error .clientClosed => (env, { run with loop := .done })
  | .error failure =>
    -- The first failure reads the clock twice: when its streak began, and how long that has been going on.
    let streak := run.streak.extend env.wall
    let run := { run with streak := streak }
    let env := env.reread
    match run.retry.nextDelay streak.failures (streak.elapsed env.wall) with
    | none =>
      (env.log (errorLine ("consumer group session failed " ++ toString streak.failures.toNat ++
          " times in a row, giving up: " ++ failure.message)),
        { run with loop := .givingUp (.retriesExhausted streak.failures failure) })
    | some delay =>
      (env.log (warnLine ("consumer group session failed: " ++ failure.message)),
        { run with loop := .reporting failure delay })

def afterReport (env : Environment) (delay : Duration) : LoopPhase α :=
  if delay = Duration.zero then .top else .sleeping (env.now + delay.nanos)

/-- One step of the session loop, or of the session it runs. -/
def stepLoop (env : Environment) (run : GroupRun α) (stop : Bool) :
    Option (Environment × GroupRun α) :=
  match run.loop, stop with
  | .top, false =>
    if env.cancelled run.token then some (env, { run with loop := .done })
    else
      match Session.begin env run.client [run.topic] run.token with
      | (.ok session, env) => some (env, { run with loop := .serving session })
      | (.error failure, env) => some (run.afterSession env (.error failure))
  | .serving session, false =>
    match session.phase with
    | .ended result => some (run.afterSession env result)
    | .crashed => some (env, { run with loop := .done })
    | _ =>
      match session.step env with
      | none => none
      | some (env, session) => some (env, { run with loop := .serving session })
  | .reporting _ _, true =>
    if env.cancelled run.token then some (env, { run with loop := .done }) else none
  | .reporting failure delay, false =>
    match run.errors.offer failure with
    | .queued errors => some (env, { run with errors := errors, loop := afterReport env delay })
    | .refused => some (env, { run with loop := .done })
    | .full => none
  | .givingUp _, true =>
    if env.cancelled run.token then some (env, { run with loop := .done }) else none
  | .givingUp failure, false =>
    match run.errors.offer failure with
    | .queued errors => some (env, { run with errors := errors, loop := .done })
    | .refused => some (env, { run with loop := .done })
    | .full => none
  | .sleeping _, true =>
    if env.cancelled run.token then some (env, { run with loop := .done }) else none
  | .sleeping deadline, false =>
    if deadline ≤ env.now then some (env, { run with loop := .top }) else none
  | _, _ => none

def stepHandler (env : Environment) (run : GroupRun α) (session : Token) (claim : Claim α)
    (stop : Bool) : Option (Environment × GroupRun α × Claim α) :=
  match claim.phase, stop with
  | .asking _, true =>
    if env.cancelled session then some (env, run, claim.finish (.ok ())) else none
  | .asking stage, false =>
    (claim.ask env.broker stage).map fun (broker, claim, _) =>
      ({ env with broker := broker }, run, claim)
  | .taken record, false =>
    match env.measure run.group claim.source record with
    | .ok env => some (env, run, { claim with phase := .measured record })
    | .error _ => some (env, run, { claim with phase := .crashed })
  | .measured record, false =>
    match record.decode run.decoder (some run.group) with
    | .error failure => some (env, run, claim.finish (.error failure))
    | .ok message =>
      some (env, { run with tickets := run.tickets + 1 },
        { claim with phase := .sending message run.tickets })
  | .sending _ _, true =>
    if env.cancelled session then some (env, run, claim.finish (.ok ())) else none
  | .sending message _, false =>
    match run.messages.offer message with
    | .queued messages =>
      some (env, { run with messages := messages }, { claim with phase := .asking .marking })
    | .refused => some (env, run, claim.finish (.ok ()))
    | .full => none
  | _, _ => none

def stepClaim (env : Environment) (run : GroupRun α) (i : Nat) (stop : Bool) :
    Option (Environment × GroupRun α) :=
  match run.loop with
  | .serving session =>
    match session.claims[i]? with
    | none => none
    | some claim =>
      match run.stepHandler env session.token claim stop with
      | none => none
      | some (env, run, claim) =>
        some (env, { run with loop := .serving { session with claims := session.claims.set i claim } })
  | _ => none

def messagesOpen (run : GroupRun α) : Bool :=
  match run.loop with
  | .done => false
  | _ => true

def errorsOpen (run : GroupRun α) : Bool :=
  run.messagesOpen ||
    match run.watch with
    | .done => false
    | _ => true

end GroupRun

end TopicConsumer
