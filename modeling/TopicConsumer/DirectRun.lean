import TopicConsumer.Environment
import TopicConsumer.Queue

namespace TopicConsumer

/-- What decoding a record gives: a message or a failure, to be queued. -/
inductive Outcome (α : Type) where
  | message (message : Message α)
  | failure (failure : Failure)

inductive PumpPhase (α : Type) where
  | asking (stage : Stage)
  | taken (record : Record)
  | measured (record : Record)
  | sending (outcome : Outcome α) (ticket : Nat)
  /-- The reader is to be closed; then the failure is reported, if there is one. -/
  | closing (failure : Option Failure)
  | reporting (failure : Failure) (ticket : Nat)
  | done

structure Pump (α : Type) where
  reader : Reader
  phase : PumpPhase α := .asking .marking

/-- A record on its way to a queue: still to be decoded, or decoded. -/
inductive DecodeTask (α : Type) where
  | decoding (record : Record)
  | sending (outcome : Outcome α) (ticket : Nat)
  | done

/-- A direct consumer at work: one pump for each partition, which closes its reader however it ends. In concurrent
mode every record is decoded by a task of its own, in ordered mode by the pump. -/
structure DirectRun (α : Type) where
  decoder : Decoder α
  mode : DecodeMode
  token : Token
  messages : Queue (Message α)
  errors : Queue Failure
  pumps : List (Pump α)
  tasks : List (DecodeTask α) := []
  /-- Numbers the outcomes in the order in which they became ready. -/
  tickets : Nat := 0

namespace DirectRun

variable {α : Type}

def outcome (run : DirectRun α) (record : Record) : Outcome α :=
  match record.decode run.decoder none with
  | .ok message => .message message
  | .error failure => .failure failure

/-- Queues an outcome: `none` if its queue is full. What a dropped receiver should get is lost. -/
def deliver (run : DirectRun α) : Outcome α → Option (DirectRun α)
  | .message message =>
    match run.messages.offer message with
    | .queued messages => some { run with messages := messages }
    | .refused => some run
    | .full => none
  | .failure failure =>
    match run.errors.offer failure with
    | .queued errors => some { run with errors := errors }
    | .refused => some run
    | .full => none

def stepAsking (env : Environment) (pump : Pump α) (stage : Stage) :
    Option (Environment × Pump α) :=
  if pump.reader.closed then some (env, { pump with phase := .closing none })
  else
    (pump.reader.source.step env.broker true stage).map fun (broker, source, found) =>
      let phase : PumpPhase α := match found with
        | .going stage => .asking stage
        | .record record => .taken record
        | .failed failure => .closing (some failure)
        | .ended => .closing none
      ({ env with broker := broker }, ⟨{ pump.reader with source := source }, phase⟩)

/-- One step of a pump, apart from the run it belongs to. With `stop` it is the step taken because
consuming was cancelled. -/
def stepPumpAlone (env : Environment) (run : DirectRun α) (pump : Pump α) (stop : Bool) :
    Option (Environment × DirectRun α × Pump α) :=
  match pump.phase, stop with
  | .asking _, true =>
    if env.cancelled run.token then some (env, run, { pump with phase := .closing none }) else none
  | .asking stage, false => (stepAsking env pump stage).map fun (env, pump) => (env, run, pump)
  | .taken record, false =>
    match env.measure "" pump.reader.source record with
    | .ok env => some (env, run, { pump with phase := .measured record })
    | .error _ => some (env, run, { pump with phase := .done })
  | .measured record, false =>
    match run.mode with
    | .concurrent =>
      some (env, { run with tasks := run.tasks ++ [.decoding record] },
        { pump with phase := .asking .marking })
    | .ordered =>
      some (env, { run with tickets := run.tickets + 1 },
        { pump with phase := .sending (run.outcome record) run.tickets })
  | .sending _ _, true =>
    if env.cancelled run.token then some (env, run, { pump with phase := .asking .marking }) else none
  | .sending outcome _, false =>
    (run.deliver outcome).map fun run => (env, run, { pump with phase := .asking .marking })
  | .closing failure, false =>
    let (reader, env) := env.closeReaderLogging pump.reader
    match failure with
    | some failure =>
      some (env, { run with tickets := run.tickets + 1 }, ⟨reader, .reporting failure run.tickets⟩)
    | none => some (env, run, ⟨reader, .done⟩)
  | .reporting _ _, true =>
    if env.cancelled run.token then some (env, run, { pump with phase := .done }) else none
  | .reporting failure _, false =>
    (run.deliver (.failure failure)).map fun run => (env, run, { pump with phase := .done })
  | _, _ => none

def stepPump (env : Environment) (run : DirectRun α) (i : Nat) (stop : Bool) :
    Option (Environment × DirectRun α) :=
  match run.pumps[i]? with
  | none => none
  | some pump =>
    match run.stepPumpAlone env pump stop with
    | none => none
    | some (env, run, pump) => some (env, { run with pumps := run.pumps.set i pump })

def stepTask (env : Environment) (run : DirectRun α) (i : Nat) (stop : Bool) : Option (DirectRun α) :=
  match run.tasks[i]?, stop with
  | some (.decoding record), false =>
    let task := .sending (run.outcome record) run.tickets
    some { run with tasks := run.tasks.set i task, tickets := run.tickets + 1 }
  | some (.sending _ _), true =>
    if env.cancelled run.token then some { run with tasks := run.tasks.set i .done } else none
  | some (.sending outcome _), false =>
    (run.deliver outcome).map fun run => { run with tasks := run.tasks.set i .done }
  | _, _ => none

def isOpen (run : DirectRun α) : Bool :=
  (run.pumps.any fun p => match p.phase with
    | .done => false
    | _ => true) ||
  run.tasks.any fun t => match t with
    | .done => false
    | _ => true

end DirectRun

end TopicConsumer
