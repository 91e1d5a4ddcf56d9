import Mathlib.Data.List.Induction
import TopicConsumer.Proofs.Keeps

namespace TopicConsumer

/-- What can happen to the broker, the tokens and the clocks. -/
inductive Outside where
  /-- A topic is created that there is not yet. -/
  | createTopic (topic : String) (partitions : Nat)
  /-- A topic is created anew, and what it held is lost. -/
  | replaceTopic (topic : String) (partitions : Nat)
  | produce (key : PartitionKey) (payload : Bytes)
  | failPartition (key : PartitionKey) (reason : String)
  | failGroup (group reason : String)
  | rebalance
  | refuseConnections (refuse : Bool)
  | refusePartition (key : PartitionKey)
  | failClose (reason : Option String)
  | deriveToken (parent : Token)
  | cancel (token : Token)
  /-- Time passes on the two clocks, and will pass between two readings of the second. -/
  | elapse (now wall lapse : Nat)
  /-- The runtime will tell this of a task that has panicked. -/
  | reportPanics (report : String)

namespace Environment

def withBroker (env : Environment) (broker : Broker) : Environment := { env with broker := broker }

def change? (env : Environment) : Outside → Option Environment
  | .createTopic topic partitions =>
    if (env.broker.topics.get? topic).isSome then none
    else some (env.withBroker (env.broker.createTopic topic partitions))
  | .replaceTopic topic partitions => some (env.withBroker (env.broker.createTopic topic partitions))
  | .produce key payload =>
    match env.broker.produce key payload with
    | .ok (_, broker) => some (env.withBroker broker)
    | .error _ => none
  | .failPartition key reason =>
    match env.broker.failPartition key reason with
    | .ok broker => some (env.withBroker broker)
    | .error _ => none
  | .failGroup group reason => some (env.failGroup group reason)
  | .rebalance => some (env.withBroker env.broker.rebalance)
  | .refuseConnections refuse => some (env.withBroker { env.broker with refusing := refuse })
  | .refusePartition key => some (env.withBroker (env.broker.refusePartition key))
  | .failClose reason => some (env.withBroker { env.broker with closeFailure := reason })
  | .deriveToken parent => some { env with tokens := (env.tokens.derive parent).2 }
  | .cancel token => some (env.cancel token)
  | .elapse now wall lapse => some { env with now := env.now + now, wall := env.wall + wall, lapse := lapse }
  | .reportPanics report => some { env with panicReport := report }

end Environment

/-- What happens in a world: a move of a task, or something from outside. Group runs are numbered in the
order in which they were started, and the messages received from a run in their order. -/
inductive Act (α : Type) where
  | move (move : Move)
  | outside (change : Outside)
  | start (blueprint : Blueprint α) (token : Token)
  | close (run : Nat)
  | receive (run : Nat)
  | acknowledge (run i : Nat)
  | receiveError (run : Nat)
  | dropMessages (run : Nat)
  | dropErrors (run : Nat)
  | closeDirect (client : Nat)
  | useDirect (run : Nat) (messages : Queue (Message α)) (errors : Queue Failure)

/-- The notes of one session: where the claim of each partition began, and the messages it queued. -/
structure SessionNote (α : Type) where
  claimed : List (PartitionKey × Int) := []
  sent : List (Message α) := []

/-- The notes of a group run: its earlier sessions, the latest one, and the messages received. -/
structure RunNote (α : Type) where
  start : StartOffset
  past : List (SessionNote α) := []
  current : SessionNote α := {}
  received : List (Message α) := []

/-- A world with what has been noted of each of its group runs. -/
structure Chronicle (α : Type) where
  world : World α := {}
  notes : List (RunNote α) := []

namespace GroupRun

variable {α : Type}

def isServing (run : GroupRun α) : Bool :=
  match run.loop with
  | .serving _ => true
  | _ => false

def claims (run : GroupRun α) : List (Claim α) :=
  match run.loop with
  | .serving session => session.claims
  | _ => []

end GroupRun

def SessionNote.extend (b : SessionNote α) (claimed : List (PartitionKey × Int)) (sent : List (Message α)) :
    SessionNote α := ⟨b.claimed ++ claimed, b.sent ++ sent⟩

namespace RunNote

variable {α : Type}

def sessions (note : RunNote α) : List (SessionNote α) := note.past ++ [note.current]

def sent (note : RunNote α) : List (Message α) := note.sessions.flatMap (·.sent)

/-- The claims that are new, each with what the group has committed or else the place where the consumer
starts. -/
def made (note : RunNote α) (b : Broker) (group : String) (before after : List (Claim α)) :
    List (PartitionKey × Int) :=
  (after.drop before.length).map fun c => (c.source.key, b.groupPosition group c.source.key note.start)

/-- Notes what a run did in one step: whether a session began, the claims that it made, and the messages
that it queued. -/
def observe (note : RunNote α) (env : Environment) (before after : GroupRun α) : RunNote α :=
  let note := if after.isServing && !before.isServing
    then { note with past := note.past ++ [note.current], current := {} } else note
  let made := note.made env.broker before.group before.claims after.claims
  { note with current :=
      note.current.extend made (after.messages.items.drop before.messages.items.length) }

end RunNote

namespace Chronicle

variable {α : Type}

def observe (c : Chronicle α) (w : World α) : Chronicle α where
  world := w
  notes := c.notes.mapIdx fun i note =>
    match c.world.groups[i]?, w.groups[i]? with
    | some before, some after => note.observe c.world.env before after
    | _, _ => note

def setRun (c : Chronicle α) (i : Nat) (run : GroupRun α) : Chronicle α :=
  { c with world := c.world.setGroup i (c.world.env, run) }

def setEnv (c : Chronicle α) (env : Environment) : Chronicle α :=
  { c with world := { c.world with env := env } }

def act? (c : Chronicle α) : Act α → Option (Chronicle α)
  | .move move => (c.world.step? move).map c.observe
  | .outside change => (c.world.env.change? change).map c.setEnv
  | .start blueprint token =>
    let (_, world, _) := Consumer.start c.world { blueprint := blueprint, connector := .broker } token
    let more := world.groups.length - c.world.groups.length
    some { world := world, notes := c.notes ++ List.replicate more { start := blueprint.config.start } }
  | .close i =>
    match c.world.groups[i]? with
    | none => none
    | some run =>
      match run.closer with
      | .waiting => none
      | .performing => none
      | _ => some { c with world := c.world.setGroup i (run.beginClose c.world.env) }
  | .receive i =>
    match c.world.groups[i]? with
    | none => none
    | some run =>
      match run.messages.take? with
      | none => none
      | some (message, messages) =>
        let noted := c.notes.modify i fun note => { note with received := note.received ++ [message] }
        some { c.setRun i { run with messages := messages } with notes := noted }
  | .acknowledge i j =>
    match c.notes[i]?.bind (·.received[j]?) with
    | none => none
    | some message =>
      match message.ack with
      | none => some c
      | some ack => some (c.setEnv (c.world.env.withBroker (c.world.env.broker.accept ack)))
  | .receiveError i =>
    match c.world.groups[i]? with
    | none => none
    | some run => run.errors.take?.map fun (_, errors) => c.setRun i { run with errors := errors }
  | .dropMessages i =>
    c.world.groups[i]?.map fun run => c.setRun i { run with messages := run.messages.drop }
  | .dropErrors i => c.world.groups[i]?.map fun run => c.setRun i { run with errors := run.errors.drop }
  | .closeDirect client => some (c.setEnv (Consumer.closeClientLogging c.world.env client))
  | .useDirect i messages errors =>
    let use (run : DirectRun α) : DirectRun α := { run with messages := messages, errors := errors }
    some { c with world := { c.world with directs := c.world.directs.modify i use } }

def run (c : Chronicle α) : List (Act α) → Option (Chronicle α)
  | [] => some c
  | a :: rest => (c.act? a).bind (·.run rest)

theorem run_append (c : Chronicle α) (acts more : List (Act α)) :
    c.run (acts ++ more) = (c.run acts).bind (·.run more) := by
  induction acts generalizing c with
  | nil => rfl
  | cons b rest ih =>
    simp only [List.cons_append, run, Option.bind_assoc]
    exact congrArg _ (funext fun d => ih d)

theorem run_concat (c : Chronicle α) (acts : List (Act α)) (a : Act α) :
    c.run (acts ++ [a]) = (c.run acts).bind (·.act? a) := by
  simp [run_append, run]

/-- What holds of an empty world and is kept by every act holds after every history. -/
@[elab_as_elim]
theorem run_induction {motive : (acts : List (Act α)) → (c : Chronicle α) → run {} acts = some c → Prop}
    (start : motive [] {} rfl)
    (act : ∀ {acts : List (Act α)} {c : Chronicle α} {a : Act α} {d : Chronicle α} (hc : run {} acts = some c)
      (_ : c.act? a = some d) (hd : run {} (acts ++ [a]) = some d), motive acts c hc → motive (acts ++ [a]) d hd)
    {acts : List (Act α)} {c : Chronicle α} (h : run {} acts = some c) : motive acts c h := by
  induction acts using List.reverseRecOn generalizing c with
  | nil =>
    cases Option.some.inj h
    exact start
  | append_singleton acts a ih =>
    have hacts := h
    rw [run_concat] at h
    obtain ⟨before, hb, ha⟩ := Option.bind_eq_some_iff.mp h
    exact act hb ha hacts (ih hb)

end Chronicle

end TopicConsumer
