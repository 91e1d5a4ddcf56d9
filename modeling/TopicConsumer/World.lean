import TopicConsumer.CollectRun
import TopicConsumer.DirectRun
import TopicConsumer.GroupRun

namespace TopicConsumer

/-- All consumers at work on one broker. Each task takes one step at a time. -/
structure World (α : Type) where
  env : Environment := {}
  groups : List (GroupRun α) := []
  directs : List (DirectRun α) := []
  collects : List (CollectRun α) := []

/-- The tasks of a world, named by the number of their run and their own. -/
inductive Actor where
  | watch (run : Nat)
  | closer (run : Nat)
  | loop (run : Nat)
  | claim (run i : Nat)
  | pump (run i : Nat)
  | task (run i : Nat)
  | collect (run : Nat)
  | collectClaim (run i : Nat)
deriving DecidableEq, Repr

/-- A step of a task. Where a task waits for something or for the end of its work, `stop` says that it
is the end that comes. -/
structure Move where
  actor : Actor
  stop : Bool
deriving DecidableEq, Repr

namespace World

variable {α : Type}

def setGroup (w : World α) (i : Nat) (r : Environment × GroupRun α) : World α :=
  { w with env := r.1, groups := w.groups.set i r.2 }

def setDirect (w : World α) (i : Nat) (r : Environment × DirectRun α) : World α :=
  { w with env := r.1, directs := w.directs.set i r.2 }

def setCollect (w : World α) (i : Nat) (r : Environment × CollectRun α) : World α :=
  { w with env := r.1, collects := w.collects.set i r.2 }

def step? (w : World α) (move : Move) : Option (World α) :=
  match move.actor with
  | .watch i => do
    let run ← w.groups[i]?
    return w.setGroup i (← run.stepWatch w.env move.stop)
  | .closer i => do
    let run ← w.groups[i]?
    if move.stop then none else return w.setGroup i (← run.stepCloser w.env)
  | .loop i => do
    let run ← w.groups[i]?
    return w.setGroup i (← run.stepLoop w.env move.stop)
  | .claim i j => do
    let run ← w.groups[i]?
    return w.setGroup i (← run.stepClaim w.env j move.stop)
  | .pump i j => do
    let run ← w.directs[i]?
    return w.setDirect i (← run.stepPump w.env j move.stop)
  | .task i j => do
    let run ← w.directs[i]?
    return w.setDirect i (w.env, ← run.stepTask w.env j move.stop)
  | .collect i => do
    let run ← w.collects[i]?
    if move.stop then none else return w.setCollect i (← run.stepSession w.env)
  | .collectClaim i j => do
    let run ← w.collects[i]?
    return w.setCollect i (← run.stepClaim w.env j move.stop)

/-- Tasks in the order of the tickets with which they wait to send, then those without one. -/
private def byTicket (tasks : List (Option Nat × Actor)) : List Actor :=
  let senders := tasks.filterMap fun (t, a) => t.map (·, a)
  let others := tasks.filterMap fun (t, a) => if t.isSome then none else some a
  (senders.mergeSort fun a b => a.1 ≤ b.1).map (·.2) ++ others

private def claimTicket (claim : Claim α) : Option Nat :=
  match claim.phase with
  | .sending _ ticket => some ticket
  | _ => none

private def pumpTicket (pump : Pump α) : Option Nat :=
  match pump.phase with
  | .sending _ ticket => some ticket
  | .reporting _ ticket => some ticket
  | _ => none

private def taskTicket (task : DecodeTask α) : Option Nat :=
  match task with
  | .sending _ ticket => some ticket
  | _ => none

private def groupActors (i : Nat) (run : GroupRun α) : List Actor :=
  let claims := match run.loop with
    | .serving session => byTicket (session.claims.mapIdx fun j c => (claimTicket c, .claim i j))
    | _ => []
  [.closer i, .loop i, .watch i] ++ claims

private def directActors (i : Nat) (run : DirectRun α) : List Actor :=
  byTicket ((run.pumps.mapIdx fun j p => (pumpTicket p, .pump i j)) ++
    run.tasks.mapIdx fun j t => (taskTicket t, .task i j))

private def collectActors (i : Nat) (run : CollectRun α) : List Actor :=
  let claims := match run.session with
    | some session => (List.range session.claims.length).map (Actor.collectClaim i)
    | none => []
  .collect i :: claims

/-- Every task, run by run. In a run those that have waited to send longest come first. -/
def actors (w : World α) : List Actor :=
  (w.groups.mapIdx groupActors).flatten ++ (w.directs.mapIdx directActors).flatten ++
    (w.collects.mapIdx collectActors).flatten

/-- The move that comes next: the first that can be made, ends before all else. -/
def next? (w : World α) : Option (World α) :=
  let actors := w.actors
  (actors.map (Move.mk · true) ++ actors.map (Move.mk · false)).findSome? w.step?

/-- The records and partitions that tasks can still read. -/
def readable (w : World α) : Nat :=
  let logs := w.env.broker.topics.foldl
    (fun n t => t.2.foldl (fun n log => n + log.records.length + 1) n) 0
  let feeds (n : Nat) (feeds : List Feed) : Nat :=
    feeds.foldl (fun n f => n + f.payloads.length + 1) n
  let scripts := w.env.groupClients.foldl
    (fun n c => match c.service with
      | .script _ script _ => script.sessions.foldl (fun n s => feeds n s.claims + 1) n
      | _ => n) 0
  let readers := w.directs.foldl
    (fun n run => run.pumps.foldl (fun n p => match p.reader.source with
      | .feed f => n + f.payloads.length + 1
      | .log _ => n + 1) (n + 2 * run.tasks.length)) 0
  logs + scripts + readers

/-- The sessions that can begin before their failures fill the error queues. -/
def startable (w : World α) : Nat :=
  w.groups.foldl (fun n run => n + run.errors.capacity + 4) (w.readable + w.collects.length + 4)

private def settleWithin : Nat → World α → World α
  | 0, w => w
  | fuel + 1, w =>
    match w.next? with
    | none => w
    | some w => settleWithin fuel w

/-- Lets tasks run until all of them wait. Each session takes a bounded number of steps for each record
and partition, which bounds the steps. -/
def settle (w : World α) : World α :=
  settleWithin (16 * (w.readable + 4) * (w.startable + w.directs.length)) w

def nextDeadline? (w : World α) (target : Nat) : Option Nat :=
  let deadlines := w.groups.filterMap fun run => match run.loop with
    | .sleeping deadline => if deadline ≤ target then some deadline else none
    | _ => none
  deadlines.min?

private def advanceWithin : Nat → Nat → World α → World α
  | 0, target, w => settle { w with env := { w.env with now := max w.env.now target } }
  | fuel + 1, target, w =>
    match w.nextDeadline? target with
    | none => settle { w with env := { w.env with now := max w.env.now target } }
    | some deadline =>
      advanceWithin fuel target (settle { w with env := { w.env with now := max w.env.now deadline } })

def advance (w : World α) (nanos : Nat) : World α :=
  let w := w.settle
  advanceWithin w.startable (w.env.now + nanos) w

end World

end TopicConsumer
