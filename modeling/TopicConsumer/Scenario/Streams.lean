import TopicConsumer.Scenario.Step

namespace TopicConsumer

structure Member (α : Type) where
  /-- The consumer, until it is dropped. -/
  consumer : Option (Consumer α)
  streams : Option Streams := none
  scripted : Bool := false
  client : Option Nat := none
  received : List (Message α) := []

structure Scenario (α : Type) where
  world : World α := {}
  tokens : Table String Token := []
  members : Table String (Member α) := []
  groupClients : Table String Nat := []
  directClients : Table String Nat := []
  readers : Table String Reader := []
  collects : Table String Nat := []

namespace Scenario

variable {α : Type}

abbrev Run (α : Type) := ScenarioAnswer α × Scenario α

def settle (s : Scenario α) : Scenario α := { s with world := s.world.settle }

def changeEnv (s : Scenario α) (f : Environment → Environment) : Scenario α :=
  { s with world := { s.world with env := f s.world.env } }

def changeBroker (s : Scenario α) (f : Broker → Broker) : Scenario α :=
  s.changeEnv fun env => { env with broker := f env.broker }

def ok (s : Scenario α) : Run α := (.result (.ok ()), s)

/-- The token of a name, which is made if there is none. -/
def token (s : Scenario α) (name : String) : Token × Scenario α :=
  match s.tokens.get? name with
  | some token => (token, s)
  | none =>
    let (token, tokens) := s.world.env.tokens.derive []
    (token, { s.changeEnv fun env => { env with tokens := tokens } with
      tokens := Table.set name token s.tokens })

def member? (s : Scenario α) (id : String) : Option (Member α) := s.members.get? id

def setMember (s : Scenario α) (id : String) (m : Member α) : Scenario α :=
  { s with members := Table.set id m s.members }

def messageQueue? (s : Scenario α) : Streams → Option (Queue (Message α) × Bool)
  | .group i => s.world.groups[i]?.map fun run => (run.messages, run.messagesOpen)
  | .direct i => s.world.directs[i]?.map fun run => (run.messages, run.isOpen)

def errorQueue? (s : Scenario α) : Streams → Option (Queue Failure × Bool)
  | .group i => s.world.groups[i]?.map fun run => (run.errors, run.errorsOpen)
  | .direct i => s.world.directs[i]?.map fun run => (run.errors, run.isOpen)

def setMessages (s : Scenario α) (streams : Streams) (queue : Queue (Message α)) : Scenario α :=
  match streams with
  | .group i =>
    { s with world := { s.world with
        groups := s.world.groups.modify i fun run => { run with messages := queue } } }
  | .direct i =>
    { s with world := { s.world with
        directs := s.world.directs.modify i fun run => { run with messages := queue } } }

def setErrors (s : Scenario α) (streams : Streams) (queue : Queue Failure) : Scenario α :=
  match streams with
  | .group i =>
    { s with world := { s.world with
        groups := s.world.groups.modify i fun run => { run with errors := queue } } }
  | .direct i =>
    { s with world := { s.world with
        directs := s.world.directs.modify i fun run => { run with errors := queue } } }

private def waitingState (held senders : Bool) : StreamState :=
  if held && senders then .pending else .closed

def receiveMessage (s : Scenario α) (streams : Option Streams) :
    Except StreamState (Message α) × Scenario α :=
  let s := s.settle
  match streams with
  | none => (.error .closed, s)
  | some streams =>
    match s.messageQueue? streams with
    | none => (.error .closed, s)
    | some (queue, senders) =>
      match queue.take? with
      | some (message, queue) => (.ok message, s.setMessages streams queue)
      | none => (.error (waitingState queue.held senders), s)

def receiveError (s : Scenario α) (streams : Option Streams) :
    Except StreamState Failure × Scenario α :=
  let s := s.settle
  match streams with
  | none => (.error .closed, s)
  | some streams =>
    match s.errorQueue? streams with
    | none => (.error .closed, s)
    | some (queue, senders) =>
      match queue.take? with
      | some (failure, queue) => (.ok failure, s.setErrors streams queue)
      | none => (.error (waitingState queue.held senders), s)

def accept (s : Scenario α) (message : Message α) : Except Failure Unit × Scenario α :=
  let result := message.acknowledge fun _ => .ok ()
  match message.ack with
  | none => (result, s)
  | some ack => (result, s.changeBroker (·.accept ack))

def remember (s : Scenario α) (id : String) (message : Message α) : Scenario α :=
  let add (m : Member α) : Member α := { m with received := m.received ++ [message] }
  { s with members := Table.modify id add s.members }

def receiveSome (s : Scenario α) (id : String) (streams : Option Streams) (ack : Bool) :
    Nat → List (Message α × Option (Except Failure Unit)) → Run α
  | 0, out => (.messages out.reverse .ok, s)
  | n + 1, out =>
    match s.receiveMessage streams with
    | (.error state, s) => (.messages out.reverse state, s)
    | (.ok message, s) =>
      let s := s.remember id message
      if ack then
        let (result, s) := s.accept message
        receiveSome s id streams ack n ((message, some result) :: out)
      else receiveSome s id streams ack n ((message, none) :: out)

def errorsSome (s : Scenario α) (streams : Option Streams) : Nat → List Failure → Run α
  | 0, out => (.errors out.reverse .ok, s)
  | n + 1, out =>
    match s.receiveError streams with
    | (.error state, s) => (.errors out.reverse state, s)
    | (.ok failure, s) => errorsSome s streams n (failure :: out)

/-- What draining has received so far, latest first. -/
structure Drained (α : Type) where
  messages : List (Message α) := []
  errors : List Failure := []
  messageState : StreamState := .closed
  errorState : StreamState := .closed

private def drainMessages (id : String) (streams : Option Streams) (ack : Bool) :
    Nat → Drained α → Scenario α → Drained α × Scenario α
  | 0, d, s => (d, s)
  | fuel + 1, d, s =>
    match s.receiveMessage streams with
    | (.error state, s) => ({ d with messageState := state }, s)
    | (.ok message, s) =>
      let s := s.remember id message
      let s := if ack then (s.accept message).2 else s
      drainMessages id streams ack fuel { d with messages := message :: d.messages } s

private def drainErrors (streams : Option Streams) :
    Nat → Drained α → Scenario α → Drained α × Scenario α
  | 0, d, s => (d, s)
  | fuel + 1, d, s =>
    match s.receiveError streams with
    | (.error state, s) => ({ d with errorState := state }, s)
    | (.ok failure, s) => drainErrors streams fuel { d with errors := failure :: d.errors } s

private def drainAll (id : String) (streams : Option Streams) (ack : Bool) (limit : Nat) :
    Nat → Drained α → Scenario α → Drained α × Scenario α
  | 0, d, s => (d, s)
  | fuel + 1, d, s =>
    let (d', s) := drainMessages id streams ack limit d s
    let (d', s) := drainErrors streams limit d' s
    if d'.messages.length = d.messages.length ∧ d'.errors.length = d.errors.length then (d', s)
    else drainAll id streams ack limit fuel d' s

private def messageLE (byOffset : Bool) (a b : Message α) : Bool :=
  if a.topic ≠ b.topic then decide (a.topic < b.topic)
  else if a.partition ≠ b.partition then decide (a.partition < b.partition)
  else !byOffset || decide (a.offset ≤ b.offset)

/-- Errors without a place come first, the others by their place; then by their text. -/
private def failureLE (a b : Failure) : Bool :=
  let place : Failure → Option (String × Int × Int)
    | .decode t p o _ => some (t, p, o)
    | _ => none
  let byText := !decide (b.message < a.message)
  match place a, place b with
  | none, none => byText
  | none, some _ => true
  | some _, none => false
  | some (t, p, o), some (t', p', o') =>
    if t ≠ t' then decide (t < t')
    else if p ≠ p' then decide (p < p')
    else if o ≠ o' then decide (o < o')
    else byText

private def drainLimit (s : Scenario α) : Nat := 4 * (s.world.startable + s.world.readable) + 64

def drain (s : Scenario α) (id : String) (streams : Option Streams) (ack sorted : Bool) : Run α :=
  let limit := s.drainLimit
  let (d, s) := drainAll id streams ack limit limit {} s
  let messages := d.messages.reverse.mergeSort (messageLE sorted)
  let errors := if sorted then d.errors.reverse.mergeSort failureLE else d.errors.reverse
  (.drained messages errors d.messageState d.errorState, s)

end Scenario

end TopicConsumer
