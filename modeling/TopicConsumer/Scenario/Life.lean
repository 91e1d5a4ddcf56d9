import TopicConsumer.Scenario.Streams

namespace TopicConsumer

namespace Scenario

variable {α : Type}

def dropReceivers (s : Scenario α) (streams : Option Streams) (which : Dropping) : Scenario α :=
  match streams with
  | none => s
  | some streams =>
    let s := match s.messageQueue? streams with
      | some (queue, _) => if which = Dropping.errors then s else s.setMessages streams queue.drop
      | none => s
    match s.errorQueue? streams with
    | some (queue, _) => if which = Dropping.messages then s else s.setErrors streams queue.drop
    | none => s

def create (s : Scenario α) (id : String) (factory : Factory α) (byConfig : Bool)
    (connector : Connector) : Run α :=
  let s := s.dropReceivers ((s.member? id).bind (·.streams)) .both
  let s := { s with members := Table.erase id s.members }
  let made : Except Failure (Blueprint α) := do
    let factory ← factory.check
    if byConfig then return Blueprint.ofConfig (← factory.config) else factory.create
  match made with
  | .error failure => (.result (.error failure), s)
  | .ok blueprint =>
    let member : Member α := {
      consumer := some { blueprint := blueprint, connector := connector }
      scripted := connector.isScript }
    let s := s.setMember id member
    if byConfig then (.config blueprint.config, s) else s.ok

def consume (s : Scenario α) (id tokenName : String) : Run α :=
  let (token, s) := s.token tokenName
  match s.member? id with
  | none => (.unknown, s)
  | some m =>
    match m.consumer with
    | none => (.unknown, s)
    | some consumer =>
      let before := s.world.env.groupClients.length
      let (result, world, consumer) := Consumer.start s.world consumer token
      let opened := m.scripted && decide (before < world.env.groupClients.length)
      let s := { s with world := world }.setMember id
        { m with
          consumer := some consumer
          streams := consumer.streams
          client := if opened then some before else m.client }
      match result with
      | .ok capacity => (.capacity capacity capacity, s)
      | .error failure => (.result (.error failure), s)

def close (s : Scenario α) (id : String) : Run α :=
  match s.member? id with
  | none => (.unknown, s)
  | some m =>
    match m.consumer with
    | none => (.unknown, s)
    | some consumer =>
      let (result, world, consumer) := Consumer.close s.world consumer
      (.result result, { s with world := world }.setMember id { m with consumer := some consumer })

def acknowledge (s : Scenario α) (id : String) (index : Nat) : Run α :=
  match (s.member? id).bind fun m => m.received[index]? with
  | none => (.unknown, s)
  | some message =>
    if message.ack.isNone then (.noHandle, s)
    else
      let (result, s) := s.accept message
      (.result result, s)

def scriptFatal (s : Scenario α) (id : String) (reason : Option String) : Run α :=
  match (s.member? id).bind (·.client) with
  | none => (.absent, s)
  | some client =>
    (.truth true, s.changeEnv (·.failClient client (reason.map Failure.broker)))

end Scenario

end TopicConsumer
