import TopicConsumer.Options

namespace TopicConsumer

structure Factory (α : Type) where
  name : String
  group : Option String
  topic : String
  brokers : List String
  decoder : Decoder α
  options : List (ConsumerOption α)

/-- A consumer as a factory makes it: a member of a group, or a reader of every partition. -/
inductive Blueprint (α : Type) where
  | grouped (group : String) (config : Config α)
  | direct (config : Config α)

namespace Blueprint

def config : Blueprint α → Config α
  | grouped _ config => config
  | direct config => config

/-- A consumer for a configuration, a member of the configured group if there is one. -/
def ofConfig (config : Config α) : Blueprint α :=
  match config.group with
  | some group => grouped group config
  | none => direct config

end Blueprint

namespace Factory

def groupBuffer : Nat := 0

def directBuffer : Nat := 1000

/-- Checks what a factory is made of, in the order name, brokers, topic, group. -/
def check (factory : Factory α) : Except Failure (Factory α) :=
  if factory.name = "" then .error (.invalidConfig "name is required")
  else if factory.brokers = [] then .error (.invalidConfig "provide at least one broker")
  else if factory.topic = "" then .error (.invalidConfig "topic is required")
  else if factory.group = some "" then .error (.invalidConfig "group is required")
  else .ok factory

def baseConfig (factory : Factory α) : Config α where
  brokers := factory.brokers
  topic := factory.topic
  group := factory.group
  bufferSize := if factory.group.isSome then groupBuffer else directBuffer
  decoder := factory.decoder
  client := defaultClient factory.name
  start := .earliest
  decodeMode := .concurrent
  retry := .forever

def config (factory : Factory α) : Except Failure (Config α) :=
  ConsumerOption.applyAll factory.options factory.baseConfig

/-- Makes a consumer: a member of the factory's group if it has one. -/
def create (factory : Factory α) : Except Failure (Blueprint α) := do
  let config ← factory.config
  return match factory.group with
    | some group => .grouped group config
    | none => .direct config

end Factory

end TopicConsumer
