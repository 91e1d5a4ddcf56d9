import TopicConsumer.Factory
import TopicConsumer.TerminalText

namespace TopicConsumer

inductive Flag where
  | name
  | brokers
  | topic
  | groupId
  | bufferSize
  | start
  | sessionTimeout
  | decodeMode
deriving DecidableEq, Repr

namespace Flag

def all : List Flag := [name, brokers, topic, groupId, bufferSize, start, sessionTimeout, decodeMode]

def long : Flag → String
  | name => "name"
  | brokers => "brokers"
  | topic => "topic"
  | groupId => "group-id"
  | bufferSize => "buffer-size"
  | start => "start"
  | sessionTimeout => "session-timeout-ms"
  | decodeMode => "decode-mode"

def placeholder : Flag → String
  | name => "NAME"
  | brokers => "BROKERS"
  | topic => "TOPIC"
  | groupId => "GROUP_ID"
  | bufferSize => "BUFFER_SIZE"
  | start => "START"
  | sessionTimeout => "SESSION_TIMEOUT_MS"
  | decodeMode => "DECODE_MODE"

def envName (flag : Flag) : String := "ASYNC_KAFKA_" ++ flag.placeholder

def usage (flag : Flag) : String := "--" ++ flag.long ++ " <" ++ flag.placeholder ++ ">"

def ofLong? (word : String) : Option Flag := all.find? (·.long = word)

end Flag

/-- Why a command line is refused, or that it asks for help. -/
inductive UsageFault where
  | help
  | unknown (word : String)
  | missing (flags : List Flag)
  | noValue (flag : Flag)
  | badChoice (flag : Flag) (value : String)
  | badNumber (flag : Flag) (value reason : String)
  | repeated (flag : Flag)
  | helpWithValue (value : String)

namespace UsageFault

private def text : UsageFault → String
  | help => ""
  | unknown word => "error: unexpected argument '" ++ TerminalText.visible word ++ "' found"
  | missing _ => "error: the following required arguments were not provided:"
  | noValue flag => "error: a value is required for '" ++ flag.usage ++ "' but none was supplied"
  | badChoice flag value =>
    "error: invalid value '" ++ TerminalText.visible value ++ "' for '" ++ flag.usage ++ "'"
  | badNumber flag value reason =>
    "error: invalid value '" ++ TerminalText.visible value ++ "' for '" ++ flag.usage ++ "': " ++ reason
  | repeated flag => "error: the argument '" ++ flag.usage ++ "' cannot be used multiple times"
  | helpWithValue value =>
    "error: unexpected value '" ++ TerminalText.visible value ++
      "' for '--help' found; no more were expected"

def message (fault : UsageFault) : String := TerminalText.firstLine fault.text

/-- What the fault is about: words as they stand on the command line, or flags with their values. -/
def subjects : UsageFault → List String
  | help => []
  | unknown word => [word]
  | missing flags => flags.map (·.usage)
  | noValue flag => [flag.usage]
  | badChoice flag _ => [flag.usage]
  | badNumber flag _ _ => [flag.usage]
  | repeated flag => [flag.usage]
  | helpWithValue _ => ["--help"]

end UsageFault

private def readDigits (limit value : Nat) : List Char → Except String Nat
  | [] => .ok value
  | c :: rest =>
    if !c.isDigit then .error "invalid digit found in string"
    else
      let next := value * 10 + (c.toNat - 48)
      if next ≤ limit then readDigits limit next rest
      else .error "number too large to fit in target type"

/-- Reads a whole number of at most `limit`: decimal digits, perhaps after a plus sign. -/
def readNumber (limit : Nat) (s : String) : Except String Nat :=
  match s.toList with
  | [] => .error "cannot parse integer from empty string"
  | ['+'] => .error "invalid digit found in string"
  | '+' :: digits => readDigits limit 0 digits
  | digits => readDigits limit 0 digits

def wordLimit : Nat := 18446744073709551615

structure Flags where
  name : String
  brokers : List String
  topic : String
  groupId : Option String
  bufferSize : Option Nat
  start : StartOffset
  sessionTimeoutMs : UInt64
  decodeMode : DecodeMode

inductive FlagValue where
  | text (value : String)
  | texts (values : List String)
  | number (value : Nat)
  | start (value : StartOffset)
  | decodeMode (value : DecodeMode)

namespace FlagValue

private def choose (flag : Flag) (value : String) (choices : List (String × FlagValue)) :
    Except UsageFault FlagValue :=
  match Table.get? value choices with
  | some choice => .ok choice
  | none => .error (if value = "" then .noValue flag else .badChoice flag value)

private def readCount (flag : Flag) (value : String) : Except UsageFault FlagValue :=
  match readNumber wordLimit value with
  | .ok n => .ok (.number n)
  | .error reason => .error (.badNumber flag value reason)

/-- Reads the value of a flag. Brokers are parted at commas, and empty parts are kept. -/
def read (flag : Flag) (value : String) : Except UsageFault FlagValue :=
  match flag with
  | .name => .ok (.text value)
  | .topic => .ok (.text value)
  | .groupId => .ok (.text value)
  | .brokers => .ok (.texts (value.splitOn ","))
  | .bufferSize => readCount flag value
  | .sessionTimeout => readCount flag value
  | .start =>
    choose flag value ([.earliest, .latest].map fun s : StartOffset => (s.name, .start s))
  | .decodeMode =>
    choose flag value ([.concurrent, .ordered].map fun m : DecodeMode => (m.name, .decodeMode m))

end FlagValue

abbrev GivenFlags := Table Flag FlagValue

namespace GivenFlags

/-- Takes a flag with its value. Only brokers may be given more than once. -/
def take (given : GivenFlags) (flag : Flag) (value : String) : Except UsageFault GivenFlags := do
  let before := given.get? flag
  if before.isSome ∧ flag ≠ .brokers then throw (.repeated flag)
  match ← FlagValue.read flag value, before with
  | .texts values, some (.texts earlier) => return Table.set flag (.texts (earlier ++ values)) given
  | v, _ => return Table.set flag v given

def complete (given : GivenFlags) (last : Option (Flag × Option String)) :
    Except UsageFault GivenFlags :=
  match last with
  | none => .ok given
  | some (flag, none) => .error (.noValue flag)
  | some (flag, some value) => given.take flag value

/-- Reads words. `last` is the flag that was read last, with its value if that has been read. -/
def readWords (given : GivenFlags) (last : Option (Flag × Option String)) :
    List String → Except UsageFault GivenFlags
  | [] => given.complete last
  | word :: rest =>
    match word.toList with
    | ['-', '-'] =>
      match rest with
      | [] => given.complete last
      | next :: _ => .error (.unknown next)
    | '-' :: '-' :: body =>
      let flagWord := String.ofList (body.takeWhile (· ≠ '='))
      let attached := (body.dropWhile (· ≠ '=')).tail?.map String.ofList
      if flagWord = "help" then
        match attached with
        | none => do
          let _ ← given.complete last
          throw .help
        | some value => .error (.helpWithValue value)
      else
        match Flag.ofLong? flagWord, attached with
        | none, _ => .error (.unknown ("--" ++ flagWord))
        | some flag, none => do readWords (← given.complete last) (some (flag, none)) rest
        | some flag, some value => do
          readWords (← (← given.complete last).take flag value) none rest
    | '-' :: 'h' :: _ => do
      let _ ← given.complete last
      throw .help
    | '-' :: c :: _ => .error (.unknown (String.ofList ['-', c]))
    | _ =>
      match last with
      | some (flag, none) => readWords given (some (flag, some word)) rest
      | _ => .error (.unknown word)

/-- Fills in from the environment the flags that are absent. -/
def fillIn (env : Table String String) : List Flag → GivenFlags → Except UsageFault GivenFlags
  | [], given => .ok given
  | flag :: flags, given =>
    match given.get? flag, env.get? flag.envName with
    | none, some value => do fillIn env flags (← given.take flag value)
    | _, _ => fillIn env flags given

def text? (given : GivenFlags) (flag : Flag) : Option String :=
  match given.get? flag with
  | some (.text value) => some value
  | _ => none

def number? (given : GivenFlags) (flag : Flag) : Option Nat :=
  match given.get? flag with
  | some (.number value) => some value
  | _ => none

/-- The flags with their defaults. Brokers and a topic are required. -/
def flags (given : GivenFlags) : Except UsageFault Flags :=
  let brokers := match given.get? .brokers with
    | some (.texts values) => some values
    | _ => none
  match brokers, given.text? .topic with
  | some brokers, some topic =>
    .ok {
      name := (given.text? .name).getD "async-kafka"
      brokers := brokers
      topic := topic
      groupId := given.text? .groupId
      bufferSize := given.number? .bufferSize
      start := match given.get? .start with
        | some (.start place) => place
        | _ => .earliest
      sessionTimeoutMs := ((given.number? .sessionTimeout).getD defaultSessionTimeout).toUInt64
      decodeMode := match given.get? .decodeMode with
        | some (.decodeMode mode) => mode
        | _ => .concurrent }
  | brokers, topic =>
    .error (.missing ((if brokers.isNone then [.brokers] else []) ++
      (if topic.isNone then [.topic] else [])))

end GivenFlags

namespace Flags

def parse (args : List String) (env : Table String String) : Except UsageFault Flags := do
  let given ← GivenFlags.readWords [] none args
  let given ← GivenFlags.fillIn env Flag.all given
  given.flags

def options (flags : Flags) : List (ConsumerOption α) :=
  [.start flags.start, .sessionTimeout (Duration.ofMillis flags.sessionTimeoutMs.toNat),
    .decodeMode flags.decodeMode] ++ (flags.bufferSize.map ConsumerOption.buffer).toList

/-- A factory of group consumers if a group is given, and of direct ones if not. -/
def factory (flags : Flags) (decoder : Decoder α) : Except Failure (Factory α) :=
  Factory.check
    { name := flags.name
      group := flags.groupId
      topic := flags.topic
      brokers := flags.brokers
      decoder := decoder
      options := flags.options }

end Flags

end TopicConsumer
