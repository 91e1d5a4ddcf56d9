import TopicConsumer.CommandLine
import TopicConsumer.Consumer

namespace TopicConsumer

/-- How a run ends: its exit code, what it writes to standard output and to standard error. -/
structure EarlyExit where
  code : UInt8
  output : String
  errors : String

namespace EarlyExit

/-- A failure with its causes, on one line unless one of them has more. -/
def chainText (failure : Failure) : String :=
  ": ".intercalate (failure.message :: failure.causes)

def ofFailure (context : List String) (failure : Failure) : EarlyExit :=
  ⟨1, "", "Error: " ++ ": ".intercalate (context ++ [chainText failure])⟩

end EarlyExit

def helpText : String :=
  "Usage: async-kafka [OPTIONS] --brokers <BROKERS> --topic <TOPIC>\n\nOptions:\n" ++
    String.join (Flag.all.map fun flag => "  " ++ flag.usage ++ "\n")

namespace Flags

def start? (args : List String) (env : Table String String) :
    Except EarlyExit (Flags × Blueprint Json) :=
  match Flags.parse args env with
  | .error .help => .error ⟨0, helpText, ""⟩
  | .error fault => .error ⟨2, "", fault.message⟩
  | .ok flags =>
    match flags.factory Decoder.json with
    | .error failure => .error (.ofFailure ["Invalid consumer configuration"] failure)
    | .ok factory =>
      match factory.create with
      | .error failure => .error (.ofFailure [] failure)
      | .ok blueprint => .ok (flags, blueprint)

/-- How a run ends when no broker answers; `none` if it waits for its group until it is interrupted. -/
def run? (args : List String) (env : Table String String) : Option EarlyExit :=
  match start? args env with
  | .error ending => some ending
  | .ok (flags, blueprint) =>
    let consumer : Consumer Json := { blueprint := blueprint, connector := .silent openClient }
    let (token, tokens) := Tokens.derive {} []
    match (consumer.start { env := { tokens := tokens } } token).1 with
    | .error failure => some (.ofFailure ["Failed to consume topic '" ++ flags.topic ++ "'"] failure)
    | .ok _ => none

end Flags

end TopicConsumer
