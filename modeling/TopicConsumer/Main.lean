import TopicConsumer.Program

open TopicConsumer

def flagVariables : IO (Table String String) :=
  Flag.all.filterMapM fun flag => do
    return (← IO.getEnv flag.envName).map (flag.envName, ·)

partial def waitForInterrupt : IO UInt32 := do
  IO.sleep 1000
  waitForInterrupt

def main (args : List String) : IO UInt32 := do
  match Flags.run? args (← flagVariables) with
  | none => waitForInterrupt
  | some ending =>
    IO.print ending.output
    unless ending.errors.isEmpty do IO.eprintln ending.errors
    return ending.code.toUInt32
