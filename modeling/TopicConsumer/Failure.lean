namespace TopicConsumer

/-- A fault code of the client library: its name and what it stands for. -/
structure FaultCode where
  name : String
  explanation : String
deriving DecidableEq, Repr

namespace FaultCode

def describe (code : FaultCode) : String := code.name ++ " (" ++ code.explanation ++ ")"

def fatal : FaultCode := ⟨"Fatal", "Local: Fatal error"⟩

def allBrokersDown : FaultCode := ⟨"AllBrokersDown", "Local: All broker connections are down"⟩

def transport : FaultCode := ⟨"BrokerTransportFailure", "Local: Broker transport failure"⟩

def timedOut : FaultCode := ⟨"OperationTimedOut", "Local: Timed out"⟩

end FaultCode

inductive ClientFault where
  | canceled
  | subscription (text : String)
  | seek (text : String)
  | global (code : FaultCode)
  | metadata (code : FaultCode)
  | flush (code : FaultCode)
  | offsetFetch (code : FaultCode)
  | setting (reason key value : String)
  | creation (reason : String)
  /-- A text for the client library holds the byte that would end it. -/
  | zeroByte
deriving DecidableEq, Repr

namespace ClientFault

def message : ClientFault → String
  | canceled => "KafkaError (Client dropped)"
  | subscription text => "Subscription error: " ++ text
  | seek text => "Seek error: " ++ text
  | global code => "Global error: " ++ code.describe
  | metadata code => "Meta data fetch error: " ++ code.describe
  | flush code => "Flush error: " ++ code.describe
  | offsetFetch code => "Offset fetch error: " ++ code.describe
  | setting reason key value => "Client config error: " ++ reason ++ " " ++ key ++ " " ++ value
  | creation reason => "Client creation error: " ++ reason
  | zeroByte => "FFI nul error"

def causes : ClientFault → List String
  | global code => [code.describe]
  | metadata code => [code.describe]
  | flush code => [code.describe]
  | offsetFetch code => [code.describe]
  | _ => []

end ClientFault

/-- Why a call on a consumer or on one of its parts failed. -/
inductive Failure where
  | kafka (fault : ClientFault)
  | invalidConfig (reason : String)
  | option (name reason : String)
  | decode (topic : String) (partition offset : Int) (reason : String)
  | noPartitions (topic : String)
  | alreadyConsuming
  | broker (reason : String)
  | clientClosed
  | retriesExhausted (attempts : UInt32) (last : Failure)
  | close (cause : Failure)
deriving DecidableEq, Repr

namespace Failure

def message : Failure → String
  | kafka fault => "Kafka error: " ++ fault.message
  | invalidConfig reason => "Invalid configuration: " ++ reason
  | option name reason => "could not apply option '" ++ name ++ "' to consumer: " ++ reason
  | decode topic partition offset reason =>
    "failed to decode record " ++ topic ++ "/" ++ toString partition ++ "@" ++ toString offset ++
      ": " ++ reason
  | noPartitions topic => "got 0 partitions for topic '" ++ topic ++ "'"
  | alreadyConsuming => "consumer is already consuming"
  | broker reason => "Broker error: " ++ reason
  | clientClosed => "consumer client is closed"
  | retriesExhausted attempts last =>
    "giving up after " ++ toString attempts.toNat ++ " failed sessions: " ++ last.message
  | close cause => "failed to close consumer: " ++ cause.message

def causes : Failure → List String
  | kafka fault => fault.message :: fault.causes
  | option _ reason => [reason]
  | decode _ _ _ reason => [reason]
  | retriesExhausted _ last => last.message :: last.causes
  | close cause => cause.message :: cause.causes
  | _ => []

end Failure

/-- An integer computation that left the range of its type. -/
inductive Overflow where
  | add
  | subtract
deriving DecidableEq, Repr

def Overflow.message : Overflow → String
  | add => "attempt to add with overflow"
  | subtract => "attempt to subtract with overflow"

/-- The least and the greatest offset. -/
def minOffset : Int := -9223372036854775808

def maxOffset : Int := 9223372036854775807

/-- The offset after this one, if there is one. -/
def nextOffset (offset : Int) : Except Overflow Int :=
  if offset < maxOffset then .ok (offset + 1) else .error .add

/-- The difference of two offsets, if it can be told as one. -/
def offsetGap (high low : Int) : Except Overflow Int :=
  if minOffset ≤ high - low ∧ high - low ≤ maxOffset then .ok (high - low) else .error .subtract

end TopicConsumer
