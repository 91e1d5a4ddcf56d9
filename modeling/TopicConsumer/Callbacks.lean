import TopicConsumer.Failure
import TopicConsumer.LogLine
import TopicConsumer.Watermarks

namespace TopicConsumer

inductive RebalanceTime where
  | before
  | after
deriving DecidableEq, Repr

inductive Rebalance where
  | assign (partitions : List PartitionKey)
  | revoke (partitions : List PartitionKey)
  | failed (fault : ClientFault)

/-- A change that the session has to follow. -/
inductive GroupEvent where
  | assigned (partitions : List PartitionKey)
  | revoked

structure CallbackEffect where
  events : List GroupEvent := []
  fatal : List ClientFault := []
  logs : List String := []

/-- Partitions are given up before a rebalance and taken after it. -/
def Rebalance.effect (rebalance : Rebalance) (time : RebalanceTime) : CallbackEffect :=
  match rebalance, time with
  | .revoke _, .before => { events := [.revoked] }
  | .assign partitions, .after => { events := [.assigned partitions] }
  | .failed fault, .after => { logs := [warnLine ("rebalance failed: " ++ fault.message)] }
  | _, _ => {}

/-- A fault with its reason. Only a fatal one ends the client. -/
def ClientFault.effect (fault : ClientFault) (reason : String) : CallbackEffect :=
  match fault with
  | .global code =>
    if code = .fatal then
      { fatal := [fault]
        logs := [errorLine ("fatal librdkafka error: " ++ fault.message ++ ": " ++ reason)] }
    else { logs := [warnLine ("librdkafka error: " ++ fault.message ++ ": " ++ reason)] }
  | _ => { logs := [warnLine ("librdkafka error: " ++ fault.message ++ ": " ++ reason)] }

end TopicConsumer
