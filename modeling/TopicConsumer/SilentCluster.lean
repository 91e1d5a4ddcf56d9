import TopicConsumer.OfflineClient
import TopicConsumer.Scenario

namespace TopicConsumer

/-- A cluster whose broker never answers: no record reaches it or comes from it. -/
structure SilentCluster (α : Type) where
  scenario : Scenario α := {}
  direct : OfflineDirect := {}

inductive ClusterStep (α : Type) where
  | createTopic
  | produce (records : Nat)
  | committed
  | create (id : String) (factory : Factory α)
  | consumers (step : ScenarioStep α)
  | openDirect
  | partitions
  | openReader (key : PartitionKey)
  | readerNext (reader : Nat)
  | closeReader (reader : Nat)
  | closeDirect

inductive ClusterAnswer (α : Type) where
  | topicMade
  | result (result : Except Failure Unit)
  | consumers (answer : ScenarioAnswer α)
  | ended
  | waiting

namespace SilentCluster

variable {α : Type}

private def onScenario (c : SilentCluster α) (step : ScenarioStep α) :
    ClusterAnswer α × SilentCluster α :=
  let (report, scenario) := c.scenario.step step
  let answer := match report.answer with
    | .messages _ .pending => .waiting
    | .errors _ .pending => .waiting
    | answer => .consumers answer
  (answer, { c with scenario := scenario })

/-- Takes a step. A request that the cluster leaves unanswered is a fault. -/
def step (c : SilentCluster α) :
    ClusterStep α → Except ClientFault (ClusterAnswer α × SilentCluster α)
  | .createTopic => .ok (.topicMade, c)
  | .produce 0 => .ok (.result (.ok ()), c)
  | .produce _ => .error (.flush .timedOut)
  | .committed => .error (.offsetFetch .timedOut)
  | .create id factory => .ok (c.onScenario (.create id factory false (.silent openClient)))
  | .consumers step => .ok (c.onScenario step)
  | .openDirect => .ok (.result (.ok ()), { c with direct := {} })
  | .partitions => .ok (.result (c.direct.partitions.map fun _ => ()), c)
  | .openReader key =>
    let (result, direct) := c.direct.openReader key
    .ok (.result (result.map fun _ => ()), { c with direct := direct })
  | .readerNext reader =>
    .ok (match c.direct.next reader with
      | .pending => .waiting
      | .returned _ => .ended, c)
  | .closeReader reader =>
    let (result, direct) := c.direct.closeReader reader
    .ok (.result result, { c with direct := direct })
  | .closeDirect => .ok (.result (.ok ()), { c with direct := c.direct.close })

end SilentCluster

end TopicConsumer
