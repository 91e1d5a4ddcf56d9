import TopicConsumer.Callbacks
import TopicConsumer.CommandLine
import TopicConsumer.Gauge
import TopicConsumer.LogLine
import TopicConsumer.Main
import TopicConsumer.OfflineClient
import TopicConsumer.Program
import TopicConsumer.RoutedScript
import TopicConsumer.Scenario
import TopicConsumer.SilentCluster
import TopicConsumer.Proofs.SessionClaims
import TopicConsumer.Proofs.PassedOver
import TopicConsumer.Proofs.ClaimQueues
import TopicConsumer.Proofs.GroupSteps
import TopicConsumer.Proofs.Keeps
import TopicConsumer.Proofs.Chronicle
import TopicConsumer.Proofs.Turns
import TopicConsumer.Proofs.ClaimProgress
import TopicConsumer.Proofs.Delivery
import TopicConsumer.Proofs.Commits
import TopicConsumer.Proofs.SessionLoop
import TopicConsumer.Proofs.LogBounds
import TopicConsumer.Proofs.LoopPolicy
import TopicConsumer.Proofs.WorldLoops
import TopicConsumer.Proofs.CloseOnce
import TopicConsumer.Proofs.FailingClaims
import TopicConsumer.Proofs.ExactlyOnce
import TopicConsumer.Proofs.LifeCycle
import TopicConsumer.Proofs.Clients
import TopicConsumer.Proofs.Lifetimes
import TopicConsumer.Proofs.LoopedSession
import TopicConsumer.Proofs.BackoffCurve
import TopicConsumer.Proofs.ClientProperties
import TopicConsumer.Proofs.LagGauge
import TopicConsumer.Proofs.HighWaterMarks
import TopicConsumer.Proofs.AcceptedConfigs
import TopicConsumer.Proofs.Subscriptions
import TopicConsumer.Proofs.WaitingCalls
import TopicConsumer.Proofs.RetryDecisions
import TopicConsumer.Proofs.CommandLineSettings
import TopicConsumer.Proofs.FailedPartitions
import TopicConsumer.Proofs.MarkReports
import TopicConsumer.Proofs.Acknowledgments
