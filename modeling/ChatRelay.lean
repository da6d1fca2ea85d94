import ChatRelay.Bytes
import ChatRelay.Fingerprint
import ChatRelay.Identity
import ChatRelay.Partition.Placement
import ChatRelay.Partition.Table
import ChatRelay.Broker.Consumer
import ChatRelay.Text.Blank
import ChatRelay.Text.Unicode
import ChatRelay.Decimal.Numeral
import ChatRelay.Decimal.Shortest
import ChatRelay.Metrics.Children
import ChatRelay.Metrics.Exposition
import ChatRelay.Processor
import ChatRelay.ConsumeLoop
import ChatRelay.Supervisor
import ChatRelay.Health.Endpoint
import ChatRelay.Settings.Reading
import ChatRelay.Settings.Validation
import ChatRelay.Scenario.Run
import ChatRelay.Proofs.Broker.Logs
import ChatRelay.Proofs.Consumer.Reading
import ChatRelay.Proofs.Cluster
import ChatRelay.Proofs.Cluster.Overtaking
import ChatRelay.Proofs.Cluster.Resumption
import ChatRelay.Proofs.ConsumeLoop.Phase
import ChatRelay.Proofs.Crew
import ChatRelay.Proofs.Crew.Delivery
import ChatRelay.Proofs.Chat.Gathering
import ChatRelay.Proofs.Cluster.Confinement
import ChatRelay.Proofs.Chat.Staffing
import ChatRelay.Proofs.Chat.Convergence
import ChatRelay.Proofs.Crew.Hosting
import ChatRelay.Proofs.Envelope.Canonical
import ChatRelay.Proofs.Partition.Known
import ChatRelay.Proofs.Routing
import ChatRelay.Proofs.Fleet.Polling
import ChatRelay.Proofs.Envelope.Verdict
import ChatRelay.Proofs.Audience.Isolation
import ChatRelay.Proofs.Mailing.Pushing
import ChatRelay.Proofs.ConsumeLoop.Protocol
import ChatRelay.Proofs.ConsumeLoop.Progress
import ChatRelay.Proofs.Publishing
import ChatRelay.Proofs.Draining
import ChatRelay.Proofs.Exchange.Calls
import ChatRelay.Proofs.Exchange.Receipts
import ChatRelay.Proofs.Chat.Maxima
import ChatRelay.Proofs.Ownership.Settling
import ChatRelay.Proofs.Readiness
import ChatRelay.Proofs.Consumer.Fetching
import ChatRelay.Proofs.Consumer.Stint
import ChatRelay.Proofs.Consumer.Turns
import ChatRelay.Proofs.Identity.Dating
import ChatRelay.Proofs.Identity.Numbering
import ChatRelay.Proofs.Chat.Recency
import ChatRelay.Proofs.Chat.Coherence
import ChatRelay.Proofs.Sessions.Subscriptions
import ChatRelay.Proofs.Partition.Growth
import ChatRelay.Proofs.Partition.Spreading
import ChatRelay.Proofs.Sessions.Entries
import ChatRelay.Proofs.Health.Stopping
import ChatRelay.Proofs.Settings.Servers
