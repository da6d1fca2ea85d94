import ChatRelay.Chat.Update
import ChatRelay.Ownership
import ChatRelay.Publishing
import ChatRelay.Router
import ChatRelay.Session

namespace ChatRelay

structure Relay where
  broker : Broker := {}
  table : PartitionTable := {}
  sessions : SessionRegistry := {}
  chats : ChatStore := {}
  health : HealthRegistry := {}
  metrics : Metrics := {}

namespace Relay

def record (relay : Relay) (measurements : List Measurement) : Relay :=
  { relay with metrics := relay.metrics.recordAll measurements }

def publish (relay : Relay) (producer : String) (envelope : Envelope) (partition : Partition) :
    DeliveryReport × Relay :=
  let (report, broker) := relay.broker.publish producer envelope partition
  (report, { relay with broker }.record report.measurements)

def publishAll (relay : Relay) (producer : String) (envelope : Envelope) :
    List Partition → List DeliveryReport × Relay
  | [] => ([], relay)
  | partition :: rest =>
    let (report, relay) := relay.publish producer envelope partition
    let (reports, relay) := relay.publishAll producer envelope rest
    (report :: reports, relay)

/-- Publishes an envelope wherever the router sends it. -/
def route (relay : Relay) (router : Router) (envelope : Envelope) : List DeliveryReport × Relay :=
  relay.publishAll router.producer envelope (router.targets relay.table envelope)

def addRouter (relay : Relay) (router : Router) : Relay :=
  { relay with table := router.prepare relay.table }

def modifyHealth (relay : Relay) (loop : Nat) (change : LoopHealth → LoopHealth) : Relay :=
  { relay with health := relay.health.modify loop change }

/-- The gauge of a loop after it started or stopped. -/
def healthMeasurement (relay : Relay) (loop : Nat) : List Measurement :=
  (relay.health.loops[loop]?.map fun health => .loopHealthy health.name health.healthy).toList

def markStarted (relay : Relay) (loop : Nat) : Relay :=
  let relay := relay.modifyHealth loop (·.markStarted)
  relay.record (relay.healthMeasurement loop)

def markStopped (relay : Relay) (loop : Nat) : Relay :=
  let relay := relay.modifyHealth loop (·.markStopped)
  relay.record (relay.healthMeasurement loop)

/-- Lets an ownership act on the health of its loop. -/
def withHealth (relay : Relay) (loop : Nat) (act : LoopHealth → Ownership × LoopHealth)
    (unchanged : Ownership) : Ownership × Relay :=
  match relay.health.loops[loop]? with
  | none => (unchanged, relay)
  | some health =>
    let (ownership, health) := act health
    (ownership, relay.modifyHealth loop fun _ => health)

/-- An assignment change reaches an ownership: new partitions become known, and the change is counted. -/
def reassign (relay : Relay) (loop : Nat) (ownership : Ownership) (change : AssignmentChange) :
    Ownership × Relay :=
  if ownership.heeds change then
    let (changed, relay) := relay.withHealth loop (ownership.reassign change) ownership
    (changed, { relay with table := relay.table.learn change.assigned }.record
      (ownership.measurements change))
  else (ownership, relay)

end Relay
end ChatRelay
