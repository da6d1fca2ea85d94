import ChatRelay.Broker
import ChatRelay.Metrics

namespace ChatRelay

/-- What became of one publication: the offset of its record, or a failure. -/
structure DeliveryReport where
  producer : String
  partition : Partition
  message : MessageId
  result : Except Failure Nat

def DeliveryReport.failed (report : DeliveryReport) : Bool :=
  match report.result with
  | .ok _ => false
  | .error _ => true

/-- A publication is counted when it is handed over, and again if it fails. -/
def DeliveryReport.measurements (report : DeliveryReport) : List Measurement :=
  .published report.partition.topic ::
    if report.failed then [.deliveryFailed report.partition.topic] else []

/-- Publishes an envelope on a partition. An envelope without wire form never reaches the broker. -/
def Broker.publish (broker : Broker) (producer : String) (envelope : Envelope) (partition : Partition) :
    DeliveryReport × Broker :=
  match envelope.encode with
  | .error failure => (⟨producer, partition, envelope.id, .error failure⟩, broker)
  | .ok data =>
    let (result, broker) := broker.append partition data
    (⟨producer, partition, envelope.id, result⟩, broker)

end ChatRelay
