import ChatRelay.Envelope
import ChatRelay.Partition.Placement
import ChatRelay.Partition.Table

namespace ChatRelay

structure Router where
  /-- The producer that publishes for the router. -/
  producer : String
  messagesTopic : String
  senderTopic : String
  partitions : UInt32
deriving DecidableEq, Repr, Inhabited

namespace Router

/-- Makes the router's partitions known. -/
def prepare (router : Router) (table : PartitionTable) : PartitionTable :=
  let (_, table) := table.ensure router.messagesTopic router.partitions
  (table.ensure router.senderTopic router.partitions).2

/-- The topics that an envelope is published on and the users whose partitions it goes to. A message goes to
its receiver and, for the record, to its sender; what happened to a message goes to its sender. -/
def destinations (router : Router) : Envelope → List (String × UserId)
  | .message m => [(router.messagesTopic, m.receiver), (router.senderTopic, m.sender)]
  | .ack a => match a.status with
    | .processed => [(router.senderTopic, a.sender)]
    | .delivered | .seen => [(router.messagesTopic, a.sender)]

/-- The partitions that an envelope is published on; one that is not known is left out. -/
def targets (router : Router) (table : PartitionTable) (envelope : Envelope) : List Partition :=
  (router.destinations envelope).filterMap fun (topic, user) =>
    table.get? topic (Placement.index user router.partitions)

end Router
end ChatRelay
