import ChatRelay.Broker.Group
import ChatRelay.Envelope.Codec

/-! An in-memory broker: topics with append-only partition logs, and the groups that read them. Each
operation is one atomic step. -/
namespace ChatRelay

structure Broker where
  topics : Topics := ∅
  groups : Std.ExtTreeMap String Group := ∅
  /-- Members of all groups are numbered by one counter. Kept in 64 bits it would be exhausted by `2 ^ 64` first
  subscriptions and not before, `Cluster.counters_lt`. -/
  lastMember : Nat := 0
  /-- How many of the next appends are to fail. -/
  failingPublishes : Nat := 0

namespace Broker

/-- Creates a topic, or grows it to a number of partitions. Groups that follow a topic that grew are shared
out anew; a topic never shrinks. -/
def createTopic (broker : Broker) (topic : String) (partitions : Nat) : Broker :=
  let logs := broker.topics.getD topic []
  let topics := broker.topics.insert topic (logs ++ List.replicate (partitions - logs.length) [])
  if partitions ≤ logs.length then { broker with topics }
  else { broker with
    topics
    groups := broker.groups.map fun _ group =>
      if group.follows topic then group.rebalance topics else group }

/-- Makes the next appends fail, whatever was asked for before. -/
def failPublishes (broker : Broker) (count : Nat) : Broker :=
  { broker with failingPublishes := count }

def log? (broker : Broker) (partition : Partition) : Option Log :=
  if 0 ≤ partition.index then broker.topics.log? partition else none

def append (broker : Broker) (partition : Partition) (data : Bytes) : Except Failure Nat × Broker :=
  match broker.failingPublishes with
  | failing + 1 =>
    (.error (.broker .injectedPublishFailure), { broker with failingPublishes := failing })
  | 0 => match broker.log? partition with
    | none => (.error (.broker (.unknownPartition partition)), broker)
    | some log =>
      (.ok log.length,
       { broker with topics := broker.topics.modify partition.topic fun logs =>
           logs.modify partition.slot (· ++ [data]) })

/-- The envelopes of a partition in log order; what is no envelope is left out. -/
def envelopes (broker : Broker) (partition : Partition) : List Envelope :=
  ((broker.topics.log? partition).getD []).filterMap fun data => (Envelope.decode data).toOption

def recordCount (broker : Broker) (partition : Partition) : Nat :=
  ((broker.topics.log? partition).getD []).length

/-- The next offset that a group has committed for a partition, if any. -/
def committed? (broker : Broker) (group : String) (partition : Partition) : Option Nat :=
  broker.groups[group]?.bind (·.committed[partition]?)

theorem lastMember_createTopic (broker : Broker) (topic : String) (partitions : Nat) :
    (broker.createTopic topic partitions).lastMember = broker.lastMember := by
  unfold createTopic
  dsimp only
  split <;> rfl

theorem lastMember_append (broker : Broker) (partition : Partition) (data : Bytes) :
    (broker.append partition data).2.lastMember = broker.lastMember := by
  unfold append
  split
  · rfl
  · split <;> rfl

end Broker
end ChatRelay
