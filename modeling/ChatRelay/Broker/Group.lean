import Std.Data.ExtTreeMap
import Std.Data.ExtTreeSet
import ChatRelay.Bytes
import ChatRelay.Partition

/-! Consumer groups. The members of a group share out the partitions of the topics they subscribe to, each
topic in ranges of nearly equal size over its subscribers, anew in every generation. -/
namespace ChatRelay

/-- The records of one partition, oldest first; a record's offset is its place. -/
abbrev Log := List Bytes

/-- The logs of each topic's partitions. -/
abbrev Topics := Std.ExtTreeMap String (List Log)

/-- How many partitions a topic has; an unknown topic has none. -/
def Topics.partitionCount (topics : Topics) (topic : String) : Nat :=
  (topics.getD topic []).length

/-- The log at a partition's index, a negative index reading as the first. -/
def Topics.log? (topics : Topics) (partition : Partition) : Option Log :=
  (topics.getD partition.topic [])[partition.slot]?

structure Membership where
  id : Nat
  topics : List String
  assigned : Std.ExtTreeSet Partition := ∅

structure Group where
  /-- How often the partitions were shared out. Kept in 64 bits it would be exhausted by `2 ^ 64` of these
  and not before, `Cluster.counters_lt`. -/
  generation : Nat := 0
  /-- In the order of their ids, which is the order in which they joined. -/
  members : List Membership := []
  /-- The next offset to read. -/
  committed : Std.ExtTreeMap Partition Nat := ∅

namespace Share

/-- Where the share of the subscriber of a rank begins: ranges of equal size, and one partition more for
each of the first ranks while there is a remainder. -/
def start (partitions subscribers rank : Nat) : Nat :=
  rank * (partitions / subscribers) + min rank (partitions % subscribers)

def indices (partitions subscribers rank : Nat) : List Nat :=
  List.range' (start partitions subscribers rank)
    (start partitions subscribers (rank + 1) - start partitions subscribers rank)

@[simp] theorem start_zero (partitions subscribers : Nat) : start partitions subscribers 0 = 0 := by
  simp [start]

theorem start_subscribers (partitions : Nat) (occupied : 0 < subscribers) :
    start partitions subscribers subscribers = partitions := by
  have whole := Nat.div_add_mod partitions subscribers
  have rest := Nat.mod_lt partitions occupied
  simp [start, Nat.min_eq_right (Nat.le_of_lt rest), whole]

/-- Each share is of the common size, or one larger while there is a remainder. -/
theorem start_succ (partitions subscribers rank : Nat) :
    start partitions subscribers (rank + 1) =
      start partitions subscribers rank + partitions / subscribers +
        if rank < partitions % subscribers then 1 else 0 := by
  simp only [start, Nat.add_mul, Nat.one_mul]
  split <;> omega

theorem start_mono (partitions subscribers : Nat) (before : first ≤ second) :
    start partitions subscribers first ≤ start partitions subscribers second := by
  induction before with
  | refl => exact Nat.le_refl _
  | step _ ih =>
    rw [start_succ, Nat.add_assoc]
    exact Nat.le_trans ih (Nat.le_add_right _ _)

theorem mem_indices (partitions subscribers rank index : Nat) :
    index ∈ indices partitions subscribers rank ↔
      start partitions subscribers rank ≤ index ∧ index < start partitions subscribers (rank + 1) := by
  have := start_mono partitions subscribers (Nat.le_succ rank)
  simp only [indices, List.mem_range'_1]
  omega

end Share

namespace Group

def subscribers (members : List Membership) (topic : String) : List Membership :=
  members.filter (·.topics.contains topic)

/-- A member's place among the subscribers of a topic. -/
def rank (members : List Membership) (topic : String) (id : Nat) : Nat :=
  (subscribers members topic).findIdx (·.id == id)

/-- The partitions of one topic that fall to one of its subscribers. Past the signed range indices wrap. -/
def share (topics : Topics) (members : List Membership) (id : Nat) (topic : String) : List Partition :=
  (Share.indices (topics.partitionCount topic) (subscribers members topic).length
    (rank members topic id)).map fun (index : Nat) => ⟨topic, signed32 index⟩

/-- Shares out all partitions anew, in a new generation. -/
def rebalance (topics : Topics) (group : Group) : Group :=
  { group with
    generation := group.generation + 1
    members := group.members.map fun member =>
      { member with
        assigned := .ofList (member.topics.flatMap (share topics group.members member.id)) } }

def find? (group : Group) (id : Nat) : Option Membership :=
  group.members.find? (·.id == id)

def assigned (group : Group) (id : Nat) : Std.ExtTreeSet Partition :=
  ((group.find? id).map (·.assigned)).getD ∅

def owns (group : Group) (id : Nat) (partition : Partition) : Bool :=
  (group.assigned id).contains partition

/-- Sets the topics of a member; a new member goes last. -/
def enrol (group : Group) (id : Nat) (topics : List String) : Group :=
  if (group.find? id).isSome then
    { group with members := group.members.map fun member =>
        if member.id = id then { member with topics } else member }
  else { group with members := group.members ++ [{ id := id, topics := topics }] }

def dismiss (group : Group) (id : Nat) : Group :=
  { group with members := group.members.filter (·.id != id) }

def follows (group : Group) (topic : String) : Bool :=
  group.members.any (·.topics.contains topic)

def resume (group : Group) (partition : Partition) : Nat :=
  group.committed.getD partition 0

end Group
end ChatRelay
