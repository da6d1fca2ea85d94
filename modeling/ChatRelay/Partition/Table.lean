import Std.Data.ExtTreeMap
import ChatRelay.Partition

namespace ChatRelay

structure PartitionTable where
  topics : Std.ExtTreeMap String (List Partition) := ∅

namespace PartitionTable

def partitions (table : PartitionTable) (topic : String) : List Partition :=
  table.topics.getD topic []

def count (table : PartitionTable) (topic : String) : Nat :=
  (table.partitions topic).length

/-- The known partition at an index, which must not be negative. -/
def get? (table : PartitionTable) (topic : String) (index : Int) : Option Partition :=
  if 0 ≤ index then (table.partitions topic)[index.toNat]? else none

/-- The partitions of a topic from index `first` up to the signed reading of `count`. -/
def fresh (topic : String) (first : Nat) (count : UInt32) : List Partition :=
  (List.range (signed32 count.toNat - first).toNat).map fun step => ⟨topic, (first + step : Nat)⟩

/-- Makes at least `count` partitions of a topic known, and tells whether that was news. Counts past the
signed range are news that add no partition. -/
def ensure (table : PartitionTable) (topic : String) (count : UInt32) : Bool × PartitionTable :=
  let known := table.partitions topic
  if count.toNat ≤ known.length then (false, table)
  else (true, ⟨table.topics.insert topic (known ++ fresh topic known.length count)⟩)

/-- What was known of a topic stays in place, and new partitions come after it. -/
theorem partitions_ensure (table : PartitionTable) (topic other : String) (wanted : UInt32) :
    (table.ensure topic wanted).2.partitions other =
      table.partitions other ++
        if topic = other ∧ table.count topic < wanted.toNat then fresh topic (table.count topic) wanted
        else [] := by
  unfold ensure count
  dsimp only
  by_cases known : wanted.toNat ≤ (table.partitions topic).length
  · simp [known, Nat.not_lt.2 known]
  · rw [if_neg known]
    by_cases same : topic = other
    · subst same
      rw [if_pos ⟨rfl, Nat.lt_of_not_le known⟩]
      simp [partitions]
    · simp [same, partitions, Std.ExtTreeMap.getD_insert]

def ofTopics (topics : List String) (count : UInt32) : PartitionTable :=
  topics.foldl (fun table topic => (table.ensure topic count).2) {}

/-- Makes partitions known that were assigned, with all those before them. -/
def learn (table : PartitionTable) (assigned : List Partition) : PartitionTable :=
  assigned.foldl
    (fun table partition => (table.ensure partition.topic (UInt32.ofInt (partition.index + 1))).2) table

end PartitionTable
end ChatRelay
