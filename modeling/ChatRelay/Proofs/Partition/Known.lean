import ChatRelay.Partition.Placement
import ChatRelay.Partition.Table

namespace ChatRelay

namespace PartitionTable

def grow (table : PartitionTable) (counts : List (String × UInt32)) : PartitionTable :=
  counts.foldl (fun table wanted => (table.ensure wanted.1 wanted.2).2) table

/-- Every partition stands at its index. -/
def InOrder (table : PartitionTable) : Prop :=
  ∀ (topic : String) (slot : Nat) (partition : Partition),
    (table.partitions topic)[slot]? = some partition → partition = ⟨topic, slot⟩

variable {table : PartitionTable} {topic : String} {count : UInt32} {index : Int} {partition : Partition}

theorem inOrder_empty : InOrder {} := by
  intro topic slot partition found
  simp [partitions] at found

theorem InOrder.ensure (inOrder : table.InOrder) (topic : String) (count : UInt32) :
    (table.ensure topic count).2.InOrder := by
  intro other slot partition found
  rw [partitions_ensure, List.getElem?_append] at found
  split at found
  · exact inOrder other slot partition found
  · rename_i past
    split at found
    · rename_i grown
      obtain ⟨rfl, _⟩ := grown
      simp only [fresh, List.getElem?_map, Option.map_eq_some_iff] at found
      obtain ⟨step, at_, rfl⟩ := found
      obtain ⟨_, rfl⟩ := List.getElem?_eq_some_iff.mp at_
      rw [List.getElem_range, PartitionTable.count, Nat.add_sub_cancel' (Nat.le_of_not_lt past)]
    · cases found

theorem InOrder.grow (inOrder : table.InOrder) (counts : List (String × UInt32)) :
    (table.grow counts).InOrder := by
  induction counts generalizing table with
  | nil => exact inOrder
  | cons wanted counts ih => exact ih (inOrder.ensure wanted.1 wanted.2)

theorem InOrder.get?_eq (inOrder : table.InOrder) (nonneg : 0 ≤ index)
    (known : index.toNat < table.count topic) : table.get? topic index = some ⟨topic, index⟩ := by
  have found := List.getElem?_eq_getElem known
  have same := inOrder topic index.toNat _ found
  rw [get?, if_pos nonneg, found, same, Int.toNat_of_nonneg nonneg]

theorem InOrder.eq_of_get? (inOrder : table.InOrder) (known : table.get? topic index = some partition) :
    partition = ⟨topic, index⟩ := by
  unfold get? at known
  split at known
  · rename_i nonneg
    rw [inOrder topic index.toNat partition known, Int.toNat_of_nonneg nonneg]
  · cases known

theorem exists_get? (nonneg : 0 ≤ index) (known : index.toNat < table.count topic) :
    ∃ partition, table.get? topic index = some partition :=
  ⟨(table.partitions topic)[index.toNat], by rw [get?, if_pos nonneg]; exact List.getElem?_eq_getElem known⟩

theorem get?_ensure (known : table.get? topic index = some partition) (other : String) (count : UInt32) :
    (table.ensure other count).2.get? topic index = some partition := by
  unfold get? at known ⊢
  split
  · rename_i nonneg
    rw [if_pos nonneg] at known
    obtain ⟨bound, _⟩ := List.getElem?_eq_some_iff.mp known
    rw [partitions_ensure, List.getElem?_append_left bound]
    exact known
  · rename_i negative
    rw [if_neg negative] at known
    cases known

theorem length_fresh (topic : String) (first : Nat) (count : UInt32) :
    (fresh topic first count).length = if count.toNat < 0x80000000 then count.toNat - first else 0 := by
  rw [fresh, List.length_map, List.length_range]
  split
  · rename_i small
    rw [signed32_of_lt small]
    omega
  · rename_i large
    have below := signed32_neg (Nat.le_of_not_lt large) count.toNat_lt
    omega

/-- A topic grows to the count that is asked for, if that is greater and within the signed range. -/
theorem count_ensure (table : PartitionTable) (topic other : String) (wanted : UInt32) :
    (table.ensure topic wanted).2.count other =
      if topic = other ∧ wanted.toNat < 0x80000000 then max (table.count other) wanted.toNat
      else table.count other := by
  rw [PartitionTable.count, partitions_ensure, List.length_append, ← PartitionTable.count]
  by_cases same : topic = other
  · subst same
    by_cases more : table.count topic < wanted.toNat
    · rw [if_pos ⟨rfl, more⟩, length_fresh]
      by_cases small : wanted.toNat < 0x80000000
      · rw [if_pos small, if_pos ⟨rfl, small⟩]
        omega
      · rw [if_neg small, if_neg fun grown => small grown.2, Nat.add_zero]
    · rw [if_neg fun grown => more grown.2, List.length_nil]
      split <;> omega
  · rw [if_neg fun grown => same grown.1, if_neg fun grown => same grown.1, List.length_nil, Nat.add_zero]

theorem le_count_ensure (table : PartitionTable) (topic : String) (small : count.toNat < 0x80000000) :
    count.toNat ≤ (table.ensure topic count).2.count topic := by
  rw [count_ensure, if_pos ⟨rfl, small⟩]
  exact Nat.le_max_right _ _

section Learn

variable {assigned : List Partition}

theorem InOrder.learn (inOrder : table.InOrder) (assigned : List Partition) :
    (table.learn assigned).InOrder := by
  induction assigned generalizing table with
  | nil => exact inOrder
  | cons partition assigned ih => exact ih (inOrder.ensure _ _)

theorem get?_learn (known : table.get? topic index = some partition) (assigned : List Partition) :
    (table.learn assigned).get? topic index = some partition := by
  induction assigned generalizing table with
  | nil => exact known
  | cons other assigned ih => exact ih (get?_ensure known ..)

theorem InOrder.get?_learn_of_mem (inOrder : table.InOrder)
    (bounds : ∀ partition ∈ assigned, 0 ≤ partition.index ∧ partition.index < 0x7fffffff)
    (member : partition ∈ assigned) :
    (table.learn assigned).get? partition.topic partition.index = some partition := by
  induction assigned generalizing table with
  | nil => cases member
  | cons other assigned ih =>
    rcases List.mem_cons.mp member with rfl | later
    · refine get?_learn ?_ assigned
      obtain ⟨natural, below⟩ := bounds partition member
      have asked : (UInt32.ofInt (partition.index + 1)).toNat = partition.index.toNat + 1 := by
        simp only [UInt32.ofInt, UInt32.toNat_ofNat', Int.reducePow]
        omega
      have small : (UInt32.ofInt (partition.index + 1)).toNat < 0x80000000 := by omega
      have counted := le_count_ensure table partition.topic small
      exact (inOrder.ensure _ _).get?_eq natural (by omega)
    · exact ih (inOrder.ensure _ _) (fun partition member => bounds partition (.tail _ member)) later

end Learn

end PartitionTable

namespace Placement

variable {count : UInt32}

theorem index_lt (user : UserId) (positive : 0 < count.toNat) (small : count.toNat < 0x80000000) :
    0 ≤ index user count ∧ index user count < count.toNat := by
  have some : count ≠ 0 := by
    rintro rfl
    cases positive
  have wide : count.toUInt64.toNat = count.toNat := UInt32.toNat_toUInt64 count
  have below := Nat.mod_lt (hash user).toNat positive
  rw [index, if_neg some, UInt64.toNat_mod, wide, signed32_of_lt (Nat.lt_trans below small)]
  omega

end Placement
end ChatRelay
