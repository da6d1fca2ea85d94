import Mathlib.Data.List.Induction
import Mathlib.Order.Bounds.Basic
import ChatRelay.Proofs.Partition.Known

namespace ChatRelay.PartitionTable

variable {table : PartitionTable} {topic other : String} {counts : List (String × UInt32)} {count : UInt32}
  {index : Int} {partition : Partition}

/-- Zero, and the counts within the signed range that were asked for a topic. -/
def asked (counts : List (String × UInt32)) (topic : String) : Set Nat :=
  insert 0 {size | ∃ count, (topic, count) ∈ counts ∧ count.toNat = size ∧ size < 0x80000000}

theorem grow_concat (table : PartitionTable) (counts : List (String × UInt32)) (wanted : String × UInt32) :
    table.grow (counts ++ [wanted]) = ((table.grow counts).ensure wanted.1 wanted.2).2 := by
  simp [grow]

theorem asked_concat (counts : List (String × UInt32)) (wanted : String × UInt32) (topic : String) :
    asked (counts ++ [wanted]) topic =
      if wanted.1 = topic ∧ wanted.2.toNat < 0x80000000 then insert wanted.2.toNat (asked counts topic)
      else asked counts topic := by
  obtain ⟨other, count⟩ := wanted
  ext size
  split <;> grind [asked]

/-- A topic has as many partitions as the greatest count that was asked for it. -/
theorem isGreatest_count_grow (counts : List (String × UInt32)) (topic : String) :
    IsGreatest (asked counts topic) ((grow {} counts).count topic) := by
  induction counts using List.reverseRecOn with
  | nil =>
    have nothing : (grow {} []).count topic = 0 := by simp [grow, PartitionTable.count, partitions]
    have zero : asked [] topic = {0} := by simp [asked]
    rw [nothing, zero]
    exact isGreatest_singleton
  | append_singleton counts wanted ih =>
    rw [grow_concat, count_ensure, asked_concat]
    split
    · rw [Nat.max_comm]
      exact ih.insert wanted.2.toNat
    · exact ih

theorem InOrder.get?_eq_some_iff (inOrder : table.InOrder) :
    table.get? topic index = some partition ↔
      0 ≤ index ∧ index < table.count topic ∧ partition = ⟨topic, index⟩ := by
  constructor
  · intro found
    have itself := inOrder.eq_of_get? found
    unfold get? at found
    split at found
    · rename_i natural
      obtain ⟨known, _⟩ := List.getElem?_eq_some_iff.mp found
      rw [← PartitionTable.count] at known
      exact ⟨natural, by omega, itself⟩
    · cases found
  · rintro ⟨natural, known, rfl⟩
    exact inOrder.get?_eq natural (by omega)

theorem ensure_news_iff (table : PartitionTable) (topic : String) (count : UInt32) :
    (table.ensure topic count).1 = true ↔ table.count topic < count.toNat := by
  unfold ensure PartitionTable.count
  dsimp only
  split <;> simp_all

/-- What a table holds that has been asked for counts, and how it goes on from there. -/
structure Exact (table : PartitionTable) (counts : List (String × UInt32)) : Prop where
  counted : ∀ topic, IsGreatest (asked counts topic) (table.count topic)
  handed : ∀ topic index partition, table.get? topic index = some partition ↔
    0 ≤ index ∧ index < table.count topic ∧ partition = ⟨topic, index⟩
  kept : ∀ topic index partition, table.get? topic index = some partition →
    ∀ other count, (table.ensure other count).2.get? topic index = some partition
  /-- It is told as news that the table grows. -/
  told : ∀ topic count, count.toNat < 0x80000000 →
    ((table.ensure topic count).1 = true ↔
      ∃ other, table.count other < (table.ensure topic count).2.count other)
  /-- Counts past the signed range are told as news, but nothing is added for them. -/
  past : ∀ topic count, 0x80000000 ≤ count.toNat → (table.ensure topic count).1 = true ∧
    ∀ other, (table.ensure topic count).2.count other = table.count other

theorem asked_counts_are_known (counts : List (String × UInt32)) : (grow {} counts).Exact counts where
  counted := isGreatest_count_grow counts
  handed topic index partition := (inOrder_empty.grow counts).get?_eq_some_iff
  kept topic index partition found := get?_ensure found
  told topic count small := by
    simp only [ensure_news_iff, count_ensure]
    constructor
    · intro more
      refine ⟨topic, ?_⟩
      rw [if_pos ⟨rfl, small⟩]
      omega
    · rintro ⟨other, grown⟩
      split at grown
      · rename_i same
        obtain ⟨rfl, -⟩ := same
        omega
      · omega
  past topic count large := by
    obtain ⟨among, -⟩ := isGreatest_count_grow counts topic
    refine ⟨(ensure_news_iff _ _ _).mpr ?_, fun other => ?_⟩
    · rcases among with zero | ⟨_, _, _, small⟩
      · omega
      · omega
    · rw [count_ensure, if_neg fun grown => Nat.not_lt.mpr large grown.2]

/-- A smaller count is no news; one past the signed range is, and adds nothing. -/
example :
    let table := grow {} [("messages", 3), ("messages", 0x80000000), ("messages", 2)]
    table.count "messages" = 3 ∧ (table.ensure "messages" 2).1 = false ∧
      (table.ensure "messages" 0x80000000).1 = true := by
  decide +kernel

end ChatRelay.PartitionTable
