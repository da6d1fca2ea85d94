namespace ChatRelay

structure Partition where
  topic : String
  index : Int
deriving DecidableEq, Repr, Inhabited

/-- Partitions come in the order of their topics' names, and in number order within a topic. -/
instance : Ord Partition := ⟨compareLex (compareOn Partition.topic) (compareOn Partition.index)⟩

instance : Std.TransOrd Partition :=
  inferInstanceAs (Std.TransCmp (compareLex (compareOn Partition.topic) (compareOn Partition.index)))

instance : Std.LawfulEqOrd Partition where
  eq_of_compare {first second} equal := by
    obtain ⟨firstTopic, firstIndex⟩ := first
    obtain ⟨secondTopic, secondIndex⟩ := second
    have equal : compareLex (compareOn Partition.topic) (compareOn Partition.index)
        ⟨firstTopic, firstIndex⟩ ⟨secondTopic, secondIndex⟩ = .eq := equal
    simp [compareLex_eq_eq, compareOn] at equal
    simp [equal]

instance : ToString Partition := ⟨fun partition => s!"{partition.topic}[{partition.index}]"⟩

/-- The place in a topic that an index stands for; a negative index reads as the first. -/
def Partition.slot (partition : Partition) : Nat := partition.index.toNat

/-- The signed 32-bit number with the low bits of `n`. -/
def signed32 (n : Nat) : Int := Int.bmod n 0x100000000

theorem signed32_of_lt (small : n < 0x80000000) : signed32 n = n := by
  unfold signed32
  exact Int.bmod_eq_of_le (by omega) (by omega)

theorem signed32_neg (large : 0x80000000 ≤ n) (word : n < 0x100000000) : signed32 n < 0 := by
  unfold signed32
  exact (Int.bmod_neg_iff (by omega) (by omega)).mpr (.inr (by omega))

/-- What a member gains and loses when its group is shared out anew. -/
structure AssignmentChange where
  assigned : List Partition := []
  revoked : List Partition := []
deriving DecidableEq, Repr, Inhabited

def AssignmentChange.isEmpty (change : AssignmentChange) : Bool :=
  change.assigned.isEmpty && change.revoked.isEmpty

end ChatRelay
