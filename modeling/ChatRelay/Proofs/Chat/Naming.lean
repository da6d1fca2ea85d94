import Mathlib.Data.Sym.Sym2
import Std.Data.String.ToInt
import ChatRelay.Chat.Key
import ChatRelay.Proofs.Text.Pieces

namespace ChatRelay

namespace ChatId

/-- A number is written with no hyphen but a sign at its head. -/
theorem toList_number (number : Int) :
    ∃ head tail, number.repr.toList = head :: tail ∧ '-' ∉ tail := by
  have plain : ∀ n, '-' ∉ Nat.toDigits 10 n := Text.notMem_toDigits (by decide)
  rw [Int.repr_eq_if]
  split
  · rw [Nat.toList_repr]
    have digits := plain number.toNat
    cases written : Nat.toDigits 10 number.toNat with
    | nil => exact absurd written Nat.toDigits_ne_nil
    | cons head tail =>
      rw [written, List.mem_cons, not_or] at digits
      exact ⟨head, tail, rfl, digits.2⟩
  · exact ⟨'-', Nat.toDigits 10 (-number).toNat, by simp, plain _⟩

theorem eq_of_hyphenated {first second third fourth : Int}
    (same : s!"{first}-{second}" = s!"{third}-{fourth}") : first = third ∧ second = fourth := by
  have lists := congrArg String.toList same
  obtain ⟨head, tail, written, free⟩ := toList_number first
  obtain ⟨other, rest, spelt, bare⟩ := toList_number third
  simp [Int.toString_eq_repr, written, spelt] at lists
  obtain ⟨rfl, lists⟩ := lists
  obtain ⟨rfl, left⟩ := Text.eq_of_first_separator free bare lists
  have heads : first.repr = third.repr := String.toList_inj.mp (written.trans spelt.symm)
  exact ⟨Int.repr_injective heads, Int.repr_injective (String.toList_inj.mp left)⟩

variable {first second third fourth owner other another : UserId}

theorem between_of_le (sorted : first ≤ second) : between first second = ⟨s!"{first}-{second}"⟩ :=
  if_pos sorted

/-- Both users give their chat the same name. -/
theorem between_comm (first second : UserId) : between first second = between second first := by
  unfold between
  by_cases below : first ≤ second
  · by_cases above : second ≤ first
    · have same : first = second :=
        UserId.ext_toInt (congrArg Int64.toInt (Int64.le_antisymm below above))
      rw [same]
    · rw [if_pos below, if_neg above]
  · rw [if_neg below, if_pos (UserId.le_of_not_le below)]

/-- The name of a chat is that of its users in number order. -/
theorem exists_sorted (first second : UserId) :
    ∃ low high : UserId, s(low, high) = s(first, second) ∧ between first second = ⟨s!"{low}-{high}"⟩ := by
  by_cases below : first ≤ second
  · exact ⟨first, second, rfl, between_of_le below⟩
  · refine ⟨second, first, Sym2.eq_swap, ?_⟩
    rw [between_comm, between_of_le (UserId.le_of_not_le below)]

/-- Chats have the same name if and only if they have the same two users. -/
theorem between_eq_iff : between first second = between third fourth ↔ s(first, second) = s(third, fourth) := by
  constructor
  · intro same
    obtain ⟨low, high, users, name⟩ := exists_sorted first second
    obtain ⟨least, greatest, others, spelt⟩ := exists_sorted third fourth
    obtain ⟨lows, highs⟩ := eq_of_hyphenated (ChatId.mk.inj (name.symm.trans (same.trans spelt)))
    rw [← users, ← others, UserId.ext_toInt lows, UserId.ext_toInt highs]
  · intro same
    rcases Sym2.eq_iff.mp same with ⟨rfl, rfl⟩ | ⟨rfl, rfl⟩
    · rfl
    · exact between_comm first second

/-- The name of a chat tells either user who the other one is. -/
theorem eq_of_between (same : between owner other = between owner another) : other = another :=
  Sym2.congr_right.mp (between_eq_iff.mp same)

end ChatId

theorem ChatKey.forPair_inj {owner other someone another : UserId}
    (same : forPair owner other = forPair someone another) : owner = someone ∧ other = another := by
  obtain ⟨rfl, chats⟩ := ChatKey.mk.inj same
  exact ⟨rfl, ChatId.eq_of_between chats⟩

/-- A name stands for one pair of users, and the name of a row for its owner and the other user. -/
theorem names_stand_for_users (first second third fourth : UserId) :
    (ChatId.between first second = .between third fourth ↔ s(first, second) = s(third, fourth)) ∧
      (ChatKey.forPair first second = .forPair third fourth ↔ first = third ∧ second = fourth) := by
  refine ⟨ChatId.between_eq_iff, ChatKey.forPair_inj, ?_⟩
  rintro ⟨rfl, rfl⟩
  rfl

/-- The hyphen between the numbers is told from those before them. -/
example : (ChatId.between ⟨-1⟩ ⟨-12⟩).text = "-12--1" ∧ (ChatId.between ⟨1⟩ ⟨-12⟩).text = "-12-1" := by
  decide +kernel

end ChatRelay
