import Mathlib.Data.Finset.Card
import Mathlib.Data.Int.Interval
import Mathlib.Data.Nat.Bitwise
import Mathlib.Data.Nat.ModEq
import ChatRelay.Proofs.Partition.Known

namespace ChatRelay

theorem Bytes.ofNat_succ (width n : Nat) :
    ofNat (width + 1) n = ofNat width (n / 256) ++ [UInt8.ofNat n] := by
  induction width with
  | zero => simp [ofNat]
  | succ width ih =>
    have head : n / Nat.pow 256 (width + 1) = n / 256 / Nat.pow 256 width := by
      rw [Nat.div_div_eq_div_mul, Nat.mul_comm]
      rfl
    rw [ofNat, ih, head]
    rfl

namespace Fingerprint

variable {bits : Nat}

/-- The prime is odd and mixing is reversible, so the low bits of a hash tell those of the byte apart. -/
theorem absorb_mod_eq_iff (word : bits ≤ 64) (hash : UInt64) (first second : UInt8) :
    (absorb hash first).toNat % 2 ^ bits = (absorb hash second).toNat % 2 ^ bits ↔
      first.toNat % 2 ^ bits = second.toNat % 2 ^ bits := by
  have odd : Nat.gcd (2 ^ bits) 0x100000001b3 = 1 := Nat.Coprime.pow_left bits (by decide)
  have low (byte : UInt8) : (absorb hash byte).toNat % 2 ^ bits =
      (hash.toNat ^^^ byte.toNat) * 0x100000001b3 % 2 ^ bits := by
    have mixed : (absorb hash byte).toNat = (hash.toNat ^^^ byte.toNat) * 0x100000001b3 % 2 ^ 64 := by
      simp [absorb]
    rw [mixed, Nat.mod_mod_of_dvd _ (Nat.pow_dvd_pow 2 word)]
  rw [low, low]
  constructor
  · intro same
    -- first the multiplication is undone, and then the mixing
    have mixed := Nat.ModEq.cancel_right_of_coprime odd same
    rw [Nat.ModEq, Nat.xor_mod_two_pow, Nat.xor_mod_two_pow] at mixed
    exact Nat.xor_right_inj.mp mixed
  · intro same
    apply Nat.ModEq.mul_right
    rw [Nat.ModEq, Nat.xor_mod_two_pow, Nat.xor_mod_two_pow, same]

end Fingerprint

namespace Placement

variable {bits : Nat} {base : Int64} {first second : UserId}

/-- The last byte of a user's number is absorbed last. -/
theorem hash_eq (user : UserId) :
    hash user = Fingerprint.absorb (Fingerprint.ofBytes (Bytes.ofNat 7 (user.value.toUInt64.toNat / 256)))
      (UInt8.ofNat user.value.toUInt64.toNat) := by
  rw [hash, Bytes.ofInt64, Bytes.ofNat_succ, Fingerprint.ofBytes_append]
  rfl

theorem toNat_toUInt64 (value : Int64) : (value.toUInt64.toNat : Int) = value.toInt % 2 ^ 64 := by
  have bound := value.toUInt64.toNat_lt
  have signed : value.toInt = (value.toUInt64.toNat : Int).bmod (2 ^ 64) :=
    value.toBitVec.toInt_eq_toNat_bmod
  rw [Int.bmod_def] at signed
  split at signed <;> omega

theorem lastByte_mod (small : bits ≤ 8) (value : Int64) :
    ((UInt8.ofNat value.toUInt64.toNat).toNat % 2 ^ bits : Nat) = value.toInt % 2 ^ bits := by
  have byte : (2 : Nat) ^ bits ∣ 2 ^ 8 := Nat.pow_dvd_pow 2 small
  have word : (2 : Int) ^ bits ∣ 2 ^ 64 := pow_dvd_pow 2 (by omega)
  rw [UInt8.toNat_ofNat', Nat.mod_mod_of_dvd _ byte, Int.natCast_mod, toNat_toUInt64]
  push_cast
  exact Int.emod_emod_of_dvd _ word

/-- Of two users whose numbers differ in the last byte only, the hashes agree in as many low bits as the
numbers do. -/
theorem hash_mod_eq_iff (small : bits ≤ 8) (near : first.value.toInt / 256 = second.value.toInt / 256) :
    (hash first).toNat % 2 ^ bits = (hash second).toNat % 2 ^ bits ↔
      first.value.toInt % 2 ^ bits = second.value.toInt % 2 ^ bits := by
  have prior : first.value.toUInt64.toNat / 256 = second.value.toUInt64.toNat / 256 := by
    have one := toNat_toUInt64 first.value
    have other := toNat_toUInt64 second.value
    omega
  rw [hash_eq, hash_eq, prior, Fingerprint.absorb_mod_eq_iff (by omega), ← lastByte_mod small,
    ← lastByte_mod small, Int.natCast_inj]

theorem toNat_two_pow (small : bits ≤ 8) : (UInt32.ofNat (2 ^ bits)).toNat = 2 ^ bits := by
  have bound : 2 ^ bits ≤ 2 ^ 8 := Nat.pow_le_pow_right (by decide) small
  exact UInt32.toNat_ofNat_of_lt' (Nat.lt_of_le_of_lt bound (by decide))

/-- Out of a power of two, a user's partition is told by the low bits of the hash. -/
theorem index_two_pow (small : bits ≤ 8) (user : UserId) :
    index user (UInt32.ofNat (2 ^ bits)) = ((hash user).toNat % 2 ^ bits : Nat) := by
  have count := toNat_two_pow small
  have bound : 2 ^ bits ≤ 2 ^ 8 := Nat.pow_le_pow_right (by decide) small
  have below := Nat.mod_lt (hash user).toNat (Nat.two_pow_pos bits)
  have some : UInt32.ofNat (2 ^ bits) ≠ 0 := by
    intro none
    rw [none] at count
    exact absurd count (Nat.ne_of_lt (Nat.two_pow_pos bits))
  rw [index, if_neg some, UInt64.toNat_mod, UInt32.toNat_toUInt64, count, signed32_of_lt (by omega)]

theorem index_eq_iff (small : bits ≤ 8) (near : first.value.toInt / 256 = second.value.toInt / 256) :
    index first (UInt32.ofNat (2 ^ bits)) = index second (UInt32.ofNat (2 ^ bits)) ↔
      first.value.toInt % 2 ^ bits = second.value.toInt % 2 ^ bits := by
  rw [index_two_pow small, index_two_pow small, Int.natCast_inj, hash_mod_eq_iff small near]

def numbered (number : Int) : UserId := ⟨Int64.ofInt number⟩

def consecutive (base : Int64) (length : Nat) : Set UserId :=
  {user | base.toInt ≤ user.value.toInt ∧ user.value.toInt < base.toInt + length}

def indices (count : Nat) : Set Int := {index | 0 ≤ index ∧ index < count}

theorem index_mem_indices (small : bits ≤ 8) (user : UserId) :
    index user (UInt32.ofNat (2 ^ bits)) ∈ indices (2 ^ bits) := by
  have below := Nat.mod_lt (hash user).toNat (Nat.two_pow_pos bits)
  rw [index_two_pow small]
  exact ⟨Int.natCast_nonneg _, Int.ofNat_lt.mpr below⟩

section Aligned

variable (aligned : (2 ^ bits : Int) ∣ base.toInt)
include aligned

/-- Numbers that begin with a multiple of a power of two differ in their low bits only. -/
theorem ediv_eq_of_mem_consecutive (among : first ∈ consecutive base (2 ^ bits)) :
    first.value.toInt / 2 ^ bits = base.toInt / 2 ^ bits := by
  obtain ⟨least, below⟩ := among
  have whole := Int.ediv_mul_cancel aligned
  push_cast at below
  rw [Int.ediv_eq_iff_of_pos (Int.pow_pos (by decide)), whole]
  exact ⟨least, below⟩

theorem injOn_index (small : bits ≤ 8) :
    Set.InjOn (fun user => index user (UInt32.ofNat (2 ^ bits))) (consecutive base (2 ^ bits)) := by
  intro first firstAmong second secondAmong same
  have quotients : first.value.toInt / 2 ^ bits = second.value.toInt / 2 ^ bits :=
    (ediv_eq_of_mem_consecutive aligned firstAmong).trans (ediv_eq_of_mem_consecutive aligned secondAmong).symm
  have positive : (0 : Int) ≤ 2 ^ bits := Int.le_of_lt (Int.pow_pos (by decide))
  have near : first.value.toInt / 256 = second.value.toInt / 256 := by
    have byte : (256 : Int) = 2 ^ bits * 2 ^ (8 - bits) := by
      rw [← pow_add, Nat.add_sub_cancel' small]
      rfl
    rw [byte, ← Int.ediv_ediv_of_nonneg positive, ← Int.ediv_ediv_of_nonneg positive, quotients]
  have residues := (index_eq_iff small near).mp same
  apply UserId.ext_toInt
  rw [← Int.emod_add_mul_ediv first.value.toInt (2 ^ bits), residues, quotients, Int.emod_add_mul_ediv]

theorem toInt_numbered (small : bits ≤ 8) {number : Int} (least : base.toInt ≤ number)
    (below : number < base.toInt + 2 ^ bits) : (numbered number).value.toInt = number := by
  have lowest := base.le_toInt
  have highest := base.toInt_lt
  have last : (2 ^ bits : Int) ∣ 2 ^ 63 := pow_dvd_pow 2 (by omega)
  have room : (2 ^ bits : Int) ≤ 2 ^ 63 - base.toInt :=
    Int.le_of_dvd (by omega) (Int.dvd_sub last aligned)
  exact Int64.toInt_ofInt_of_le (by omega) (by omega)

theorem numbered_mem_consecutive (small : bits ≤ 8) {number : Int} (least : base.toInt ≤ number)
    (below : number < base.toInt + 2 ^ bits) : numbered number ∈ consecutive base (2 ^ bits) := by
  rw [consecutive, Set.mem_ofPred_eq, toInt_numbered aligned small least below]
  exact ⟨least, by exact_mod_cast below⟩

/-- There are as many users as partitions, so that no partition is left out. -/
theorem surjOn_index (small : bits ≤ 8) :
    Set.SurjOn (fun user => index user (UInt32.ofNat (2 ^ bits))) (consecutive base (2 ^ bits))
      (indices (2 ^ bits)) := by
  have every : Set.SurjOn (fun number => index (numbered number) (UInt32.ofNat (2 ^ bits)))
      (Finset.Ico base.toInt (base.toInt + 2 ^ bits)) (Finset.Ico (0 : Int) (2 ^ bits : Nat)) := by
    apply Finset.surjOn_of_injOn_of_card_le
    · intro number _
      exact Finset.mem_coe.mpr (Finset.mem_Ico.mpr (index_mem_indices small (numbered number)))
    · intro one first other second same
      obtain ⟨least, below⟩ := Finset.mem_Ico.mp first
      obtain ⟨floor, under⟩ := Finset.mem_Ico.mp second
      have users := injOn_index aligned small (numbered_mem_consecutive aligned small least below)
        (numbered_mem_consecutive aligned small floor under) same
      rw [← toInt_numbered aligned small least below, users, toInt_numbered aligned small floor under]
    · simp
  intro slot there
  obtain ⟨number, among, same⟩ := every (Finset.mem_coe.mpr (Finset.mem_Ico.mpr there))
  obtain ⟨least, below⟩ := Finset.mem_Ico.mp among
  exact ⟨numbered number, numbered_mem_consecutive aligned small least below, same⟩

end Aligned

/-- Users whose numbers follow a multiple of a power of two go to as many partitions, each to its own. -/
theorem consecutive_users_spread (small : bits ≤ 8) (aligned : (2 ^ bits : Int) ∣ base.toInt) :
    Set.BijOn (fun user => index user (UInt32.ofNat (2 ^ bits))) (consecutive base (2 ^ bits))
      (indices (2 ^ bits)) :=
  ⟨fun user _ => index_mem_indices small user, injOn_index aligned small, surjOn_index aligned small⟩

/-- The sixteen users before zero, the first bytes of whose numbers are all ones. -/
theorem sixteen_users_spread :
    (4 ≤ 8 ∧ (2 ^ 4 : Int) ∣ (-16 : Int64).toInt) ∧
      Set.BijOn (fun user => index user (UInt32.ofNat (2 ^ 4))) (consecutive (-16) (2 ^ 4)) (indices (2 ^ 4)) ∧
      (List.range 16).map (fun (step : Nat) => index (numbered (-16 + step)) 16) =
        [0, 3, 6, 9, 12, 15, 2, 5, 8, 11, 14, 1, 4, 7, 10, 13] :=
  ⟨⟨by decide, by decide⟩, consecutive_users_spread (by decide) (by decide), by decide +kernel⟩

end Placement
end ChatRelay
