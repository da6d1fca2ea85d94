import ChatRelay.Decimal.Numeral

namespace ChatRelay.Decimal

def unsigned : List Char → List Char
  | '+' :: digits => digits
  | digits => digits

/-- At least one digit, after an optional plus sign, and the number that they write. -/
structure Numeral (text : List Char) (number : Nat) : Prop where
  nonempty : unsigned text ≠ []
  digits : ∀ c ∈ unsigned text, c.isDigit
  value : Nat.ofDigitChars 10 (unsigned text) 0 = number

/-- The digits at the head of a text write a number over the limit. -/
def Exceeds (limit value : Nat) (text : List Char) : Prop :=
  ∃ digits rest, text = digits ++ rest ∧ (∀ c ∈ digits, c.isDigit) ∧ limit < Nat.ofDigitChars 10 digits value

/-- What is wrong with a text that is no numeral up to a limit. -/
def Faulty (limit : Nat) (text : List Char) : NumeralFault → Prop
  | .empty => text = []
  | .tooLarge => Exceeds limit 0 (unsigned text)
  | .invalidDigit => text ≠ [] ∧ ¬ Exceeds limit 0 (unsigned text) ∧ ∀ number, ¬ Numeral text number

variable {limit value number : Nat} {text : List Char}

theorem readDigits_cons (limit value : Nat) (c : Char) (rest : List Char) :
    readDigits limit value (c :: rest) =
      if c.isDigit then
        if limit < 10 * value + (c.toNat - '0'.toNat) then .error .tooLarge
        else readDigits limit (10 * value + (c.toNat - '0'.toNat)) rest
      else .error .invalidDigit := by
  have same : ('0' ≤ c ∧ c ≤ '9') ↔ c.isDigit = true := by
    rw [Char.isDigit_iff_toNat]
    exact Iff.rfl
  rw [readDigits, digit?]
  by_cases digit : c.isDigit <;> simp [same, digit]

theorem readDigits_ne_empty (limit value : Nat) (text : List Char) :
    readDigits limit value text ≠ .error .empty := by
  induction text generalizing value with
  | nil => simp [readDigits]
  | cons c rest ih =>
    rw [readDigits_cons]
    split
    · split
      · simp
      · exact ih _
    · simp

theorem le_ofDigitChars (digits : List Char) (value : Nat) : value ≤ Nat.ofDigitChars 10 digits value := by
  induction digits generalizing value with
  | nil => exact Nat.le_refl _
  | cons c rest ih =>
    rw [Nat.ofDigitChars_cons]
    exact Nat.le_trans (by omega) (ih _)

theorem exceeds_nil (within : value ≤ limit) : ¬ Exceeds limit value [] := by
  rintro ⟨digits, rest, empty, _, beyond⟩
  obtain ⟨rfl, rfl⟩ := List.append_eq_nil_iff.mp empty.symm
  exact Nat.not_lt.mpr within beyond

theorem exceeds_cons (within : value ≤ limit) (c : Char) (rest : List Char) :
    Exceeds limit value (c :: rest) ↔ c.isDigit ∧
      (limit < 10 * value + (c.toNat - '0'.toNat) ∨
        Exceeds limit (10 * value + (c.toNat - '0'.toNat)) rest) := by
  constructor
  · rintro ⟨digits, after, split, all, beyond⟩
    cases digits with
    | nil => exact absurd beyond (Nat.not_lt.mpr within)
    | cons first digits =>
      obtain ⟨rfl, rfl⟩ := List.cons.inj split
      obtain ⟨digit, all⟩ := List.forall_mem_cons.mp all
      rw [Nat.ofDigitChars_cons] at beyond
      exact ⟨digit, .inr ⟨digits, after, rfl, all, beyond⟩⟩
  · rintro ⟨digit, beyond | ⟨digits, after, rfl, all, beyond⟩⟩
    · exact ⟨[c], rest, rfl, by simpa using digit, by simpa [Nat.ofDigitChars_cons] using beyond⟩
    · exact ⟨c :: digits, after, rfl, by simpa [digit] using all, by rwa [Nat.ofDigitChars_cons]⟩

/-- Nothing but digits is read, and as far as the limit. -/
theorem readDigits_eq_ok_iff (within : value ≤ limit) :
    readDigits limit value text = .ok number ↔
      (∀ c ∈ text, c.isDigit) ∧ Nat.ofDigitChars 10 text value = number ∧ number ≤ limit := by
  induction text generalizing value with
  | nil =>
    simp only [readDigits, Except.ok.injEq, Nat.ofDigitChars_nil]
    constructor
    · rintro rfl
      exact ⟨by simp, rfl, within⟩
    · exact fun reads => reads.2.1
  | cons c rest ih =>
    rw [readDigits_cons, Nat.ofDigitChars_cons, List.forall_mem_cons]
    by_cases digit : c.isDigit
    · rw [if_pos digit]
      by_cases beyond : limit < 10 * value + (c.toNat - '0'.toNat)
      · -- digits only add to a value, so it does not come back below the limit
        have above := le_ofDigitChars rest (10 * value + (c.toNat - '0'.toNat))
        rw [if_pos beyond]
        constructor
        · intro reads
          cases reads
        · rintro ⟨_, rfl, below⟩
          omega
      · rw [if_neg beyond, ih (Nat.not_lt.mp beyond), and_iff_right digit]
    · simp [digit]

theorem readDigits_eq_tooLarge_iff (within : value ≤ limit) :
    readDigits limit value text = .error .tooLarge ↔ Exceeds limit value text := by
  induction text generalizing value with
  | nil => simpa [readDigits] using exceeds_nil within
  | cons c rest ih =>
    rw [readDigits_cons, exceeds_cons within]
    by_cases digit : c.isDigit
    · rw [if_pos digit, and_iff_right digit]
      by_cases beyond : limit < 10 * value + (c.toNat - '0'.toNat)
      · simp only [beyond, if_true, true_or]
      · rw [if_neg beyond, ih (Nat.not_lt.mp beyond), or_iff_right beyond]
    · simp [digit]

theorem readNumeral_eq (nonempty : text ≠ []) :
    readNumeral limit text =
      if unsigned text = [] then .error .invalidDigit else readDigits limit 0 (unsigned text) := by
  unfold readNumeral
  split
  · exact absurd rfl nonempty
  · rfl
  · rename_i digits some
    rw [unsigned, if_neg some]
  · rename_i digits none other
    have same : unsigned text = text := by
      unfold unsigned
      split
      · rename_i rest
        exact absurd rfl (other rest)
      · rfl
    rw [same, if_neg nonempty]

theorem readNumeral_eq_ok_iff :
    readNumeral limit text = .ok number ↔ Numeral text number ∧ number ≤ limit := by
  by_cases nonempty : text = []
  · subst nonempty
    simp only [readNumeral, reduceCtorEq, false_iff]
    exact fun numeral => numeral.1.nonempty rfl
  · rw [readNumeral_eq nonempty]
    by_cases sign : unsigned text = []
    · simp only [sign, if_true, reduceCtorEq, false_iff]
      exact fun numeral => numeral.1.nonempty sign
    · rw [if_neg sign, readDigits_eq_ok_iff (Nat.zero_le limit)]
      exact ⟨fun reads => ⟨⟨sign, reads.1, reads.2.1⟩, reads.2.2⟩,
        fun numeral => ⟨numeral.1.digits, numeral.1.value, numeral.2⟩⟩

theorem readNumeral_eq_empty_iff : readNumeral limit text = .error .empty ↔ text = [] := by
  constructor
  · intro reads
    apply Decidable.byContradiction
    intro nonempty
    rw [readNumeral_eq nonempty] at reads
    split at reads
    · cases reads
    · exact readDigits_ne_empty limit 0 _ reads
  · rintro rfl
    rfl

theorem readNumeral_eq_tooLarge_iff :
    readNumeral limit text = .error .tooLarge ↔ Exceeds limit 0 (unsigned text) := by
  by_cases nonempty : text = []
  · subst nonempty
    simpa [readNumeral, unsigned] using exceeds_nil (Nat.zero_le limit)
  · rw [readNumeral_eq nonempty]
    by_cases sign : unsigned text = []
    · simpa [sign] using exceeds_nil (Nat.zero_le limit)
    · rw [if_neg sign, readDigits_eq_tooLarge_iff (Nat.zero_le limit)]

/-- A numeral over the limit is noticed by its digits. -/
theorem Numeral.le_or_exceeds (numeral : Numeral text number) (limit : Nat) :
    number ≤ limit ∨ Exceeds limit 0 (unsigned text) := by
  rcases Nat.lt_or_ge limit number with beyond | within
  · exact .inr ⟨unsigned text, [], by simp, numeral.digits, by rwa [numeral.value]⟩
  · exact .inl within

theorem readNumeral_eq_error_iff {fault : NumeralFault} :
    readNumeral limit text = .error fault ↔ Faulty limit text fault := by
  cases fault with
  | empty => exact readNumeral_eq_empty_iff
  | tooLarge => exact readNumeral_eq_tooLarge_iff
  | invalidDigit =>
    constructor
    · intro reads
      refine ⟨?_, ?_, ?_⟩
      · rintro rfl
        cases reads
      · rw [← readNumeral_eq_tooLarge_iff, reads]
        simp
      · intro number numeral
        rcases numeral.le_or_exceeds limit with within | beyond
        · cases reads.symm.trans (readNumeral_eq_ok_iff.mpr ⟨numeral, within⟩)
        · cases reads.symm.trans (readNumeral_eq_tooLarge_iff.mpr beyond)
    · rintro ⟨nonempty, below, none⟩
      cases reads : readNumeral limit text with
      | ok number => exact absurd (readNumeral_eq_ok_iff.mp reads).1 (none number)
      | error fault =>
        cases fault with
        | empty => exact absurd (readNumeral_eq_empty_iff.mp reads) nonempty
        | tooLarge => exact absurd (readNumeral_eq_tooLarge_iff.mp reads) below
        | invalidDigit => rfl

end ChatRelay.Decimal
