import Mathlib.Data.List.DropRight
import ChatRelay.Text.Blank

namespace ChatRelay.Text

variable {text inner first second rest more : List Char} {separator : Char} {parts : List (List Char)}

def Begins (text heading : String) : Prop :=
  heading.toByteArray.data.toList <+: text.toByteArray.data.toList

instance (text heading : String) : Decidable (Begins text heading) :=
  inferInstanceAs (Decidable (_ <+: _))

namespace Begins

theorem refl (text : String) : Begins text text := List.prefix_refl _

theorem append {text heading : String} (begins : Begins text heading) (rest : String) :
    Begins (text ++ rest) heading := by
  rw [Begins, String.toByteArray_append, ByteArray.data_append, Array.toList_append]
  exact begins.trans (List.prefix_append ..)

theorem comparable {text heading other : String} (begins : Begins text heading) (beginsToo : Begins text other) :
    Begins heading other ∨ Begins other heading :=
  (List.prefix_or_prefix_of_prefix begins beginsToo).symm

end Begins

def Blank (text : List Char) : Prop := ∀ c ∈ text, isBlank c

instance (text : List Char) : Decidable (Blank text) :=
  inferInstanceAs (Decidable (∀ c ∈ text, isBlank c = true))

/-- No blank stands at either end. -/
def Trimmed (text : List Char) : Prop :=
  (∀ c ∈ text.head?, ¬ isBlank c) ∧ ∀ c ∈ text.getLast?, ¬ isBlank c

/-- The second text is the first without its outer blanks. -/
def Trims (text inner : List Char) : Prop :=
  Trimmed inner ∧ ∃ before after, Blank before ∧ Blank after ∧ text = before ++ inner ++ after

theorem blank_append_iff {before after : List Char} : Blank (before ++ after) ↔ Blank before ∧ Blank after :=
  List.forall_mem_append

theorem Trimmed.nil : Trimmed [] := by
  simp [Trimmed]

theorem trimmed_trimBlanks (text : List Char) : Trimmed (trimBlanks text) := by
  constructor
  · intro c first
    obtain ⟨rest, begun⟩ := List.head?_eq_some_iff.mp first
    obtain ⟨after, kept⟩ : trimBlanks text <+: text.dropWhile isBlank := List.rdropWhile_prefix isBlank _
    have stopped := List.head?_dropWhile_not isBlank text
    rw [← kept, begun] at stopped
    simpa using stopped
  · intro c last
    obtain ⟨some, same⟩ := List.mem_getLast?_eq_getLast last
    rw [same]
    exact List.rdropWhile_last_not isBlank _ some

/-- Trimming leaves out nothing but blanks, and all that are at the ends. -/
theorem trims_trimBlanks (text : List Char) : Trims text (trimBlanks text) := by
  refine ⟨trimmed_trimBlanks text, text.takeWhile isBlank, (text.dropWhile isBlank).rtakeWhile isBlank,
    fun c among => List.mem_takeWhile_imp among, fun c among => List.mem_rtakeWhile_imp among, ?_⟩
  have ending : trimBlanks text ++ (text.dropWhile isBlank).rtakeWhile isBlank = text.dropWhile isBlank :=
    List.rdropWhile_append_rtakeWhile
  rw [List.append_assoc, ending, List.takeWhile_append_dropWhile]

theorem dropWhile_blank_append {before : List Char} (blank : Blank before)
    (stops : ∀ c ∈ text.head?, ¬ isBlank c) : (before ++ text).dropWhile isBlank = text := by
  rw [List.dropWhile_append_of_pos blank]
  cases text with
  | nil => rfl
  | cons c rest => exact List.dropWhile_cons_of_neg (stops c rfl)

theorem trimBlanks_eq_iff : trimBlanks text = inner ↔ Trims text inner := by
  constructor
  · rintro rfl
    exact trims_trimBlanks text
  · rintro ⟨⟨first, last⟩, before, after, blankBefore, blankAfter, rfl⟩
    cases inner with
    | nil =>
      -- nothing ends the blanks before, so those after go with them
      have blank : Blank (before ++ after) := blank_append_iff.mpr ⟨blankBefore, blankAfter⟩
      rw [trimBlanks, List.append_nil, List.dropWhile_eq_nil_iff.mpr blank]
      rfl
    | cons c rest =>
      have ending : Blank after.reverse := fun d among => blankAfter d (List.mem_reverse.mp among)
      rw [trimBlanks, List.append_assoc, dropWhile_blank_append blankBefore (by simpa using first),
        List.reverse_append, dropWhile_blank_append ending (by rwa [List.head?_reverse]), List.reverse_reverse]

theorem trimBlanks_eq_nil_iff : trimBlanks text = [] ↔ Blank text := by
  rw [trimBlanks_eq_iff]
  constructor
  · rintro ⟨_, before, after, blankBefore, blankAfter, rfl⟩
    rw [List.append_nil]
    exact blank_append_iff.mpr ⟨blankBefore, blankAfter⟩
  · intro blank
    exact ⟨.nil, text, [], blank, by simp [Blank], by simp⟩

theorem Trimmed.trimBlanks_eq (trimmed : Trimmed text) : trimBlanks text = text :=
  trimBlanks_eq_iff.mpr ⟨trimmed, [], [], by simp [Blank], by simp [Blank], by simp⟩

theorem mem_of_mem_trimBlanks {c : Char} (among : c ∈ trimBlanks text) : c ∈ text := by
  obtain ⟨_, before, after, _, _, made⟩ := trims_trimBlanks text
  rw [made]
  simp [among]

/-- The parts hold no separator and make up the text once separators are put between them. -/
structure Separates (separator : Char) (text : List Char) (parts : List (List Char)) : Prop where
  some : parts ≠ []
  apart : ∀ part ∈ parts, separator ∉ part
  joined : [separator].intercalate parts = text

theorem notMem_of_mem_pieces {part : List Char} (among : part ∈ pieces separator text) : separator ∉ part := by
  induction text generalizing part with
  | nil =>
    rw [pieces, List.mem_singleton] at among
    simp [among]
  | cons c rest ih =>
    rw [pieces] at among
    split at among
    · rcases List.mem_cons.mp among with rfl | later
      · simp
      · exact ih later
    · rename_i different
      cases split : pieces separator rest with
      | nil => exact absurd split (pieces_ne_nil separator rest)
      | cons first others =>
        rw [split] at among ih
        rcases List.mem_cons.mp among with rfl | later
        · simp [Ne.symm different, ih List.mem_cons_self]
        · exact ih (List.mem_cons_of_mem first later)

theorem pieces_eq_splitOn : pieces separator text = text.splitOn separator := by
  refine (List.splitOn_intercalate separator ?_ (pieces_ne_nil separator text)).symm.trans ?_
  · exact fun part among => notMem_of_mem_pieces among
  · rw [intercalate_pieces]

theorem pieces_eq_iff : pieces separator text = parts ↔ Separates separator text parts := by
  constructor
  · rintro rfl
    exact ⟨pieces_ne_nil separator text, fun _ => notMem_of_mem_pieces, intercalate_pieces separator text⟩
  · rintro ⟨some, apart, rfl⟩
    rw [pieces_eq_splitOn, List.splitOn_intercalate separator apart some]

theorem takeWhile_of_notMem (free : separator ∉ first) (rest : List Char) :
    (first ++ separator :: rest).takeWhile (· != separator) = first := by
  have before : ∀ c ∈ first, (c != separator) = true := by
    rintro c among
    simpa using ne_of_mem_of_not_mem among free
  rw [List.takeWhile_append_of_pos before, List.takeWhile_cons_of_neg (by simp), List.append_nil]

theorem eq_of_first_separator (free : separator ∉ first) (bare : separator ∉ second)
    (same : first ++ separator :: rest = second ++ separator :: more) : first = second ∧ rest = more := by
  obtain rfl : first = second := by
    rw [← takeWhile_of_notMem free rest, same, takeWhile_of_notMem bare more]
  exact ⟨rfl, (List.cons.inj (List.append_cancel_left same)).2⟩

theorem eq_of_last_separator (free : separator ∉ rest) (bare : separator ∉ more)
    (same : first ++ separator :: rest = second ++ separator :: more) : first = second ∧ rest = more := by
  have backwards := congrArg List.reverse same
  simp only [List.reverse_append, List.reverse_cons, List.append_assoc, List.singleton_append] at backwards
  obtain ⟨ends, starts⟩ := eq_of_first_separator (by simpa using free) (by simpa using bare) backwards
  exact ⟨List.reverse_injective starts, List.reverse_injective ends⟩

theorem notMem_toDigits (other : ¬ separator.isDigit) (number : Nat) : separator ∉ Nat.toDigits 10 number :=
  fun among => other (Nat.isDigit_of_mem_toDigits (by decide) (by decide) among)

end ChatRelay.Text
