import Mathlib.Logic.Basic
import ChatRelay.Proofs.Envelope.Canonical

/-! What the decoder answers to any bytes. Its checks come in a fixed order, and the first that fails decides;
bytes that pass them all are the envelope whose fields stand at their places. So an envelope is read back from
what is written for it, if it has a number. -/
namespace ChatRelay

theorem MessageId.isNone_iff (id : MessageId) : id.isNone ↔ id.value ≤ 0 := by
  simp [isNone]

namespace Envelope

def wordAt (data : Bytes) (place : Nat) : Int64 := Bytes.toInt64 ((data.drop place).take 8)

/-- How long the payload is, by what stands before it. -/
def statedLength (data : Bytes) : Nat := Bytes.toNat ((data.drop 26).take 4)

/-- The bytes are a header and a payload of the length stated, which is within the limit. -/
def Exact (data : Bytes) : Prop := data.length = 30 + statedLength data ∧ statedLength data ≤ maxPayload

def Fields.placed (data : Bytes) : Fields where
  version := data.getD 0 0
  id := wordAt data 1
  sender := ⟨wordAt data 9⟩
  receiver := ⟨wordAt data 17⟩
  kind := data.getD 25 0
  payload := (data.drop 30).take (statedLength data)

/-- Fields are read from their places, unless the bytes end early or the length is over the limit. -/
theorem Fields.read_eq (data : Bytes) :
    Fields.read data =
      if data.length < 30 ∨ maxPayload < statedLength data ∨ data.length < 30 + statedLength data then none
      else some (Fields.placed data, data.drop (30 + statedLength data)) := by
  cases data with
  | nil => rfl
  | cons version numbers =>
    unfold Fields.read
    dsimp only
    split
    · rename_i early
      have short : numbers.length ≤ 24 := List.drop_eq_nil_iff.mp early
      rw [if_pos (.inl (by simp; omega))]
    · rename_i kind sized dropped
      have kind_eq : (version :: numbers).getD 25 0 = kind := by
        have head := congrArg List.head? dropped
        rw [List.head?_drop] at head
        simp_all
      have sized_eq : (version :: numbers).drop 26 = sized := by
        have tail := congrArg (List.drop 1) dropped
        rwa [List.drop_drop] at tail
      have length : numbers.length = 25 + sized.length := by
        have length := congrArg List.length dropped
        simp at length
        omega
      have stated : statedLength (version :: numbers) = Bytes.toNat (sized.take 4) := by
        rw [statedLength, sized_eq]
      have rest : (version :: numbers).drop 30 = sized.drop 4 := by
        rw [← sized_eq, List.drop_drop]
      have beyond : (version :: numbers).drop (30 + Bytes.toNat (sized.take 4)) =
          (sized.drop 4).drop (Bytes.toNat (sized.take 4)) := by
        rw [← rest, List.drop_drop]
      simp only [Fields.placed, stated, kind_eq, rest, beyond, List.length_cons, length, List.length_drop]
      congr 1
      apply propext
      omega

/-- The answers to bytes, each with its check. A check is made where those above it did not fail. -/
inductive Verdict (data : Bytes) : Except CodecFault Envelope → Prop where
  | malformed (broken : data.length < 30 ∨ maxPayload < statedLength data ∨
      data.length < 30 + statedLength data) : Verdict data (.error .malformed)
  | trailing (limit : statedLength data ≤ maxPayload) (longer : 30 + statedLength data < data.length) :
      Verdict data (.error .trailingBytes)
  | unsupported (exact : Exact data) (first : data[0]? = some version) (other : version ≠ 1) :
      Verdict data (.error (.unsupportedVersion version))
  | unnumbered (exact : Exact data) (first : data[0]? = some 1) (negative : wordAt data 1 ≤ 0) :
      Verdict data (.error (.idNotPositive (wordAt data 1)))
  | unknown (exact : Exact data) (first : data[0]? = some 1) (positive : 0 < wordAt data 1)
      (place : data[25]? = some kind) (other : kind ∉ [1, 16, 17, 18]) :
      Verdict data (.error (.unknownKind kind))
  | message (exact : Exact data) (first : data[0]? = some 1) (positive : 0 < wordAt data 1)
      (place : data[25]? = some 1) :
      Verdict data (.ok (.message ⟨⟨wordAt data 1⟩, ⟨wordAt data 9⟩, ⟨wordAt data 17⟩,
        (data.drop 30).take (statedLength data)⟩))
  | ack (exact : Exact data) (first : data[0]? = some 1) (positive : 0 < wordAt data 1)
      (place : data[25]? = some kind)
      (known : (kind, status) ∈ [(16, Status.processed), (17, .delivered), (18, .seen)]) :
      Verdict data (.ok (.ack ⟨⟨wordAt data 1⟩, ⟨wordAt data 9⟩, ⟨wordAt data 17⟩, status⟩))

variable {data : Bytes} {verdict : Except CodecFault Envelope}

theorem decode_of_broken (broken : data.length < 30 ∨ maxPayload < statedLength data ∨
    data.length < 30 + statedLength data) : decode data = .error (.codec .malformed data) := by
  rw [decode, Fields.read_eq, if_pos broken]

/-- What follows the reading of the fields. -/
theorem decode_of_whole (limit : statedLength data ≤ maxPayload)
    (whole : 30 + statedLength data ≤ data.length) :
    decode data =
      if 30 + statedLength data < data.length then .error (.codec .trailingBytes data)
      else if data.getD 0 0 ≠ 1 then .error (.codec (.unsupportedVersion (data.getD 0 0)) data)
      else if wordAt data 1 ≤ 0 then .error (.codec (.idNotPositive (wordAt data 1)) data)
      else match (Fields.placed data).envelope? with
        | some envelope => .ok envelope
        | none => .error (.codec (.unknownKind (data.getD 25 0)) data) := by
  have beyond : data.drop (30 + statedLength data) ≠ [] ↔ 30 + statedLength data < data.length := by
    rw [ne_eq, List.drop_eq_nil_iff, Nat.not_le]
  rw [decode, Fields.read_eq, if_neg (by omega)]
  exact if_congr beyond rfl (if_congr Iff.rfl rfl (if_congr (MessageId.isNone_iff _) rfl rfl))

/-- Bytes of the right length are judged by the version, the number and the kind. -/
theorem decode_of_exact (exact : Exact data) (first : data[0]? = some version) :
    decode data =
      if version ≠ 1 then .error (.codec (.unsupportedVersion version) data)
      else if wordAt data 1 ≤ 0 then .error (.codec (.idNotPositive (wordAt data 1)) data)
      else match (Fields.placed data).envelope? with
        | some envelope => .ok envelope
        | none => .error (.codec (.unknownKind (data.getD 25 0)) data) := by
  obtain ⟨length, limit⟩ := exact
  have read : data.getD 0 0 = version := by rw [List.getD_eq_getElem?_getD, first, Option.getD_some]
  rw [decode_of_whole limit (Nat.le_of_eq length.symm), if_neg (by omega), read]

/-- Of the version and with a number, they are judged by the kind. -/
theorem decode_of_numbered (exact : Exact data) (first : data[0]? = some 1) (positive : 0 < wordAt data 1)
    (place : data[25]? = some kind) :
    decode data = match (Fields.placed data).envelope? with
      | some envelope => .ok envelope
      | none => .error (.codec (.unknownKind kind) data) := by
  have read : data.getD 25 0 = kind := by rw [List.getD_eq_getElem?_getD, place, Option.getD_some]
  rw [decode_of_exact exact first, if_neg (not_not_intro rfl), if_neg (Int64.not_le.mpr positive), read]

theorem Verdict.decode_eq (verdict_ : Verdict data verdict) :
    decode data = verdict.mapError (Failure.codec · data) := by
  cases verdict_ with
  | malformed broken => exact decode_of_broken broken
  | trailing limit longer =>
    rw [decode_of_whole limit (Nat.le_of_lt longer), if_pos longer]
    rfl
  | unsupported exact first other =>
    rw [decode_of_exact exact first, if_pos other]
    rfl
  | unnumbered exact first negative =>
    rw [decode_of_exact exact first, if_neg (not_not_intro rfl), if_pos negative]
    rfl
  | unknown exact first positive place other =>
    rw [decode_of_numbered exact first positive place]
    have none : (Fields.placed data).envelope? = .none := by
      simp_all [Fields.envelope?, Fields.placed, status?, List.getD_eq_getElem?_getD]
    rw [none]
    rfl
  | message exact first positive place =>
    rw [decode_of_numbered exact first positive place]
    simp only [Fields.envelope?, Fields.placed, List.getD_eq_getElem?_getD, place, Option.getD_some]
    rfl
  | ack exact first positive place known =>
    rw [decode_of_numbered exact first positive place]
    simp only [List.mem_cons, Prod.mk.injEq, List.not_mem_nil, or_false] at known
    rcases known with ⟨rfl, rfl⟩ | ⟨rfl, rfl⟩ | ⟨rfl, rfl⟩ <;>
      simp only [Fields.envelope?, Fields.placed, List.getD_eq_getElem?_getD, place, Option.getD_some, status?] <;>
      rfl

theorem exists_verdict (data : Bytes) : ∃ verdict, Verdict data verdict := by
  by_cases broken : data.length < 30 ∨ maxPayload < statedLength data ∨ data.length < 30 + statedLength data
  · exact ⟨_, .malformed broken⟩
  · simp only [not_or, Nat.not_lt] at broken
    obtain ⟨header, limit, whole⟩ := broken
    rcases Nat.lt_or_eq_of_le whole with longer | length
    · exact ⟨_, .trailing limit longer⟩
    · have exact : Exact data := ⟨length.symm, limit⟩
      have first : data[0]? = some data[0] := List.getElem?_eq_getElem (by omega)
      have place : data[25]? = some data[25] := List.getElem?_eq_getElem (by omega)
      generalize data[0] = version at first
      generalize data[25] = kind at place
      by_cases same : version = 1
      · subst same
        by_cases negative : wordAt data 1 ≤ 0
        · exact ⟨_, .unnumbered exact first negative⟩
        · have positive : 0 < wordAt data 1 := Int64.not_le.mp negative
          by_cases known : kind ∈ [1, 16, 17, 18]
          · simp only [List.mem_cons, List.not_mem_nil, or_false] at known
            rcases known with rfl | rfl | rfl | rfl
            · exact ⟨_, .message exact first positive place⟩
            · exact ⟨_, .ack exact first positive place (.head _)⟩
            · exact ⟨_, .ack exact first positive place (.tail _ (.head _))⟩
            · exact ⟨_, .ack exact first positive place (.tail _ (.tail _ (.head _)))⟩
          · exact ⟨_, .unknown exact first positive place known⟩
      · exact ⟨_, .unsupported exact first same⟩

/-- Bytes are answered by the first check that they fail, and are given back whole with each fault; those that
fail none are the envelope of their fields. -/
theorem decode_by_first_failed_check (data : Bytes) :
    (∀ envelope, decode data = .ok envelope ↔ Verdict data (.ok envelope)) ∧
      ∀ failure, decode data = .error failure ↔
        ∃ fault, failure = .codec fault data ∧ Verdict data (.error fault) := by
  obtain ⟨verdict, judged⟩ := exists_verdict data
  have decoded := judged.decode_eq
  constructor
  · intro envelope
    constructor
    · intro read
      cases verdict with
      | ok other =>
        cases decoded.symm.trans read
        exact judged
      | error fault => cases decoded.symm.trans read
    · exact Verdict.decode_eq
  · intro failure
    constructor
    · intro refused
      cases verdict with
      | ok envelope => cases decoded.symm.trans refused
      | error fault =>
        cases decoded.symm.trans refused
        exact ⟨fault, rfl, judged⟩
    · rintro ⟨fault, rfl, verdict⟩
      exact verdict.decode_eq

/-- These bytes have another version, no number and no known kind. -/
example : decode (9 :: List.replicate 29 0) =
    .error (.codec (.unsupportedVersion 9) (9 :: List.replicate 29 0)) := rfl

/-- What is written for an envelope without a number is refused for that. -/
theorem decode_wire_of_isNone (envelope : Envelope) (unnumbered : envelope.id.isNone)
    (limit : envelope.payload.length ≤ maxPayload) :
    decode envelope.wire = .error (.codec (.idNotPositive envelope.id.value) envelope.wire) := by
  have whole : envelope.wire = (envelope.fieldsWith envelope.payload).wire ++ [] := by
    rw [wire_eq, List.append_nil]
  have read := Fields.read_eq_some_iff.mpr ⟨whole, limit⟩
  rw [decode, read]
  simp [fieldsWith, unnumbered]

@[simp] theorem length_wire (envelope : Envelope) : envelope.wire.length = 30 + envelope.payload.length := by
  rw [wire_eq, length_wire_fieldsWith]
  rfl

theorem decode_wire_eq (envelope : Envelope) (limit : envelope.payload.length ≤ maxPayload) :
    decode envelope.wire = if 0 < envelope.id.value then .ok envelope
      else .error (.codec (.idNotPositive envelope.id.value) envelope.wire) := by
  split
  · rename_i positive
    refine envelope.decode_wire ?_ limit
    rw [← Bool.not_eq_true, MessageId.isNone_iff]
    exact Int64.not_le.mpr positive
  · rename_i negative
    refine envelope.decode_wire_of_isNone ?_ limit
    rw [MessageId.isNone_iff]
    exact Int64.not_lt.mp negative

theorem encode_eq_ok_iff {envelope : Envelope} {data : Bytes} :
    envelope.encode = .ok data ↔ envelope.payload.length ≤ maxPayload ∧ envelope.wire = data := by
  unfold encode
  split
  · rename_i long
    simp [Nat.not_le_of_lt long]
  · rename_i short
    simp [Nat.not_lt.mp short]

/-- Written bytes are read as the envelope that they were written for, or not at all. -/
theorem eq_of_decode {envelope other : Envelope} {data : Bytes} (written : envelope.encode = .ok data)
    (read : decode data = .ok other) : other = envelope := by
  obtain ⟨limit, rfl⟩ := encode_eq_ok_iff.mp written
  rw [envelope.decode_wire_eq limit] at read
  split at read
  · exact (Except.ok.inj read).symm
  · cases read

/-- Every envelope within the limit is written, as thirty bytes and its payload, and is read back from them if
it has a number; if not, they are refused for that. So no bytes are written for two envelopes with numbers. -/
theorem encode_is_read_back (envelope : Envelope) :
    ((∃ failure, envelope.encode = .error failure) ↔ maxPayload < envelope.payload.length) ∧
      (envelope.payload.length ≤ maxPayload → ∃ data, envelope.encode = .ok data ∧
        data.length = 30 + envelope.payload.length ∧
        decode data = (if 0 < envelope.id.value then .ok envelope
          else .error (.codec (.idNotPositive envelope.id.value) data)) ∧
        ∀ other : Envelope, 0 < envelope.id.value → 0 < other.id.value → other.encode = .ok data →
          other = envelope) := by
  constructor
  · unfold encode
    split <;> simp [*]
  · intro limit
    have read := envelope.decode_wire_eq limit
    refine ⟨envelope.wire, envelope.encode_eq_ok limit, envelope.length_wire, read, ?_⟩
    intro other positive numbered written
    rw [if_pos positive] at read
    exact (eq_of_decode written read).symm

end Envelope
end ChatRelay
