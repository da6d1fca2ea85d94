import Mathlib.Algebra.Group.Nat.Defs
import ChatRelay.Envelope.Codec

/-! What the decoder accepts. It takes each field from the bytes that the encoder writes for it, so that an
envelope has one wire form but for one thing: the payload of an acknowledgement is read and passed over. -/
namespace ChatRelay

namespace Bytes

theorem toNat_foldl (bytes : Bytes) (start : Nat) :
    bytes.foldl (fun value byte => 256 * value + byte.toNat) start =
      256 ^ bytes.length * start + bytes.toNat := by
  induction bytes generalizing start with
  | nil => simp [toNat]
  | cons byte bytes ih =>
    simp only [toNat, List.foldl_cons, List.length_cons] at ih ⊢
    rw [ih, ih (256 * 0 + byte.toNat), Nat.pow_succ]
    grind

@[simp] theorem toNat_cons (byte : UInt8) (bytes : Bytes) :
    Bytes.toNat (byte :: bytes) = 256 ^ bytes.length * byte.toNat + bytes.toNat := by
  rw [toNat, List.foldl_cons, toNat_foldl]
  simp

theorem toNat_lt (bytes : Bytes) : bytes.toNat < 256 ^ bytes.length := by
  induction bytes with
  | nil => simp [toNat]
  | cons byte bytes ih =>
    have small : byte.toNat < 256 := byte.toNat_lt
    have scaled : 256 ^ bytes.length * byte.toNat ≤ 256 ^ bytes.length * 255 :=
      Nat.mul_le_mul_left _ (Nat.le_of_lt_succ small)
    rw [toNat_cons, List.length_cons, Nat.pow_succ]
    omega

theorem ofNat_mul_add (width high n : Nat) : ofNat width (256 ^ width * high + n) = ofNat width n := by
  induction width generalizing high with
  | zero => rfl
  | succ width ih =>
    have shifted : 256 ^ (width + 1) * high + n = 256 ^ width * (256 * high) + n := by
      rw [Nat.pow_succ, Nat.mul_assoc]
    have head : (256 ^ width * (256 * high) + n) / 256 ^ width = 256 * high + n / 256 ^ width :=
      Nat.mul_add_div (Nat.pow_pos (by decide)) _ _
    simp only [ofNat, Nat.pow_eq, shifted, ih, head]
    congr 1
    apply UInt8.toNat_inj.mp
    simp only [UInt8.toNat_ofNat']
    omega

theorem ofNat_toNat (bytes : Bytes) : ofNat bytes.length bytes.toNat = bytes := by
  induction bytes with
  | nil => rfl
  | cons byte bytes ih =>
    have head : (256 ^ bytes.length * byte.toNat + toNat bytes) / 256 ^ bytes.length = byte.toNat := by
      rw [Nat.mul_add_div (Nat.pow_pos (by decide)), Nat.div_eq_of_lt (toNat_lt bytes), Nat.add_zero]
    simp only [toNat_cons, List.length_cons, ofNat, Nat.pow_eq, head, ofNat_mul_add, ih, UInt8.ofNat_toNat]

theorem ofInt64_toInt64 (eight : bytes.length = 8) : ofInt64 (toInt64 bytes) = bytes := by
  have small : bytes.toNat < 2 ^ 64 := by simpa [eight] using bytes.toNat_lt
  have value : (UInt64.ofNat bytes.toNat).toNat = bytes.toNat := by
    rw [UInt64.toNat_ofNat', Nat.mod_eq_of_lt small]
  rw [ofInt64, toInt64, UInt64.toUInt64_toInt64, value, ← eight, ofNat_toNat]

end Bytes

namespace Envelope

/-- The bytes that the fields are read from. -/
def Fields.wire (fields : Fields) : Bytes :=
  fields.version :: (Bytes.ofInt64 fields.id ++ (Bytes.ofInt64 fields.sender.value ++
    (Bytes.ofInt64 fields.receiver.value ++
      fields.kind :: (Bytes.ofNat 4 fields.payload.length ++ fields.payload))))

private theorem take_eights (numbers : Bytes) :
    numbers.take 8 ++ ((numbers.drop 8).take 8 ++ ((numbers.drop 16).take 8 ++ numbers.drop 24)) =
      numbers := by
  have second : numbers.drop 16 = (numbers.drop 8).drop 8 := by rw [List.drop_drop]
  have third : numbers.drop 24 = (numbers.drop 16).drop 8 := by rw [List.drop_drop]
  rw [third, List.take_append_drop, second, List.take_append_drop, List.take_append_drop]

/-- The fields are read from their wire form and from no other bytes, and what follows is left over. -/
theorem Fields.read_eq_some_iff {data rest : Bytes} {fields : Fields} :
    Fields.read data = some (fields, rest) ↔
      data = fields.wire ++ rest ∧ fields.payload.length ≤ maxPayload := by
  constructor
  · intro read
    unfold Fields.read at read
    split at read
    · cases read
    · rename_i version numbers
      split at read
      · cases read
      · rename_i kind sized dropped
        dsimp only at read
        split at read
        · cases read
        · rename_i complete
          simp only [not_or, Nat.not_lt] at complete
          obtain ⟨four, limit, enough⟩ := complete
          cases read
          have long : 24 < numbers.length := by
            have length := congrArg List.length dropped
            simp at length
            omega
          have payload : ((sized.drop 4).take (Bytes.toNat (sized.take 4))).length =
              Bytes.toNat (sized.take 4) := by
            rw [List.length_take, Nat.min_eq_left enough]
          have length : Bytes.ofNat 4 (Bytes.toNat (sized.take 4)) = sized.take 4 := by
            have written := Bytes.ofNat_toNat (sized.take 4)
            rwa [List.length_take, Nat.min_eq_left four] at written
          have word (start : Nat) (early : start ≤ 16) :
              Bytes.ofInt64 (Bytes.toInt64 ((numbers.drop start).take 8)) = (numbers.drop start).take 8 := by
            apply Bytes.ofInt64_toInt64
            rw [List.length_take, List.length_drop]
            omega
          refine ⟨?_, by rw [payload]; exact limit⟩
          have first := word 0 (by decide)
          rw [List.drop_zero] at first
          simp only [Fields.wire, payload, length, first, word 8 (by decide), word 16 (by decide),
            List.cons_append, List.append_assoc, List.take_append_drop, ← dropped, take_eights]
  · rintro ⟨rfl, limit⟩
    have sized : (Bytes.ofNat 4 fields.payload.length).toNat = fields.payload.length := by
      rw [Bytes.toNat_ofNat]
      exact Nat.mod_eq_of_lt (Nat.lt_of_le_of_lt limit (by decide))
    have past (value : Int64) (start : Nat) (late : 8 ≤ start) : (Bytes.ofInt64 value).drop start = [] :=
      List.drop_eq_nil_of_le (by rw [Bytes.length_ofInt64]; exact late)
    simp [Fields.read, Fields.wire, List.drop_append, past, sized, Nat.not_lt.mpr limit]

/-- The fields of an envelope, with a payload in the place of its own. -/
def fieldsWith (envelope : Envelope) (payload : Bytes) : Fields :=
  ⟨wireVersion, envelope.id.value, envelope.sender, envelope.receiver, envelope.kindByte, payload⟩

theorem wire_eq (envelope : Envelope) : envelope.wire = (envelope.fieldsWith envelope.payload).wire := by
  simp [wire, Fields.wire, fieldsWith]

/-- Whether a payload may stand in the bytes of an envelope. -/
def Admits : Envelope → Bytes → Prop
  | message m, payload => payload = m.payload
  | ack _, _ => True

theorem admits_payload (envelope : Envelope) : envelope.Admits envelope.payload := by
  cases envelope with
  | message m => rfl
  | ack a => trivial

theorem status?_eq_some_iff {kind : UInt8} (ack : Ack) :
    status? kind = some ack.status ↔ kind = kindByte (.ack ack) := by
  obtain ⟨_, _, _, status⟩ := ack
  unfold status? kindByte
  cases status <;> grind

theorem envelope?_fieldsWith {payload : Bytes} (envelope : Envelope) (admits : envelope.Admits payload) :
    (envelope.fieldsWith payload).envelope? = some envelope := by
  cases envelope with
  | message m =>
    cases admits
    rfl
  | ack a =>
    obtain ⟨_, _, _, status⟩ := a
    cases status <;> rfl

/-- Fields that describe an envelope are its own, but for a payload that it may not have. -/
theorem Fields.eq_fieldsWith {fields : Fields} {envelope : Envelope}
    (described : fields.envelope? = some envelope) (version : fields.version = wireVersion) :
    fields = envelope.fieldsWith fields.payload ∧ envelope.Admits fields.payload := by
  unfold Fields.envelope? at described
  obtain ⟨_, id, sender, receiver, kind, payload⟩ := fields
  cases version
  split at described
  · rename_i plain
    cases plain
    cases described
    exact ⟨rfl, rfl⟩
  · obtain ⟨status, known, rfl⟩ := Option.map_eq_some_iff.mp described
    have kind := (status?_eq_some_iff ⟨⟨id⟩, sender, receiver, status⟩).mp known
    cases kind
    exact ⟨rfl, trivial⟩

theorem decode_eq_ok_iff_fields {data : Bytes} {envelope : Envelope} :
    decode data = .ok envelope ↔ ∃ fields, Fields.read data = some (fields, []) ∧
      fields.version = wireVersion ∧ (MessageId.mk fields.id).isNone = false ∧
      fields.envelope? = some envelope := by
  unfold decode
  cases read : Fields.read data with
  | none => simp
  | some result =>
    obtain ⟨fields, rest⟩ := result
    grind

/-- An envelope is read from its own wire form; an acknowledgement is read as well from a form with a payload.
Nothing else is read as an envelope. -/
theorem decode_eq_ok_iff {data : Bytes} {envelope : Envelope} :
    decode data = .ok envelope ↔ envelope.id.isNone = false ∧
      ∃ payload, payload.length ≤ maxPayload ∧ envelope.Admits payload ∧
        data = (envelope.fieldsWith payload).wire := by
  rw [decode_eq_ok_iff_fields]
  constructor
  · rintro ⟨fields, read, version, named, described⟩
    obtain ⟨whole, limit⟩ := Fields.read_eq_some_iff.mp read
    obtain ⟨same, admits⟩ := Fields.eq_fieldsWith described version
    rw [same] at named
    rw [same, List.append_nil] at whole
    exact ⟨named, fields.payload, limit, admits, whole⟩
  · rintro ⟨named, payload, limit, admits, rfl⟩
    refine ⟨envelope.fieldsWith payload, ?_, rfl, named, envelope?_fieldsWith envelope admits⟩
    exact Fields.read_eq_some_iff.mpr ⟨(List.append_nil _).symm, limit⟩

theorem decode_wire (envelope : Envelope) (named : envelope.id.isNone = false)
    (limit : envelope.payload.length ≤ maxPayload) : decode envelope.wire = .ok envelope :=
  decode_eq_ok_iff.mpr ⟨named, envelope.payload, limit, envelope.admits_payload, envelope.wire_eq⟩

@[simp] theorem length_wire_fieldsWith (envelope : Envelope) (payload : Bytes) :
    (envelope.fieldsWith payload).wire.length = headerSize + payload.length := by
  simp [Fields.wire, fieldsWith, headerSize]
  omega

/-- A payload comes last, after its length, and changes nothing before. -/
theorem wire_fieldsWith (envelope : Envelope) (first second : Bytes) :
    (envelope.fieldsWith second).wire =
      (envelope.fieldsWith first).wire.take (headerSize - 4) ++ (Bytes.ofNat 4 second.length ++ second) := by
  have word (value : Int64) (count : Nat) (all : 8 ≤ count) :
      (Bytes.ofInt64 value).take count = Bytes.ofInt64 value :=
    List.take_of_length_le (by rw [Bytes.length_ofInt64]; exact all)
  simp [Fields.wire, fieldsWith, headerSize, List.take_append, word]

theorem encode_eq_ok (envelope : Envelope) (limit : envelope.payload.length ≤ maxPayload) :
    envelope.encode = .ok envelope.wire := by
  rw [encode, if_neg (Nat.not_lt.mpr limit)]

/-- Bytes that are read as a message are what is written for it, and so are those read as an acknowledgement
if they end with the header. But any payload may follow, and is passed over: an acknowledgement is read from
as many byte strings as there are payloads, which agree in all that stands before the payload's length. -/
theorem encode_of_decode_iff {data : Bytes} {envelope : Envelope} (decoded : decode data = .ok envelope) :
    (envelope.encode = .ok data ↔ ∀ a, envelope = .ack a → data.length = headerSize) ∧
      (∀ other, decode other = .ok envelope → other ≠ data →
        (∃ a, envelope = .ack a) ∧ other.take (headerSize - 4) = data.take (headerSize - 4)) ∧
      ∀ a payload, envelope = .ack a → payload.length ≤ maxPayload →
        decode (data.take (headerSize - 4) ++ (Bytes.ofNat 4 payload.length ++ payload)) = .ok envelope := by
  obtain ⟨named, payload, limit, admits, rfl⟩ := decode_eq_ok_iff.mp decoded
  refine ⟨?_, ?_, ?_⟩
  · cases envelope with
    | message m =>
      cases admits
      simpa [wire_eq, payload] using encode_eq_ok (.message m) limit
    | ack a =>
      rw [encode_eq_ok _ (Nat.zero_le _), wire_eq, Except.ok.injEq]
      constructor
      · intro same _ _
        rw [← same, length_wire_fieldsWith]
        rfl
      · intro short
        have length := short a rfl
        rw [length_wire_fieldsWith] at length
        have empty : payload = [] := List.length_eq_zero_iff.mp (by omega)
        rw [empty]
        rfl
  · intro other also different
    obtain ⟨_, second, _, admitted, rfl⟩ := decode_eq_ok_iff.mp also
    cases envelope with
    | message m =>
      cases admits
      cases admitted
      exact absurd rfl different
    | ack a =>
      refine ⟨⟨a, rfl⟩, ?_⟩
      rw [wire_fieldsWith _ payload second, List.take_append_of_le_length, List.take_take, Nat.min_self]
      rw [List.length_take, length_wire_fieldsWith]
      omega
  · rintro a second rfl enough
    rw [← wire_fieldsWith]
    exact decode_eq_ok_iff.mpr ⟨named, second, enough, trivial, rfl⟩

/-- The bytes of an acknowledgement with a payload of one byte. -/
def ladenAck : Bytes := (fieldsWith (.ack ⟨⟨1⟩, ⟨1⟩, ⟨2⟩, .seen⟩) [120]).wire

/-- They are read, but other bytes are written for what is read, and those are read as the same. -/
theorem ladenAck_is_not_written :
    decode ladenAck = .ok (.ack ⟨⟨1⟩, ⟨1⟩, ⟨2⟩, .seen⟩) ∧
      encode (.ack ⟨⟨1⟩, ⟨1⟩, ⟨2⟩, .seen⟩) ≠ .ok ladenAck ∧
      ∃ other, other ≠ ladenAck ∧ decode other = .ok (.ack ⟨⟨1⟩, ⟨1⟩, ⟨2⟩, .seen⟩) := by
  have longer : wire (.ack ⟨⟨1⟩, ⟨1⟩, ⟨2⟩, .seen⟩) ≠ ladenAck := by decide
  refine ⟨rfl, ?_, wire (.ack ⟨⟨1⟩, ⟨1⟩, ⟨2⟩, .seen⟩), longer, rfl⟩
  rw [encode_eq_ok _ (Nat.zero_le _)]
  exact fun same => longer (Except.ok.inj same)

/-- Its header is read as the same acknowledgement with any payload behind it. -/
theorem ladenAck_read_with_any_payload :
    decode ladenAck = .ok (.ack ⟨⟨1⟩, ⟨1⟩, ⟨2⟩, .seen⟩) ∧ ladenAck.length ≠ headerSize ∧
      ∀ payload, payload.length ≤ maxPayload →
        decode (ladenAck.take 26 ++ (Bytes.ofNat 4 payload.length ++ payload)) =
          .ok (.ack ⟨⟨1⟩, ⟨1⟩, ⟨2⟩, .seen⟩) := by
  have read : decode ladenAck = .ok (.ack ⟨⟨1⟩, ⟨1⟩, ⟨2⟩, .seen⟩) := rfl
  exact ⟨read, by decide, fun payload => (encode_of_decode_iff read).2.2 _ payload rfl⟩

end Envelope
end ChatRelay
