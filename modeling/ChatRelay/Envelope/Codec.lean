import ChatRelay.Envelope
import ChatRelay.Failure

/-! The wire form of envelopes: a version byte, three numbers of eight bytes, a kind byte, the payload's
length in four bytes and the payload. All numbers are big-endian. -/
namespace ChatRelay.Envelope

def wireVersion : UInt8 := 1

def maxPayload : Nat := 1024 * 1024

def headerSize : Nat := 30

/-- The byte that tells messages in plain text and the three statuses apart. -/
def kindByte : Envelope → UInt8
  | message _ => 1
  | ack a => match a.status with
    | .processed => 16
    | .delivered => 17
    | .seen => 18

/-- The bytes of an envelope, whatever the length of its payload. -/
def wire (envelope : Envelope) : Bytes :=
  wireVersion :: (Bytes.ofInt64 envelope.id.value ++ Bytes.ofInt64 envelope.sender.value ++
    Bytes.ofInt64 envelope.receiver.value ++
    envelope.kindByte :: (Bytes.ofNat 4 envelope.payload.length ++ envelope.payload))

/-- Writes an envelope; a payload over the limit is refused, with no bytes to show for it. -/
def encode (envelope : Envelope) : Except Failure Bytes :=
  if maxPayload < envelope.payload.length then
    .error (.codec (.payloadTooLong envelope.payload.length) [])
  else .ok envelope.wire

/-- The fields of an envelope before they are judged. -/
structure Fields where
  version : UInt8
  id : Int64
  sender : UserId
  receiver : UserId
  kind : UInt8
  payload : Bytes
deriving DecidableEq, Repr

/-- Takes the fields off the front of the bytes, and gives what is left over. There are none if the bytes end
early or the length is over the limit. -/
def Fields.read (data : Bytes) : Option (Fields × Bytes) :=
  match data with
  | [] => none
  | version :: numbers =>
    match numbers.drop 24 with
    | [] => none
    | kind :: sized =>
      let length := Bytes.toNat (sized.take 4)
      let rest := sized.drop 4
      if sized.length < 4 ∨ maxPayload < length ∨ rest.length < length then none
      else some
        ({ version
           id := Bytes.toInt64 (numbers.take 8)
           sender := ⟨Bytes.toInt64 ((numbers.drop 8).take 8)⟩
           receiver := ⟨Bytes.toInt64 ((numbers.drop 16).take 8)⟩
           kind
           payload := rest.take length },
         rest.drop length)

def status? (kind : UInt8) : Option Status :=
  if kind = 16 then some .processed
  else if kind = 17 then some .delivered
  else if kind = 18 then some .seen
  else none

/-- The envelope that fields of a known version and a positive number describe. -/
def Fields.envelope? (fields : Fields) : Option Envelope :=
  if fields.kind = 1 then
    some (.message ⟨⟨fields.id⟩, fields.sender, fields.receiver, fields.payload⟩)
  else (status? fields.kind).map fun status =>
    .ack ⟨⟨fields.id⟩, fields.sender, fields.receiver, status⟩

/-- Reads an envelope. The first fault found is reported, in the order of the checks, with all the bytes. -/
def decode (data : Bytes) : Except Failure Envelope :=
  let refuse (fault : CodecFault) : Except Failure Envelope := .error (.codec fault data)
  match Fields.read data with
  | none => refuse .malformed
  | some (fields, rest) =>
    if rest ≠ [] then refuse .trailingBytes
    else if fields.version ≠ wireVersion then refuse (.unsupportedVersion fields.version)
    else if (MessageId.mk fields.id).isNone then refuse (.idNotPositive fields.id)
    else match fields.envelope? with
      | some envelope => .ok envelope
      | none => refuse (.unknownKind fields.kind)

end ChatRelay.Envelope
