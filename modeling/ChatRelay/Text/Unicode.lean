import ChatRelay.Bytes

namespace ChatRelay.Text

def replacement : Char := '\uFFFD'

/-- A character of which some bytes were read: its bits so far, how many bytes it lacks, and the range of the
next of them. -/
structure Unfinished where
  bits : Nat
  lacking : Nat
  low : Nat := 0x80
  high : Nat := 0xBF
deriving DecidableEq, Repr

inductive Reading where
  | finished (c : Char)
  | unfinished (character : Unfinished)
deriving DecidableEq, Repr

/-- Reads the first byte of a character. The range of the second byte rules out longer forms than necessary,
surrogates, and numbers past the last character. -/
def begin? (byte : Nat) : Option Reading :=
  if byte < 0x80 then some (.finished (.ofNat byte))
  else if 0xC2 ≤ byte ∧ byte ≤ 0xDF then some (.unfinished { bits := byte % 0x20, lacking := 1 })
  else if byte = 0xE0 then some (.unfinished { bits := 0, lacking := 2, low := 0xA0 })
  else if byte = 0xED then some (.unfinished { bits := byte % 0x10, lacking := 2, high := 0x9F })
  else if 0xE1 ≤ byte ∧ byte ≤ 0xEF then some (.unfinished { bits := byte % 0x10, lacking := 2 })
  else if byte = 0xF0 then some (.unfinished { bits := 0, lacking := 3, low := 0x90 })
  else if byte = 0xF4 then some (.unfinished { bits := byte % 8, lacking := 3, high := 0x8F })
  else if 0xF1 ≤ byte ∧ byte ≤ 0xF3 then some (.unfinished { bits := byte % 8, lacking := 3 })
  else none

def Unfinished.extend? (character : Unfinished) (byte : Nat) : Option Reading :=
  let bits := 0x40 * character.bits + byte % 0x40
  if byte < character.low ∨ character.high < byte then none
  else if character.lacking ≤ 1 then some (.finished (.ofNat bits))
  else some (.unfinished { bits := bits, lacking := character.lacking - 1 })

/-- The characters of a byte string that may go on with an unfinished one. A character cut short becomes one
replacement. -/
def decodeFrom : Option Unfinished → Bytes → List Char
  | none, [] => []
  | some _, [] => [replacement]
  | state, byte :: rest =>
    match state.bind (·.extend? byte.toNat) with
    | some (.finished c) => c :: decodeFrom none rest
    | some (.unfinished character) => decodeFrom (some character) rest
    | none =>
      let broken := if state.isSome then [replacement] else []
      broken ++ match begin? byte.toNat with
        | some (.finished c) => c :: decodeFrom none rest
        | some (.unfinished character) => decodeFrom (some character) rest
        | none => replacement :: decodeFrom none rest

/-- Reads UTF-8; each longest beginning of a character that is not completed, and each other stray byte, is
read as the replacement character. -/
def decodeLossily (bytes : Bytes) : List Char := decodeFrom none bytes

end ChatRelay.Text
