import ChatRelay.Bytes

namespace ChatRelay.Fingerprint

def start : UInt64 := 0xcbf29ce484222325

/-- One byte: mix it in, then multiply by the prime. -/
def absorb (hash : UInt64) (byte : UInt8) : UInt64 :=
  (hash ^^^ byte.toUInt64) * 0x100000001b3

def ofBytes (bytes : Bytes) : UInt64 :=
  bytes.foldl absorb start

/-- The hash of a text is that of its UTF-8 bytes. -/
def ofText (text : String) : UInt64 :=
  ofBytes text.toUTF8.data.toList

theorem ofBytes_append (first second : Bytes) :
    ofBytes (first ++ second) = second.foldl absorb (ofBytes first) := by
  simp [ofBytes, List.foldl_append]

end ChatRelay.Fingerprint
