import ChatRelay.Fingerprint
import ChatRelay.Identity
import ChatRelay.Partition

namespace ChatRelay.Placement

/-- The hash of the user's number as eight bytes, most significant first. -/
def hash (user : UserId) : UInt64 :=
  Fingerprint.ofBytes (Bytes.ofInt64 user.value)

/-- The index of the user's partition out of `count`. With no partition it is zero; past the signed range
the index wraps. -/
def index (user : UserId) (count : UInt32) : Int :=
  if count = 0 then 0 else signed32 (hash user % count.toUInt64).toNat

end ChatRelay.Placement
