import ChatRelay.Bytes

/-! Users and messages are named by signed 64-bit numbers. A message number carries the moment of its
creation in its high bits, so that numbers order messages by time. -/
namespace ChatRelay

structure UserId where
  value : Int64
deriving DecidableEq, Repr, Inhabited

structure MessageId where
  value : Int64
deriving DecidableEq, Repr, Inhabited

instance : Ord UserId := ⟨compareOn UserId.value⟩

instance : Std.TransOrd UserId := inferInstanceAs (Std.TransCmp (compareOn UserId.value))

instance : Std.LawfulEqOrd UserId where
  eq_of_compare {first second} equal := by
    have equal : compareOn UserId.value first second = .eq := equal
    cases first; cases second; simpa [compareOn] using equal

instance : LE UserId := ⟨fun first second => first.value ≤ second.value⟩

instance (first second : UserId) : Decidable (first ≤ second) :=
  inferInstanceAs (Decidable (first.value ≤ second.value))

theorem UserId.ext_toInt {first second : UserId} (same : first.value.toInt = second.value.toInt) :
    first = second := by
  cases first
  cases second
  exact congrArg UserId.mk (Int64.toInt_inj.mp same)

theorem UserId.le_of_not_le {first second : UserId} (above : ¬ first ≤ second) : second ≤ first :=
  (Int64.le_total first.value second.value).resolve_left above

instance : ToString UserId := ⟨fun user => toString user.value.toInt⟩

instance : ToString MessageId := ⟨fun id => toString id.value.toInt⟩

namespace MessageId

def none : MessageId := ⟨0⟩

/-- Only positive numbers name messages. -/
def isNone (id : MessageId) : Bool := id.value ≤ 0

/-- Milliseconds from the Unix epoch to the moment that message numbers count from. -/
def epoch : Int := 1609459200000

/-- How many numbers are set apart for one millisecond. -/
def perMillisecond : Int := 0x400000

/-- The creation time that a number carries, in milliseconds of the Unix epoch, rounded to the past. -/
def timestamp (id : MessageId) : Int :=
  id.value.toInt / perMillisecond + epoch

/-- The first number of the millisecond `time`. Before the epoch there is no message, and a time past the
last millisecond that has numbers is answered with the largest number. -/
def floorAt (time : Int) : MessageId :=
  let first := (time - epoch) * perMillisecond
  if time ≤ epoch then none
  else if first ≤ Int64.maxValue.toInt then ⟨Int64.ofInt first⟩
  else ⟨Int64.maxValue⟩

end MessageId

/-- The millisecond of a moment given in seconds and nanoseconds of the Unix epoch. -/
def millisecondOf (seconds : Int) (nanoseconds : Nat) : Int :=
  seconds * 1000 + nanoseconds / 1000000

/-- Hands out the names of the producers and the consumers of one instance, and counts each in a word. -/
structure InstanceNames where
  producers : UInt64 := 0
  consumers : UInt64 := 0
deriving DecidableEq, Repr

namespace InstanceNames

/-- Producers are numbered from one; the number stands before the context. -/
def nextProducer (names : InstanceNames) (context : String) : String × InstanceNames :=
  (s!"{names.producers + 1}@{context}", { names with producers := names.producers + 1 })

/-- Consumers are numbered from one by a counter of their own; the number stands after the kind. -/
def nextConsumer (names : InstanceNames) (kind : String) : String × InstanceNames :=
  (s!"{kind}-{names.consumers + 1}", { names with consumers := names.consumers + 1 })

end InstanceNames
end ChatRelay
