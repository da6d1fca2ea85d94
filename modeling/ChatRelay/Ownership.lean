import Std.Data.ExtTreeSet
import ChatRelay.Health
import ChatRelay.Metrics
import ChatRelay.Partition

/-! The partitions that one consumer owns, told by the assignment changes it receives while it polls. Its
loop counts as rebalancing from the time it joins a group, or its assignment changes, until a poll after the
one that brought the change has completed. -/
namespace ChatRelay

structure Ownership where
  consumer : String
  owned : Std.ExtTreeSet Partition := ∅
  /-- No change has come since the group was joined. -/
  joining : Bool := true
  /-- The change came with the poll that is completing. -/
  changedThisPoll : Bool := false

namespace Ownership

/-- Takes up the watch over a consumer that is about to join a group. -/
def watch (consumer : String) (health : LoopHealth) : Ownership × LoopHealth :=
  ({ consumer := consumer }, health.setRebalancing true)

/-- An empty change has no effect, unless it is the first: a member without partitions has joined as well. -/
def heeds (ownership : Ownership) (change : AssignmentChange) : Bool :=
  !change.isEmpty || ownership.joining

/-- Gives up what was revoked, then takes what was assigned. -/
def transfer (owned : Std.ExtTreeSet Partition) (change : AssignmentChange) : Std.ExtTreeSet Partition :=
  (owned.eraseMany change.revoked).insertMany change.assigned

def reassign (ownership : Ownership) (change : AssignmentChange) (health : LoopHealth) :
    Ownership × LoopHealth :=
  if ownership.heeds change then
    ({ ownership with
       owned := transfer ownership.owned change
       joining := false
       changedThisPoll := true },
     health.setRebalancing true)
  else (ownership, health)

/-- What a heeded change is counted as. -/
def measurements (ownership : Ownership) (change : AssignmentChange) : List Measurement :=
  (if change.revoked.isEmpty then [] else [.rebalanced ownership.consumer "revoked"]) ++
  (if change.assigned.isEmpty then [] else [.rebalanced ownership.consumer "assigned"]) ++
  [.ownedPartitions ownership.consumer (transfer ownership.owned change).size]

/-- A poll has completed. The assignment is settled if it came with an earlier poll. -/
def pollCompleted (ownership : Ownership) (health : LoopHealth) : Ownership × LoopHealth :=
  if ownership.joining then (ownership, health)
  else if ownership.changedThisPoll then ({ ownership with changedThisPoll := false }, health)
  else (ownership, health.setRebalancing false)

def owns (ownership : Ownership) (partition : Partition) : Bool :=
  ownership.owned.contains partition

end Ownership
end ChatRelay
