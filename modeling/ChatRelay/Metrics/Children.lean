import Std.Data.ExtTreeMap
import ChatRelay.Fingerprint

namespace ChatRelay

/-- The children of one family. The fingerprint of its label values is all that tells a child from another:
combinations that share it share a child, which keeps the values that it was first measured with. -/
structure Children (α : Type) where
  byFingerprint : Std.ExtTreeMap UInt64 (List String × α) := ∅

namespace Children

/-- The hash of the label values, written one after the other without a mark between them. -/
def fingerprint (values : List String) : UInt64 :=
  Fingerprint.ofText (String.join values)

def get? (children : Children α) (values : List String) : Option α :=
  children.byFingerprint[fingerprint values]?.map Prod.snd

/-- Changes what the child of a combination holds. A child that was not measured before holds `fresh`. -/
def update (children : Children α) (values : List String) (fresh : α) (change : α → α) : Children α :=
  let child := children.byFingerprint.getD (fingerprint values) (values, fresh)
  ⟨children.byFingerprint.insert (fingerprint values) (child.1, change child.2)⟩

def add (children : Children Nat) (values : List String) (n : Nat) : Children Nat :=
  children.update values 0 (· + n)

def set (children : Children α) (values : List String) (reading : α) : Children α :=
  children.update values reading fun _ => reading

/-- An update is seen by the combinations that share the fingerprint, and by no other. -/
theorem get?_update (children : Children α) (values other : List String) (fresh : α) (change : α → α) :
    (children.update values fresh change).get? other =
      if fingerprint values = fingerprint other then some (change ((children.get? values).getD fresh))
      else children.get? other := by
  unfold get? update
  by_cases same : fingerprint values = fingerprint other
  · rw [if_pos same, ← same, Std.ExtTreeMap.getElem?_insert_self, Std.ExtTreeMap.getD_eq_getD_getElem?]
    cases children.byFingerprint[fingerprint values]? <;> rfl
  · simp [Std.ExtTreeMap.getElem?_insert, same]

/-- Label values and what their children hold, in the order of the values. -/
def toList (children : Children α) : List (List String × α) :=
  (children.byFingerprint.toList.map Prod.snd).mergeSort fun first second =>
    (compare first.1 second.1).isLE

end Children
end ChatRelay
