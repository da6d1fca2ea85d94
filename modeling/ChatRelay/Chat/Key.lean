import ChatRelay.Identity

namespace ChatRelay

structure ChatId where
  text : String
deriving DecidableEq, Repr, Inhabited

/-- The smaller number, a hyphen and the larger one, so that both users give their chat the same name. -/
def ChatId.between (first second : UserId) : ChatId :=
  if first ≤ second then ⟨s!"{first}-{second}"⟩ else ⟨s!"{second}-{first}"⟩

instance : ToString ChatId := ⟨ChatId.text⟩

/-- Names the row that `owner` has about a chat. -/
structure ChatKey where
  owner : UserId
  chat : ChatId
deriving DecidableEq, Repr, Inhabited

namespace ChatKey

def forPair (owner other : UserId) : ChatKey := ⟨owner, .between owner other⟩

/-- Rows come in the order of their owners, and in the order of the chats' names for one owner. -/
def order : ChatKey → ChatKey → Ordering :=
  compareLex (compareOn ChatKey.owner) (compareOn (ChatId.text ∘ ChatKey.chat))

instance : Ord ChatKey := ⟨order⟩

instance : Std.TransOrd ChatKey :=
  inferInstanceAs
    (Std.TransCmp (compareLex (compareOn ChatKey.owner) (compareOn (ChatId.text ∘ ChatKey.chat))))

instance : Std.LawfulEqOrd ChatKey where
  eq_of_compare {first second} equal := by
    obtain ⟨firstOwner, ⟨firstChat⟩⟩ := first
    obtain ⟨secondOwner, ⟨secondChat⟩⟩ := second
    have equal : compareLex (compareOn ChatKey.owner) (compareOn (ChatId.text ∘ ChatKey.chat))
        ⟨firstOwner, ⟨firstChat⟩⟩ ⟨secondOwner, ⟨secondChat⟩⟩ = .eq := equal
    simp [compareLex_eq_eq, compareOn] at equal
    simp [equal]

end ChatKey
end ChatRelay
