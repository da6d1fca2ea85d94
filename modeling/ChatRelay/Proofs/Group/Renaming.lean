import Mathlib.Data.List.Find
import Mathlib.Data.Set.Function
import ChatRelay.Broker.Consumer

namespace ChatRelay

def Membership.renamed (rename : Nat → Nat) (membership : Membership) : Membership :=
  { membership with id := rename membership.id }

namespace Group

private theorem findIdx_congr {found other : α → Bool} {list : List α}
    (same : ∀ element ∈ list, found element = other element) : list.findIdx found = list.findIdx other := by
  induction list with
  | nil => rfl
  | cons element list ih =>
    rw [List.findIdx_cons, List.findIdx_cons, same element List.mem_cons_self,
      ih fun later member => same later (List.mem_cons_of_mem _ member)]

/-- The group with other numbers for its members. -/
def renamed (rename : Nat → Nat) (group : Group) : Group :=
  { group with members := group.members.map (·.renamed rename) }

def Within (given : Set Nat) (group : Group) : Prop := ∀ membership ∈ group.members, membership.id ∈ given

variable {rename : Nat → Nat} {given : Set Nat} {group : Group} {id : Nat}

theorem renamed_congr {other : Nat → Nat} (within : group.Within given) (same : given.EqOn rename other) :
    group.renamed rename = group.renamed other := by
  unfold renamed
  congr 1
  apply List.map_congr_left
  intro membership member
  rw [Membership.renamed, Membership.renamed, same (within membership member)]

theorem Within.mono (within : group.Within given) (more : given ⊆ wider) : group.Within wider :=
  fun membership member => more (within membership member)

theorem Within.rebalance (within : group.Within given) (topics : Topics) :
    (group.rebalance topics).Within given := by
  intro membership member
  obtain ⟨before, was, rfl⟩ := List.mem_map.mp member
  exact within before was

theorem Within.enrol (within : group.Within given) (own : id ∈ given) (topics : List String) :
    (group.enrol id topics).Within given := by
  intro membership member
  unfold Group.enrol at member
  split at member
  · obtain ⟨before, was, rfl⟩ := List.mem_map.mp member
    split <;> exact within before was
  · rcases List.mem_append.mp member with member | member
    · exact within membership member
    · cases List.mem_singleton.mp member
      exact own

theorem Within.dismiss (within : group.Within given) (id : Nat) : (group.dismiss id).Within given :=
  fun membership member => within membership (List.mem_filter.mp member).1

@[simp] theorem follows_renamed (rename : Nat → Nat) (group : Group) (topic : String) :
    (group.renamed rename).follows topic = group.follows topic := by
  simp [follows, renamed, Membership.renamed, Function.comp_def]

section Injective

variable (injective : given.InjOn rename) (within : group.Within given)
include injective within

theorem rename_eq_iff (own : id ∈ given) {membership : Membership} (member : membership ∈ group.members) :
    rename membership.id = rename id ↔ membership.id = id :=
  injective.eq_iff (within membership member) own

theorem find?_renamed (own : id ∈ given) :
    (group.renamed rename).find? (rename id) = (group.find? id).map (·.renamed rename) := by
  simp only [find?, renamed, List.find?_map]
  congr 1
  apply List.find?_congr
  intro membership member
  simp [Membership.renamed, rename_eq_iff injective within own member]

theorem assigned_renamed (own : id ∈ given) :
    (group.renamed rename).assigned (rename id) = group.assigned id := by
  rw [assigned, assigned, find?_renamed injective within own, Option.map_map]
  rfl

theorem owns_renamed (own : id ∈ given) (partition : Partition) :
    (group.renamed rename).owns (rename id) partition = group.owns id partition := by
  rw [owns, owns, assigned_renamed injective within own]

theorem enrol_renamed (own : id ∈ given) (topics : List String) :
    (group.renamed rename).enrol (rename id) topics = (group.enrol id topics).renamed rename := by
  unfold enrol
  rw [find?_renamed injective within own, Option.isSome_map]
  split
  · simp only [renamed, List.map_map, Group.mk.injEq, and_true, true_and]
    apply List.map_congr_left
    intro membership member
    simp only [Function.comp, Membership.renamed, rename_eq_iff injective within own member]
    split <;> rfl
  · simp [renamed, Membership.renamed]

theorem dismiss_renamed (own : id ∈ given) :
    (group.renamed rename).dismiss (rename id) = (group.dismiss id).renamed rename := by
  simp only [dismiss, renamed, List.filter_map, Group.mk.injEq, and_true, true_and]
  congr 1
  apply List.filter_congr
  intro membership member
  simp [Membership.renamed, bne, rename_eq_iff injective within own member, beq_eq_decide]

/-- Shares go by the ranks of members, and those stay. -/
theorem share_renamed (topics : Topics) (own : id ∈ given) (topic : String) :
    share topics (group.renamed rename).members (rename id) topic = share topics group.members id topic := by
  have subscribers : subscribers (group.renamed rename).members topic =
      (subscribers group.members topic).map (·.renamed rename) := by
    simp [Group.subscribers, renamed, List.filter_map, Membership.renamed, Function.comp_def]
  have ranked : rank (group.renamed rename).members topic (rename id) = rank group.members topic id := by
    rw [rank, rank, subscribers, List.findIdx_map]
    apply findIdx_congr
    intro membership member
    simp [Membership.renamed, rename_eq_iff injective within own (List.mem_filter.mp member).1]
  rw [share, share, ranked, subscribers, List.length_map]

theorem rebalance_renamed (topics : Topics) :
    (group.renamed rename).rebalance topics = (group.rebalance topics).renamed rename := by
  simp only [rebalance, renamed, List.map_map, Group.mk.injEq, and_true, true_and]
  apply List.map_congr_left
  intro membership member
  have shares : share topics (group.members.map (·.renamed rename)) (rename membership.id) =
      share topics group.members membership.id :=
    funext fun topic => share_renamed injective within topics (within membership member) topic
  dsimp only [Function.comp]
  rw [show (membership.renamed rename).id = rename membership.id from rfl, shares]
  rfl

end Injective
end Group
end ChatRelay
