import Mathlib.Data.List.Nodup
import ChatRelay.Broker.Group

/-! How a group shares its partitions out. The shares of a topic are ranges that follow one another in the
order of the members and end with the last partition, so that each partition falls to one subscriber. -/
namespace ChatRelay

namespace Share

variable {partitions subscribers index first second limit : Nat}

/-- How many partitions fall to a rank. -/
def size (partitions subscribers rank : Nat) : Nat :=
  partitions / subscribers + if rank < partitions % subscribers then 1 else 0

theorem start_add_size (partitions subscribers rank : Nat) :
    start partitions subscribers rank + size partitions subscribers rank =
      start partitions subscribers (rank + 1) := by
  rw [start_succ, size, Nat.add_assoc]

/-- Sizes of shares differ by one at most. -/
theorem size_le (partitions subscribers first second : Nat) :
    size partitions subscribers first ≤ size partitions subscribers second + 1 := by
  unfold size
  split <;> split <;> omega

/-- What lies before the beginning of a share falls to a rank before. -/
theorem exists_rank (below : index < start partitions subscribers limit) :
    ∃ rank < limit, index ∈ indices partitions subscribers rank := by
  induction limit with
  | zero => simp at below
  | succ limit ih =>
    by_cases earlier : index < start partitions subscribers limit
    · obtain ⟨rank, under, falls⟩ := ih earlier
      exact ⟨rank, Nat.lt_succ_of_lt under, falls⟩
    · exact ⟨limit, Nat.lt_succ_self limit,
        (mem_indices ..).mpr ⟨Nat.le_of_not_lt earlier, below⟩⟩

theorem lt_of_rank_lt (lower : first < second) {other : Nat}
    (falls : index ∈ indices partitions subscribers first)
    (also : other ∈ indices partitions subscribers second) : index < other := by
  rw [mem_indices] at falls also
  exact Nat.lt_of_lt_of_le falls.2
    (Nat.le_trans (start_mono partitions subscribers (Nat.succ_le_of_lt lower)) also.1)

theorem rank_unique (falls : index ∈ indices partitions subscribers first)
    (also : index ∈ indices partitions subscribers second) : first = second := by
  rcases Nat.lt_trichotomy first second with lower | same | higher
  · exact absurd (lt_of_rank_lt lower falls also) (Nat.lt_irrefl index)
  · exact same
  · exact absurd (lt_of_rank_lt higher also falls) (Nat.lt_irrefl index)

theorem lt_partitions (ranked : first < subscribers)
    (falls : index ∈ indices partitions subscribers first) : index < partitions := by
  rw [mem_indices] at falls
  have upTo := start_mono partitions subscribers (Nat.succ_le_of_lt ranked)
  rw [start_subscribers partitions (Nat.zero_lt_of_lt ranked)] at upTo
  exact Nat.lt_of_lt_of_le falls.2 upTo

end Share

namespace Group

def ids (group : Group) : List Nat := group.members.map (·.id)

def Ordered (group : Group) : Prop := group.ids.Pairwise (· < ·)

def subscriberIds (group : Group) (topic : String) : List Nat :=
  (subscribers group.members topic).map (·.id)

/-- The indices of a topic that fall to a member by its rank among the subscribers. -/
def slots (group : Group) (topics : Topics) (topic : String) (id : Nat) : List Nat :=
  Share.indices (topics.partitionCount topic) (group.subscriberIds topic).length
    ((group.subscriberIds topic).idxOf id)

/-- Each member is assigned its shares of the topics that it subscribes to. -/
def SharedOut (group : Group) (topics : Topics) : Prop :=
  ∀ membership ∈ group.members, ∀ partition : Partition, partition ∈ membership.assigned ↔
    partition.topic ∈ membership.topics ∧
      partition ∈ share topics group.members membership.id partition.topic

/-- The partitions of the topics that some member subscribes to, and no others, are assigned, each to
one subscriber. -/
structure CoversExactly (group : Group) (topics : Topics) : Prop where
  /-- Each partition that exists has one owner. -/
  covered : ∀ (topic : String) (index : Nat),
    group.follows topic → index < topics.partitionCount topic → ∃! id, group.owns id ⟨topic, index⟩
  /-- An owner is a member that subscribes to the topic, and what it owns exists. -/
  proper : ∀ (id : Nat) (partition : Partition), group.owns id partition →
    (∃ membership ∈ group.members, membership.id = id ∧ partition.topic ∈ membership.topics) ∧
      0 ≤ partition.index ∧ partition.index < topics.partitionCount partition.topic
  /-- The subscribers of a topic own ranges of it, which follow one another in the order of the members
  and are of nearly equal size. -/
  ranges : ∀ topic : String, ∃ first size : Nat → Nat,
    (∀ (id : Nat) (index : Int), group.owns id ⟨topic, index⟩ ↔
      id ∈ group.subscriberIds topic ∧ first id ≤ index ∧ index < first id + size id) ∧
    ∀ id ∈ group.subscriberIds topic, ∀ other ∈ group.subscriberIds topic,
      (id < other → first id + size id ≤ first other) ∧ size id ≤ size other + 1

variable {group : Group} {topics : Topics} {id other slot : Nat}
variable {topic : String} {index : Int} {partition : Partition}

theorem sharedOut_rebalance (topics : Topics) (group : Group) :
    (group.rebalance topics).SharedOut topics := by
  -- a rank depends on the numbers and topics of the members, and these stay
  have shares (id : Nat) (topic : String) :
      share topics (group.rebalance topics).members id topic = share topics group.members id topic := by
    simp [share, rank, subscribers, rebalance, List.filter_map, Function.comp_def, List.findIdx_map]
  intro membership member partition
  rw [shares]
  obtain ⟨before, _, rfl⟩ := List.mem_map.mp member
  simp only [Std.ExtTreeSet.mem_ofList, List.contains_iff_mem, List.mem_flatMap]
  constructor
  · rintro ⟨topic, subscribed, falls⟩
    have same : partition.topic = topic := by
      obtain ⟨index, _, rfl⟩ := List.mem_map.mp falls
      rfl
    exact ⟨same ▸ subscribed, same ▸ falls⟩
  · rintro ⟨subscribed, falls⟩
    exact ⟨partition.topic, subscribed, falls⟩

/-- What is shared out follows from the members and from how many partitions their topics have. -/
theorem SharedOut.congr (shared : group.SharedOut topics) {next : Group} {later : Topics}
    (members : next.members = group.members)
    (counts : ∀ topic, group.follows topic → later.partitionCount topic = topics.partitionCount topic) :
    next.SharedOut later := by
  intro membership member partition
  rw [members] at member ⊢
  rw [shared membership member partition]
  refine and_congr_right fun subscribed => ?_
  have follows : group.follows partition.topic := by
    simp only [Group.follows, List.any_eq_true, List.contains_iff_mem]
    exact ⟨membership, member, subscribed⟩
  simp only [share, counts partition.topic follows]

theorem mem_subscriberIds : id ∈ group.subscriberIds topic ↔
    ∃ membership ∈ group.members, membership.id = id ∧ topic ∈ membership.topics := by
  simp only [subscriberIds, subscribers, List.mem_map, List.mem_filter, List.contains_iff_mem]
  exact ⟨fun ⟨membership, ⟨member, subscribed⟩, same⟩ => ⟨membership, member, same, subscribed⟩,
    fun ⟨membership, member, same, subscribed⟩ => ⟨membership, ⟨member, subscribed⟩, same⟩⟩

theorem mem_share : partition ∈ share topics group.members id topic ↔
    ∃ slot ∈ group.slots topics topic id, (⟨topic, signed32 slot⟩ : Partition) = partition := by
  have ranked : rank group.members topic id = (group.subscriberIds topic).idxOf id := by
    simp [rank, subscriberIds, List.idxOf, List.findIdx_map, Function.comp_def]
  rw [share, ranked, List.mem_map]
  simp [slots, subscriberIds]

theorem lt_partitionCount (subscribed : id ∈ group.subscriberIds topic)
    (falls : slot ∈ group.slots topics topic id) : slot < topics.partitionCount topic :=
  Share.lt_partitions (List.idxOf_lt_length_of_mem subscribed) falls

section Ordered

variable (ordered : group.Ordered)
include ordered

theorem Ordered.subscriberIds (topic : String) : (group.subscriberIds topic).Pairwise (· < ·) :=
  List.Pairwise.sublist (List.Sublist.map _ (List.filter_sublist ..)) ordered

theorem Ordered.owns_iff : group.owns id partition ↔
    ∃ membership ∈ group.members, membership.id = id ∧ partition ∈ membership.assigned := by
  simp only [owns, assigned, find?, Std.ExtTreeSet.contains_iff_mem]
  constructor
  · intro owned
    cases found : group.members.find? (·.id == id) with
    | none => simp [found] at owned
    | some membership =>
      have same := List.find?_some found
      exact ⟨membership, List.mem_of_find?_eq_some found, by simpa using same,
        by simpa [found] using owned⟩
  · rintro ⟨membership, member, rfl, owned⟩
    cases found : group.members.find? (·.id == membership.id) with
    | none => simpa using List.find?_eq_none.mp found membership member
    | some other =>
      have same : other.id = membership.id := by simpa using List.find?_some found
      have distinct : (group.members.map (·.id)).Nodup := ordered.imp Nat.ne_of_lt
      have equal := List.inj_on_of_nodup_map distinct (List.mem_of_find?_eq_some found) member same
      simpa [equal] using owned

/-- Members with higher numbers have higher ranks. -/
theorem Ordered.idxOf_lt (one : id ∈ group.subscriberIds topic)
    (two : other ∈ group.subscriberIds topic) (lower : id < other) :
    (group.subscriberIds topic).idxOf id < (group.subscriberIds topic).idxOf other := by
  by_contra higher
  rcases Nat.lt_or_eq_of_le (Nat.le_of_not_lt higher) with before | same
  · have := List.pairwise_iff_getElem.mp (ordered.subscriberIds topic) _ _
      (List.idxOf_lt_length_of_mem two) (List.idxOf_lt_length_of_mem one) before
    rw [List.getElem_idxOf, List.getElem_idxOf] at this
    omega
  · rw [List.idxOf_inj two] at same
    omega

/-- A subscriber owns the indices of its rank. -/
theorem SharedOut.owns_iff (shared : group.SharedOut topics)
    (bounded : topics.partitionCount topic ≤ 0x7fffffff) :
    group.owns id ⟨topic, index⟩ ↔
      id ∈ group.subscriberIds topic ∧ ∃ slot ∈ group.slots topics topic id, index = slot := by
  have unsigned : id ∈ group.subscriberIds topic → ∀ slot ∈ group.slots topics topic id,
      signed32 slot = slot := by
    intro subscribed slot falls
    have := lt_partitionCount subscribed falls
    exact signed32_of_lt (by omega)
  rw [ordered.owns_iff]
  constructor
  · rintro ⟨membership, member, rfl, owned⟩
    obtain ⟨subscribed, falls⟩ := (shared membership member _).mp owned
    have subscribed := mem_subscriberIds.mpr ⟨membership, member, rfl, subscribed⟩
    obtain ⟨slot, falls, same⟩ := mem_share.mp falls
    rw [Partition.mk.injEq, unsigned subscribed slot falls] at same
    exact ⟨subscribed, slot, falls, same.2.symm⟩
  · rintro ⟨subscribed, slot, falls, rfl⟩
    obtain ⟨membership, member, rfl, subscribes⟩ := mem_subscriberIds.mp subscribed
    refine ⟨membership, member, rfl, (shared membership member _).mpr ⟨subscribes, ?_⟩⟩
    exact mem_share.mpr ⟨slot, falls, by rw [unsigned subscribed slot falls]⟩

/-- Each index falls to one subscriber. -/
theorem Ordered.exists_subscriber (followed : group.follows topic)
    (within : slot < topics.partitionCount topic) :
    ∃ id ∈ group.subscriberIds topic, slot ∈ group.slots topics topic id := by
  have some : 0 < (group.subscriberIds topic).length := by
    simp only [follows, List.any_eq_true, List.contains_iff_mem] at followed
    obtain ⟨membership, member, subscribed⟩ := followed
    exact List.length_pos_of_mem (mem_subscriberIds.mpr ⟨membership, member, rfl, subscribed⟩)
  rw [← Share.start_subscribers (topics.partitionCount topic) some] at within
  obtain ⟨rank, ranked, falls⟩ := Share.exists_rank within
  have distinct : (group.subscriberIds topic).Nodup := (ordered.subscriberIds topic).imp Nat.ne_of_lt
  refine ⟨_, List.getElem_mem ranked, ?_⟩
  rw [slots, distinct.idxOf_getElem rank ranked]
  exact falls

theorem SharedOut.coversExactly (shared : group.SharedOut topics)
    (bounded : ∀ topic, topics.partitionCount topic ≤ 0x7fffffff) : group.CoversExactly topics where
  covered topic index followed within := by
    obtain ⟨id, subscribed, falls⟩ := ordered.exists_subscriber followed within
    refine ⟨id, (shared.owns_iff ordered (bounded topic)).mpr ⟨subscribed, index, falls, rfl⟩, ?_⟩
    intro other owned
    obtain ⟨also, slot, takes, same⟩ := (shared.owns_iff ordered (bounded topic)).mp owned
    cases Int.ofNat_inj.mp same
    exact (List.idxOf_inj also).mp (Share.rank_unique takes falls)
  proper id partition owned := by
    obtain ⟨subscribed, slot, falls, same⟩ :=
      (shared.owns_iff ordered (bounded partition.topic)).mp owned
    have within := lt_partitionCount subscribed falls
    exact ⟨mem_subscriberIds.mp subscribed, by omega, by omega⟩
  ranges topic := by
    refine ⟨fun id => Share.start (topics.partitionCount topic) (group.subscriberIds topic).length
        ((group.subscriberIds topic).idxOf id),
      fun id => Share.size (topics.partitionCount topic) (group.subscriberIds topic).length
        ((group.subscriberIds topic).idxOf id), ?_, ?_⟩
    · intro id index
      rw [shared.owns_iff ordered (bounded topic)]
      refine and_congr_right fun _ => ?_
      simp only [slots, Share.mem_indices, ← Share.start_add_size]
      constructor
      · rintro ⟨slot, ⟨_, _⟩, rfl⟩
        exact ⟨by omega, by omega⟩
      · rintro ⟨_, _⟩
        exact ⟨index.toNat, ⟨by omega, by omega⟩, by omega⟩
    · intro id one other two
      refine ⟨fun lower => ?_, Share.size_le ..⟩
      rw [Share.start_add_size]
      exact Share.start_mono _ _ (ordered.idxOf_lt one two lower)

end Ordered

/-- A partition has one owner at most. -/
theorem CoversExactly.owner_unique (covers : group.CoversExactly topics)
    (owned : group.owns id partition) (also : group.owns other partition) : id = other := by
  obtain ⟨⟨membership, member, _, subscribed⟩, natural, within⟩ := covers.proper id partition owned
  obtain ⟨topic, index⟩ := partition
  lift index to Nat using natural
  have followed : group.follows topic := by
    simp only [follows, List.any_eq_true, List.contains_iff_mem]
    exact ⟨membership, member, subscribed⟩
  exact (covers.covered topic index followed (by simpa using within)).unique owned also

end Group
end ChatRelay
