import ChatRelay.Proofs.Broker.Logs
import ChatRelay.Proofs.Consumer.Offsets
import ChatRelay.Proofs.Group.Sharing

namespace ChatRelay

namespace Group

def assignments (group : Group) : List (Nat × Std.ExtTreeSet Partition) :=
  group.members.map fun membership => (membership.id, membership.assigned)

/-- What may become of a group while `topics` turn into `later`. -/
inductive Becomes (topics later : Topics) (group : Group) : Group → Prop where
  /-- The members keep what they are assigned, and the topics that they follow are of the same size. -/
  | kept (members : next.members = group.members) (generation : next.generation = group.generation)
      (counts : ∀ topic, group.follows topic →
        later.partitionCount topic = topics.partitionCount topic) : Becomes topics later group next
  /-- The partitions are shared out anew, to the same members or to others. -/
  | anew (revised : Group) (generation : revised.generation = group.generation) :
      Becomes topics later group (revised.rebalance later)

/-- The assignments are the same, or those of a later generation. -/
def Precedes (group later : Group) : Prop :=
  group.generation < later.generation ∨
    group.generation = later.generation ∧ group.assignments = later.assignments

variable {group next : Group} {topics later : Topics} {id : Nat} {partition : Partition}

theorem Precedes.refl (group : Group) : group.Precedes group := .inr ⟨rfl, rfl⟩

theorem Precedes.trans {third : Group} (lower : group.Precedes next) (upper : next.Precedes third) :
    group.Precedes third := by
  rcases lower with lower | ⟨same, kept⟩ <;> rcases upper with upper | ⟨still, after⟩
  · exact .inl (Nat.lt_trans lower upper)
  · exact .inl (still ▸ lower)
  · exact .inl (same ▸ upper)
  · exact .inr ⟨same.trans still, kept.trans after⟩

theorem Precedes.generation_le (precedes : group.Precedes next) : group.generation ≤ next.generation := by
  rcases precedes with lower | ⟨same, _⟩
  · exact Nat.le_of_lt lower
  · exact Nat.le_of_eq same

theorem Becomes.precedes (becomes : group.Becomes topics later next) : group.Precedes next := by
  cases becomes with
  | kept members generation counts =>
    exact .inr ⟨generation.symm, by rw [assignments, assignments, members]⟩
  | anew revised generation => exact .inl (by simp [rebalance, generation])

theorem Becomes.generation_le (becomes : group.Becomes topics later next) :
    next.generation ≤ group.generation + 1 := by
  cases becomes with
  | kept members generation counts => exact Nat.le_succ_of_le (Nat.le_of_eq generation)
  | anew revised generation => exact Nat.le_of_eq (by simp [rebalance, generation])

theorem Becomes.sharedOut (becomes : group.Becomes topics later next) (shared : group.SharedOut topics) :
    next.SharedOut later := by
  cases becomes with
  | kept members generation counts => exact shared.congr members counts
  | anew revised generation => exact sharedOut_rebalance later revised

theorem Becomes.refl (topics : Topics) (group : Group) : group.Becomes topics topics group :=
  .kept rfl rfl fun _ _ => rfl

@[simp] theorem ids_rebalance (topics : Topics) (group : Group) :
    (group.rebalance topics).ids = group.ids := by
  simp [ids, rebalance, Function.comp_def]

theorem find?_isSome : (group.find? id).isSome ↔ id ∈ group.ids := by
  simp [find?, ids]

theorem ids_enrol (group : Group) (id : Nat) (topics : List String) :
    (group.enrol id topics).ids = if id ∈ group.ids then group.ids else group.ids ++ [id] := by
  unfold enrol
  simp only [find?_isSome]
  split
  · simp only [ids, List.map_map]
    apply List.map_congr_left
    intro membership _
    dsimp only [Function.comp]
    split <;> rfl
  · simp [ids]

theorem ids_dismiss (group : Group) (id : Nat) : (group.dismiss id).ids = group.ids.filter (· != id) := by
  simp [ids, dismiss, List.filter_map, Function.comp_def]

theorem assigned_congr (same : group.assignments = next.assignments) (id : Nat) :
    group.assigned id = next.assigned id := by
  have listed (group : Group) : group.assigned id =
      ((group.assignments.find? (·.1 == id)).map (·.2)).getD ∅ := by
    simp [assigned, find?, assignments, List.find?_map, Function.comp_def]
  rw [listed, listed, same]

end Group

namespace Broker

/-- The group of a name; before anyone subscribes it has no members. -/
def group (broker : Broker) (name : String) : Group := broker.groups.getD name {}

variable {broker : Broker} {consumer : Consumer} {id : Nat}

theorem assigns_eq (broker : Broker) (name : String) (member : Nat) (partition : Partition) :
    broker.assigns name member partition = (broker.group name).owns member partition := by
  unfold assigns group
  rw [Std.ExtTreeMap.getD_eq_getD_getElem?]
  cases broker.groups[name]? with
  | none => rfl
  | some group => rfl

theorem partitionCount_createTopic (broker : Broker) (topic : String) (partitions : Nat) (other : String) :
    (broker.createTopic topic partitions).topics.partitionCount other =
      if topic = other then max partitions (broker.topics.partitionCount topic)
      else broker.topics.partitionCount other := by
  rw [topics_createTopic]
  unfold Topics.partitionCount
  by_cases same : topic = other
  · subst same
    simp
    omega
  · simp [same, Std.ExtTreeMap.getD_insert]

theorem partitionCount_append (broker : Broker) (partition : Partition) (data : Bytes) (topic : String) :
    (broker.append partition data).2.topics.partitionCount topic = broker.topics.partitionCount topic := by
  unfold append
  split
  · rfl
  · split
    · rfl
    · simp only [Topics.partitionCount, Std.ExtTreeMap.getD_modify]
      by_cases same : partition.topic = topic
      · cases found : broker.topics[topic]? <;> simp [same, found, Std.ExtTreeMap.getD_eq_getD_getElem?]
      · simp [same]

theorem group_createTopic (broker : Broker) (topic : String) (partitions : Nat) (name : String) :
    (broker.createTopic topic partitions).group name =
      if broker.topics.partitionCount topic < partitions ∧ (broker.group name).follows topic then
        (broker.group name).rebalance (broker.createTopic topic partitions).topics
      else broker.group name := by
  by_cases grows : partitions ≤ (broker.topics.getD topic []).length
  · have kept : ¬ broker.topics.partitionCount topic < partitions := Nat.not_lt.mpr grows
    simp [group, createTopic, grows, kept]
  · have grown : broker.topics.partitionCount topic < partitions := Nat.lt_of_not_le grows
    rw [createTopic, if_neg grows]
    simp only [group, grown, true_and, Std.ExtTreeMap.getD_eq_getD_getElem?, Std.ExtTreeMap.getElem?_map]
    cases broker.groups[name]? with
    | none => simp [Group.follows]
    | some group => rfl

theorem becomes_createTopic (broker : Broker) (topic : String) (partitions : Nat) (name : String) :
    (broker.group name).Becomes broker.topics (broker.createTopic topic partitions).topics
      ((broker.createTopic topic partitions).group name) := by
  rw [group_createTopic]
  split
  · exact .anew _ rfl
  · rename_i untouched
    refine .kept rfl rfl fun other follows => ?_
    rw [partitionCount_createTopic]
    split
    · rename_i same
      subst same
      exact Nat.max_eq_right (Nat.le_of_not_lt fun grows => untouched ⟨grows, follows⟩)
    · rfl

theorem ids_createTopic (broker : Broker) (topic : String) (partitions : Nat) (name : String) :
    ((broker.createTopic topic partitions).group name).ids = (broker.group name).ids := by
  rw [group_createTopic]
  split
  · rw [Group.ids_rebalance]
  · rfl

theorem groups_append (broker : Broker) (partition : Partition) (data : Bytes) :
    (broker.append partition data).2.groups = broker.groups := by
  unfold append
  split
  · rfl
  · split <;> rfl

theorem group_append (broker : Broker) (partition : Partition) (data : Bytes) (name : String) :
    (broker.append partition data).2.group name = broker.group name := by
  rw [group, groups_append, group]

theorem group_subscribe (consumer : Consumer) (topics : List String) (broker : Broker) (name : String) :
    (consumer.subscribe topics broker).2.group name =
      if consumer.group = name then
        ((broker.group name).enrol (consumer.member.getD (broker.lastMember + 1)) topics).rebalance
          broker.topics
      else broker.group name := by
  by_cases same : consumer.group = name
  · subst same
    simp [group, Consumer.subscribe]
  · simp [group, Consumer.subscribe, same, Std.ExtTreeMap.getD_insert]

theorem group_leave (present : consumer.member = some id) (broker : Broker) (name : String) :
    (consumer.leave broker).group name =
      if consumer.group = name ∧ name ∈ broker.groups then
        ((broker.group name).dismiss id).rebalance broker.topics
      else broker.group name := by
  simp only [group, Consumer.leave, present, Std.ExtTreeMap.getD_eq_getD_getElem?,
    Std.ExtTreeMap.getElem?_modify, Std.ExtTreeMap.mem_iff_isSome_getElem?]
  by_cases same : consumer.group = name
  · subst same
    cases broker.groups[consumer.group]? <;> simp
  · simp [same]

/-- A commit leaves members and generations alone. -/
theorem group_commit (consumer : Consumer) (marks : List Mark) (broker : Broker) (name : String) :
    ((consumer.commit marks broker).2.group name).members = (broker.group name).members ∧
      ((consumer.commit marks broker).2.group name).generation = (broker.group name).generation := by
  unfold Consumer.commit
  split
  · exact ⟨rfl, rfl⟩
  · split
    · exact ⟨rfl, rfl⟩
    · rename_i found
      by_cases same : consumer.group = name
      · subst same
        simp [group, found, Std.ExtTreeMap.getD_eq_getD_getElem?]
      · simp [group, same, Std.ExtTreeMap.getD_insert]

section Becomes

variable (consumer : Consumer) (broker : Broker) (name : String)

theorem becomes_append (partition : Partition) (data : Bytes) :
    (broker.group name).Becomes broker.topics (broker.append partition data).2.topics
      ((broker.append partition data).2.group name) := by
  rw [group_append]
  exact .kept rfl rfl fun topic _ => broker.partitionCount_append partition data topic

theorem becomes_subscribe (topics : List String) :
    (broker.group name).Becomes broker.topics broker.topics
      ((consumer.subscribe topics broker).2.group name) := by
  rw [group_subscribe]
  split
  · refine .anew _ ?_
    unfold Group.enrol
    split <;> rfl
  · exact .refl ..

theorem becomes_leave :
    (broker.group name).Becomes broker.topics broker.topics ((consumer.leave broker).group name) := by
  cases present : consumer.member with
  | none =>
    rw [Consumer.leave, present]
    exact .refl ..
  | some id =>
    rw [group_leave present]
    split
    · exact .anew _ rfl
    · exact .refl ..

theorem becomes_commit (marks : List Mark) :
    (broker.group name).Becomes broker.topics broker.topics
      ((consumer.commit marks broker).2.group name) := by
  obtain ⟨members, generation⟩ := group_commit consumer marks broker name
  exact .kept members generation fun _ _ => rfl

end Becomes

end Broker
end ChatRelay
