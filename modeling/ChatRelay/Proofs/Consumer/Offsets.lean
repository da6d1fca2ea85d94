import ChatRelay.Broker.Consumer

namespace ChatRelay

namespace Group

@[simp] theorem committed_rebalance (topics : Topics) (group : Group) :
    (group.rebalance topics).committed = group.committed := rfl

@[simp] theorem committed_enrol (group : Group) (id : Nat) (topics : List String) :
    (group.enrol id topics).committed = group.committed := by
  unfold enrol
  split <;> rfl

@[simp] theorem committed_dismiss (group : Group) (id : Nat) :
    (group.dismiss id).committed = group.committed := rfl

end Group

namespace Broker

/-- Whether a group assigns a partition to a member now. -/
def assigns (broker : Broker) (group : String) (member : Nat) (partition : Partition) : Bool :=
  (broker.groups[group]?.map (·.owns member partition)).getD false

theorem resume_eq (broker : Broker) (found : broker.groups[name]? = some group) (partition : Partition) :
    group.resume partition = (broker.committed? name partition).getD 0 := by
  simp [Group.resume, committed?, found, Std.ExtTreeMap.getD_eq_getD_getElem?]

@[simp] theorem committed?_failPublishes (broker : Broker) (count : Nat) :
    (broker.failPublishes count).committed? = broker.committed? := rfl

@[simp] theorem committed?_createTopic (broker : Broker) (topic : String) (partitions : Nat) :
    (broker.createTopic topic partitions).committed? = broker.committed? := by
  funext name partition
  unfold createTopic
  dsimp only
  split
  · rfl
  · simp only [committed?, Std.ExtTreeMap.getElem?_map]
    cases broker.groups[name]? with
    | none => rfl
    | some group =>
      simp only [Option.map_some, Option.bind_some]
      split <;> rfl

@[simp] theorem committed?_append (broker : Broker) (partition : Partition) (data : Bytes) :
    (broker.append partition data).2.committed? = broker.committed? := by
  unfold append
  split
  · rfl
  · split <;> rfl

end Broker

namespace Consumer

variable {consumer next : Consumer} {broker : Broker} {change : AssignmentChange} {id : Nat}

@[simp] theorem committed?_subscribe (consumer : Consumer) (topics : List String) (broker : Broker) :
    (consumer.subscribe topics broker).2.committed? = broker.committed? := by
  funext name partition
  by_cases same : consumer.group = name
  · subst same
    cases found : broker.groups[consumer.group]? <;>
      simp [subscribe, Broker.committed?, found, Std.ExtTreeMap.getD_eq_getD_getElem?]
  · simp [subscribe, Broker.committed?, Std.ExtTreeMap.getElem?_insert, same]

@[simp] theorem committed?_leave (consumer : Consumer) (broker : Broker) :
    (consumer.leave broker).committed? = broker.committed? := by
  funext name partition
  unfold leave
  split
  · rfl
  · by_cases same : consumer.group = name
    · subst same
      cases found : broker.groups[consumer.group]? <;> simp [Broker.committed?, found]
    · simp [Broker.committed?, Std.ExtTreeMap.getElem?_modify, same]

theorem getElem?_insertMany_toList (positions more : Std.ExtTreeMap Partition Nat) (partition : Partition) :
    (positions.insertMany more.toList)[partition]? = more[partition]?.or positions[partition]? := by
  cases found : more[partition]? with
  | none =>
    apply Std.ExtTreeMap.getElem?_insertMany_list_of_contains_eq_false
    have absent : partition ∉ more.keys := by
      rw [Std.ExtTreeMap.mem_keys, Std.ExtTreeMap.mem_iff_isSome_getElem?, found]
      simp
    rw [Std.ExtTreeMap.map_fst_toList_eq_keys]
    simpa using absent
  | some next =>
    apply Std.ExtTreeMap.getElem?_insertMany_list_of_mem Std.ReflCmp.compare_self
      Std.ExtTreeMap.distinct_keys_toList
    exact Std.ExtTreeMap.mem_toList_iff_getElem?_eq_some.mpr found

/-- A commit moves the partitions that it marks and that are assigned to the member, and no others. -/
theorem committed?_commit (consumer : Consumer) (marks : List Mark) (broker : Broker) (name : String)
    (partition : Partition) :
    (consumer.commit marks broker).2.committed? name partition =
      if name = consumer.group ∧ (∃ id, consumer.member = some id ∧ broker.assigns name id partition) then
        (latest marks)[partition]?.or (broker.committed? name partition)
      else broker.committed? name partition := by
  unfold commit
  split
  · rename_i absent
    simp [absent]
  · rename_i id present
    split
    · rename_i missing
      by_cases same : name = consumer.group
      · subst same
        simp [Broker.assigns, missing]
      · simp [same]
    · rename_i group found
      by_cases same : name = consumer.group
      · subst same
        have moved := getElem?_insertMany_toList group.committed
          ((latest marks).filter fun partition _ => group.owns id partition) partition
        rw [Std.ExtTreeMap.getElem?_filter'] at moved
        simp only [Broker.committed?, Broker.assigns, present, found, Std.ExtTreeMap.getElem?_insert_self,
          Option.bind_some, Option.map_some, Option.getD_some, moved]
        cases owned : group.owns id partition <;> cases (latest marks)[partition]? <;> simp [owned]
      · simp [Broker.committed?, Std.ExtTreeMap.getElem?_insert, same, Ne.symm same]

/-- Partitions that stay keep their positions; others begin where the group would resume. -/
theorem getElem?_reposition (positions : Std.ExtTreeMap Partition Nat) (group : Group)
    (assigned : Std.ExtTreeSet Partition) (partition : Partition) :
    (reposition positions group assigned)[partition]? =
      if partition ∈ assigned then some (positions.getD partition (group.resume partition)) else none := by
  unfold reposition
  split
  · rename_i member
    apply Std.ExtTreeMap.getElem?_ofList_of_mem Std.ReflCmp.compare_self
    · rw [List.pairwise_map]
      exact assigned.distinct_toList
    · exact List.mem_map.mpr ⟨partition, Std.ExtTreeSet.mem_toList.mpr member, rfl⟩
  · rename_i missing
    apply Std.ExtTreeMap.getElem?_ofList_of_contains_eq_false
    simpa [Function.comp_def] using missing

theorem synchronise_eq_some (synced : consumer.synchronise broker = some (change, next)) :
    ∃ id group, consumer.member = some id ∧ broker.groups[consumer.group]? = some group ∧
      next = { consumer with
        generation := group.generation
        positions := reposition consumer.positions group (group.assigned id) } := by
  simp only [synchronise, bind, Option.bind_eq_some_iff] at synced
  obtain ⟨id, present, group, found, synced⟩ := synced
  split at synced
  · cases synced
  · cases synced
    exact ⟨id, group, present, found, rfl⟩

theorem synchronise_again (synced : consumer.synchronise broker = some (change, next)) :
    next.synchronise broker = none := by
  obtain ⟨id, group, present, found, rfl⟩ := synchronise_eq_some synced
  simp [synchronise, present, found]

/-- A consumer that caught up holds what is assigned to it: what it held before at the old position, the
rest at the committed offset. -/
theorem position_synchronise (synced : consumer.synchronise broker = some (change, next))
    (present : consumer.member = some id) (partition : Partition) :
    next.positions[partition]? =
      if broker.assigns consumer.group id partition then
        some (consumer.positions[partition]?.getD ((broker.committed? consumer.group partition).getD 0))
      else none := by
  obtain ⟨_, group, same, found, rfl⟩ := synchronise_eq_some synced
  cases same.symm.trans present
  rw [getElem?_reposition]
  simp [Broker.assigns, found, Group.owns, Std.ExtTreeMap.getD_eq_getD_getElem?,
    broker.resume_eq found]

theorem mem_positions_synchronise (synced : consumer.synchronise broker = some (change, next))
    (present : consumer.member = some id) (partition : Partition) :
    partition ∈ next.positions ↔ broker.assigns consumer.group id partition := by
  rw [Std.ExtTreeMap.mem_iff_isSome_getElem?, position_synchronise synced present]
  split <;> simp [*]

/-- Who loses nothing stands where it stood, if what is new to it was never committed. -/
theorem getD_synchronise (synced : consumer.synchronise broker = some (change, next))
    (present : consumer.member = some id)
    (kept : ∀ partition ∈ consumer.positions, broker.assigns consumer.group id partition)
    (uncommitted : ∀ partition, partition ∉ consumer.positions →
      broker.committed? consumer.group partition = none) (partition : Partition) :
    next.positions.getD partition 0 = consumer.positions.getD partition 0 := by
  rw [Std.ExtTreeMap.getD_eq_getD_getElem?, Std.ExtTreeMap.getD_eq_getD_getElem?,
    position_synchronise synced present]
  cases stood : consumer.positions[partition]? with
  | some offset =>
    rw [if_pos (kept partition (Std.ExtTreeMap.mem_iff_isSome_getElem?.mpr (by simp [stood])))]
    rfl
  | none =>
    -- it is read from the beginning, and that is also where it counted as standing before
    have free : partition ∉ consumer.positions := by simp [Std.ExtTreeMap.mem_iff_isSome_getElem?, stood]
    rw [uncommitted partition free]
    split <;> rfl

theorem position_rewind (consumer : Consumer) (broker : Broker) (partition : Partition) :
    (consumer.rewind broker).positions[partition]? =
      consumer.positions[partition]?.map fun _ =>
        (broker.committed? consumer.group partition).getD 0 := by
  simp only [rewind, Std.ExtTreeMap.getElem?_map]
  cases found : broker.groups[consumer.group]? with
  | none => simp [Broker.committed?, found]
  | some group => simp [broker.resume_eq found]

end Consumer
end ChatRelay
