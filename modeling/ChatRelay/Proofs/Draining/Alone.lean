import ChatRelay.Proofs.Draining.Answering

namespace ChatRelay

def Broker.next (broker : Broker) (group : String) (partition : Partition) : Nat :=
  (broker.committed? group partition).getD 0

namespace Consumer

/-- A member that its group assigns all of one topic, and that stands where the group would resume. One that
stands elsewhere, such as after a partition was lost and came back, is not meant. -/
structure Alone (consumer : Consumer) (broker : Broker) (topic : String) : Prop where
  roomy : 0 < consumer.maxRecords
  enrolled : ∃ id group, consumer.member = some id ∧ broker.groups[consumer.group]? = some group ∧
    (∀ partition, group.owns id partition ↔ broker.topics.Holds topic partition) ∧
    (group.generation = consumer.generation →
      ∀ partition, partition ∈ consumer.positions ↔ broker.topics.Holds topic partition)
  stands : ∀ partition offset, consumer.positions[partition]? = some offset →
    broker.next consumer.group partition = offset
  within : ∀ partition, broker.topics.Holds topic partition →
    broker.next consumer.group partition ≤ (broker.topics.records partition).length

variable {consumer : Consumer} {broker : Broker} {topic : String}

theorem Alone.catchUp (alone : consumer.Alone broker topic) :
    (consumer.catchUp broker).2.Alone broker topic ∧
      ∀ partition, partition ∈ (consumer.catchUp broker).2.positions ↔
        broker.topics.Holds topic partition := by
  obtain ⟨id, group, member, found, owns, current⟩ := alone.enrolled
  unfold Consumer.catchUp
  cases synced : consumer.synchronise broker with
  | none =>
    have same : group.generation = consumer.generation := by
      simpa [synchronise, member, found] using synced
    exact ⟨alone, current same⟩
  | some caught =>
    obtain ⟨change, next⟩ := caught
    have assigns (partition : Partition) :
        broker.assigns consumer.group id partition ↔ broker.topics.Holds topic partition := by
      rw [← owns partition]
      simp [Broker.assigns, found]
    have held (partition : Partition) : partition ∈ next.positions ↔ broker.topics.Holds topic partition :=
      (mem_positions_synchronise synced member partition).trans (assigns partition)
    have position := position_synchronise synced member
    obtain ⟨_, _, memberAgain, foundAgain, rfl⟩ := synchronise_eq_some synced
    refine ⟨⟨alone.roomy, ⟨id, group, member, found, owns, fun _ => held⟩, ?_, alone.within⟩, held⟩
    intro partition offset stands
    rw [position] at stands
    split at stands
    · cases stood : consumer.positions[partition]? with
      | none => simpa [stood, Broker.next] using stands
      | some place =>
        rw [stood] at stands
        have same := alone.stands partition place stood
        simpa [same] using stands
    · cases stands

/-- The commit of a member is accepted, and notes what its group assigns it. -/
theorem commit_enrolled (consumer : Consumer) (marks : List Mark) {group : Group} {id : Nat}
    (member : consumer.member = some id) (found : broker.groups[consumer.group]? = some group) :
    consumer.commit marks broker =
      (.ok (), { broker with groups := broker.groups.insert consumer.group { group with
        committed := group.committed.insertMany
          ((latest marks).filter fun partition _ => group.owns id partition).toList } }) := by
  simp [commit, member, found]

/-- The group reads on where a member stands that commits all it read since the group stood there. -/
theorem next_commit (consumer : Consumer) {earlier : Topics} {start : Positions} {records : List Record}
    {id : Nat} (member : consumer.member = some id)
    (reads : Reads earlier start records consumer.positions)
    (assigned : ∀ partition ∈ start, broker.assigns consumer.group id partition)
    (stood : ∀ partition offset, start[partition]? = some offset →
      broker.next consumer.group partition = offset)
    (position : consumer.positions[partition]? = some offset) :
    (consumer.commit (records.map Record.mark) broker).2.next consumer.group partition = offset := by
  obtain ⟨first, place, -⟩ := reads.started position
  have among : partition ∈ start := by simp [Std.ExtTreeMap.mem_iff_isSome_getElem?, place]
  rw [Broker.next, committed?_commit, if_pos ⟨rfl, id, member, assigned partition among⟩, reads.latest]
  split
  · rw [position]
    rfl
  · rename_i none
    have unread := reads.unread fun record among same => none ⟨record, among, same⟩
    rw [position, place] at unread
    exact stood partition offset (place.trans unread.symm)

/-- Having committed what it read, it is alone as before, and the group would read on where it stands. -/
theorem commit_alone (consumer : Consumer) {earlier : Topics} {start : Positions} {records : List Record}
    {group : Group} {id : Nat}
    (roomy : 0 < consumer.maxRecords) (member : consumer.member = some id)
    (found : broker.groups[consumer.group]? = some group)
    (owns : ∀ partition, group.owns id partition ↔ broker.topics.Holds topic partition)
    (reads : Reads earlier start records consumer.positions)
    (held : ∀ partition, partition ∈ start ↔ broker.topics.Holds topic partition)
    (stood : ∀ partition offset, start[partition]? = some offset →
      broker.next consumer.group partition = offset)
    (within : ∀ partition, broker.topics.Holds topic partition →
      consumer.positions.getD partition 0 ≤ (broker.topics.records partition).length) :
    (consumer.commit (records.map Record.mark) broker).1 = .ok () ∧
      (consumer.commit (records.map Record.mark) broker).2.topics = broker.topics ∧
      consumer.Alone (consumer.commit (records.map Record.mark) broker).2 topic ∧
      ∀ partition, broker.topics.Holds topic partition →
        (consumer.commit (records.map Record.mark) broker).2.next consumer.group partition =
          consumer.positions.getD partition 0 := by
  have assigned (partition : Partition) (among : partition ∈ start) :
      broker.assigns consumer.group id partition := by
    have owned := (owns partition).mpr ((held partition).mp among)
    simpa [Broker.assigns, found] using owned
  have next {partition : Partition} {offset : Nat} (position : consumer.positions[partition]? = some offset) :=
    next_commit consumer member reads assigned stood position
  have keys (partition : Partition) :
      partition ∈ consumer.positions ↔ broker.topics.Holds topic partition := by
    rw [← held partition]
    exact reads.mem_iff
  have settled (partition : Partition) (holds : broker.topics.Holds topic partition) :
      (consumer.commit (records.map Record.mark) broker).2.next consumer.group partition =
        consumer.positions.getD partition 0 :=
    next (Std.ExtTreeMap.getElem?_eq_some_getD ((keys partition).mpr holds))
  have committed := commit_enrolled consumer (records.map Record.mark) member found
  have topics : (consumer.commit (records.map Record.mark) broker).2.topics = broker.topics := by
    rw [committed]
  refine ⟨by rw [committed], topics, ⟨roomy, ?_, fun _ _ => next, ?_⟩, settled⟩
  · rw [committed]
    exact ⟨id, _, member, Std.ExtTreeMap.getElem?_insert_self, owns, fun _ => keys⟩
  · intro partition holds
    rw [topics] at holds ⊢
    rw [settled partition holds]
    exact within partition holds

section Rounds

variable {reader : Consumer} {records : List Record} {later : Broker}

theorem fetch_eq (fetched : consumer.fetch topics = (records, reader)) :
    ∃ reached cursor, reader = { consumer with positions := reached, cursor } ∧
      Reads topics consumer.positions records reached := by
  have reads := consumer.fetch_reads topics
  obtain rfl : (consumer.fetch topics).2 = reader := congrArg Prod.snd fetched
  obtain rfl : (consumer.fetch topics).1 = records := congrArg Prod.fst fetched
  exact ⟨_, _, rfl, reads⟩

theorem Alone.next_eq (alone : consumer.Alone broker topic)
    (held : ∀ partition, partition ∈ consumer.positions ↔ broker.topics.Holds topic partition)
    (holds : broker.topics.Holds topic partition) :
    broker.next consumer.group partition = consumer.positions.getD partition 0 :=
  alone.stands partition _ (Std.ExtTreeMap.getElem?_eq_some_getD ((held partition).mpr holds))

/-- A round without records finds the topic read and committed to its end. -/
theorem Alone.rest (alone : consumer.Alone broker topic)
    (held : ∀ partition, partition ∈ consumer.positions ↔ broker.topics.Holds topic partition)
    (fetched : consumer.fetch broker.topics = ([], reader)) :
    reader.Alone broker topic ∧ ∀ partition, broker.topics.Holds topic partition →
      broker.next reader.group partition = (broker.topics.records partition).length ∧
      reader.positions[partition]? = some (broker.topics.records partition).length := by
  obtain ⟨reached, cursor, rfl, reads⟩ := fetch_eq fetched
  obtain rfl : reached = consumer.positions := by
    generalize start_eq : consumer.positions = start at reads
    cases reads
    rfl
  refine ⟨⟨alone.roomy, alone.enrolled, alone.stands, alone.within⟩, ?_⟩
  intro partition holds
  have position : consumer.positions[partition]? = some (consumer.positions.getD partition 0) :=
    Std.ExtTreeMap.getElem?_eq_some_getD ((held partition).mpr holds)
  have past := consumer.fetch_eq_nil broker.topics alone.roomy (congrArg Prod.fst fetched)
    ((held partition).mpr holds)
  have ended := Nat.le_antisymm (alone.within partition holds) (alone.next_eq held holds ▸ past)
  rw [← ended]
  exact ⟨rfl, alone.next_eq held holds ▸ position⟩

/-- A round takes off the backlog what it reads, and its messages are answered with records that are none. -/
theorem Alone.round (alone : consumer.Alone broker topic)
    (held : ∀ partition, partition ∈ consumer.positions ↔ broker.topics.Holds topic partition)
    (fetched : consumer.fetch broker.topics = (records, reader))
    (answered : Broker.Answered (Record.letters records) broker later) :
    let committed := reader.commit (records.map Record.mark) later
    committed.1 = .ok () ∧ committed.2.topics = later.topics ∧ reader.Alone committed.2 topic ∧
      committed.2.topics.unread topic (committed.2.next reader.group) + records.length ≤
        broker.topics.unread topic (broker.next consumer.group) + Record.letters records ∧
      committed.2.topics.unreadLetters topic (committed.2.next reader.group) + Record.letters records ≤
        broker.topics.unreadLetters topic (broker.next consumer.group) := by
  obtain ⟨reached, cursor, rfl, reads⟩ := fetch_eq fetched
  obtain ⟨id, group, member, found, owns, -⟩ := alone.enrolled
  have reading (weight : Except Failure Envelope → Nat) :
      broker.topics.backlog weight topic (broker.next consumer.group) =
        broker.topics.backlog weight topic (reached.getD · 0) +
          (records.map fun record => weight record.body).sum := by
    rw [Topics.backlog_congr fun partition holds => alone.next_eq held holds]
    exact Topics.backlog_reads reads fun partition member => (held partition).mp member
  have within (partition : Partition) (holds : broker.topics.Holds topic partition) :
      reached.getD partition 0 ≤ (broker.topics.records partition).length :=
    reads.within partition (alone.next_eq held holds ▸ alone.within partition holds)
  have kept : later.committed? = broker.committed? := by
    funext name partition
    simp [Broker.committed?, answered.groups]
  have next (partition : Partition) :
      later.next consumer.group partition = broker.next consumer.group partition := by
    rw [Broker.next, kept, Broker.next]
  let reader : Consumer := { consumer with positions := reached, cursor }
  obtain ⟨accepted, topics, again, settled⟩ := commit_alone reader alone.roomy member
    (answered.groups ▸ found) (fun partition => (owns partition).trans answered.holds.symm) reads
    (fun partition => (held partition).trans answered.holds.symm)
    (fun partition offset position => (next partition).trans (alone.stands partition offset position))
    (answered.within within)
  have gained := answered.unread topic (reached.getD · 0) within
  have weight := reading fun _ => 1
  have letters := reading Envelope.letters
  rw [List.map_const', List.sum_replicate_nat, Nat.mul_one] at weight
  have resumes (weight : Except Failure Envelope → Nat) :
      (reader.commit (records.map Record.mark) later).2.topics.backlog weight topic
        ((reader.commit (records.map Record.mark) later).2.next reader.group) =
      later.topics.backlog weight topic (reached.getD · 0) := by
    rw [topics, Topics.backlog_congr settled]
  refine ⟨accepted, topics, again, ?_, ?_⟩
  · unfold Topics.unread at gained ⊢
    rw [resumes, weight]
    omega
  · unfold Topics.unreadLetters at gained ⊢
    rw [resumes, letters]
    have same : (records.map fun record => Envelope.letters record.body).sum = Record.letters records := rfl
    omega

end Rounds

theorem owns_of_sole (group : Group) (topics : Topics) (topic : String) (id : Nat)
    (sole : group.members = [{ id := id, topics := [topic] }])
    (bounded : topics.partitionCount topic ≤ 0x7fffffff) (partition : Partition) :
    (group.rebalance topics).owns id partition ↔ topics.Holds topic partition := by
  have share : Group.share topics group.members id topic =
      (List.range (topics.partitionCount topic)).map fun (index : Nat) => ⟨topic, signed32 index⟩ := by
    have whole := Share.start_subscribers (topics.partitionCount topic) Nat.one_pos
    simp [Group.share, sole, Group.subscribers, Group.rank, Share.indices, whole, List.range_eq_range']
  have owned : (group.rebalance topics).owns id partition ↔
      partition ∈ Group.share topics group.members id topic := by
    simp [Group.owns, Group.assigned, Group.find?, Group.rebalance, sole]
  rw [owned, share, List.mem_map]
  constructor
  · rintro ⟨slot, among, rfl⟩
    have within := List.mem_range.mp among
    exact ⟨slot, within, by rw [signed32_of_lt (by omega)]⟩
  · rintro ⟨slot, within, rfl⟩
    exact ⟨slot, List.mem_range.mpr within, by rw [signed32_of_lt (by omega)]⟩

/-- Who joins a group without members for one topic is alone in it. -/
theorem alone_subscribe (id name : String) (maxRecords : Nat) (broker : Broker) (topic : String)
    (vacant : (broker.group name).members = [])
    (bounded : broker.topics.partitionCount topic ≤ 0x7fffffff)
    (within : ∀ partition, broker.topics.Holds topic partition →
      broker.next name partition ≤ (broker.topics.records partition).length) :
    ((Consumer.create id name maxRecords).subscribe [topic] broker).1.Alone
      ((Consumer.create id name maxRecords).subscribe [topic] broker).2 topic where
  roomy := Nat.lt_of_lt_of_le Nat.one_pos (Nat.le_max_right maxRecords 1)
  enrolled := by
    let enrolled := (broker.group name).enrol (broker.lastMember + 1) [topic]
    have sole : enrolled.members = [{ id := broker.lastMember + 1, topics := [topic] }] := by
      simp [enrolled, Group.enrol, Group.find?, vacant]
    refine ⟨broker.lastMember + 1, enrolled.rebalance broker.topics, rfl,
      Std.ExtTreeMap.getElem?_insert_self, owns_of_sole enrolled broker.topics topic _ sole bounded, ?_⟩
    intro current
    cases current
  stands := by
    intro partition offset position
    simp [subscribe, create] at position
  within := by
    intro partition holds
    rw [Broker.next, committed?_subscribe]
    exact within partition holds

end Consumer

end ChatRelay
