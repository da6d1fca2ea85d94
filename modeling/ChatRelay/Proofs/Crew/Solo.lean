import ChatRelay.Proofs.Cluster.Confinement
import ChatRelay.Proofs.Crew.Passing

/-! A loop that is alone in its group, and whose processor accepts all it is given, gets past the records of
each partition one after the other: none is left out and none comes twice. -/
namespace ChatRelay

open ConsumeLoop (Phase Event)

namespace Cluster

variable {cluster : Cluster} {name topic : String} {member : Nat}

/-- Who is alone in a group that reads one topic is assigned all of it, and nothing else. -/
theorem assigns_iff_of_sole (staffed : cluster.Staffed)
    (shared : (cluster.broker.group name).SharedOut cluster.broker.topics)
    (bounded : cluster.broker.topics.partitionCount topic ≤ 0x7fffffff)
    (confined : cluster.broker.Confined name topic) (there : cluster.groupOf? member = some name)
    (sole : ∀ other, cluster.groupOf? other = some name → other = member) :
    cluster.broker.assigns name member partition ↔
      ∃ slot : Nat, partition = ⟨topic, slot⟩ ∧ slot < cluster.broker.topics.partitionCount topic := by
  have ordered := staffed.ordered name
  obtain ⟨membership, enrolled, _⟩ := List.mem_map.mp ((staffed.member_iff name member).mpr there)
  have subscribed : membership.topics = [topic] := by
    cases found : cluster.broker.groups[name]? with
    | none => simp [Broker.group, Std.ExtTreeMap.getD_eq_getD_getElem?, found] at enrolled
    | some group =>
      refine (confined group found membership ?_).1
      simpa [Broker.group, Std.ExtTreeMap.getD_eq_getD_getElem?, found] using enrolled
  have followed : (cluster.broker.group name).follows topic :=
    List.any_eq_true.mpr ⟨membership, enrolled, by simp [subscribed]⟩
  constructor
  · intro assigned
    have reads := confined.assigns assigned
    rw [Broker.assigns_eq] at assigned
    obtain ⟨read, index⟩ := partition
    cases reads
    obtain ⟨subscribes, slot, falls, rfl⟩ := (shared.owns_iff ordered bounded).mp assigned
    exact ⟨slot, rfl, Group.lt_partitionCount subscribes falls⟩
  · rintro ⟨slot, rfl, within⟩
    obtain ⟨owner, subscribes, falls⟩ := ordered.exists_subscriber followed within
    obtain ⟨other, among, same, _⟩ := Group.mem_subscriberIds.mp subscribes
    have here : owner = member :=
      sole owner ((staffed.member_iff name owner).mp (List.mem_map.mpr ⟨other, among, same⟩))
    subst here
    rw [Broker.assigns_eq]
    exact (shared.owns_iff ordered bounded).mpr ⟨subscribes, slot, falls, rfl⟩

end Cluster

namespace Crew

variable {crew next : Crew} {member : Nat} {worker after : Worker} {task stood : Task} {act : Act}
variable {event : Event} {group topic : String} {partition : Partition}

/-- A member has been given the records of each partition up to where it stands, each once, and it has got
past all that are not pending. What it does not hold nobody ever committed. -/
structure Steady (crew : Crew) (topic : String) (worker : Worker) (task : Task) : Prop where
  untroubled : task.phase ≠ .failed
  given : ∀ partition,
    crew.passed worker.consumer.group partition ++ task.phase.pending.filter (·.partition = partition) <+:
        crew.cluster.broker.topics.records partition ∧
      (crew.passed worker.consumer.group partition ++
          task.phase.pending.filter (·.partition = partition)).length =
        worker.consumer.positions.getD partition 0
  uncommitted : ∀ partition, partition ∉ worker.consumer.positions →
    crew.cluster.broker.committed? worker.consumer.group partition = none
  held : ∀ partition ∈ worker.consumer.positions, ∃ slot : Nat, partition = ⟨topic, slot⟩ ∧
    slot < crew.cluster.broker.topics.partitionCount topic

theorem Steady.mono (steady : crew.Steady topic worker task)
    (within : crew.cluster.broker.topics.Within next.cluster.broker.topics)
    (counts : crew.cluster.broker.topics.partitionCount topic ≤
      next.cluster.broker.topics.partitionCount topic)
    (passed : next.passed worker.consumer.group = crew.passed worker.consumer.group)
    (committed : next.cluster.broker.committed? worker.consumer.group =
      crew.cluster.broker.committed? worker.consumer.group) : next.Steady topic worker task where
  untroubled := steady.untroubled
  given partition := by
    obtain ⟨read, length⟩ := steady.given partition
    rw [passed]
    exact ⟨read.trans (within.records partition), length⟩
  uncommitted partition free := by
    rw [committed]
    exact steady.uncommitted partition free
  held partition holds := by
    obtain ⟨slot, same, below⟩ := steady.held partition holds
    exact ⟨slot, same, Nat.lt_of_lt_of_le below counts⟩

theorem Steady.advance (steady : crew.Steady topic worker task)
    (reads : Reads crew.cluster.broker.topics worker.consumer.positions brought after.consumer.positions)
    (own : after.consumer.group = worker.consumer.group)
    (topics : next.cluster.broker.topics = crew.cluster.broker.topics)
    (untroubled : stood.phase ≠ .failed)
    (whole : ∀ partition,
      next.passed worker.consumer.group partition ++ stood.phase.pending.filter (·.partition = partition) =
        crew.passed worker.consumer.group partition ++ task.phase.pending.filter (·.partition = partition) ++
          brought.filter (·.partition = partition))
    (uncommitted : ∀ partition, partition ∉ worker.consumer.positions →
      next.cluster.broker.committed? worker.consumer.group partition =
        crew.cluster.broker.committed? worker.consumer.group partition) :
    next.Steady topic after stood := by
  have same (partition : Partition) :
      partition ∈ after.consumer.positions ↔ partition ∈ worker.consumer.positions := by
    simp only [Std.ExtTreeMap.mem_iff_isSome_getElem?, Option.isSome_iff_exists]
    constructor
    · rintro ⟨last, reached⟩
      obtain ⟨first, held, _⟩ := reads.started reached
      exact ⟨first, held⟩
    · rintro ⟨first, held⟩
      exact reads.reaches held
  refine ⟨untroubled, fun partition => ?_, fun partition free => ?_, fun partition holds => ?_⟩
  · rw [own, whole, topics]
    exact reads.continues (steady.given partition)
  · rw [same] at free
    rw [own, uncommitted partition free]
    exact steady.uncommitted partition free
  · rw [topics]
    exact steady.held partition ((same partition).mp holds)

/-- A loop comes to no failure by itself. -/
theorem untroubled_of_leads {phase after : Phase} (leads : phase.Leads event after)
    (accepted : ∀ failure, event ≠ .processed (.error failure)) : after ≠ .failed := by
  cases leads with
  | refused => exact absurd rfl (accepted _)
  | @committed batch answer => cases answer <;> simp [Phase.proceed]
  | @rewound answer => cases answer <;> simp [Phase.proceed]
  | cancelled | unanswered | idle | polled | skipped | processed => simp

/-- An act commits nothing that the member does not hold. -/
theorem uncommitted_take (sound : crew.cluster.Sound) (taken : crew.take? member act = some next)
    (present : crew.cluster.workers[member]? = some worker) (free : partition ∉ worker.consumer.positions) :
    next.cluster.broker.committed? worker.consumer.group partition =
      crew.cluster.broker.committed? worker.consumer.group partition := by
  obtain ⟨_, _, _, _, _, _, _, _, cluster, _, _⟩ := take?_eq_some taken
  rw [cluster]
  split
  · rfl
  · rename_i operation _
    rcases Cluster.committed?_step sound (.operate member operation) worker.consumer.group partition with
        unchanged | ⟨_, position, moved, ⟨other, found, _, _, _, held⟩, _⟩
    · exact unchanged
    · cases moved
      cases present.symm.trans found
      exact absurd (Std.ExtTreeMap.mem_iff_isSome_getElem?.mpr (by simp [held])) free

theorem reads_take (taken : crew.take? member act = some next)
    (present : crew.cluster.workers[member]? = some worker) (unwound : act ≠ .rewind)
    (answered : act.event? worker crew.cluster.broker = some event)
    (found : next.cluster.workers[member]? = some after) :
    Reads crew.cluster.broker.topics worker.consumer.positions event.brought after.consumer.positions ∧
      after.consumer.group = worker.consumer.group := by
  obtain ⟨_, _, _, _, _, also, _, _, cluster, _, _⟩ := take?_eq_some taken
  cases present.symm.trans also
  rw [cluster] at found
  cases act with
  | cancel | skip | process =>
    cases answered
    cases present.symm.trans found
    exact ⟨.done, rfl⟩
  | poll =>
    simp only [Act.event?] at answered
    split at answered
    · cases answered
    · rename_i current
      cases answered
      simp only [Act.operation?, Cluster.step, present, Std.ExtTreeMap.getElem?_insert_self, Worker.perform,
        current, Option.some.injEq] at found
      subst found
      exact ⟨worker.consumer.fetch_reads crew.cluster.broker.topics, rfl⟩
  | commit =>
    cases answered
    simp only [Act.operation?, Cluster.step, present, Std.ExtTreeMap.getElem?_insert_self, Worker.perform,
      Option.some.injEq] at found
    subst found
    exact ⟨.done, rfl⟩
  | rewind => exact absurd rfl unwound

/-- A member whose processor accepts what it is given keeps steady. -/
theorem Steady.take (steady : crew.Steady topic worker task) (sound : crew.cluster.Sound)
    (taken : crew.take? member act = some next) (present : crew.cluster.workers[member]? = some worker)
    (was : crew.tasks[member]? = some task) (accepted : ∀ failure, act ≠ .process (.error failure))
    (found : next.cluster.workers[member]? = some after) (is : next.tasks[member]? = some stood) :
    next.Steady topic after stood := by
  obtain ⟨_, _, event, phase, again, also, answered, allowed, cluster, tasks, history⟩ := take?_eq_some taken
  cases was.symm.trans again
  cases present.symm.trans also
  rw [tasks, Std.ExtTreeMap.getElem?_insert_self] at is
  cases is
  have leads := Phase.after_eq_some_iff.mp allowed
  have pleasant : ∀ failure, event ≠ .processed (.error failure) := by
    rintro failure rfl
    exact accepted failure (Act.eq_process answered)
  have unwound : act ≠ .rewind := by
    rintro rfl
    cases answered
    generalize now : task.phase = current at leads
    cases leads
    exact steady.untroubled now
  obtain ⟨reads, own⟩ := reads_take taken present unwound answered found
  have untroubled := untroubled_of_leads leads pleasant
  rw [← Task.phase_next task event phase] at untroubled
  refine steady.advance reads own (topics_take taken) untroubled (fun partition => ?_)
    fun partition free => uncommitted_take sound taken present free
  have conserved :=
    pending_conserved ⟨worker.consumer.group, member, (task.next event phase).polls⟩ leads pleasant
  dsimp only at conserved
  rw [passed_of_history history, Task.phase_next, List.append_assoc, ← List.filter_append, conserved,
    List.filter_append, List.append_assoc]

/-- A member that is alone loses nothing when it catches up, and starts at the beginning with what is new. -/
theorem Steady.synchronise (steady : crew.Steady topic worker task) (sound : crew.cluster.Sound)
    (staffed : crew.cluster.Staffed)
    (shared : (crew.cluster.broker.group worker.consumer.group).SharedOut crew.cluster.broker.topics)
    (bounded : crew.cluster.broker.topics.partitionCount topic ≤ 0x7fffffff)
    (confined : crew.cluster.broker.Confined worker.consumer.group topic)
    (sole : ∀ other, crew.cluster.groupOf? other = some worker.consumer.group → other = member)
    (present : crew.cluster.workers[member]? = some worker)
    (found : (crew.cluster.step (.operate member .synchronise)).workers[member]? = some after) :
    Steady { crew with cluster := crew.cluster.step (.operate member .synchronise) } topic after task := by
  have moved : (crew.cluster.step (.operate member .synchronise)).broker = crew.cluster.broker := by
    simp only [Cluster.step, present, Worker.perform]
    split <;> rfl
  simp only [Cluster.step, present, Std.ExtTreeMap.getElem?_insert_self, Worker.perform] at found
  have identity := (sound member worker present).1
  cases synced : worker.consumer.synchronise crew.cluster.broker with
  | none =>
    simp only [synced, Option.some.injEq] at found
    subst found
    refine steady.mono ?_ (Nat.le_of_eq ?_) rfl ?_ <;> rw [moved]
    exact .refl _
  | some caught =>
    obtain ⟨change, consumer⟩ := caught
    simp only [synced, Option.some.injEq] at found
    subst found
    obtain ⟨_, _, _, _, same⟩ := Consumer.synchronise_eq_some synced
    have own : consumer.group = worker.consumer.group := by rw [same]
    have there : crew.cluster.groupOf? member = some worker.consumer.group :=
      (Cluster.groupOf?_eq_some_iff present).mpr rfl
    have whole (partition : Partition) :
        crew.cluster.broker.assigns worker.consumer.group member partition ↔ ∃ slot : Nat,
          partition = ⟨topic, slot⟩ ∧ slot < crew.cluster.broker.topics.partitionCount topic :=
      Cluster.assigns_iff_of_sole staffed shared bounded confined there sole
    have kept (partition : Partition) (holds : partition ∈ worker.consumer.positions) :=
      (whole partition).mpr (steady.held partition holds)
    have held := Consumer.mem_positions_synchronise synced identity
    have stands := Consumer.getD_synchronise synced identity kept steady.uncommitted
    have passed : passed { crew with cluster := crew.cluster.step (.operate member .synchronise) } =
        crew.passed := rfl
    refine ⟨steady.untroubled, fun partition => ?_, fun partition free => ?_, fun partition holds => ?_⟩
    · rw [passed, own, stands, moved]
      exact steady.given partition
    · rw [held] at free
      rw [own, moved]
      exact steady.uncommitted partition fun holds => free (kept partition holds)
    · rw [held, whole] at holds
      rw [moved]
      exact holds

theorem Steady.of_pending (steady : crew.Steady topic worker task) (pending : record ∈ task.phase.pending) :
    ∃ slot : Nat, record.partition = ⟨topic, slot⟩ ∧
      record ∈ crew.cluster.broker.topics.records record.partition := by
  obtain ⟨given, length⟩ := steady.given record.partition
  have among : record ∈ task.phase.pending.filter (·.partition = record.partition) := by
    simpa using pending
  have somewhere : record.partition ∈ worker.consumer.positions := by
    by_contra free
    rw [Std.ExtTreeMap.getD_eq_fallback free, List.length_append] at length
    have some := List.length_pos_of_mem among
    omega
  obtain ⟨slot, same, _⟩ := steady.held record.partition somewhere
  exact ⟨slot, same, given.subset (List.mem_append_right _ among)⟩

/-- Nobody has read for the group. -/
structure Unused (crew : Crew) (group : String) : Prop where
  passed : ∀ partition, crew.passed group partition = []
  committed : ∀ partition, crew.cluster.broker.committed? group partition = none
  members : ∀ member, crew.cluster.groupOf? member ≠ some group

/-- One loop at most reads for the group, and it keeps steady. -/
structure Solo (crew : Crew) (group topic : String) : Prop where
  passed : ∀ partition, crew.passed group partition <+: crew.cluster.broker.topics.records partition
  sole : ∀ first second, crew.cluster.groupOf? first = some group →
    crew.cluster.groupOf? second = some group → first = second
  steady : ∀ (member : Nat) worker task, crew.cluster.workers[member]? = some worker →
    worker.consumer.group = group → crew.tasks[member]? = some task → crew.Steady topic worker task

theorem unused_empty (group : String) : ({} : Crew).Unused group where
  passed partition := rfl
  committed partition := by simp [Broker.committed?]
  members member := by simp [Cluster.groupOf?]

theorem Unused.step (unused : crew.Unused group) (sound : crew.cluster.Sound) {move : Move}
    (joins : ∀ id maxRecords topics, move ≠ .join id group maxRecords topics) :
    (crew.step move).Unused group := by
  obtain ⟨passed, committed⟩ := elsewhere_step sound move fun member _ _ => unused.members member
  refine ⟨fun partition => ?_, fun partition => ?_, fun member there => ?_⟩
  · rw [passed]
    exact unused.passed partition
  · rw [committed]
    exact unused.committed partition
  · exact unused.members member (groupOf?_of_step sound joins there)

theorem Unused.solo (unused : crew.Unused group) (topic : String) : crew.Solo group topic where
  passed partition := by
    rw [unused.passed]
    exact List.nil_prefix
  sole first _ there := absurd there (unused.members first)
  steady member worker _ found own :=
    absurd ((Cluster.groupOf?_eq_some_iff found).mpr own) (unused.members member)

theorem Unused.join (unused : crew.Unused group) (sound : crew.cluster.Sound) (id : String) (maxRecords : Nat)
    (topic : String) : (crew.step (.join id group maxRecords [topic])).Solo group topic := by
  obtain ⟨passed, committed⟩ := elsewhere_step sound (.join id group maxRecords [topic])
    fun member _ _ => unused.members member
  have fresh (member : Nat)
      (there : (crew.step (.join id group maxRecords [topic])).cluster.groupOf? member = some group) :
      member = crew.cluster.broker.lastMember + 1 := by
    have there : (crew.cluster.step (.join id group maxRecords [topic])).groupOf? member = some group := there
    rw [sound.groupOf?_step] at there
    dsimp only at there
    split at there
    · assumption
    · exact absurd there (unused.members member)
  refine ⟨fun partition => ?_, fun first second one two => ?_, fun member worker task found own is => ?_⟩
  · rw [passed, unused.passed]
    exact List.nil_prefix
  · rw [fresh first one, fresh second two]
  · rcases member_step sound _ found is with
        ⟨was, _⟩ | ⟨_, moved, _⟩ | ⟨_, moved, _⟩ | ⟨_, _, _, _, joined, rfl, rfl, rfl⟩
    · exact absurd ((Cluster.groupOf?_eq_some_iff was).mpr own) (unused.members member)
    · cases moved
    · cases moved
    · cases joined
      refine ⟨by simp, fun partition => ?_, fun partition _ => ?_, fun partition holds => ?_⟩
      · simp [passed, unused.passed, Phase.pending, Consumer.create]
      · simp [committed, unused.committed, Consumer.create]
      · simp [Consumer.create] at holds

theorem exists_of_take (sound : crew.cluster.Sound) (taken : crew.take? member act = some next)
    (there : crew.cluster.groupOf? member = some group) :
    ∃ worker task, next.cluster.workers[member]? = some worker ∧ worker.consumer.group = group ∧
      next.tasks[member]? = some task := by
  obtain ⟨task, worker, event, phase, _, present, _, _, cluster, tasks, _⟩ := take?_eq_some taken
  have own : worker.consumer.group = group := (Cluster.groupOf?_eq_some_iff present).mp there
  rw [cluster, tasks]
  split
  · exact ⟨worker, task.next event phase, present, own, Std.ExtTreeMap.getElem?_insert_self⟩
  · rename_i operation _
    have moved := sound.worker?_step present (.operate member operation)
    simp only [↓reduceIte] at moved
    have identity := worker.identity_perform crew.cluster.broker operation (sound member worker present).1
    exact ⟨_, task.next event phase, moved, identity.2.trans own, Std.ExtTreeMap.getElem?_insert_self⟩

section Step

variable (solo : crew.Solo group topic) (sound : crew.cluster.Sound) (staffed : crew.cluster.Staffed)
variable (shared : (crew.cluster.broker.group group).SharedOut crew.cluster.broker.topics)
variable (bounded : crew.cluster.broker.topics.partitionCount topic ≤ 0x7fffffff)
variable (confined : crew.cluster.broker.Confined group topic) {move : Move}
variable (joins : ∀ id maxRecords topics, move ≠ .join id group maxRecords topics)
variable (accepted : ∀ member failure, move = .take member (.process (.error failure)) →
  crew.cluster.groupOf? member ≠ some group)
include solo sound staffed shared bounded confined joins accepted

theorem Solo.steady_step (found : (crew.step move).cluster.workers[member]? = some worker)
    (own : worker.consumer.group = group) (is : (crew.step move).tasks[member]? = some task) :
    (crew.step move).Steady topic worker task := by
  have there : crew.cluster.groupOf? member = some group :=
    groupOf?_of_step sound joins ((Cluster.groupOf?_eq_some_iff found).mpr own)
  rcases member_step sound move found is with
      ⟨was, stood, stayed⟩ | ⟨before, rfl, present, stood, _, _, stepped⟩ | ⟨act, rfl, taken⟩ |
        ⟨id, name, maxRecords, topics, rfl, _, _, rfl⟩
  · have steady := solo.steady member worker task was own stood
    rcases crew.act_or_elsewhere group move with ⟨other, act, moved, also⟩ | elsewhere
    · cases solo.sole other member also there
      rw [stayed act moved]
      exact steady
    · obtain ⟨passed, committed⟩ := elsewhere_step sound move elsewhere
      subst own
      exact steady.mono (crew.within_step move) (crew.partitionCount_step move topic) passed committed
  · have same : before.consumer.group = group := (Cluster.groupOf?_eq_some_iff present).mp there
    subst same
    rw [stepped] at found ⊢
    exact (solo.steady member before task present rfl stood).synchronise sound staffed shared bounded confined
      (fun other also => solo.sole other member also there) present found
  · obtain ⟨before, prior, _, _, stood, present, _⟩ := take?_eq_some taken
    have same : prior.consumer.group = group := (Cluster.groupOf?_eq_some_iff present).mp there
    refine (solo.steady member prior before present same stood).take sound taken present stood ?_ found is
    rintro failure rfl
    exact accepted member failure rfl there
  · exact absurd rfl (own ▸ joins id maxRecords topics)

theorem Solo.step : (crew.step move).Solo group topic := by
  refine ⟨fun partition => ?_, fun first second one two => ?_, fun _ _ _ found own is =>
    solo.steady_step sound staffed shared bounded confined joins accepted found own is⟩
  · have kept (same : (crew.step move).passed group = crew.passed group) :
        (crew.step move).passed group partition <+:
          (crew.step move).cluster.broker.topics.records partition := by
      rw [same]
      exact (solo.passed partition).trans ((crew.within_step move).records partition)
    rcases crew.act_or_elsewhere group move with ⟨member, act, rfl, there⟩ | elsewhere
    · rcases crew.step_take member act with same | taken
      · exact kept (by rw [same])
      · obtain ⟨worker, task, found, own, is⟩ := exists_of_take sound taken there
        have steady := solo.steady_step sound staffed shared bounded confined joins accepted found own is
        subst own
        exact (List.prefix_append _ _).trans (steady.given partition).1
    · exact kept (elsewhere_step sound move elsewhere).1
  · exact solo.sole first second (groupOf?_of_step sound joins one) (groupOf?_of_step sound joins two)

end Step

end Crew
end ChatRelay
