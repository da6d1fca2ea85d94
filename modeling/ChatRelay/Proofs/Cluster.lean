import ChatRelay.Proofs.Consumer.Offsets
import ChatRelay.Proofs.Consumer.Reading

/-! Any number of consumers, of any groups, on one broker. They take turns in any order, one operation at a
time; a poll catches up with the group as often as there is a new generation, and fetches then. -/
namespace ChatRelay

/-- A consumer that has subscribed, with the records that its latest poll returned. -/
structure Worker where
  consumer : Consumer
  batch : List Record := []

namespace Worker

inductive Operation where
  | subscribe (topics : List String)
  /-- Catches up with a new generation. -/
  | synchronise
  /-- Fetches the next batch, if there is no new generation. -/
  | fetch
  /-- Commits the batch of the latest poll. -/
  | commit
  | rewind

def perform (worker : Worker) (broker : Broker) : Operation → Worker × Broker
  | .subscribe topics =>
    let (consumer, broker) := worker.consumer.subscribe topics broker
    ({ worker with consumer }, broker)
  | .synchronise =>
    match worker.consumer.synchronise broker with
    | none => (worker, broker)
    | some (_, consumer) => ({ consumer }, broker)
  | .fetch =>
    match worker.consumer.synchronise broker with
    | some _ => (worker, broker)
    | none =>
      let (batch, consumer) := worker.consumer.fetch broker.topics
      ({ consumer, batch }, broker)
  | .commit => (worker, (worker.consumer.commit (worker.batch.map Record.mark) broker).2)
  | .rewind => ({ consumer := worker.consumer.rewind broker }, broker)

/-- The latest poll returned a record of the partition. -/
def Carries (worker : Worker) (partition : Partition) : Prop :=
  ∃ record ∈ worker.batch, record.partition = partition

instance (worker : Worker) (partition : Partition) : Decidable (worker.Carries partition) :=
  inferInstanceAs (Decidable (∃ record ∈ worker.batch, record.partition = partition))

/-- The batch of the latest poll leads to where the worker stands. -/
def UpToDate (worker : Worker) (topics : Topics) : Prop :=
  ∃ start, Reads topics start worker.batch worker.consumer.positions

theorem UpToDate.position {worker : Worker} (upToDate : worker.UpToDate topics)
    (carried : worker.Carries partition) : ∃ next, worker.consumer.positions[partition]? = some next := by
  obtain ⟨start, reads⟩ := upToDate
  obtain ⟨record, member, rfl⟩ := carried
  obtain ⟨first, held⟩ := reads.held member
  exact reads.reaches held

section Operations

variable (worker : Worker) (broker : Broker) (operation : Operation)
variable {id last : Nat} {partition : Partition}

/-- An operation of a member leaves it the same member of the same group. -/
theorem identity_perform (present : worker.consumer.member = some id) :
    (worker.perform broker operation).1.consumer.member = some id ∧
      (worker.perform broker operation).1.consumer.group = worker.consumer.group := by
  cases operation with
  | subscribe topics => simp [perform, Consumer.subscribe, present]
  | synchronise =>
    simp only [perform]
    split
    · exact ⟨present, rfl⟩
    · rename_i synced
      obtain ⟨_, _, _, _, rfl⟩ := Consumer.synchronise_eq_some synced
      exact ⟨present, rfl⟩
  | fetch =>
    simp only [perform]
    split <;> exact ⟨present, rfl⟩
  | commit => exact ⟨present, rfl⟩
  | rewind => exact ⟨present, rfl⟩

theorem topics_perform : (worker.perform broker operation).2.topics = broker.topics := by
  cases operation with
  | subscribe topics => rfl
  | synchronise => simp only [perform]; split <;> rfl
  | fetch => simp only [perform]; split <;> rfl
  | commit =>
    simp only [perform, Consumer.commit]
    split
    · rfl
    · split <;> rfl
  | rewind => rfl

theorem lastMember_perform (present : worker.consumer.member = some id) (given : id ≤ broker.lastMember) :
    (worker.perform broker operation).2.lastMember = broker.lastMember := by
  cases operation with
  | subscribe topics => simp [perform, Consumer.subscribe, present, Nat.max_eq_left given]
  | synchronise => simp only [perform]; split <;> rfl
  | fetch => simp only [perform]; split <;> rfl
  | commit => exact worker.consumer.lastMember_commit _ broker
  | rewind => rfl

/-- Committed offsets move by commits only. -/
theorem committed?_perform (other : operation ≠ .commit) :
    (worker.perform broker operation).2.committed? = broker.committed? := by
  cases operation with
  | subscribe topics => simp [perform]
  | synchronise => simp only [perform]; split <;> rfl
  | fetch => simp only [perform]; split <;> rfl
  | commit => exact absurd rfl other
  | rewind => rfl

theorem upToDate_perform (upToDate : worker.UpToDate broker.topics) :
    (worker.perform broker operation).1.UpToDate broker.topics := by
  cases operation with
  | subscribe topics => exact upToDate
  | synchronise =>
    simp only [perform]
    split
    · exact upToDate
    · exact ⟨_, .done⟩
  | fetch =>
    simp only [perform]
    split
    · exact upToDate
    · exact ⟨_, worker.consumer.fetch_reads broker.topics⟩
  | commit => exact upToDate
  | rewind => exact ⟨_, .done⟩

theorem current_perform_synchronise :
    (worker.perform broker .synchronise).1.consumer.synchronise (worker.perform broker .synchronise).2 =
      none := by
  simp only [perform]
  split
  · assumption
  · rename_i synced
    exact Consumer.synchronise_again synced

/-- A worker that catches up keeps its place or takes up what is committed. -/
theorem position_perform_synchronise (present : worker.consumer.member = some id)
    (position : (worker.perform broker .synchronise).1.consumer.positions[partition]? = some last) :
    worker.consumer.positions[partition]? = some last ∨
      last = (broker.committed? worker.consumer.group partition).getD 0 := by
  simp only [perform] at position
  split at position
  · exact .inl position
  · rename_i synced
    rw [Consumer.position_synchronise synced present] at position
    split at position
    · cases held : worker.consumer.positions[partition]? with
      | none => exact .inr (by simpa [held, eq_comm] using position)
      | some first => exact .inl (by simpa [held] using position)
    · cases position

theorem position_perform_rewind
    (position : (worker.perform broker .rewind).1.consumer.positions[partition]? = some last) :
    last = (broker.committed? worker.consumer.group partition).getD 0 := by
  simp only [perform, Consumer.position_rewind, Option.map_eq_some_iff] at position
  obtain ⟨_, _, rfl⟩ := position
  rfl

/-- Wherever an operation leaves a worker, it moved on from where it stood, or took up what is committed. -/
theorem position_perform (present : worker.consumer.member = some id)
    (position : (worker.perform broker operation).1.consumer.positions[partition]? = some last) :
    (∃ first, worker.consumer.positions[partition]? = some first ∧ first ≤ last) ∨
      last = (broker.committed? worker.consumer.group partition).getD 0 := by
  cases operation with
  | subscribe topics => exact .inl ⟨last, position, Nat.le_refl _⟩
  | synchronise =>
    rcases worker.position_perform_synchronise broker present position with held | fresh
    · exact .inl ⟨last, held, Nat.le_refl _⟩
    · exact .inr fresh
  | fetch =>
    simp only [perform] at position
    split at position
    · exact .inl ⟨last, position, Nat.le_refl _⟩
    · exact .inl ((worker.consumer.fetch_reads broker.topics).started position)
  | commit => exact .inl ⟨last, position, Nat.le_refl _⟩
  | rewind => exact .inr (worker.position_perform_rewind broker position)

/-- A commit moves the partitions that were in the batch and are assigned now, to where the worker stands. -/
theorem committed?_perform_commit (present : worker.consumer.member = some id)
    (upToDate : worker.UpToDate broker.topics) (group : String) (partition : Partition) :
    (worker.perform broker .commit).2.committed? group partition =
      if group = worker.consumer.group ∧ broker.assigns group id partition ∧ worker.Carries partition then
        worker.consumer.positions[partition]?
      else broker.committed? group partition := by
  have ⟨start, reads⟩ := upToDate
  simp only [perform, Consumer.committed?_commit, reads.latest]
  by_cases carried : worker.Carries partition
  · have read : ∃ record ∈ worker.batch, record.partition = partition := carried
    obtain ⟨next, position⟩ := upToDate.position carried
    simp [read, position, present, Worker.Carries]
  · have unread : ¬ ∃ record ∈ worker.batch, record.partition = partition := carried
    simp [unread, Worker.Carries]

end Operations
end Worker

/-- The members are known by their numbers. -/
structure Cluster where
  broker : Broker := {}
  workers : Std.ExtTreeMap Nat Worker := ∅

namespace Cluster

inductive Move where
  | createTopic (topic : String) (partitions : Nat)
  | failPublishes (count : Nat)
  | append (partition : Partition) (data : Bytes)
  /-- A new consumer subscribes. -/
  | join (id group : String) (maxRecords : Nat) (topics : List String)
  | operate (member : Nat) (operation : Worker.Operation)
  /-- A consumer is dropped. -/
  | leave (member : Nat)

/-- One move; a member that is not there does nothing. -/
def step (cluster : Cluster) : Move → Cluster
  | .createTopic topic partitions =>
    { cluster with broker := cluster.broker.createTopic topic partitions }
  | .failPublishes count => { cluster with broker := cluster.broker.failPublishes count }
  | .append partition data => { cluster with broker := (cluster.broker.append partition data).2 }
  | .join id group maxRecords topics =>
    let (consumer, broker) := (Consumer.create id group maxRecords).subscribe topics cluster.broker
    { broker, workers := cluster.workers.insert broker.lastMember { consumer } }
  | .operate member operation =>
    match cluster.workers[member]? with
    | none => cluster
    | some worker =>
      let (worker, broker) := worker.perform cluster.broker operation
      { broker, workers := cluster.workers.insert member worker }
  | .leave member =>
    match cluster.workers[member]? with
    | none => cluster
    | some worker =>
      { broker := worker.consumer.leave cluster.broker, workers := cluster.workers.erase member }

def run (cluster : Cluster) (moves : List Move) : Cluster := moves.foldl step cluster

def after (moves : List Move) : Cluster := run {} moves

/-- Where a group resumes a partition. -/
def committed (cluster : Cluster) (group : String) (partition : Partition) : Nat :=
  (cluster.broker.committed? group partition).getD 0

variable {cluster : Cluster} {move : Move} {moves more : List Move}
variable {member next : Nat} {worker : Worker} {group : String} {partition : Partition}

theorem after_append (moves more : List Move) : after (moves ++ more) = (after moves).run more := by
  simp [after, run]

@[simp] theorem after_concat (moves : List Move) (move : Move) :
    after (moves ++ [move]) = (after moves).step move := by
  simp [after, run]

theorem run_induct {holds : Cluster → Prop}
    (kept : ∀ cluster move, holds cluster → holds (cluster.step move))
    (first : holds cluster) (moves : List Move) : holds (cluster.run moves) := by
  induction moves generalizing cluster with
  | nil => exact first
  | cons move moves ih => exact ih (kept cluster move first)

/-- Where the workers after a move come from. -/
theorem worker_step (found : (cluster.step move).workers[member]? = some worker) :
    cluster.workers[member]? = some worker ∨
    (∃ operation before, move = .operate member operation ∧ cluster.workers[member]? = some before ∧
      worker = (before.perform cluster.broker operation).1) ∨
    (∃ id group maxRecords topics, move = .join id group maxRecords topics ∧
      member = cluster.broker.lastMember + 1 ∧
      worker = { consumer := { Consumer.create id group maxRecords with member := some member } }) := by
  cases move with
  | createTopic topic partitions => exact .inl found
  | failPublishes count => exact .inl found
  | append partition data => exact .inl found
  | join id group maxRecords topics =>
    simp only [step, Consumer.subscribe, Consumer.create, Option.getD_none] at found
    rw [Nat.max_eq_right (Nat.le_succ _), Std.ExtTreeMap.getElem?_insert] at found
    split at found
    · rename_i same
      have same := Std.LawfulEqCmp.eq_of_compare same
      subst same
      cases found
      exact .inr (.inr ⟨id, group, maxRecords, topics, rfl, rfl, rfl⟩)
    · exact .inl found
  | operate other operation =>
    cases present : cluster.workers[other]? with
    | none => exact .inl (by simpa [step, present] using found)
    | some before =>
      simp only [step, present, Std.ExtTreeMap.getElem?_insert] at found
      split at found
      · rename_i same
        have same := Std.LawfulEqCmp.eq_of_compare same
        subst same
        cases found
        exact .inr (.inl ⟨operation, before, rfl, present, rfl⟩)
      · exact .inl found
  | leave other =>
    cases present : cluster.workers[other]? with
    | none => exact .inl (by simpa [step, present] using found)
    | some before =>
      simp only [step, present, Std.ExtTreeMap.getElem?_erase] at found
      split at found
      · cases found
      · exact .inl found

/-- Topics change when one is created or grows, and when a record is appended. -/
theorem topics_step (cluster : Cluster) (move : Move) :
    (cluster.step move).broker.topics =
      match move with
      | .createTopic topic partitions => (cluster.broker.createTopic topic partitions).topics
      | .append partition data => (cluster.broker.append partition data).2.topics
      | _ => cluster.broker.topics := by
  cases move with
  | operate member operation =>
    simp only [step]
    split
    · rfl
    · rename_i worker _
      exact worker.topics_perform cluster.broker operation
  | leave member =>
    simp only [step]
    split
    · rfl
    · unfold Consumer.leave
      split <;> rfl
  | createTopic | append | failPublishes | join => rfl

theorem within_step (cluster : Cluster) (move : Move) :
    cluster.broker.topics.Within (cluster.step move).broker.topics := by
  rw [topics_step]
  split
  · exact cluster.broker.within_createTopic _ _
  · exact cluster.broker.within_append _ _
  · exact .refl _

/-- Each worker is known by its own number, which was given out, and stands where its batch leads. -/
def Sound (cluster : Cluster) : Prop :=
  ∀ (member : Nat) (worker : Worker), cluster.workers[member]? = some worker →
    worker.consumer.member = some member ∧ member ≤ cluster.broker.lastMember ∧
      worker.UpToDate cluster.broker.topics

/-- Only who joins takes a number, the next one. -/
theorem Sound.lastMember_step (sound : cluster.Sound) (move : Move) :
    (cluster.step move).broker.lastMember =
      match move with
      | .join .. => cluster.broker.lastMember + 1
      | _ => cluster.broker.lastMember := by
  cases move with
  | createTopic topic partitions => exact cluster.broker.lastMember_createTopic topic partitions
  | failPublishes count => rfl
  | append partition data => exact cluster.broker.lastMember_append partition data
  | join id group maxRecords topics => exact Nat.max_eq_right (Nat.le_succ _)
  | operate member operation =>
    simp only [Cluster.step]
    split
    · rfl
    · rename_i worker found
      obtain ⟨present, given, _⟩ := sound member worker found
      exact worker.lastMember_perform cluster.broker operation present given
  | leave member =>
    simp only [Cluster.step]
    split
    · rfl
    · rename_i worker _
      exact worker.consumer.lastMember_leave cluster.broker

theorem Sound.lastMember_le (sound : cluster.Sound) (move : Move) :
    cluster.broker.lastMember ≤ (cluster.step move).broker.lastMember := by
  rw [sound.lastMember_step]
  split <;> omega

theorem Sound.step (sound : cluster.Sound) (move : Move) : (cluster.step move).Sound := by
  intro member worker found
  have within := cluster.within_step move
  rcases worker_step found with
      was | ⟨operation, before, _, was, rfl⟩ | ⟨id, group, maxRecords, topics, rfl, rfl, rfl⟩
  · obtain ⟨present, given, start, reads⟩ := sound member worker was
    exact ⟨present, Nat.le_trans given (sound.lastMember_le move), start, reads.mono within⟩
  · obtain ⟨present, given, upToDate⟩ := sound member before was
    obtain ⟨start, reads⟩ := before.upToDate_perform cluster.broker operation upToDate
    exact ⟨(before.identity_perform cluster.broker operation present).1,
      Nat.le_trans given (sound.lastMember_le move), start, reads.mono within⟩
  · exact ⟨rfl, Nat.le_max_right _ _, ∅, .done⟩

theorem Sound.run (sound : cluster.Sound) (moves : List Move) : (cluster.run moves).Sound :=
  run_induct (fun _ move sound => sound.step move) sound moves

theorem sound_after (moves : List Move) : (after moves).Sound :=
  Sound.run (fun _ _ found => by simp at found) moves

theorem Sound.worker?_step (sound : cluster.Sound) (found : cluster.workers[member]? = some worker)
    (move : Move) :
    (cluster.step move).workers[member]? =
      match move with
      | .operate other operation =>
        some (if other = member then (worker.perform cluster.broker operation).1 else worker)
      | .leave other => if other = member then none else some worker
      | _ => some worker := by
  cases move with
  | createTopic topic partitions => exact found
  | failPublishes count => exact found
  | append partition data => exact found
  | join id group maxRecords topics =>
    have given := (sound member worker found).2.1
    have different : cluster.broker.lastMember + 1 ≠ member := by omega
    simp only [Cluster.step, Consumer.subscribe, Consumer.create, Option.getD_none]
    rw [Nat.max_eq_right (Nat.le_succ _)]
    simpa [Std.ExtTreeMap.getElem?_insert, different] using found
  | operate other operation =>
    by_cases same : other = member
    · subst same
      simp [Cluster.step, found]
    · cases present : cluster.workers[other]? with
      | none => simp [Cluster.step, present, found, same]
      | some _ => simp [Cluster.step, present, found, same, Std.ExtTreeMap.getElem?_insert]
  | leave other =>
    by_cases same : other = member
    · subst same
      simp [Cluster.step, found]
    · cases present : cluster.workers[other]? with
      | none => simp [Cluster.step, present, found, same]
      | some _ => simp [Cluster.step, present, found, same, Std.ExtTreeMap.getElem?_erase]

theorem current_synchronise (found : cluster.workers[member]? = some worker) :
    ∃ after, (cluster.step (.operate member .synchronise)).workers[member]? = some after ∧
      after.consumer.synchronise (cluster.step (.operate member .synchronise)).broker = none := by
  refine ⟨(worker.perform cluster.broker .synchronise).1, by simp [step, found], ?_⟩
  simpa [step, found] using worker.current_perform_synchronise cluster.broker

/-- A commit by the member is to move a partition of its group: the batch holds records of it, and it is
assigned to the member now. -/
def Commits (cluster : Cluster) (member : Nat) (group : String) (partition : Partition) (next : Nat) : Prop :=
  ∃ worker, cluster.workers[member]? = some worker ∧ worker.consumer.group = group ∧
    cluster.broker.assigns group member partition ∧ worker.Carries partition ∧
    worker.consumer.positions[partition]? = some next

theorem Commits.committed? (commits : cluster.Commits member group partition next)
    (sound : cluster.Sound) :
    (cluster.step (.operate member .commit)).broker.committed? group partition = some next := by
  obtain ⟨worker, found, rfl, assigned, carried, position⟩ := commits
  obtain ⟨present, _, upToDate⟩ := sound member worker found
  simp [Cluster.step, found, worker.committed?_perform_commit cluster.broker present upToDate,
    assigned, carried, position]

/-- A committed offset stays, or a commit moves it. -/
theorem committed?_step (sound : cluster.Sound) (move : Move) (group : String) (partition : Partition) :
    (cluster.step move).broker.committed? group partition = cluster.broker.committed? group partition ∨
      ∃ member next, move = .operate member .commit ∧ cluster.Commits member group partition next ∧
        (cluster.step move).broker.committed? group partition = some next := by
  cases move with
  | createTopic topic partitions => exact .inl (by simp [Cluster.step])
  | failPublishes count => exact .inl (by simp [Cluster.step])
  | append other data => exact .inl (by simp [Cluster.step])
  | join id group maxRecords topics => exact .inl (by simp [Cluster.step])
  | leave member =>
    simp only [Cluster.step]
    split
    · exact .inl rfl
    · exact .inl (by simp)
  | operate member operation =>
    cases found : cluster.workers[member]? with
    | none => exact .inl (by simp [Cluster.step, found])
    | some worker =>
      by_cases other : operation = .commit
      · subst other
        obtain ⟨present, _, upToDate⟩ := sound member worker found
        have moved := worker.committed?_perform_commit cluster.broker present upToDate group partition
        by_cases commits : group = worker.consumer.group ∧
            cluster.broker.assigns group member partition ∧ worker.Carries partition
        · obtain ⟨rfl, assigned, carried⟩ := commits
          obtain ⟨next, position⟩ := upToDate.position carried
          have commits : cluster.Commits member worker.consumer.group partition next :=
            ⟨worker, found, rfl, assigned, carried, position⟩
          exact .inr ⟨member, next, rfl, commits, commits.committed? sound⟩
        · rw [if_neg commits] at moved
          exact .inl (by simpa [Cluster.step, found] using moved)
      · refine .inl ?_
        simp [Cluster.step, found, worker.committed?_perform cluster.broker operation other]

theorem committed_step (sound : cluster.Sound) (other : ∀ member, move ≠ .operate member .commit)
    (group : String) (partition : Partition) :
    (cluster.step move).committed group partition = cluster.committed group partition := by
  rcases committed?_step sound move group partition with unchanged | ⟨member, _, commit, _⟩
  · simp [committed, unchanged]
  · exact absurd commit (other member)

end Cluster
end ChatRelay
