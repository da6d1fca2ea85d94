import ChatRelay.Proofs.Cluster.Cover

namespace ChatRelay

namespace Consumer

variable {consumer next : Consumer} {broker : Broker} {change : AssignmentChange} {id : Nat}

theorem synchronise_eq_none_iff (present : consumer.member = some id)
    (started : 0 < (broker.group consumer.group).generation) :
    consumer.synchronise broker = none ↔
      consumer.generation = (broker.group consumer.group).generation := by
  rw [Broker.group, Std.ExtTreeMap.getD_eq_getD_getElem?] at started ⊢
  cases found : broker.groups[consumer.group]? with
  | none => simp [found] at started
  | some group => simp [synchronise, present, found, eq_comm]

theorem mem_change (synced : consumer.synchronise broker = some (change, next)) (partition : Partition) :
    (partition ∈ change.assigned ↔ partition ∈ next.positions ∧ partition ∉ consumer.positions) ∧
      (partition ∈ change.revoked ↔ partition ∈ consumer.positions ∧ partition ∉ next.positions) := by
  simp only [synchronise, bind, Option.bind_eq_some_iff] at synced
  obtain ⟨id, _, group, _, synced⟩ := synced
  split at synced
  · cases synced
  · cases synced
    have held : partition ∈ reposition consumer.positions group (group.assigned id) ↔
        partition ∈ group.assigned id := by
      rw [Std.ExtTreeMap.mem_iff_isSome_getElem?, getElem?_reposition]
      split <;> simp [*]
    simp [held, assignment, ← Bool.not_eq_true]

end Consumer

namespace Worker

/-- The worker holds what its group assigns to it, unless there is a generation to catch up with. -/
structure Tracks (worker : Worker) (member : Nat) (broker : Broker) : Prop where
  started : 0 < (broker.group worker.consumer.group).generation
  generation_le : worker.consumer.generation ≤ (broker.group worker.consumer.group).generation
  held_iff : worker.consumer.generation = (broker.group worker.consumer.group).generation →
    ∀ partition, partition ∈ worker.consumer.positions ↔
      broker.assigns worker.consumer.group member partition
  /-- Before its first poll it holds nothing. -/
  unpolled : worker.consumer.generation = 0 → ∀ partition, partition ∉ worker.consumer.positions

variable {worker : Worker} {member : Nat} {broker later : Broker} {operation : Operation}
variable {partition : Partition}

/-- What others do to the group is a new generation or changes nothing. -/
theorem Tracks.mono (tracks : worker.Tracks member broker)
    (precedes : (broker.group worker.consumer.group).Precedes (later.group worker.consumer.group)) :
    worker.Tracks member later where
  started := Nat.lt_of_lt_of_le tracks.started precedes.generation_le
  generation_le := Nat.le_trans tracks.generation_le precedes.generation_le
  held_iff same partition := by
    rcases precedes with lower | ⟨still, assignments⟩
    · have := tracks.generation_le
      omega
    · rw [tracks.held_iff (same.trans still.symm), Broker.assigns_eq, Broker.assigns_eq, Group.owns,
        Group.owns, Group.assigned_congr assignments]
  unpolled := tracks.unpolled

/-- Only by catching up does a worker come to hold other partitions. -/
theorem mem_positions_perform (other : operation ≠ .synchronise) :
    partition ∈ (worker.perform broker operation).1.consumer.positions ↔
      partition ∈ worker.consumer.positions := by
  cases operation with
  | subscribe topics => rfl
  | synchronise => exact absurd rfl other
  | fetch =>
    simp only [perform]
    split
    · rfl
    · have reads := worker.consumer.fetch_reads broker.topics
      simp only [Std.ExtTreeMap.mem_iff_isSome_getElem?, Option.isSome_iff_exists]
      constructor
      · rintro ⟨last, reached⟩
        obtain ⟨first, held, _⟩ := reads.started reached
        exact ⟨first, held⟩
      · rintro ⟨first, held⟩
        exact reads.reaches held
  | commit => rfl
  | rewind => simp [perform, Consumer.rewind]

theorem generation_perform (other : operation ≠ .synchronise) :
    (worker.perform broker operation).1.consumer.generation = worker.consumer.generation := by
  cases operation with
  | subscribe topics => rfl
  | synchronise => exact absurd rfl other
  | fetch => simp only [perform]; split <;> rfl
  | commit => rfl
  | rewind => rfl

@[simp] theorem id_perform (worker : Worker) (broker : Broker) (operation : Operation) :
    (worker.perform broker operation).1.consumer.id = worker.consumer.id := by
  cases operation with
  | subscribe topics => rfl
  | synchronise =>
    simp only [perform]
    split
    · rfl
    · rename_i synced
      obtain ⟨_, _, _, _, rfl⟩ := Consumer.synchronise_eq_some synced
      rfl
  | fetch => simp only [perform]; split <;> rfl
  | commit => rfl
  | rewind => rfl

theorem Tracks.perform (tracks : worker.Tracks member broker) (present : worker.consumer.member = some member)
    (operation : Operation) :
    (worker.perform broker operation).1.Tracks member (worker.perform broker operation).2 := by
  by_cases other : operation = .synchronise
  · subst other
    cases synced : worker.consumer.synchronise broker with
    | none => simpa only [Worker.perform, synced] using tracks
    | some caught =>
      obtain ⟨change, next⟩ := caught
      have held := Consumer.mem_positions_synchronise synced present
      obtain ⟨_, group, _, found, rfl⟩ := Consumer.synchronise_eq_some synced
      have same : broker.group worker.consumer.group = group := by
        simp [Broker.group, Std.ExtTreeMap.getD_eq_getD_getElem?, found]
      simp only [Worker.perform, synced]
      refine ⟨tracks.started, Nat.le_of_eq (same ▸ rfl), fun _ => held, fun none => ?_⟩
      · have started := tracks.started
        rw [same] at started
        exact absurd none (Nat.ne_of_gt started)
  · have later := tracks.mono (worker.becomes_perform broker operation _).precedes
    have sameGroup := (worker.identity_perform broker operation present).2
    have sameGeneration : (worker.perform broker operation).1.consumer.generation =
        worker.consumer.generation := generation_perform other
    constructor
    · rw [sameGroup]; exact later.started
    · rw [sameGroup, sameGeneration]; exact later.generation_le
    · intro caught partition
      rw [sameGroup, sameGeneration] at caught
      rw [mem_positions_perform other, sameGroup, later.held_iff caught]
    · intro unpolled partition
      rw [sameGeneration] at unpolled
      rw [mem_positions_perform other]
      exact later.unpolled unpolled partition

end Worker

namespace Cluster

variable {cluster : Cluster} {moves more : List Move} {member rival : Nat} {worker other : Worker}
variable {partition : Partition}

def Tracked (cluster : Cluster) : Prop :=
  ∀ (member : Nat) (worker : Worker), cluster.workers[member]? = some worker →
    worker.Tracks member cluster.broker

theorem Tracked.step (tracked : cluster.Tracked) (sound : cluster.Sound) (move : Move) :
    (cluster.step move).Tracked := by
  intro member worker found
  rcases worker_step found with
      was | ⟨operation, before, rfl, was, rfl⟩ | ⟨id, group, maxRecords, topics, rfl, rfl, rfl⟩
  · exact (tracked member worker was).mono (cluster.becomes_step move _).precedes
  · have performed := (tracked member before was).perform (sound member before was).1 operation
    simpa [Cluster.step, was] using performed
  · have started : 0 < ((cluster.step (.join id group maxRecords topics)).broker.group group).generation := by
      simp [Cluster.step, Broker.group_subscribe, Consumer.create, Group.rebalance]
    refine ⟨started, Nat.zero_le _, fun same => ?_, fun _ partition => by simp [Consumer.create]⟩
    exact absurd same (Nat.ne_of_lt started)

theorem tracked_after (moves : List Move) : (after moves).Tracked := by
  induction moves using List.reverseRecOn with
  | nil => exact fun _ _ found => by simp [after, run] at found
  | append_singleton moves move ih =>
    rw [after_concat]
    exact ih.step (sound_after moves) move

theorem synchronise_eq_none_iff (found : (after moves).workers[member]? = some worker) :
    worker.consumer.synchronise (after moves).broker = none ↔
      worker.consumer.generation = ((after moves).broker.group worker.consumer.group).generation :=
  Consumer.synchronise_eq_none_iff (sound_after moves member worker found).1
    (tracked_after moves member worker found).started

theorem held_iff_assigns (found : (after moves).workers[member]? = some worker)
    (current : worker.consumer.synchronise (after moves).broker = none) (partition : Partition) :
    partition ∈ worker.consumer.positions ↔
      (after moves).broker.assigns worker.consumer.group member partition :=
  (tracked_after moves member worker found).held_iff ((synchronise_eq_none_iff found).mp current) partition

theorem held_bounds
    (bounded : ∀ topic partitions, .createTopic topic partitions ∈ moves → partitions ≤ 0x7fffffff)
    (found : (after moves).workers[member]? = some worker) (held : partition ∈ worker.consumer.positions) :
    0 ≤ partition.index ∧ partition.index < 0x7fffffff := by
  induction moves using List.reverseRecOn generalizing worker with
  | nil => simp [after, run] at found
  | append_singleton moves move ih =>
    have earlier : ∀ topic partitions, .createTopic topic partitions ∈ moves → partitions ≤ 0x7fffffff :=
      fun topic partitions asked => bounded topic partitions (by simp [asked])
    rw [after_concat] at found
    rcases worker_step found with was | ⟨operation, before, rfl, was, rfl⟩ | ⟨_, _, _, _, _, _, rfl⟩
    · exact ih earlier was held
    · by_cases other : operation = .synchronise
      · subst other
        have present := (sound_after moves member before was).1
        simp only [Worker.perform] at held
        split at held
        · exact ih earlier was held
        · rename_i synced
          rw [Consumer.mem_positions_synchronise synced present, Broker.assigns_eq] at held
          have proper := (coversExactly_after earlier _).proper member partition held
          have limited := partitionCount_after (earlier partition.topic)
          exact ⟨proper.2.1, by omega⟩
      · exact ih earlier was ((Worker.mem_positions_perform other).mp held)
    · simp [Consumer.create] at held

/-- In one generation of a group no partition is held by two members. -/
theorem held_once
    (bounded : ∀ topic partitions, .createTopic topic partitions ∈ moves → partitions ≤ 0x7fffffff)
    (found : (after moves).workers[member]? = some worker)
    (current : worker.consumer.synchronise (after moves).broker = none)
    (there : (after (moves ++ more)).workers[rival]? = some other)
    (caught : other.consumer.synchronise (after (moves ++ more)).broker = none)
    (sameGroup : other.consumer.group = worker.consumer.group)
    (sameGeneration : other.consumer.generation = worker.consumer.generation)
    (held : partition ∈ worker.consumer.positions) (also : partition ∈ other.consumer.positions) :
    rival = member := by
  have owned := (held_iff_assigns found current partition).mp held
  have taken := (held_iff_assigns there caught partition).mp also
  have first := (synchronise_eq_none_iff found).mp current
  have second := (synchronise_eq_none_iff there).mp caught
  have precedes := (after moves).precedes_run more worker.consumer.group
  rw [← after_append] at precedes
  rw [sameGroup] at taken second
  rcases precedes with lower | ⟨_, unchanged⟩
  · omega
  · rw [Broker.assigns_eq, Group.owns] at owned taken
    rw [← Group.assigned_congr unchanged] at taken
    exact (coversExactly_after bounded worker.consumer.group).owner_unique taken owned

end Cluster
end ChatRelay
