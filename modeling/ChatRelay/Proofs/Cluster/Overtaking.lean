import Mathlib.Data.List.Induction
import ChatRelay.Proofs.Cluster

/-! When a committed offset goes back. A commit is checked against the present assignment and nothing else, so
a member that lost a partition and got it back still commits what it had read before, whatever the owner in
between has committed. -/
namespace ChatRelay.Cluster

variable {cluster : Cluster} {move : Move} {member rival position next : Nat} {group : String}
variable {partition : Partition}

/-- A member of a group holds a partition at a position. -/
def Stands (cluster : Cluster) (member : Nat) (group : String) (partition : Partition) (position : Nat) :
    Prop :=
  ∃ worker, cluster.workers[member]? = some worker ∧ worker.consumer.group = group ∧
    worker.consumer.positions[partition]? = some position

/-- The member holds the partition, and its group has not committed past its position. -/
def Abreast (cluster : Cluster) (member : Nat) (group : String) (partition : Partition) : Prop :=
  ∃ position, cluster.Stands member group partition position ∧ cluster.committed group partition ≤ position

/-- The member holds the partition, and its group has committed past its position. -/
def Behind (cluster : Cluster) (member : Nat) (group : String) (partition : Partition) : Prop :=
  ∃ position, cluster.Stands member group partition position ∧ position < cluster.committed group partition

theorem Stands.unique (first : cluster.Stands member group partition position)
    (second : cluster.Stands member group partition next) : position = next := by
  obtain ⟨worker, found, _, at_⟩ := first
  obtain ⟨_, again, _, there⟩ := second
  cases found.symm.trans again
  exact Option.some.inj (at_.symm.trans there)

theorem Commits.stands (commits : cluster.Commits member group partition next) :
    cluster.Stands member group partition next := by
  obtain ⟨worker, found, same, _, _, position⟩ := commits
  exact ⟨worker, found, same, position⟩

/-- A commit takes no member from where it stands. -/
theorem Stands.was_commit
    (stands : (cluster.step (.operate rival .commit)).Stands member group partition position) :
    cluster.Stands member group partition position := by
  obtain ⟨worker, found, same, at_⟩ := stands
  rcases worker_step found with was | ⟨operation, before, moved, was, rfl⟩ | ⟨_, _, _, _, joined, _⟩
  · exact ⟨worker, was, same, at_⟩
  · cases moved
    exact ⟨before, was, same, at_⟩
  · cases joined

/-- Wherever a member stands after a move, it stood no further on before, or took up what was committed. -/
theorem Stands.was (sound : cluster.Sound)
    (stands : (cluster.step move).Stands member group partition position) :
    (∃ first, cluster.Stands member group partition first ∧ first ≤ position) ∨
      position = cluster.committed group partition := by
  obtain ⟨worker, found, rfl, at_⟩ := stands
  rcases worker_step found with was | ⟨operation, before, _, was, rfl⟩ | ⟨_, _, _, _, _, _, rfl⟩
  · exact .inl ⟨position, ⟨worker, was, rfl, at_⟩, Nat.le_refl _⟩
  · obtain ⟨present, _⟩ := sound member before was
    have same := (before.identity_perform cluster.broker operation present).2
    rcases before.position_perform cluster.broker operation present at_ with ⟨first, held, le⟩ | fresh
    · exact .inl ⟨first, ⟨before, was, same.symm, held⟩, le⟩
    · exact .inr (by rw [same]; exact fresh)
  · simp [Consumer.create] at at_

/-- A member falls behind only while it holds the partition, by the commit of another member. -/
theorem Behind.was (sound : cluster.Sound)
    (behind : (cluster.step move).Behind member group partition) :
    cluster.Behind member group partition ∨
      cluster.Abreast member group partition ∧
        ∃ rival next, rival ≠ member ∧ move = .operate rival .commit ∧
          cluster.Commits rival group partition next := by
  obtain ⟨position, stands, less⟩ := behind
  rcases committed?_step sound move group partition with unchanged | ⟨rival, next, rfl, commits, moved⟩
  · have unchanged : (cluster.step move).committed group partition = cluster.committed group partition := by
      simp [committed, unchanged]
    rw [unchanged] at less
    rcases stands.was sound with ⟨first, stood, le⟩ | fresh
    · exact .inl ⟨first, stood, Nat.lt_of_le_of_lt le less⟩
    · omega
  · have stood := stands.was_commit
    have moved : (cluster.step (.operate rival .commit)).committed group partition = next := by
      simp [committed, moved]
    rw [moved] at less
    by_cases before : position < cluster.committed group partition
    · exact .inl ⟨position, stood, before⟩
    · refine .inr ⟨⟨position, stood, Nat.le_of_not_lt before⟩, rival, next, ?_, rfl, commits⟩
      rintro rfl
      exact Nat.ne_of_lt less (stood.unique commits.stands)

/-- Who is behind was overtaken: while it held the partition, another member to whom the partition was
assigned then committed past it, and it has been behind ever since. -/
theorem Behind.overtaken {moves : List Move} (behind : (after moves).Behind member group partition) :
    ∃ earlier rival later, moves = earlier ++ .operate rival .commit :: later ∧ rival ≠ member ∧
      (∃ next, (after earlier).Commits rival group partition next) ∧
      (after earlier).Abreast member group partition ∧
      ∀ between, between <+: later →
        (after (earlier ++ .operate rival .commit :: between)).Behind member group partition := by
  induction moves using List.reverseRecOn with
  | nil =>
    obtain ⟨_, ⟨_, found, _⟩, _⟩ := behind
    simp [after, run] at found
  | append_singleton moves move ih =>
    have last := behind
    rw [after_concat] at behind
    rcases behind.was (sound_after moves) with behind | ⟨abreast, rival, next, other, rfl, commits⟩
    · obtain ⟨earlier, rival, later, rfl, other, commits, abreast, since⟩ := ih behind
      refine ⟨earlier, rival, later ++ [move], by simp, other, commits, abreast, ?_⟩
      intro between within
      rcases List.prefix_concat_iff.mp within with rfl | within
      · simpa using last
      · exact since between within
    · refine ⟨moves, rival, [], rfl, other, ⟨next, commits⟩, abreast, ?_⟩
      intro between within
      cases List.prefix_nil.mp within
      exact last

/-- A committed offset goes back by the commit of a member that is behind, and in no other way. -/
theorem committed_step_lt_iff (sound : cluster.Sound) (move : Move) :
    (cluster.step move).committed group partition < cluster.committed group partition ↔
      ∃ member next, move = .operate member .commit ∧ cluster.Commits member group partition next ∧
        cluster.Behind member group partition := by
  constructor
  · intro less
    rcases committed?_step sound move group partition with unchanged | ⟨member, next, rfl, commits, moved⟩
    · simp [committed, unchanged] at less
    · refine ⟨member, next, rfl, commits, next, commits.stands, ?_⟩
      simpa [committed, moved] using less
  · rintro ⟨member, next, rfl, commits, position, stands, less⟩
    cases stands.unique commits.stands
    simpa [committed, commits.committed? sound] using less

theorem committed_run_le (sound : cluster.Sound) (moves : List Move)
    (fenced : ∀ earlier member later next, moves = earlier ++ .operate member .commit :: later →
      (cluster.run earlier).Commits member group partition next →
      ¬ (cluster.run earlier).Behind member group partition) :
    cluster.committed group partition ≤ (cluster.run moves).committed group partition := by
  induction moves generalizing cluster with
  | nil => exact Nat.le_refl _
  | cons move moves ih =>
    have first : cluster.committed group partition ≤ (cluster.step move).committed group partition := by
      apply Nat.le_of_not_lt
      intro less
      obtain ⟨member, next, rfl, commits, behind⟩ := (committed_step_lt_iff sound move).mp less
      exact fenced [] member moves next rfl commits behind
    apply Nat.le_trans first
    apply ih (sound.step move)
    intro earlier member later next split commits
    exact fenced (move :: earlier) member later next (by simp [split]) commits

/-- A commit leaves a partition of its batch alone exactly if the partition is not assigned to the member now,
or the group has committed what the member has read. Whose it was since the poll does not matter. -/
theorem committed?_commit_eq_iff {worker : Worker} (sound : cluster.Sound)
    (found : cluster.workers[member]? = some worker) (same : worker.consumer.group = group)
    (carried : worker.Carries partition) :
    (cluster.step (.operate member .commit)).broker.committed? group partition =
        cluster.broker.committed? group partition ↔
      cluster.broker.assigns group member partition = false ∨
        worker.consumer.positions[partition]? = cluster.broker.committed? group partition := by
  subst same
  obtain ⟨present, _, upToDate⟩ := sound member worker found
  have moved := worker.committed?_perform_commit cluster.broker present upToDate
    worker.consumer.group partition
  simp only [step, found, moved]
  by_cases assigned : cluster.broker.assigns worker.consumer.group member partition = true
  · simp [assigned, carried]
  · simp [assigned]

/-- Commits are fenced by the present assignment only. In every run a committed offset goes back exactly by
the commit of a member that is behind in a partition assigned to it now; such a member was overtaken by
another owner's commit; whether a commit changes an offset does not depend on who owned the partition since
the poll; and without a commit from behind no offset ever goes back. -/
theorem commits_fenced_by_present_owner (moves : List Move) (group : String) (partition : Partition) :
    (∀ move, ((after moves).step move).committed group partition < (after moves).committed group partition ↔
      ∃ member next, move = .operate member .commit ∧
        (after moves).Commits member group partition next ∧ (after moves).Behind member group partition) ∧
    (∀ member, (after moves).Behind member group partition →
      ∃ earlier rival later, moves = earlier ++ .operate rival .commit :: later ∧ rival ≠ member ∧
        (∃ next, (after earlier).Commits rival group partition next) ∧
        (after earlier).Abreast member group partition ∧
        ∀ between, between <+: later →
          (after (earlier ++ .operate rival .commit :: between)).Behind member group partition) ∧
    (∀ member worker, (after moves).workers[member]? = some worker → worker.consumer.group = group →
      worker.Carries partition →
        (((after moves).step (.operate member .commit)).broker.committed? group partition =
            (after moves).broker.committed? group partition ↔
          (after moves).broker.assigns group member partition = false ∨
            worker.consumer.positions[partition]? = (after moves).broker.committed? group partition)) ∧
    (∀ more : List Move,
      (∀ earlier member later next, more = earlier ++ .operate member .commit :: later →
        (after (moves ++ earlier)).Commits member group partition next →
        ¬ (after (moves ++ earlier)).Behind member group partition) →
      (after moves).committed group partition ≤ (after (moves ++ more)).committed group partition) := by
  have sound := sound_after moves
  refine ⟨fun move => committed_step_lt_iff sound move, fun member behind => behind.overtaken,
    fun member worker found same carried => committed?_commit_eq_iff sound found same carried, ?_⟩
  intro more fenced
  rw [after_append]
  apply committed_run_le sound more
  intro earlier member later next split commits
  have fenced := fenced earlier member later next split
  rw [after_append] at fenced
  exact fenced commits

instance (cluster : Cluster) (member : Nat) (group : String) (partition : Partition) (next : Nat) :
    Decidable (cluster.Commits member group partition next) :=
  decidable_of_iff ((cluster.workers[member]?.any fun worker => worker.consumer.group = group ∧
    cluster.broker.assigns group member partition ∧ worker.Carries partition ∧
    worker.consumer.positions[partition]? = some next) = true) (by simp [Commits, Option.any_eq_true])

private def hello : Bytes := (Envelope.message ⟨⟨1⟩, ⟨1⟩, ⟨2⟩, [104, 105]⟩).wire

/-- Member 1 polls a record of a partition, which passes to member 2. That one commits three records and
leaves, so that the partition comes back. -/
def handedBack : List Move :=
  [.createTopic "t" 2, .join "a" "g" 500 ["t"], .append ⟨"t", 1⟩ hello, .operate 1 .synchronise,
    .operate 1 .fetch, .join "b" "g" 500 ["t"], .append ⟨"t", 1⟩ hello, .append ⟨"t", 1⟩ hello,
    .operate 2 .synchronise, .operate 2 .fetch, .operate 2 .commit, .leave 2]

/-- The batch that member 1 polled before member 2 owned the partition is committed after, and takes back
what member 2 has committed. -/
theorem handedBack_commit_goes_back :
    (after (handedBack.take 5)).Commits 1 "g" ⟨"t", 1⟩ 1 ∧
      (after (handedBack.take 6)).broker.assigns "g" 2 ⟨"t", 1⟩ ∧
      (after handedBack).Commits 1 "g" ⟨"t", 1⟩ 1 ∧
      (after handedBack).committed "g" ⟨"t", 1⟩ = 3 ∧
      ((after handedBack).step (.operate 1 .commit)).committed "g" ⟨"t", 1⟩ = 1 := by
  decide +kernel

theorem handedBack_overtaken :
    (after handedBack).Behind 1 "g" ⟨"t", 1⟩ ∧ ∃ rival, rival ≠ 1 ∧ .operate rival .commit ∈ handedBack := by
  have fenced := commits_fenced_by_present_owner handedBack "g" ⟨"t", 1⟩
  have less : ((after handedBack).step (.operate 1 .commit)).committed "g" ⟨"t", 1⟩ <
      (after handedBack).committed "g" ⟨"t", 1⟩ := by decide +kernel
  obtain ⟨_, _, same, _, behind⟩ := (fenced.1 _).mp less
  cases same
  obtain ⟨earlier, rival, later, split, other, _⟩ := fenced.2.1 1 behind
  refine ⟨behind, rival, other, ?_⟩
  rw [split]
  simp

end ChatRelay.Cluster
