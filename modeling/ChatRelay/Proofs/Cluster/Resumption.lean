import ChatRelay.Proofs.Cluster.Overtaking

/-! Where a member resumes. A member that catches up compares what it held before with what it is assigned now.
A partition that went to another member and came back in between is in both, and keeps its old position. -/
namespace ChatRelay.Cluster

variable {cluster : Cluster} {move : Move} {member position first : Nat} {group : String}
variable {partition : Partition} {worker : Worker} {change : AssignmentChange} {consumer : Consumer}

/-- Whether a move may take a member to another position without reading. -/
def Move.repositions (member : Nat) : Move → Bool
  | .operate other .synchronise | .operate other .rewind | .leave other => other = member
  | _ => false

/-- The latest poll of the member has returned no record of the partition so far. -/
def Unread (cluster : Cluster) (member : Nat) (partition : Partition) : Prop :=
  ∀ worker, cluster.workers[member]? = some worker → ¬ worker.Carries partition

/-- A member stays at its position as long as its polls return nothing of the partition. -/
theorem Stands.step (sound : cluster.Sound) (stands : cluster.Stands member group partition position)
    (quiet : move.repositions member = false) (unread : (cluster.step move).Unread member partition) :
    (cluster.step move).Stands member group partition position := by
  obtain ⟨worker, found, same, at_⟩ := stands
  have next := sound.worker?_step found move
  cases move with
  | createTopic | failPublishes | append | join => exact ⟨worker, next, same, at_⟩
  | leave other =>
    have different : other ≠ member := by simpa [Move.repositions] using quiet
    exact ⟨worker, by simpa [different] using next, same, at_⟩
  | operate other operation =>
    by_cases self : other = member
    · subst self
      simp only [↓reduceIte] at next
      obtain ⟨present, _⟩ := sound other worker found
      have group := (worker.identity_perform cluster.broker operation present).2
      refine ⟨_, next, group.trans same, ?_⟩
      have unread := unread _ next
      cases operation with
      | subscribe topics => exact at_
      | synchronise | rewind => simp [Move.repositions] at quiet
      | commit => exact at_
      | fetch =>
        simp only [Worker.perform] at unread ⊢
        split
        · exact at_
        · rename_i current
          rw [current] at unread
          rw [← at_]
          apply (worker.consumer.fetch_reads cluster.broker.topics).unread
          exact fun record member same => unread ⟨record, member, same⟩
    · exact ⟨worker, by simpa [self] using next, same, at_⟩

theorem Stands.run (sound : cluster.Sound) (stands : cluster.Stands member group partition position)
    (moves : List Move) (quiet : ∀ move ∈ moves, move.repositions member = false)
    (unread : ∀ earlier, earlier <+: moves → (cluster.run earlier).Unread member partition) :
    (cluster.run moves).Stands member group partition position := by
  induction moves generalizing cluster with
  | nil => exact stands
  | cons move moves ih =>
    have first : (cluster.step move).Unread member partition :=
      unread [move] (List.cons_prefix_cons.mpr ⟨rfl, List.nil_prefix⟩)
    have stays := stands.step sound (quiet move List.mem_cons_self) first
    refine ih (sound.step move) stays (fun other later => quiet other (List.mem_cons_of_mem _ later)) ?_
    intro earlier within
    exact unread (move :: earlier) (List.cons_prefix_cons.mpr ⟨rfl, within⟩)

/-- The first record of a partition that a fetch returns is the one at the position. -/
theorem Stands.first_record (sound : cluster.Sound)
    (stands : cluster.Stands member group partition position) (unread : cluster.Unread member partition)
    (found : (cluster.step (.operate member .fetch)).workers[member]? = some worker)
    (returned : worker.batch.find? (·.partition = partition) = some record) :
    record.offset = position := by
  obtain ⟨before, was, _, at_⟩ := stands
  have next := sound.worker?_step was (.operate member .fetch)
  rw [found] at next
  simp only [↓reduceIte, Option.some.injEq] at next
  subst next
  simp only [Worker.perform] at returned
  split at returned
  · have same : record.partition = partition := by simpa using List.find?_some returned
    exact absurd ⟨record, List.mem_of_find?_eq_some returned, same⟩ (unread before was)
  · have position := (before.consumer.fetch_reads cluster.broker.topics).find? returned
    exact (Option.some.inj (at_.symm.trans position)).symm

/-- A member that catches up takes a partition on from where it stood, and else from what is committed. -/
theorem stands_synchronise (sound : cluster.Sound) (found : cluster.workers[member]? = some worker)
    (synced : worker.consumer.synchronise cluster.broker = some (change, consumer))
    (assigned : cluster.broker.assigns worker.consumer.group member partition = true) :
    (cluster.step (.operate member .synchronise)).Stands member worker.consumer.group partition
      (worker.consumer.positions[partition]?.getD (cluster.committed worker.consumer.group partition)) := by
  obtain ⟨present, _⟩ := sound member worker found
  obtain ⟨_, _, _, _, same⟩ := Consumer.synchronise_eq_some synced
  have position := Consumer.position_synchronise synced present partition
  rw [if_pos assigned] at position
  refine ⟨{ consumer }, ?_, by rw [same], position⟩
  have next := sound.worker?_step found (.operate member .synchronise)
  simpa [Worker.perform, synced] using next

theorem unread_synchronise (sound : cluster.Sound) (found : cluster.workers[member]? = some worker)
    (synced : worker.consumer.synchronise cluster.broker = some (change, consumer)) (partition : Partition) :
    (cluster.step (.operate member .synchronise)).Unread member partition := by
  intro after is
  have next := sound.worker?_step found (.operate member .synchronise)
  rw [is] at next
  simp only [↓reduceIte, Option.some.injEq, Worker.perform, synced] at next
  subst next
  simp [Worker.Carries]

/-- A poll that catches up and fetches at once begins a partition where the member stood, and else at the
committed offset. -/
theorem first_record_of_poll (sound : cluster.Sound) (found : cluster.workers[member]? = some worker)
    (synced : worker.consumer.synchronise cluster.broker = some (change, consumer))
    (assigned : cluster.broker.assigns worker.consumer.group member partition = true)
    (polled : (cluster.run [.operate member .synchronise, .operate member .fetch]).workers[member]? =
      some later)
    (returned : later.batch.find? (·.partition = partition) = some record) :
    record.offset =
      worker.consumer.positions[partition]?.getD (cluster.committed worker.consumer.group partition) := by
  have stands := stands_synchronise sound found synced assigned
  have unread := unread_synchronise sound found synced partition
  exact stands.first_record (sound.step _) unread polled returned

/-- In every run, a member that catches up reads a partition that is assigned to it on from the committed
offset exactly if it did not hold the partition when it caught up last, or stood at that offset now. If it is
sent back behind the committed offset, another owner has committed in between. The first record of the
partition that it is given then is the one where it stands; with nothing between, `first_record_of_poll`. -/
theorem resumes_from_committed_iff (moves : List Move) (found : (after moves).workers[member]? = some worker)
    (synced : worker.consumer.synchronise (after moves).broker = some (change, consumer))
    (assigned : (after moves).broker.assigns worker.consumer.group member partition = true) :
    ∃ position,
      (after (moves ++ [.operate member .synchronise])).Stands member worker.consumer.group partition
        position ∧
      (position = (after moves).committed worker.consumer.group partition ↔
        ∀ first, worker.consumer.positions[partition]? = some first →
          first = (after moves).committed worker.consumer.group partition) ∧
      (position < (after moves).committed worker.consumer.group partition →
        ∃ earlier rival later next, moves = earlier ++ .operate rival .commit :: later ∧ rival ≠ member ∧
          (after earlier).Commits rival worker.consumer.group partition next ∧
          (after earlier).Abreast member worker.consumer.group partition) ∧
      ∀ (more : List Move) (later : Worker) (record : Record),
        (∀ move ∈ more, move.repositions member = false) →
        (∀ earlier, earlier <+: more →
          (after (moves ++ .operate member .synchronise :: earlier)).Unread member partition) →
        (after (moves ++ .operate member .synchronise :: more ++ [.operate member .fetch])).workers[member]? =
          some later →
        later.batch.find? (·.partition = partition) = some record → record.offset = position := by
  have sound := sound_after moves
  have stands := stands_synchronise sound found synced assigned
  refine ⟨_, by simpa using stands, ?_, ?_, ?_⟩
  · cases worker.consumer.positions[partition]? <;> simp
  · intro less
    cases held : worker.consumer.positions[partition]? with
    | none => simp [held] at less
    | some first =>
      rw [held] at less
      have behind : (after moves).Behind member worker.consumer.group partition :=
        ⟨first, ⟨worker, found, rfl, held⟩, less⟩
      obtain ⟨earlier, rival, later, split, other, ⟨next, commits⟩, abreast, _⟩ := behind.overtaken
      exact ⟨earlier, rival, later, next, split, other, commits, abreast⟩
  · intro more later record quiet unread is returned
    have sound := sound.step (.operate member .synchronise)
    have unread : ∀ earlier, earlier <+: more →
        (((after moves).step (.operate member .synchronise)).run earlier).Unread member partition := by
      intro earlier within
      simpa [after, run] using unread earlier within
    have is : ((((after moves).step (.operate member .synchronise)).run more).step
        (.operate member .fetch)).workers[member]? = some later := by
      simpa [after, run] using is
    have stays := stands.run sound more quiet unread
    exact stays.first_record (sound.run more) (unread more List.prefix_rfl) is returned

/-- When member 1 catches up, three records are committed of the partition that was member 2's since it last
did, but it is given the records after the first again. -/
theorem handedBack_resumes_behind :
    (after (handedBack.take 6)).broker.assigns "g" 2 ⟨"t", 1⟩ ∧
      (after handedBack).broker.assigns "g" 1 ⟨"t", 1⟩ ∧
      (after handedBack).committed "g" ⟨"t", 1⟩ = 3 ∧
      (after (handedBack ++ [.operate 1 .synchronise])).workers[1]?.map (·.consumer.positions.toList) =
        some [(⟨"t", 0⟩, 0), (⟨"t", 1⟩, 1)] ∧
      (after (handedBack ++ [.operate 1 .synchronise, .operate 1 .fetch])).workers[1]?.map
        (·.batch.map Record.mark) = some [⟨⟨"t", 1⟩, 2⟩, ⟨⟨"t", 1⟩, 3⟩] := by
  decide +kernel

/-- The member stands elsewhere than at the committed offset. -/
theorem handedBack_stands :
    ∃ position,
      (after (handedBack ++ [.operate 1 .synchronise])).Stands 1 "g" ⟨"t", 1⟩ position ∧
        position ≠ (after handedBack).committed "g" ⟨"t", 1⟩ := by
  have committed : (after handedBack).committed "g" ⟨"t", 1⟩ = 3 := by decide +kernel
  have assigned : (after handedBack).broker.assigns "g" 1 ⟨"t", 1⟩ = true := by decide +kernel
  have stood : ((after handedBack).workers[1]?.map fun worker =>
      (worker.consumer.group, worker.consumer.positions[(⟨"t", 1⟩ : Partition)]?,
        (worker.consumer.synchronise (after handedBack).broker).isSome)) = some ("g", some 1, true) := by
    decide +kernel
  obtain ⟨worker, found, stood⟩ := Option.map_eq_some_iff.mp stood
  obtain ⟨group, held, new⟩ : worker.consumer.group = "g" ∧
      worker.consumer.positions[(⟨"t", 1⟩ : Partition)]? = some 1 ∧
      (worker.consumer.synchronise (after handedBack).broker).isSome = true := by simpa using stood
  obtain ⟨⟨change, consumer⟩, synced⟩ := Option.isSome_iff_exists.mp new
  rw [← group] at assigned committed ⊢
  obtain ⟨position, stands, resumes, _⟩ := resumes_from_committed_iff handedBack found synced assigned
  refine ⟨position, stands, ?_⟩
  intro same
  have first := resumes.mp same 1 held
  rw [committed] at first
  cases first

end ChatRelay.Cluster
