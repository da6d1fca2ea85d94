import Mathlib.Data.List.Induction
import ChatRelay.Proofs.Crew

/-! No record is lost. What lies below a committed offset went through some member of the group, with the
whole batch that the member was given; and the records of a partition go through a group in order, as far as
the first time is concerned. -/
namespace ChatRelay

open ConsumeLoop (Phase Event)

/-- A member of the group got past the record at an offset. -/
def Deed.Passes (group : String) (partition : Partition) (offset : Nat) : Deed → Prop
  | .polled .. => False
  | .skipped work record | .processed work record =>
    work.group = group ∧ record.partition = partition ∧ record.offset = offset

theorem Record.deed_passes (record : Record) (work : Work) :
    (record.deed work).Passes work.group record.partition record.offset := by
  unfold Record.deed
  split <;> exact ⟨rfl, rfl, rfl⟩

/-- No record of a partition is got past before the one before it was. -/
def Ordered (history : List Deed) : Prop :=
  ∀ group partition offset earlier deed later, history = earlier ++ deed :: later →
    deed.Passes group partition (offset + 1) → ∃ before ∈ earlier, before.Passes group partition offset

theorem Ordered.concat (ordered : Ordered history)
    (follows : ∀ group partition offset, deed.Passes group partition (offset + 1) →
      ∃ before ∈ history, before.Passes group partition offset) : Ordered (history ++ [deed]) := by
  intro group partition offset earlier last later split passes
  rcases List.eq_nil_or_concat later with rfl | ⟨rest, final, rfl⟩
  · obtain ⟨rfl, same⟩ := List.append_inj' split rfl
    cases same
    exact follows group partition offset passes
  · have split : history ++ [deed] = (earlier ++ last :: rest) ++ [final] := by simpa using split
    obtain ⟨rfl, _⟩ := List.append_inj' split rfl
    exact ordered group partition offset earlier last rest rfl passes

namespace Crew

variable {crew next : Crew} {work : Work} {worker : Worker} {task : Task} {batch rest : List Record}
variable {group : String} {partition : Partition} {offset member : Nat} {positions : Positions}

/-- The record at an offset was in a batch that some member of the group was given, and that member got past
each record of the batch. -/
def Settled (crew : Crew) (group : String) (partition : Partition) (offset : Nat) : Prop :=
  ∃ work batch record, work.group = group ∧ .polled work batch ∈ crew.history ∧
    (∀ other ∈ batch, other.deed work ∈ crew.history) ∧
    record ∈ batch ∧ record.partition = partition ∧ record.offset = offset ∧
    ∃ data, crew.cluster.broker.topics.record? partition offset = some data ∧
      record.body = Envelope.decode data

def Clear (crew : Crew) (group : String) (positions : Positions) : Prop :=
  ∀ (partition : Partition) (position offset : Nat), positions[partition]? = some position →
    offset < position → crew.Settled group partition offset

/-- A worker has a batch of which it got past all records but the `rest`. -/
structure Handling (crew : Crew) (work : Work) (worker : Worker) (batch rest : List Record) : Prop where
  carried : worker.batch = batch
  polled : .polled work batch ∈ crew.history
  through : ∃ done start, batch = done ++ rest ∧ (∀ record ∈ done, record.deed work ∈ crew.history) ∧
    Reads crew.cluster.broker.topics start batch worker.consumer.positions ∧ crew.Clear work.group start

/-- What holds of a member's positions in each phase of its loop. -/
def Standing (crew : Crew) (member : Nat) (worker : Worker) (task : Task) : Prop :=
  match task.phase with
  | .polling => crew.Clear worker.consumer.group worker.consumer.positions
  | .handling batch rest => crew.Handling ⟨worker.consumer.group, member, task.polls⟩ worker batch rest
  | .failed | .ended _ => True

structure Sound (crew : Crew) : Prop where
  cluster : crew.cluster.Sound
  committed : ∀ group partition offset, offset < crew.cluster.committed group partition →
    crew.Settled group partition offset
  standing : ∀ (member : Nat) worker task, crew.cluster.workers[member]? = some worker →
    crew.tasks[member]? = some task → crew.Standing member worker task
  ordered : Ordered crew.history

structure Grown (crew next : Crew) : Prop where
  topics : crew.cluster.broker.topics.Within next.cluster.broker.topics
  history : ∃ more, next.history = crew.history ++ more

namespace Grown

variable (grown : crew.Grown next)
include grown

theorem mem (member : deed ∈ crew.history) : deed ∈ next.history := by
  obtain ⟨more, history⟩ := grown.history
  rw [history]
  exact List.mem_append_left _ member

theorem settled (settled : crew.Settled group partition offset) : next.Settled group partition offset := by
  obtain ⟨work, batch, record, same, polled, through, member, at_, place, data, present, body⟩ := settled
  exact ⟨work, batch, record, same, grown.mem polled, fun other member => grown.mem (through other member),
    member, at_, place, data, grown.topics present, body⟩

theorem clear (clear : crew.Clear group positions) : next.Clear group positions :=
  fun partition position offset held below => grown.settled (clear partition position offset held below)

theorem handling (handling : crew.Handling work worker batch rest) :
    next.Handling work worker batch rest := by
  obtain ⟨done, start, split, through, reads, clear⟩ := handling.through
  exact ⟨handling.carried, grown.mem handling.polled, done, start, split,
    fun record member => grown.mem (through record member), reads.mono grown.topics, grown.clear clear⟩

theorem standing (standing : crew.Standing member worker task) : next.Standing member worker task := by
  unfold Standing at standing ⊢
  split
  · rename_i polling
    rw [polling] at standing
    exact grown.clear standing
  · rename_i handling
    rw [handling] at standing
    exact grown.handling standing
  · trivial
  · trivial

end Grown

/-- A batch that was gone through is settled, with all that lies below the positions. -/
theorem Handling.clear (handling : crew.Handling work worker batch []) :
    crew.Clear work.group worker.consumer.positions := by
  intro partition position offset held below
  obtain ⟨done, start, split, through, reads, clear⟩ := handling.through
  rw [List.append_nil] at split
  subst split
  rcases reads.covers held below with ⟨first, at_, before⟩ | ⟨record, member, rfl, rfl⟩
  · exact clear partition first offset at_ before
  · exact ⟨work, batch, record, rfl, handling.polled, through, member, rfl, rfl, reads.record_eq member⟩

theorem Settled.passed (settled : crew.Settled group partition offset) :
    ∃ deed ∈ crew.history, deed.Passes group partition offset := by
  obtain ⟨work, batch, record, rfl, _, through, member, rfl, rfl, _⟩ := settled
  exact ⟨_, through record member, record.deed_passes work⟩

/-- The record before the next one to be handled was got past. -/
theorem Handling.predecessor (handling : crew.Handling work worker batch (record :: rest))
    (follows : record.offset = offset + 1) :
    ∃ deed ∈ crew.history, deed.Passes work.group record.partition offset := by
  obtain ⟨done, start, rfl, through, reads, clear⟩ := handling.through
  rcases reads.predecessor follows with ⟨first, at_, before⟩ | ⟨other, member, same, place⟩
  · exact (clear _ first offset at_ before).passed
  · exact ⟨_, through other member, same ▸ place ▸ other.deed_passes work⟩

/-- A fetch hands over a batch that begins where the worker stood. -/
theorem Handling.of_fetch {topics : Topics} (within : topics.Within crew.cluster.broker.topics)
    (clear : crew.Clear work.group worker.consumer.positions)
    (polled : .polled work (worker.consumer.fetch topics).1 ∈ crew.history) :
    crew.Handling work ⟨(worker.consumer.fetch topics).2, (worker.consumer.fetch topics).1⟩
      (worker.consumer.fetch topics).1 (worker.consumer.fetch topics).1 :=
  ⟨rfl, polled, [], worker.consumer.positions, rfl, by simp,
    (worker.consumer.fetch_reads topics).mono within, clear⟩

theorem Handling.advance (handling : crew.Handling work worker batch (record :: rest))
    (through : record.deed work ∈ crew.history) : crew.Handling work worker batch rest := by
  obtain ⟨done, start, split, before, reads, clear⟩ := handling.through
  refine ⟨handling.carried, handling.polled, done ++ [record], start, by simp [split], ?_, reads, clear⟩
  intro other member
  rcases List.mem_append.mp member with member | member
  · exact before other member
  · cases List.mem_singleton.mp member
    exact through

theorem grown_take (taken : crew.take? member act = some next) : crew.Grown next := by
  obtain ⟨task, worker, event, phase, _, _, _, _, cluster, _, history⟩ := take?_eq_some taken
  refine ⟨?_, _, history⟩
  rw [cluster]
  split
  · exact Topics.Within.refl _
  · exact crew.cluster.within_step _

theorem grown_step (crew : Crew) (move : Move) : crew.Grown (crew.step move) := by
  rcases crew.step_cases move with same | ⟨made, _, cluster, history⟩ | ⟨member, act, _, taken⟩
  · rw [same]
    exact ⟨Topics.Within.refl _, [], (List.append_nil _).symm⟩
  · exact ⟨cluster ▸ crew.cluster.within_step made, [], by rw [history, List.append_nil]⟩
  · exact grown_take taken

/-- An act other than a commit moves no committed offset. -/
theorem Sound.committed_take (sound : crew.Sound) (taken : crew.take? member act = some next)
    (other : act ≠ .commit) (group : String) (partition : Partition) :
    next.cluster.committed group partition = crew.cluster.committed group partition := by
  obtain ⟨_, _, _, _, _, _, _, _, cluster, _, _⟩ := take?_eq_some taken
  rw [cluster]
  cases act with
  | commit => exact absurd rfl other
  | cancel | skip | process => rfl
  | poll => exact Cluster.committed_step sound.cluster (by simp) group partition
  | rewind => exact Cluster.committed_step sound.cluster (by simp) group partition

/-- What an act brings below a committed offset was settled before. -/
theorem Sound.settled_take (sound : crew.Sound) (taken : crew.take? member act = some next)
    (below : offset < next.cluster.committed group partition) : crew.Settled group partition offset := by
  by_cases other : act ≠ .commit
  · rw [sound.committed_take taken other] at below
    exact sound.committed group partition offset below
  · cases Classical.not_not.mp other
    obtain ⟨task, worker, event, phase, is, found, answered, allowed, cluster, _, _⟩ := take?_eq_some taken
    rw [cluster] at below
    rcases Cluster.committed?_step sound.cluster (.operate member .commit) group partition with
        unchanged | ⟨_, position, commit, commits, moved⟩
    · apply sound.committed group partition offset
      simpa [Cluster.committed, Act.operation?, unchanged] using below
    · cases commit
      obtain ⟨_, again, rfl, _, _, held⟩ := commits
      cases found.symm.trans again
      cases answered
      have standing := sound.standing member worker task found is
      unfold Standing at standing
      generalize task.phase = now at allowed standing
      cases Phase.after_eq_some_iff.mp allowed
      apply standing.clear partition position offset held
      simpa [Cluster.committed, Act.operation?, moved] using below

theorem Sound.standing_take (sound : crew.Sound) (taken : crew.take? member act = some next)
    (found : next.cluster.workers[member]? = some worker) (is : next.tasks[member]? = some task) :
    next.Standing member worker task := by
  have grown := grown_take taken
  obtain ⟨before, stood, event, phase, was, present, answered, allowed, cluster, tasks, history⟩ :=
    take?_eq_some taken
  have standing := sound.standing member stood before present was
  rw [tasks, Std.ExtTreeMap.getElem?_insert_self] at is
  cases is
  have moved (operation : Worker.Operation) := sound.cluster.worker?_step present (.operate member operation)
  simp only [↓reduceIte] at moved
  have allowed := Phase.after_eq_some_iff.mp allowed
  unfold Standing at standing ⊢
  rw [Task.phase_next]
  generalize now : before.phase = current at allowed standing history
  cases act with
  | cancel =>
    cases answered
    cases allowed
    trivial
  | poll =>
    simp only [Act.event?] at answered
    split at answered
    · cases answered
    · rename_i current
      cases answered
      rw [cluster] at found
      simp only [Act.operation?, moved, Worker.perform, current, Option.some.injEq] at found
      subst found
      have reads := stood.consumer.fetch_reads crew.cluster.broker.topics
      generalize read : (stood.consumer.fetch crew.cluster.broker.topics).1 = batch at allowed history reads
      cases allowed with
      | idle =>
        intro partition position offset held below
        rw [reads.unread (by simp)] at held
        exact grown.settled (standing partition position offset held below)
      | polled =>
        subst read
        apply Handling.of_fetch grown.topics (grown.clear standing)
        rw [history]
        exact List.mem_append_right _ (List.mem_singleton.mpr rfl)
  | skip =>
    cases answered
    cases allowed
    rw [cluster] at found
    cases present.symm.trans found
    rename_i record batch rest fault body
    apply (grown.handling standing).advance
    rw [history]
    simp [Record.deed, body, Task.deeds, Task.next]
  | process answer =>
    cases answered
    rw [cluster] at found
    cases present.symm.trans found
    cases allowed with
    | @processed record envelope batch rest body =>
      apply (grown.handling standing).advance
      rw [history]
      simp [Record.deed, body, Task.deeds, Task.next]
    | @refused record envelope batch rest failure =>
      by_cases retriable : failure.isRetriable <;> simp [Phase.giveUp, retriable]
  | commit =>
    cases answered
    cases allowed
    rw [cluster] at found
    simp only [Act.operation?, moved, Option.some.injEq] at found
    subst found
    generalize (stood.consumer.commit (stood.batch.map Record.mark) crew.cluster.broker).1 = answer
    cases answer with
    | ok => exact (grown.handling standing).clear
    | error failure => trivial
  | rewind =>
    cases answered
    cases allowed
    rw [cluster] at found
    simp only [Act.operation?, moved, Option.some.injEq] at found
    subst found
    intro partition position offset held below
    have committed := stood.position_perform_rewind crew.cluster.broker held
    rw [committed] at below
    exact grown.settled (sound.committed stood.consumer.group partition offset below)

/-- What a move brings below a committed offset was settled before the move. -/
theorem Sound.settled_step (sound : crew.Sound) (move : Move)
    (below : offset < (crew.step move).cluster.committed group partition) :
    crew.Settled group partition offset := by
  rcases crew.step_cases move with same | ⟨made, other, cluster, _⟩ | ⟨member, act, _, taken⟩
  · rw [same] at below
    exact sound.committed group partition offset below
  · rw [cluster, Cluster.committed_step sound.cluster other] at below
    exact sound.committed group partition offset below
  · exact sound.settled_take taken below

theorem Sound.standing_step (sound : crew.Sound) (move : Move)
    (found : (crew.step move).cluster.workers[member]? = some worker)
    (is : (crew.step move).tasks[member]? = some task) :
    (crew.step move).Standing member worker task := by
  have grown := crew.grown_step move
  rcases member_step sound.cluster move found is with
      ⟨was, stood, _⟩ | ⟨before, rfl, was, stood, polling, rfl, _⟩ | ⟨act, rfl, taken⟩ |
        ⟨_, _, _, _, _, rfl, _, rfl⟩
  · exact grown.standing (sound.standing member worker task was stood)
  · have present := (sound.cluster member before was).1
    have clear := grown.standing (sound.standing member before task was stood)
    unfold Standing at clear ⊢
    rw [polling] at clear ⊢
    rw [(before.identity_perform crew.cluster.broker .synchronise present).2]
    intro partition position offset held below
    rcases before.position_perform_synchronise crew.cluster.broker present held with held | committed
    · exact clear partition position offset held below
    · rw [committed] at below
      exact grown.settled (sound.committed before.consumer.group partition offset below)
  · exact sound.standing_take taken found is
  · intro partition position offset held
    simp [Consumer.create] at held

theorem Sound.ordered_take (sound : crew.Sound) (taken : crew.take? member act = some next) :
    Ordered next.history := by
  obtain ⟨task, worker, event, phase, is, found, _, allowed, _, _, history⟩ := take?_eq_some taken
  have standing := sound.standing member worker task found is
  have allowed := Phase.after_eq_some_iff.mp allowed
  rw [history]
  unfold Standing at standing
  generalize task.phase = now at allowed standing
  cases allowed with
  | cancelled | unanswered | refused | committed | rewound =>
    simpa [Task.deeds] using sound.ordered
  | idle | polled =>
    apply sound.ordered.concat
    intro group partition offset passes
    exact passes.elim
  | skipped | processed =>
    apply sound.ordered.concat
    intro group partition offset passes
    obtain ⟨rfl, rfl, follows⟩ := passes
    exact standing.predecessor follows

theorem Sound.step (sound : crew.Sound) (move : Move) : (crew.step move).Sound where
  cluster := cluster_sound_step sound.cluster move
  committed group partition offset below :=
    (crew.grown_step move).settled (sound.settled_step move below)
  standing _ _ _ found is := sound.standing_step move found is
  ordered := by
    rcases crew.step_cases move with same | ⟨made, _, _, history⟩ | ⟨member, act, _, taken⟩
    · rw [same]
      exact sound.ordered
    · rw [history]
      exact sound.ordered
    · exact sound.ordered_take taken

theorem sound_empty : ({} : Crew).Sound where
  cluster _ _ found := by simp at found
  committed _ _ _ below := by simp [Cluster.committed, Broker.committed?] at below
  standing _ _ _ found := by simp at found
  ordered _ _ _ earlier _ _ split := by simp at split

theorem sound_after (moves : List Move) : (after moves).Sound := by
  induction moves using List.reverseRecOn with
  | nil => exact sound_empty
  | append_singleton moves move ih =>
    rw [after_concat]
    exact ih.step move

/-- An offset came below the committed one by a commit, and has been there since. -/
theorem committed_by {moves : List Move}
    (below : offset < (after moves).cluster.committed group partition) :
    ∃ earlier member later, moves = earlier ++ .take member .commit :: later ∧
      (after earlier).cluster.committed group partition ≤ offset ∧
      ∀ between, between <+: later →
        offset < (after (earlier ++ .take member .commit :: between)).cluster.committed group partition := by
  induction moves using List.reverseRecOn with
  | nil => simp [after, run, Cluster.committed, Broker.committed?] at below
  | append_singleton moves move ih =>
    have last := below
    rw [after_concat] at below
    have sound := sound_after moves
    by_cases before : offset < (after moves).cluster.committed group partition
    · obtain ⟨earlier, member, later, rfl, above, since⟩ := ih before
      refine ⟨earlier, member, later ++ [move], by simp, above, ?_⟩
      intro between within
      rcases List.prefix_concat_iff.mp within with rfl | within
      · simpa using last
      · exact since between within
    · rcases (after moves).step_cases move with same | ⟨made, other, cluster, _⟩ | ⟨member, act, rfl, taken⟩
      · exact absurd (same ▸ below) before
      · rw [cluster, Cluster.committed_step sound.cluster other] at below
        exact absurd below before
      · by_cases other : act ≠ .commit
        · rw [sound.committed_take taken other] at below
          exact absurd below before
        · cases Classical.not_not.mp other
          refine ⟨moves, member, [], rfl, Nat.le_of_not_lt before, ?_⟩
          intro between within
          cases List.prefix_nil.mp within
          exact last

/-- At least once and in order. In every run, whatever lies below a committed offset came there by a commit
before which its record had been skipped as no envelope, or processed, by a member of the group that had then
got past its whole batch. And a group first gets past a record only after the one before it. -/
theorem committed_records_went_through (moves : List Move) :
    (∀ group partition offset, offset < (after moves).cluster.committed group partition →
      ∃ earlier member later, moves = earlier ++ .take member .commit :: later ∧
        (after earlier).Settled group partition offset ∧
        (after earlier).cluster.committed group partition ≤ offset ∧
        ∀ between, between <+: later →
          offset < (after (earlier ++ .take member .commit :: between)).cluster.committed group partition) ∧
    (∀ group partition offset earlier deed later, (after moves).history = earlier ++ deed :: later →
      deed.Passes group partition (offset + 1) → ∃ before ∈ earlier, before.Passes group partition offset) := by
  refine ⟨?_, (sound_after moves).ordered⟩
  intro group partition offset below
  obtain ⟨earlier, member, later, rfl, above, since⟩ := committed_by below
  refine ⟨earlier, member, later, rfl, ?_, above, since⟩
  apply (sound_after earlier).settled_step (.take member .commit)
  simpa using since [] List.nil_prefix

/-- A processor that fails at first is given the record again, after one that is no envelope. -/
def redelivery : List Move :=
  [.createTopic "t" 1, .join "a" "g" 500 ["t"], .append ⟨"t", 0⟩ [],
    .append ⟨"t", 0⟩ (Envelope.message ⟨⟨1⟩, ⟨1⟩, ⟨2⟩, [104, 105]⟩).wire,
    .synchronise 1, .take 1 .poll, .take 1 .skip, .take 1 (.process (.error (.storage (.described "full")))),
    .take 1 .rewind, .take 1 .poll, .take 1 .skip, .take 1 (.process (.ok ())), .take 1 .commit]

theorem redelivery_went_through :
    (after redelivery).cluster.committed "g" ⟨"t", 0⟩ = 2 ∧
      ∃ earlier member later, redelivery = earlier ++ .take member .commit :: later ∧
        (after earlier).Settled "g" ⟨"t", 0⟩ 1 := by
  have committed : (after redelivery).cluster.committed "g" ⟨"t", 0⟩ = 2 := by decide +kernel
  have below : 1 < (after redelivery).cluster.committed "g" ⟨"t", 0⟩ := by omega
  obtain ⟨earlier, member, later, split, settled, _⟩ :=
    (committed_records_went_through redelivery).1 "g" ⟨"t", 0⟩ 1 below
  exact ⟨committed, earlier, member, later, split, settled⟩

end Crew
end ChatRelay
