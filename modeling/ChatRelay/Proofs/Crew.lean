import ChatRelay.Proofs.Cluster
import ChatRelay.Proofs.ConsumeLoop.Phase

/-! Consume loops that share a broker. Each member of a cluster is driven by a loop of its own; the loops take
turns in any order, one event at a time, and the broker changes in between. The history tells which records
each loop was given and which of them it went through with. -/
namespace ChatRelay

open ConsumeLoop (Phase Event)

/-- A batch, named by the number of the poll that returned it. -/
structure Work where
  group : String
  member : Nat
  poll : Nat
deriving DecidableEq, Repr

inductive Deed where
  | polled (work : Work) (batch : List Record)
  /-- The record is no envelope. -/
  | skipped (work : Work) (record : Record)
  /-- The processor accepted the record's envelope. -/
  | processed (work : Work) (record : Record)

/-- How a loop gets past a record. -/
def Record.deed (record : Record) (work : Work) : Deed :=
  match record.body with
  | .error _ => .skipped work record
  | .ok _ => .processed work record

/-- Where the loop of a member is, and how many polls it has completed. -/
structure Task where
  phase : Phase := .polling
  polls : Nat := 0

namespace Task

def next (task : Task) (event : Event) (phase : Phase) : Task :=
  match event with
  | .polled _ => { phase, polls := task.polls + 1 }
  | _ => { task with phase }

@[simp] theorem phase_next (task : Task) (event : Event) (phase : Phase) :
    (task.next event phase).phase = phase := by
  cases event <;> rfl

/-- What an event adds to the history, `work` being the batch that is dealt with. -/
def deeds (work : Work) : Phase → Event → List Deed
  | .polling, .polled (.ok batch) => [.polled work batch]
  | .handling _ (record :: _), .skipped => [.skipped work record]
  | .handling _ (record :: _), .processed (.ok ()) => [.processed work record]
  | _, _ => []

end Task

/-- A loop that `ConsumeLoop.run` runs among the others takes part by moves of the crew, `run_reaches`, so that
what it commits was settled, `settled_run`. -/
structure Crew where
  cluster : Cluster := {}
  tasks : Std.ExtTreeMap Nat Task := ∅
  history : List Deed := []

namespace Crew

/-- What a loop does. A processor may answer as it likes; the broker's answers are its own. -/
inductive Act where
  | cancel
  | poll
  | skip
  | process (answer : Except Failure Unit)
  | commit
  | rewind

namespace Act

def operation? : Act → Option Worker.Operation
  | .poll => some .fetch
  | .commit => some .commit
  | .rewind => some .rewind
  | .cancel | .skip | .process _ => none

/-- How the act is answered. A poll does not return before it has caught up with the group. -/
def event? (worker : Worker) (broker : Broker) : Act → Option Event
  | .cancel => some .cancelled
  | .poll =>
    match worker.consumer.synchronise broker with
    | some _ => none
    | none => some (.polled (.ok (worker.consumer.fetch broker.topics).1))
  | .skip => some .skipped
  | .process answer => some (.processed answer)
  | .commit => some (.committed (worker.consumer.commit (worker.batch.map Record.mark) broker).1)
  | .rewind => some (.rewound (.ok ()))

/-- Only the processor tells that it processed. -/
theorem eq_process {worker : Worker} {broker : Broker} {act : Act} {answer : Except Failure Unit}
    (answered : act.event? worker broker = some (.processed answer)) : act = .process answer := by
  cases act with
  | process => cases answered; rfl
  | poll =>
    simp only [event?] at answered
    split at answered <;> cases answered
  | cancel | skip | commit | rewind => cases answered

end Act

inductive Move where
  | createTopic (topic : String) (partitions : Nat)
  | failPublishes (count : Nat)
  | append (partition : Partition) (data : Bytes)
  /-- A loop is set up with a new consumer. -/
  | join (id group : String) (maxRecords : Nat) (topics : List String)
  /-- A loop is dropped, at its end or before. -/
  | leave (member : Nat)
  /-- Within a poll, the consumer catches up with a new generation. -/
  | synchronise (member : Nat)
  | take (member : Nat) (act : Act)

/-- An act of a member's loop, if the phase of the loop allows it. -/
def take? (crew : Crew) (member : Nat) (act : Act) : Option Crew := do
  let task ← crew.tasks[member]?
  let worker ← crew.cluster.workers[member]?
  let event ← act.event? worker crew.cluster.broker
  let phase ← task.phase.after event
  let next := task.next event phase
  some {
    cluster := match act.operation? with
      | none => crew.cluster
      | some operation => crew.cluster.step (.operate member operation)
    tasks := crew.tasks.insert member next
    history := crew.history ++ Task.deeds ⟨worker.consumer.group, member, next.polls⟩ task.phase event }

/-- One move; what a member's loop does not allow does not happen. -/
def step (crew : Crew) : Move → Crew
  | .createTopic topic partitions =>
    { crew with cluster := crew.cluster.step (.createTopic topic partitions) }
  | .failPublishes count => { crew with cluster := crew.cluster.step (.failPublishes count) }
  | .append partition data => { crew with cluster := crew.cluster.step (.append partition data) }
  | .join id group maxRecords topics =>
    let cluster := crew.cluster.step (.join id group maxRecords topics)
    { crew with cluster, tasks := crew.tasks.insert cluster.broker.lastMember {} }
  | .leave member =>
    { crew with cluster := crew.cluster.step (.leave member), tasks := crew.tasks.erase member }
  | .synchronise member =>
    match crew.tasks[member]?.map Task.phase with
    | some Phase.polling => { crew with cluster := crew.cluster.step (.operate member .synchronise) }
    | _ => crew
  | .take member act => (crew.take? member act).getD crew

def run (crew : Crew) (moves : List Move) : Crew := moves.foldl step crew

def after (moves : List Move) : Crew := run {} moves

variable {crew next : Crew} {member other : Nat} {act : Act} {move : Move} {worker : Worker} {task : Task}

@[simp] theorem after_concat (moves : List Move) (move : Move) :
    after (moves ++ [move]) = (after moves).step move := by
  simp [after, run]

/-- A member catches up while its loop is polling, and at no other time. -/
theorem step_synchronise (crew : Crew) (member : Nat) :
    crew.step (.synchronise member) = crew ∨
      ∃ task, crew.tasks[member]? = some task ∧ task.phase = .polling ∧
        crew.step (.synchronise member) =
          { crew with cluster := crew.cluster.step (.operate member .synchronise) } := by
  simp only [step]
  split
  · rename_i polling
    obtain ⟨task, is, polling⟩ := Option.map_eq_some_iff.mp polling
    exact .inr ⟨task, is, polling, rfl⟩
  · exact .inl rfl

theorem step_take (crew : Crew) (member : Nat) (act : Act) :
    crew.step (.take member act) = crew ∨ crew.take? member act = some (crew.step (.take member act)) := by
  cases taken : crew.take? member act with
  | none => exact .inl (by simp [step, taken])
  | some next => exact .inr (by simp [step, taken])

/-- A move does not happen, or goes to the broker and is no part of the history, or is an act of a loop. -/
theorem step_cases (crew : Crew) (move : Move) :
    crew.step move = crew ∨
    (∃ made, (∀ member, made ≠ .operate member .commit) ∧
      (crew.step move).cluster = crew.cluster.step made ∧ (crew.step move).history = crew.history) ∨
    ∃ member act, move = .take member act ∧ crew.take? member act = some (crew.step move) := by
  cases move with
  | createTopic topic partitions => exact .inr (.inl ⟨.createTopic topic partitions, by simp, rfl, rfl⟩)
  | failPublishes count => exact .inr (.inl ⟨.failPublishes count, by simp, rfl, rfl⟩)
  | append partition data => exact .inr (.inl ⟨.append partition data, by simp, rfl, rfl⟩)
  | join id group maxRecords topics =>
    exact .inr (.inl ⟨.join id group maxRecords topics, by simp, rfl, rfl⟩)
  | leave member => exact .inr (.inl ⟨.leave member, by simp, rfl, rfl⟩)
  | synchronise member =>
    rcases crew.step_synchronise member with same | ⟨_, _, _, stepped⟩
    · exact .inl same
    · exact .inr (.inl ⟨.operate member .synchronise, by simp, by rw [stepped], by rw [stepped]⟩)
  | take member act =>
    rcases crew.step_take member act with same | taken
    · exact .inl same
    · exact .inr (.inr ⟨member, act, rfl, taken⟩)

theorem take?_eq_some (taken : crew.take? member act = some next) :
    ∃ task worker event phase, crew.tasks[member]? = some task ∧
      crew.cluster.workers[member]? = some worker ∧
      act.event? worker crew.cluster.broker = some event ∧ task.phase.after event = some phase ∧
      next.cluster = (match act.operation? with
        | none => crew.cluster
        | some operation => crew.cluster.step (.operate member operation)) ∧
      next.tasks = crew.tasks.insert member (task.next event phase) ∧
      next.history = crew.history ++
        Task.deeds ⟨worker.consumer.group, member, (task.next event phase).polls⟩ task.phase event := by
  simp only [take?, bind, Option.bind_eq_some_iff] at taken
  obtain ⟨task, is, worker, found, event, answered, phase, allowed, taken⟩ := taken
  cases taken
  exact ⟨task, worker, event, phase, is, found, answered, allowed, rfl, rfl, rfl⟩

/-- A move is one operation on the cluster, if any. -/
theorem cluster_step (crew : Crew) (move : Move) :
    (crew.step move).cluster = crew.cluster ∨
      ∃ made, (crew.step move).cluster = crew.cluster.step made ∧
        (∀ member topics, made ≠ .operate member (.subscribe topics)) ∧
        ∀ id group maxRecords topics, made = .join id group maxRecords topics →
          move = .join id group maxRecords topics := by
  cases move with
  | createTopic topic partitions => exact .inr ⟨.createTopic topic partitions, rfl, by simp, by simp⟩
  | failPublishes count => exact .inr ⟨.failPublishes count, rfl, by simp, by simp⟩
  | append partition data => exact .inr ⟨.append partition data, rfl, by simp, by simp⟩
  | join id group maxRecords topics =>
    refine .inr ⟨.join id group maxRecords topics, rfl, by simp, ?_⟩
    rintro _ _ _ _ ⟨⟩
    rfl
  | leave member => exact .inr ⟨.leave member, rfl, by simp, by simp⟩
  | synchronise member =>
    rcases crew.step_synchronise member with same | ⟨_, _, _, stepped⟩
    · exact .inl (by rw [same])
    · exact .inr ⟨.operate member .synchronise, by rw [stepped], by simp, by simp⟩
  | take member act =>
    simp only [step]
    cases taken : crew.take? member act with
    | none => exact .inl rfl
    | some next =>
      obtain ⟨_, _, _, _, _, _, _, _, cluster, _, _⟩ := take?_eq_some taken
      rw [Option.getD_some, cluster]
      cases act with
      | cancel | skip | process => exact .inl rfl
      | poll => exact .inr ⟨.operate member .fetch, rfl, by simp, by simp⟩
      | commit => exact .inr ⟨.operate member .commit, rfl, by simp, by simp⟩
      | rewind => exact .inr ⟨.operate member .rewind, rfl, by simp, by simp⟩

/-- What a move does to the cluster; topics are created by nothing else than the moves that do so. -/
theorem acts_step (crew : Crew) (move : Move) :
    ∃ acts : List Cluster.Move, (crew.step move).cluster = crew.cluster.run acts ∧
      ∀ topic partitions, .createTopic topic partitions ∈ acts → move = .createTopic topic partitions := by
  cases move with
  | createTopic topic partitions => exact ⟨[.createTopic topic partitions], rfl, by simp⟩
  | failPublishes count => exact ⟨[.failPublishes count], rfl, by simp⟩
  | append partition data => exact ⟨[.append partition data], rfl, by simp⟩
  | join id group maxRecords topics => exact ⟨[.join id group maxRecords topics], rfl, by simp⟩
  | leave member => exact ⟨[.leave member], rfl, by simp⟩
  | synchronise member =>
    rcases crew.step_synchronise member with same | ⟨_, _, _, stepped⟩
    · exact ⟨[], by rw [same]; rfl, by simp⟩
    · exact ⟨[.operate member .synchronise], by rw [stepped]; rfl, by simp⟩
  | take member act =>
    simp only [step]
    cases taken : crew.take? member act with
    | none => exact ⟨[], rfl, by simp⟩
    | some next =>
      obtain ⟨_, _, _, _, _, _, _, _, cluster, _, _⟩ := take?_eq_some taken
      rw [Option.getD_some, cluster]
      split
      · exact ⟨[], rfl, by simp⟩
      · rename_i operation _
        exact ⟨[.operate member operation], rfl, by simp⟩

/-- What a crew does to its cluster is what the cluster could do alone. -/
theorem acts_run (crew : Crew) (moves : List Move) :
    ∃ acts : List Cluster.Move, (crew.run moves).cluster = crew.cluster.run acts ∧
      ∀ topic partitions, .createTopic topic partitions ∈ acts → .createTopic topic partitions ∈ moves := by
  induction moves generalizing crew with
  | nil => exact ⟨[], rfl, by simp⟩
  | cons move moves ih =>
    obtain ⟨first, stepped, made⟩ := crew.acts_step move
    obtain ⟨acts, reached, among⟩ := ih (crew.step move)
    refine ⟨first ++ acts, ?_, fun topic partitions asked => ?_⟩
    · rw [run, List.foldl_cons, ← run, reached, stepped, Cluster.run, Cluster.run, Cluster.run,
        List.foldl_append]
    · rcases List.mem_append.mp asked with asked | asked
      · exact made topic partitions asked ▸ List.mem_cons_self
      · exact .tail _ (among topic partitions asked)

theorem cluster_sound_step (sound : crew.cluster.Sound) (move : Move) : (crew.step move).cluster.Sound := by
  rcases crew.cluster_step move with same | ⟨made, cluster, _⟩
  · rw [same]
    exact sound
  · rw [cluster]
    exact sound.step made

def Move.member? : Move → Option Nat
  | .leave member | .synchronise member | .take member _ => some member
  | .createTopic .. | .failPublishes _ | .append .. | .join .. => none

theorem tasks_join (crew : Crew) (id group : String) (maxRecords : Nat) (topics : List String) :
    (crew.step (.join id group maxRecords topics)).tasks =
      crew.tasks.insert (crew.cluster.broker.lastMember + 1) {} := by
  have tasks : (crew.step (.join id group maxRecords topics)).tasks =
      crew.tasks.insert (max crew.cluster.broker.lastMember (crew.cluster.broker.lastMember + 1)) {} := rfl
  rw [tasks, Nat.max_eq_right (Nat.le_succ _)]

theorem step_other (sound : crew.cluster.Sound) (found : crew.cluster.workers[member]? = some worker)
    (is : crew.tasks[member]? = some task) (move : Move) (different : move.member? ≠ some member) :
    (crew.step move).cluster.workers[member]? = some worker ∧
      (crew.step move).tasks[member]? = some task := by
  have keeps (made : Cluster.Move) := sound.worker?_step found made
  cases move with
  | createTopic topic partitions => exact ⟨keeps (.createTopic topic partitions), is⟩
  | failPublishes count => exact ⟨keeps (.failPublishes count), is⟩
  | append partition data => exact ⟨keeps (.append partition data), is⟩
  | join id group maxRecords topics =>
    have given := (sound member worker found).2.1
    refine ⟨keeps (.join id group maxRecords topics), ?_⟩
    have fresh : crew.cluster.broker.lastMember + 1 ≠ member := by omega
    rw [tasks_join]
    simpa [Std.ExtTreeMap.getElem?_insert, fresh] using is
  | leave other =>
    have different : other ≠ member := fun same => different (by rw [same]; rfl)
    have kept := keeps (.leave other)
    simp only [different, ↓reduceIte] at kept
    refine ⟨kept, ?_⟩
    simpa [step, Std.ExtTreeMap.getElem?_erase, different] using is
  | synchronise other =>
    have different : other ≠ member := fun same => different (by rw [same]; rfl)
    rcases crew.step_synchronise other with same | ⟨_, _, _, stepped⟩
    · rw [same]
      exact ⟨found, is⟩
    · rw [stepped]
      exact ⟨by simpa [different] using keeps (.operate other .synchronise), is⟩
  | take other act =>
    have different : other ≠ member := fun same => different (by rw [same]; rfl)
    simp only [step]
    cases taken : crew.take? other act with
    | none => exact ⟨found, is⟩
    | some next =>
      obtain ⟨_, _, _, _, _, _, _, _, cluster, tasks, _⟩ := take?_eq_some taken
      refine ⟨?_, ?_⟩
      · rw [Option.getD_some, cluster]
        split
        · exact found
        · rename_i operation _
          simpa [different] using keeps (.operate other operation)
      · rw [Option.getD_some, tasks]
        simpa [Std.ExtTreeMap.getElem?_insert, different] using is

theorem take?_other (taken : crew.take? member act = some next) (different : other ≠ member)
    (found : next.cluster.workers[other]? = some worker) (is : next.tasks[other]? = some task) :
    crew.cluster.workers[other]? = some worker ∧ crew.tasks[other]? = some task := by
  obtain ⟨_, _, _, _, _, _, _, _, cluster, tasks, _⟩ := take?_eq_some taken
  constructor
  · rw [cluster] at found
    split at found
    · exact found
    · rcases Cluster.worker_step found with was | ⟨_, _, moved, _⟩ | ⟨_, _, _, _, joined, _⟩
      · exact was
      · cases moved
        exact absurd rfl different
      · cases joined
  · rw [tasks] at is
    simpa [Std.ExtTreeMap.getElem?_insert, Ne.symm different] using is

/-- Where a member after a move comes from: it stays as it was, or catches up, or takes an act, or is new. -/
theorem member_step (sound : crew.cluster.Sound) (move : Move)
    (found : (crew.step move).cluster.workers[member]? = some worker)
    (is : (crew.step move).tasks[member]? = some task) :
    (crew.cluster.workers[member]? = some worker ∧ crew.tasks[member]? = some task ∧
      ∀ act, move = .take member act → crew.step move = crew) ∨
    (∃ before, move = .synchronise member ∧ crew.cluster.workers[member]? = some before ∧
      crew.tasks[member]? = some task ∧ task.phase = .polling ∧
      worker = (before.perform crew.cluster.broker .synchronise).1 ∧
      crew.step move = { crew with cluster := crew.cluster.step (.operate member .synchronise) }) ∨
    (∃ act, move = .take member act ∧ crew.take? member act = some (crew.step move)) ∨
    ∃ id group maxRecords topics, move = .join id group maxRecords topics ∧ task = {} ∧
      member = crew.cluster.broker.lastMember + 1 ∧
      worker = { consumer := { Consumer.create id group maxRecords with member := some member } } := by
  cases move with
  | createTopic | failPublishes | append => exact .inl ⟨found, is, by simp⟩
  | join id group maxRecords topics =>
    have found : (crew.cluster.step (.join id group maxRecords topics)).workers[member]? = some worker := found
    rw [tasks_join] at is
    rcases Cluster.worker_step found with was | ⟨_, _, moved, _⟩ | ⟨_, _, _, _, joined, rfl, rfl⟩
    · have given := (sound member worker was).2.1
      have different : crew.cluster.broker.lastMember + 1 ≠ member := by omega
      exact .inl ⟨was, by simpa [Std.ExtTreeMap.getElem?_insert, different] using is, by simp⟩
    · cases moved
    · cases joined
      rw [Std.ExtTreeMap.getElem?_insert_self] at is
      cases is
      exact .inr (.inr (.inr ⟨id, group, maxRecords, topics, rfl, rfl, rfl, rfl⟩))
  | leave other =>
    have found : (crew.cluster.step (.leave other)).workers[member]? = some worker := found
    have is : (crew.tasks.erase other)[member]? = some task := is
    rw [Std.ExtTreeMap.getElem?_erase] at is
    split at is
    · cases is
    · rcases Cluster.worker_step found with was | ⟨_, _, moved, _⟩ | ⟨_, _, _, _, joined, _⟩
      · exact .inl ⟨was, is, by simp⟩
      · cases moved
      · cases joined
  | synchronise other =>
    rcases crew.step_synchronise other with same | ⟨_, polls, polling, stepped⟩
    · rw [same] at found is
      exact .inl ⟨found, is, by simp⟩
    · rw [stepped] at found is
      rcases Cluster.worker_step found with was | ⟨_, before, moved, was, rfl⟩ | ⟨_, _, _, _, joined, _⟩
      · exact .inl ⟨was, is, by simp⟩
      · cases moved
        cases polls.symm.trans is
        exact .inr (.inl ⟨before, rfl, was, is, polling, rfl, stepped⟩)
      · cases joined
  | take other act =>
    rcases crew.step_take other act with same | taken
    · rw [same] at found is
      exact .inl ⟨found, is, fun _ _ => same⟩
    · by_cases same : member = other
      · subst same
        exact .inr (.inr (.inl ⟨act, rfl, taken⟩))
      · obtain ⟨was, stood⟩ := take?_other taken same found is
        refine .inl ⟨was, stood, fun act moved => ?_⟩
        cases moved
        exact absurd rfl same

/-- An envelope is processed when the processor of a member that has it before itself accepts it. -/
theorem processed_step (move : Move) (done : .processed work record ∈ (crew.step move).history) :
    .processed work record ∈ crew.history ∨
      ∃ task worker batch rest, move = .take work.member (.process (.ok ())) ∧
        crew.tasks[work.member]? = some task ∧ crew.cluster.workers[work.member]? = some worker ∧
        work.group = worker.consumer.group ∧ task.phase = .handling batch (record :: rest) := by
  rcases crew.step_cases move with same | ⟨_, _, _, history⟩ | ⟨member, act, rfl, taken⟩
  · exact .inl (same ▸ done)
  · exact .inl (history ▸ done)
  · obtain ⟨task, worker, event, phase, is, found, answered, allowed, _, _, history⟩ := take?_eq_some taken
    rw [history] at done
    rcases List.mem_append.mp done with done | done
    · exact .inl done
    · refine .inr ?_
      have leads := Phase.after_eq_some_iff.mp allowed
      generalize now : task.phase = current at leads done
      cases leads with
      | cancelled | unanswered | refused | committed | rewound => simp [Task.deeds] at done
      | idle | polled | skipped => simp [Task.deeds] at done
      | processed =>
        cases List.mem_singleton.mp done
        exact ⟨task, worker, _, _, by rw [Act.eq_process answered], is, found, rfl, now⟩

/-- Before an envelope the processor answers, and nothing else happens. -/
theorem take?_facing (is : crew.tasks[member]? = some task)
    (handling : task.phase = .handling batch (record :: rest)) (body : record.body = .ok envelope)
    (unanswered : ∀ answer, act ≠ .process answer) : crew.take? member act = none := by
  apply Option.eq_none_iff_forall_ne_some.mpr
  intro next taken
  obtain ⟨_, worker, event, phase, again, _, answered, allowed, _⟩ := take?_eq_some taken
  cases is.symm.trans again
  rw [handling] at allowed
  have leads := Phase.after_eq_some_iff.mp allowed
  cases act with
  | process answer => exact unanswered answer rfl
  | cancel => cases answered; cases leads
  | poll =>
    simp only [Act.event?] at answered
    split at answered
    · cases answered
    · cases answered; cases leads
  | skip =>
    cases answered
    cases leads with
    | skipped fault => cases body.symm.trans fault
  | commit => cases answered; cases leads
  | rewind => cases answered; cases leads

end Crew
end ChatRelay
