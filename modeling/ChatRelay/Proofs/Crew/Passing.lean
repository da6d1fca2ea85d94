import ChatRelay.Proofs.Cluster.Cover
import ChatRelay.Proofs.Crew.Delivery

/-! What the members of a group have got past, in the order in which they did. An event of a loop adds to it
what the loop no longer has before itself, and whatever is done elsewhere adds nothing. -/
namespace ChatRelay

open ConsumeLoop (Phase Event)

namespace ConsumeLoop

/-- The records that a loop has been given and not yet got past. -/
def Phase.pending : Phase → List Record
  | .handling _ rest => rest
  | .polling | .failed | .ended _ => []

def Event.brought : Event → List Record
  | .polled (.ok batch) => batch
  | .polled (.error _) | .cancelled | .skipped | .processed _ | .committed _ | .rewound _ => []

end ConsumeLoop

def Deed.passed? (group : String) : Deed → Option Record
  | .polled .. => none
  | .skipped work record | .processed work record => if work.group = group then some record else none

namespace Crew

/-- The records of a partition that members of a group got past, in the order in which they did. -/
def passed (crew : Crew) (group : String) (partition : Partition) : List Record :=
  (crew.history.filterMap (·.passed? group)).filter (·.partition = partition)

variable {crew next : Crew} {member : Nat} {worker : Worker} {task : Task} {act : Act} {event : Event}
variable {phase after : Phase} {work : Work} {group : String} {partition : Partition} {move : Move}

/-- What a loop is given it has before itself until it got past it. -/
theorem pending_conserved (work : Work) (leads : phase.Leads event after)
    (accepted : ∀ failure, event ≠ .processed (.error failure)) :
    (Task.deeds work phase event).filterMap (·.passed? work.group) ++ after.pending =
      phase.pending ++ event.brought := by
  cases leads with
  | @polled batch nonempty => simp [Task.deeds, Deed.passed?, Phase.pending, Event.brought]
  | refused => exact absurd rfl (accepted _)
  | @committed batch answer => cases answer <;> simp [Task.deeds, Phase.proceed, Phase.pending, Event.brought]
  | @rewound answer => cases answer <;> simp [Task.deeds, Phase.proceed, Phase.pending, Event.brought]
  | cancelled | unanswered | idle | skipped | processed =>
    simp [Task.deeds, Deed.passed?, Phase.pending, Event.brought]

theorem passed_of_history (history : next.history = crew.history ++ deeds) :
    next.passed group partition =
      crew.passed group partition ++
        (deeds.filterMap (·.passed? group)).filter (·.partition = partition) := by
  simp [passed, history]

/-- What a member of another group gets past is none of the group's. -/
theorem passed?_deeds_other (phase : Phase) (event : Event) (other : work.group ≠ group) :
    (Task.deeds work phase event).filterMap (·.passed? group) = [] := by
  unfold Task.deeds
  split <;> simp [Deed.passed?, other]

theorem topics_take (taken : crew.take? member act = some next) :
    next.cluster.broker.topics = crew.cluster.broker.topics := by
  obtain ⟨_, worker, _, _, _, present, _, _, cluster, _, _⟩ := take?_eq_some taken
  rw [cluster]
  split
  · rfl
  · simp [Cluster.step, present, worker.topics_perform]

/-- Of what is done elsewhere the group has neither records nor offsets. -/
theorem elsewhere_step (sound : crew.cluster.Sound) (move : Move)
    (elsewhere : ∀ member act, move = .take member act → crew.cluster.groupOf? member ≠ some group) :
    (crew.step move).passed group = crew.passed group ∧
      (crew.step move).cluster.broker.committed? group = crew.cluster.broker.committed? group := by
  rcases crew.step_cases move with same | ⟨made, other, cluster, history⟩ | ⟨member, act, rfl, taken⟩
  · rw [same]
    exact ⟨rfl, rfl⟩
  · refine ⟨by unfold passed; rw [history], funext fun partition => ?_⟩
    rw [cluster]
    rcases Cluster.committed?_step sound made group partition with unchanged | ⟨member, _, commit, _⟩
    · exact unchanged
    · exact absurd commit (other member)
  · have foreign := elsewhere member act rfl
    obtain ⟨task, worker, event, phase, _, present, _, _, cluster, _, history⟩ := take?_eq_some taken
    have other : worker.consumer.group ≠ group := mt (Cluster.groupOf?_eq_some_iff present).mpr foreign
    refine ⟨funext fun partition => ?_, funext fun partition => ?_⟩
    · rw [passed_of_history history, passed?_deeds_other task.phase event other]
      simp
    · rw [cluster]
      split
      · rfl
      · rename_i operation _
        rcases Cluster.committed?_step sound (.operate member operation) group partition with
            unchanged | ⟨_, _, moved, ⟨again, found, own, _⟩, _⟩
        · exact unchanged
        · cases moved
          cases present.symm.trans found
          exact absurd own other

theorem groupOf?_of_step (sound : crew.cluster.Sound)
    (joins : ∀ id maxRecords topics, move ≠ .join id group maxRecords topics)
    (there : (crew.step move).cluster.groupOf? member = some group) :
    crew.cluster.groupOf? member = some group := by
  rcases crew.cluster_step move with same | ⟨made, cluster, _, joined⟩
  · rwa [same] at there
  · rw [cluster, sound.groupOf?_step made member] at there
    cases made with
    | join id name maxRecords topics =>
      have other : name ≠ group := by
        rintro rfl
        exact joins id maxRecords topics (joined id name maxRecords topics rfl)
      dsimp only at there
      split at there
      · cases there
        exact absurd rfl other
      · exact there
    | leave other =>
      dsimp only at there
      split at there
      · cases there
      · exact there
    | createTopic | failPublishes | append | operate => exact there

theorem topics_step (crew : Crew) (move : Move) :
    (crew.step move).cluster.broker.topics =
      match move with
      | .createTopic topic partitions => (crew.cluster.broker.createTopic topic partitions).topics
      | .append partition data => (crew.cluster.broker.append partition data).2.topics
      | _ => crew.cluster.broker.topics := by
  cases move with
  | synchronise member =>
    rcases crew.step_synchronise member with same | ⟨_, _, _, stepped⟩
    · rw [same]
    · rw [stepped]
      exact crew.cluster.topics_step (.operate member .synchronise)
  | take member act =>
    rcases crew.step_take member act with same | taken
    · rw [same]
    · exact topics_take taken
  | leave member => exact crew.cluster.topics_step (.leave member)
  | createTopic | failPublishes | append | join => rfl

/-- A record that is there after a move was there before, or the move appends it. -/
theorem record?_step (crew : Crew) (move : Move) (natural : 0 ≤ partition.index)
    (found : (crew.step move).cluster.broker.topics.record? partition offset = some data) :
    crew.cluster.broker.topics.record? partition offset = some data ∨ move = .append partition data := by
  rw [topics_step] at found
  split at found
  · rw [Broker.record?_createTopic] at found
    exact .inl found
  · rcases Broker.record?_append natural found with there | ⟨rfl, rfl⟩
    · exact .inl there
    · exact .inr rfl
  · exact .inl found

theorem within_step (crew : Crew) (move : Move) :
    crew.cluster.broker.topics.Within (crew.step move).cluster.broker.topics := by
  rw [topics_step]
  split
  · exact crew.cluster.broker.within_createTopic _ _
  · exact crew.cluster.broker.within_append _ _
  · exact .refl _

theorem partitionCount_step (crew : Crew) (move : Move) (topic : String) :
    crew.cluster.broker.topics.partitionCount topic ≤
      (crew.step move).cluster.broker.topics.partitionCount topic := by
  rw [topics_step]
  split
  · rw [Broker.partitionCount_createTopic]
    split
    · rename_i same
      exact same ▸ Nat.le_max_right _ _
    · exact Nat.le_refl _
  · exact Nat.le_of_eq (Broker.partitionCount_append ..).symm
  · exact Nat.le_refl _

/-- What a group got past it was given by a poll. -/
theorem polled_of_passed (moves : List Move) (among : deed ∈ (Crew.after moves).history)
    (past : deed.passed? group = some record) :
    ∃ work batch, work.group = group ∧ .polled work batch ∈ (Crew.after moves).history := by
  induction moves using List.reverseRecOn with
  | nil => simp [Crew.after, run] at among
  | append_singleton moves move ih =>
    have sound := sound_after moves
    rw [after_concat] at among ⊢
    obtain ⟨added, history⟩ := ((Crew.after moves).grown_step move).history
    have earlier (among : deed ∈ (Crew.after moves).history) :
        ∃ work batch, work.group = group ∧ .polled work batch ∈ ((Crew.after moves).step move).history := by
      obtain ⟨work, batch, same, polled⟩ := ih among
      exact ⟨work, batch, same, history ▸ List.mem_append_left added polled⟩
    rcases (Crew.after moves).step_cases move with same | ⟨_, _, _, kept⟩ | ⟨member, act, rfl, taken⟩
    · exact earlier (same ▸ among)
    · exact earlier (kept ▸ among)
    · obtain ⟨task, worker, event, phase, is, present, _, allowed, _, _, taken⟩ := take?_eq_some taken
      rw [taken] at among
      rcases List.mem_append.mp among with among | among
      · exact earlier among
      · have standing := sound.standing member worker task present is
        have leads := Phase.after_eq_some_iff.mp allowed
        unfold Standing at standing
        generalize task.phase = current at leads standing among
        cases leads with
        | cancelled | unanswered | refused | committed | rewound => simp [Task.deeds] at among
        | idle | polled =>
          cases List.mem_singleton.mp among
          cases past
        | skipped | processed =>
          cases List.mem_singleton.mp among
          have own : worker.consumer.group = group := by
            by_contra other
            simp [Deed.passed?, other] at past
          exact ⟨_, _, own, history ▸ List.mem_append_left added standing.polled⟩

/-- A move is an act of a member of the group, or none of its members acts. -/
theorem act_or_elsewhere (crew : Crew) (group : String) (move : Move) :
    (∃ member act, move = .take member act ∧ crew.cluster.groupOf? member = some group) ∨
      ∀ member act, move = .take member act → crew.cluster.groupOf? member ≠ some group := by
  by_cases own : ∃ member act, move = .take member act ∧ crew.cluster.groupOf? member = some group
  · exact .inl own
  · exact .inr fun member act moved there => own ⟨member, act, moved, there⟩

/-- The envelopes among the records of a partition that members of a group got past. -/
def envelopes (crew : Crew) (group : String) (partition : Partition) : List Envelope :=
  (crew.passed group partition).filterMap (·.body.toOption)

/-- No envelope is got past but by being processed. -/
theorem envelopes_step (sound : crew.cluster.Sound)
    (other : ∀ member answer, move = .take member (.process answer) →
      crew.cluster.groupOf? member ≠ some group) (partition : Partition) :
    (crew.step move).envelopes group partition = crew.envelopes group partition := by
  unfold envelopes
  rcases crew.act_or_elsewhere group move with ⟨member, act, rfl, there⟩ | elsewhere
  · rcases crew.step_take member act with same | taken
    · rw [same]
    · obtain ⟨task, worker, event, phase, _, present, answered, allowed, _, _, history⟩ := take?_eq_some taken
      have own : worker.consumer.group = group := (Cluster.groupOf?_eq_some_iff present).mp there
      rw [passed_of_history history, List.filterMap_append]
      have leads := Phase.after_eq_some_iff.mp allowed
      generalize task.phase = current at leads
      cases leads with
      | cancelled | unanswered | refused | committed | rewound => simp [Task.deeds]
      | idle | polled => simp [Task.deeds, Deed.passed?]
      | @skipped _ record _ _ body =>
        by_cases here : record.partition = partition <;>
          simp [Task.deeds, Deed.passed?, own, here, body, Except.toOption]
      | processed =>
        cases Act.eq_process answered
        exact absurd there (other member _ rfl)
  · rw [(elsewhere_step sound move elsewhere).1]

/-- The envelope that a member of the group has before itself is got past when it is accepted. -/
theorem envelopes_process (is : crew.tasks[member]? = some task)
    (found : crew.cluster.workers[member]? = some worker) (own : worker.consumer.group = group)
    (handling : task.phase = .handling batch (record :: rest)) (body : record.body = .ok envelope)
    (partition : Partition) :
    (crew.step (.take member (.process (.ok ())))).envelopes group partition =
      crew.envelopes group partition ++ if record.partition = partition then [envelope] else [] := by
  have leads : (Phase.handling batch (record :: rest)).after (.processed (.ok ())) =
      some (.handling batch rest) := Phase.after_eq_some_iff.mpr (.processed body)
  have history : (crew.step (.take member (.process (.ok ())))).history =
      crew.history ++ [.processed ⟨worker.consumer.group, member, task.polls⟩ record] := by
    simp [step, take?, is, found, Act.event?, leads, handling, Task.deeds, Task.next]
  unfold envelopes
  rw [passed_of_history history, List.filterMap_append]
  by_cases here : record.partition = partition <;> simp [Deed.passed?, own, here, body, Except.toOption]

end Crew
end ChatRelay
