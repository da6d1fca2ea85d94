import ChatRelay.Proofs.Chat.Gathering
import ChatRelay.Proofs.Cluster.Confinement
import ChatRelay.Proofs.Crew.Delivery

namespace ChatRelay

open ConsumeLoop (Phase Event)

variable {plan : Plan} {crew next : Crew} {member : Nat} {worker : Worker} {updates : List ChatUpdate}

theorem Plan.group_inj (plan : Plan) (same : plan.group first = plan.group second) : first = second := by
  have sources := congrArg plan.source same
  simpa using sources

theorem Plan.updates_mono (plan : Plan) {earlier later : Topics} (within : earlier.Within later)
    (member : update ∈ plan.updates earlier) : update ∈ plan.updates later := by
  obtain ⟨source, envelope, member, among⟩ := (plan.mem_updates_iff earlier update).mp member
  obtain ⟨partition, offset, data, same, present, decoded⟩ :=
    (plan.mem_envelopes_iff earlier source envelope).mp member
  refine (plan.mem_updates_iff later update).mpr ⟨source, envelope, ?_, among⟩
  exact (plan.mem_envelopes_iff later source envelope).mpr
    ⟨partition, offset, data, same, within present, decoded⟩

namespace Crew

/-- Whoever joins is of the group of a source, and subscribes to its topic. -/
def Move.Fits (plan : Plan) : Move → Prop
  | .join _ group _ topics => ∃ source, group = plan.group source ∧ topics = [plan.topic source]
  | _ => True

/-- Each member is of the group of a source, and that group stays within the topic of the source. -/
structure Staffed (plan : Plan) (crew : Crew) : Prop where
  sound : crew.Sound
  confined : ∀ source, crew.cluster.Confined (plan.group source) (plan.topic source)
  employed : ∀ (member : Nat) worker, crew.cluster.workers[member]? = some worker →
    ∃ source, worker.consumer.group = plan.group source

namespace Staffed

theorem step (staffed : crew.Staffed plan) (fits : move.Fits plan) : (crew.step move).Staffed plan := by
  refine ⟨staffed.sound.step move, ?_, ?_⟩
  · intro source
    rcases crew.cluster_step move with same | ⟨made, cluster, fixed, joins⟩
    · rw [same]
      exact staffed.confined source
    · rw [cluster]
      apply (staffed.confined source).step staffed.sound.cluster
      cases made with
      | join id group maxRecords topics =>
        cases joins id group maxRecords topics rfl
        obtain ⟨other, rfl, rfl⟩ := fits
        intro same
        rw [plan.group_inj same]
      | operate member operation =>
        cases operation with
        | subscribe topics => exact absurd rfl (fixed member topics)
        | synchronise | fetch | commit | rewind => trivial
      | createTopic | failPublishes | append | leave => trivial
  · intro member worker found
    rcases crew.cluster_step move with same | ⟨made, cluster, _, joins⟩
    · rw [same] at found
      exact staffed.employed member worker found
    · rw [cluster] at found
      rcases Cluster.worker_step found with
          was | ⟨operation, before, _, was, rfl⟩ | ⟨id, group, maxRecords, topics, rfl, _, rfl⟩
      · exact staffed.employed member worker was
      · obtain ⟨present, _⟩ := staffed.sound.cluster member before was
        rw [(before.identity_perform crew.cluster.broker operation present).2]
        exact staffed.employed member before was
      · cases joins id group maxRecords topics rfl
        obtain ⟨source, rfl, _⟩ := fits
        exact ⟨source, rfl⟩

end Staffed
end Crew

namespace Gathering

theorem facing?_eq_some_iff :
    facing? plan crew member = some updates ↔
      ∃ task worker batch record rest envelope, crew.tasks[member]? = some task ∧
        crew.cluster.workers[member]? = some worker ∧ task.phase = .handling batch (record :: rest) ∧
        record.body = .ok envelope ∧ updates = (plan.source worker.consumer.group).updates envelope := by
  simp only [facing?, bind, Option.bind_eq_some_iff]
  constructor
  · rintro ⟨task, is, worker, found, facing⟩
    split at facing
    · rename_i batch record rest handling
      cases body : record.body with
      | error fault => simp [body, Except.toOption] at facing
      | ok envelope =>
        simp only [body, Except.toOption, Option.map_some, Option.some.injEq] at facing
        exact ⟨task, worker, batch, record, rest, envelope, is, found, handling, body, facing.symm⟩
    · cases facing
  · rintro ⟨task, worker, batch, record, rest, envelope, is, found, handling, body, rfl⟩
    refine ⟨task, is, worker, found, ?_⟩
    simp [handling, body, Except.toOption]

/-- What a member has to deal with is in the topic of its source. -/
theorem facing?_mem_updates (staffed : crew.Staffed plan) (facing : facing? plan crew member = some updates)
    (among : update ∈ updates) : update ∈ plan.updates crew.cluster.broker.topics := by
  obtain ⟨task, worker, batch, record, rest, envelope, is, found, handling, body, rfl⟩ :=
    facing?_eq_some_iff.mp facing
  obtain ⟨source, group⟩ := staffed.employed member worker found
  rw [group, plan.source_group] at among
  have standing := staffed.sound.standing member worker task found is
  rw [Crew.Standing, handling] at standing
  obtain ⟨done, start, split, _, reads, _⟩ := standing.through
  have present : record ∈ batch := by simp [split]
  obtain ⟨first, held⟩ := reads.held present
  obtain ⟨last, position⟩ := reads.reaches held
  obtain ⟨data, entry, decoded⟩ := reads.record_eq present
  refine (plan.mem_updates_iff _ update).mpr ⟨source, envelope, ?_, among⟩
  refine (plan.mem_envelopes_iff _ source envelope).mpr ⟨record.partition, record.offset, data, ?_, entry, ?_⟩
  · exact (staffed.confined source).positions member worker found group record.partition last position
  · rw [← decoded, body]

/-- A member that has updates to deal with does nothing else before. -/
theorem facing?_step (staffed : crew.Staffed plan) (facing : facing? plan crew member = some updates)
    (stays : move ≠ .leave member) (unanswered : ∀ answer, move ≠ .take member (.process answer)) :
    facing? plan (crew.step move) member = some updates := by
  obtain ⟨task, worker, batch, record, rest, envelope, is, found, handling, body, rfl⟩ :=
    facing?_eq_some_iff.mp facing
  by_cases concerns : move.member? = some member
  · have same : crew.step move = crew := by
      cases move with
      | createTopic | failPublishes | append | join => cases concerns
      | leave other => cases concerns; exact absurd rfl stays
      | synchronise other =>
        cases concerns
        rcases crew.step_synchronise member with same | ⟨_, again, polling, _⟩
        · exact same
        · cases is.symm.trans again
          cases handling.symm.trans polling
      | take other act =>
        cases concerns
        have other (answer : Except Failure Unit) : act ≠ .process answer :=
          fun same => unanswered answer (by rw [same])
        simp [Crew.step, Crew.take?_facing is handling body other]
    rw [same]
    exact facing
  · obtain ⟨found, is⟩ := Crew.step_other staffed.sound.cluster found is move concerns
    exact facing?_eq_some_iff.mpr ⟨task, worker, batch, record, rest, envelope, is, found, handling, body, rfl⟩

end Gathering
end ChatRelay
