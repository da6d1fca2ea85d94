import Mathlib.Algebra.BigOperators.Group.Finset.Piecewise
import ChatRelay.Proofs.Audience
import ChatRelay.Proofs.Consumer.Backlog
import ChatRelay.Proofs.Envelope.Verdict
import ChatRelay.Proofs.Mailing

namespace ChatRelay

/-- What a record counts for that is read as a message. -/
def Envelope.letters : Except Failure Envelope → Nat
  | .ok (.message _) => 1
  | .ok (.ack _) | .error _ => 0

def Record.letters (records : List Record) : Nat :=
  (records.map fun record => Envelope.letters record.body).sum

namespace Topics

def unread (topics : Topics) (topic : String) (next : Partition → Nat) : Nat :=
  topics.backlog (fun _ => 1) topic next

def unreadLetters (topics : Topics) (topic : String) (next : Partition → Nat) : Nat :=
  topics.backlog Envelope.letters topic next

end Topics

namespace Broker

variable {broker before middle after : Broker} {count more : Nat}

theorem Extends.length_records (kept : before.Extends after) (natural : 0 ≤ partition.index) :
    (before.topics.records partition).length ≤ (after.topics.records partition).length := by
  rw [Topics.length_records, Topics.length_records]
  cases found : before.topics.log? partition with
  | none => exact Nat.zero_le _
  | some log =>
    obtain ⟨added, grown⟩ := kept (log?_eq_some_iff.mpr ⟨natural, found⟩)
    rw [(log?_eq_some_iff.mp grown).2]
    simp

/-- A broker whose logs gained up to a number of records, none of them a message. -/
structure Answered (count : Nat) (before after : Broker) : Prop where
  groups : after.groups = before.groups
  partitionCount : after.topics.partitionCount = before.topics.partitionCount
  kept : before.Extends after
  size : ∀ topics : Finset String,
    ∑ topic ∈ topics, after.size topic ≤ ∑ topic ∈ topics, before.size topic + count
  unread : ∀ topic next,
    (∀ partition, before.topics.Holds topic partition →
      next partition ≤ (before.topics.records partition).length) →
    after.topics.unread topic next ≤ before.topics.unread topic next + count ∧
      after.topics.unreadLetters topic next ≤ before.topics.unreadLetters topic next

namespace Answered

theorem refl (broker : Broker) : Answered 0 broker broker :=
  ⟨rfl, rfl, .refl broker, fun _ => Nat.le_refl _, fun _ _ _ => ⟨Nat.le_refl _, Nat.le_refl _⟩⟩

theorem holds (answered : Answered count before after) :
    after.topics.Holds topic partition ↔ before.topics.Holds topic partition := by
  unfold Topics.Holds
  rw [answered.partitionCount]

theorem within (answered : Answered count before after) {next : Partition → Nat}
    (within : ∀ partition, before.topics.Holds topic partition →
      next partition ≤ (before.topics.records partition).length) :
    ∀ partition, after.topics.Holds topic partition →
      next partition ≤ (after.topics.records partition).length := by
  intro partition held
  obtain ⟨slot, bound, rfl⟩ := answered.holds.mp held
  have lower := within _ ⟨slot, bound, rfl⟩
  exact Nat.le_trans lower (answered.kept.length_records (Int.natCast_nonneg slot))

theorem trans (first : Answered count before middle) (second : Answered more middle after) :
    Answered (count + more) before after where
  groups := second.groups.trans first.groups
  partitionCount := second.partitionCount.trans first.partitionCount
  kept := first.kept.trans second.kept
  size topics := by
    have lower := first.size topics
    have upper := second.size topics
    omega
  unread topic next within := by
    have lower := first.unread topic next within
    have upper := second.unread topic next (first.within within)
    omega

theorem mono (answered : Answered count before after) (le : count ≤ more) : Answered more before after :=
  { answered with
    size := fun topics => Nat.le_trans (answered.size topics) (Nat.add_le_add_left le _)
    unread := fun topic next within =>
      ⟨Nat.le_trans (answered.unread topic next within).1 (Nat.add_le_add_left le _),
        (answered.unread topic next within).2⟩ }

theorem of_append (broker : Broker) (target : Partition)
    (light : Envelope.letters (Envelope.decode data) = 0) :
    Answered 1 broker (broker.append target data).2 where
  groups := by
    rcases append_cases broker target data with ⟨failing, -, fate⟩ | ⟨-, -, fate⟩ | ⟨log, calm, found⟩
    · rw [fate]
    · rw [fate]
    · rw [append_eq calm found]
  partitionCount := funext fun topic => partitionCount_append broker target data topic
  kept := extends_append broker target data
  size topics := by
    rcases append_cases broker target data with ⟨failing, -, fate⟩ | ⟨-, -, fate⟩ | ⟨log, calm, found⟩
    · rw [fate]
      exact Nat.le_add_right _ _
    · rw [fate]
      exact Nat.le_add_right _ _
    · simp only [size_append calm found, Finset.sum_add_distrib, Finset.sum_ite_eq']
      split <;> omega
  unread topic next within := by
    refine ⟨backlog_append broker target data topic next within, ?_⟩
    have letters : _ ≤ broker.topics.backlog Envelope.letters topic next + _ :=
      backlog_append broker target data topic next within
    rw [light] at letters
    exact letters

end Answered
end Broker

namespace Relay

/-- A receipt is not read as a message, if it is read at all. -/
theorem letters_receipt (due : Envelope.receipt? outcome envelope = some receipt)
    (written : receipt.encode = .ok data) : Envelope.letters (Envelope.decode data) = 0 := by
  cases read : Envelope.decode data with
  | error failure => rfl
  | ok other =>
    rw [Envelope.eq_of_decode written read]
    cases outcome <;> cases envelope <;> cases due
    rfl

theorem publish_answers (relay : Relay) (producer : String) (target : Partition)
    (due : Envelope.receipt? outcome envelope = some receipt) :
    Broker.Answered 1 relay.broker (relay.publish producer receipt target).2.broker := by
  change Broker.Answered 1 relay.broker (relay.broker.publish producer receipt target).2
  cases written : receipt.encode with
  | error failure =>
    rw [Broker.publish_of_fault _ _ _ written]
    exact (Broker.Answered.refl _).mono (Nat.zero_le 1)
  | ok data =>
    rw [Broker.publish_of_wire _ _ _ written]
    exact .of_append _ target (letters_receipt due written)

/-- Pushing an envelope adds no more than the receipt of a message. -/
theorem push_answers (relay : Relay) (router : Router) (envelope : Envelope) :
    Broker.Answered (Envelope.letters (.ok envelope)) relay.broker (relay.push router envelope).2.broker := by
  rw [push_eq]
  cases due : Envelope.receipt? (relay.deliver envelope).1 envelope with
  | none => exact (Broker.Answered.refl _).mono (Nat.zero_le _)
  | some receipt =>
    have letter : Envelope.letters (.ok envelope) = 1 := by
      cases envelope with
      | message => rfl
      | ack => simp [Envelope.receipt?] at due
    have few : (router.targets (relay.deliver envelope).2.table receipt).length ≤ 1 := by
      rw [← router.destinations_receipt due]
      exact List.length_filterMap_le ..
    rw [letter]
    dsimp only
    unfold route
    cases targets : router.targets (relay.deliver envelope).2.table receipt with
    | nil => exact (Broker.Answered.refl _).mono (Nat.zero_le 1)
    | cons target rest =>
      rw [targets] at few
      obtain rfl : rest = [] := by simpa using few
      exact publish_answers (relay.deliver envelope).2 router.producer target due

end Relay

namespace Scenario.LoopState

open ConsumeLoop

/-- What a call leaves as it was, of all that a loop keeps for itself. -/
structure Kept (before after : LoopState) : Prop where
  consumer : after.consumer = before.consumer
  processor : after.processor = before.processor
  cancelled : after.cancelled = before.cancelled
  polls : after.polls = before.polls
  onChange : after.onChange = before.onChange

theorem Kept.trans {before middle after : LoopState} (first : Kept before middle)
    (second : Kept middle after) : Kept before after :=
  ⟨second.consumer.trans first.consumer, second.processor.trans first.processor,
    second.cancelled.trans first.cancelled, second.polls.trans first.polls,
    second.onChange.trans first.onChange⟩

theorem Kept.refl (state : LoopState) : Kept state state := ⟨rfl, rfl, rfl, rfl, rfl⟩

variable (plan : LoopPlan) (interlude : Interlude) (watch : Nat) {state : LoopState} {router : Router}

theorem kept_count (state : LoopState) (measurement : Measurement) :
    Kept state ((host plan interlude watch).count measurement state) := ⟨rfl, rfl, rfl, rfl, rfl⟩

/-- The receivers' processor accepts every envelope. -/
theorem process_receivers (receives : state.processor = .receivers router) (envelope : Envelope) :
    ((host plan interlude watch).process envelope state).1 = .ok () ∧
      Kept state ((host plan interlude watch).process envelope state).2 ∧
      Broker.Answered (Envelope.letters (.ok envelope)) state.world.relay.broker
        ((host plan interlude watch).process envelope state).2.world.relay.broker := by
  have answered := Relay.push_answers state.world.relay router envelope
  unfold host process
  dsimp only
  rw [receives]
  exact ⟨rfl, ⟨rfl, receives.symm, rfl, rfl, rfl⟩, answered⟩

/-- How the loop comes through a batch of a number of messages. -/
structure Passes (letters : Nat) (before : LoopState) (stretch : Stretch LoopState Nat) : Prop where
  outcome : ∃ processed, stretch.outcome = .ok processed
  kept : Kept before stretch.state
  answered : Broker.Answered letters before.world.relay.broker stretch.state.world.relay.broker

/-- Every batch goes through with the receivers' processor, which answers its messages. -/
theorem processBatch_passes (receives : state.processor = .receivers router) (records : List Record) :
    Passes (Record.letters records) state (processBatch (host plan interlude watch) records state) := by
  induction records generalizing state with
  | nil => exact ⟨⟨0, rfl⟩, .refl state, .refl _⟩
  | cons record rest ih =>
    have weight : Record.letters (record :: rest) = Envelope.letters record.body + Record.letters rest := by
      simp [Record.letters]
    unfold processBatch
    rw [weight]
    cases body : record.body with
    | error fault =>
      have counted := kept_count plan interlude watch state (.skipped (host plan interlude watch).consumer)
      have later := ih (counted.processor.trans receives)
      rw [Envelope.letters, Nat.zero_add]
      exact ⟨later.outcome, counted.trans later.kept, later.answered⟩
    | ok envelope =>
      obtain ⟨accepted, kept, answered⟩ := process_receivers plan interlude watch receives envelope
      have later := ih (kept.processor.trans receives)
      dsimp only
      cases done : (host plan interlude watch).process envelope state with
      | mk answer after =>
        rw [done] at accepted kept answered later
        dsimp only at accepted
        subst accepted
        obtain ⟨processed, outcome⟩ := later.outcome
        refine ⟨⟨processed + 1, ?_⟩, kept.trans later.kept, answered.trans later.answered⟩
        simp [outcome, Except.map]

end Scenario.LoopState
end ChatRelay
