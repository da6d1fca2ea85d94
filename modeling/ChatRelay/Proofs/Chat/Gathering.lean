import ChatRelay.Processor
import ChatRelay.Proofs.Chat.Merging
import ChatRelay.Proofs.Crew

/-! The loops that gather chat state in one store. A processor merges the updates of an envelope one after
another; between two merges, other loops may merge theirs. -/
namespace ChatRelay

open ConsumeLoop (Phase Event)

/-- Which group reads which topic. Each source has a group of its own. -/
structure Plan where
  group : ChatSource → String
  topic : ChatSource → String
  apart : group .senderTopic ≠ group .messagesTopic

namespace Plan

def source (plan : Plan) (group : String) : ChatSource :=
  if group = plan.group .senderTopic then .senderTopic else .messagesTopic

def envelopes (plan : Plan) (topics : Topics) (source : ChatSource) : List Envelope :=
  (topics.getD (plan.topic source) []).flatMap fun log =>
    log.filterMap fun data => (Envelope.decode data).toOption

def updates (plan : Plan) (topics : Topics) : List ChatUpdate :=
  [.senderTopic, .messagesTopic].flatMap fun (source : ChatSource) =>
    (plan.envelopes topics source).flatMap source.updates

@[simp] theorem source_group (plan : Plan) (source : ChatSource) :
    plan.source (plan.group source) = source := by
  cases source with
  | senderTopic => simp [Plan.source]
  | messagesTopic => simp [Plan.source, Ne.symm plan.apart]

/-- The envelopes of a topic are those that its records are decoded to. -/
theorem mem_envelopes_iff (plan : Plan) (topics : Topics) (source : ChatSource) (envelope : Envelope) :
    envelope ∈ plan.envelopes topics source ↔
      ∃ partition offset data, partition.topic = plan.topic source ∧
        topics.record? partition offset = some data ∧ Envelope.decode data = .ok envelope := by
  simp only [envelopes, List.mem_flatMap, List.mem_filterMap]
  constructor
  · rintro ⟨log, present, data, member, decoded⟩
    obtain ⟨slot, found⟩ := List.getElem?_of_mem present
    obtain ⟨offset, at_⟩ := List.getElem?_of_mem member
    refine ⟨⟨plan.topic source, slot⟩, offset, data, rfl, ?_, ?_⟩
    · simp [Topics.record?, Topics.log?, Partition.slot, found, at_]
    · cases is : Envelope.decode data with
      | error fault => simp [is, Except.toOption] at decoded
      | ok other =>
        simp only [is, Except.toOption, Option.some.injEq] at decoded
        rw [decoded]
  · rintro ⟨partition, offset, data, same, present, decoded⟩
    obtain ⟨log, found, at_⟩ := Option.bind_eq_some_iff.mp present
    rw [Topics.log?, same] at found
    exact ⟨log, List.mem_of_getElem? found, data, List.mem_of_getElem? at_, by rw [decoded]; rfl⟩

theorem mem_updates_iff (plan : Plan) (topics : Topics) (update : ChatUpdate) :
    update ∈ plan.updates topics ↔
      ∃ source, ∃ envelope ∈ plan.envelopes topics source, update ∈ source.updates envelope := by
  simp only [updates, List.mem_flatMap]
  constructor
  · rintro ⟨source, _, envelope, member, among⟩
    exact ⟨source, envelope, member, among⟩
  · rintro ⟨source, envelope, member, among⟩
    exact ⟨source, by cases source <;> simp, envelope, member, among⟩

end Plan

structure Gathering where
  crew : Crew := {}
  store : ChatStore := {}
  /-- What is left to merge of the envelope that a member is processing. -/
  unmerged : Std.ExtTreeMap Nat (List ChatUpdate) := ∅

namespace Gathering

inductive Move where
  | failWrites (count : Nat)
  /-- A loop is set up for a source. -/
  | join (source : ChatSource) (id : String) (maxRecords : Nat)
  /-- The processor of a member merges the next update, or answers when none is left or one failed. -/
  | merge (member : Nat)
  /-- Any other move. Members join for a source, and their processors answer for themselves. -/
  | other (move : Crew.Move)

/-- What the envelope says that a member's processor has to deal with. -/
def facing? (plan : Plan) (crew : Crew) (member : Nat) : Option (List ChatUpdate) := do
  let task ← crew.tasks[member]?
  let worker ← crew.cluster.workers[member]?
  match task.phase with
  | .handling _ (record :: _) =>
    record.body.toOption.map (plan.source worker.consumer.group).updates
  | _ => none

def merge (gathering : Gathering) (member : Nat) (updates : List ChatUpdate) : Gathering :=
  match gathering.unmerged.getD member updates with
  | [] => { gathering with
      crew := gathering.crew.step (.take member (.process (.ok ())))
      unmerged := gathering.unmerged.erase member }
  | update :: rest =>
    match gathering.store.merge update with
    | (.ok _, store) => { gathering with store, unmerged := gathering.unmerged.insert member rest }
    | (.error failure, store) =>
      { crew := gathering.crew.step (.take member (.process (.error failure)))
        store
        unmerged := gathering.unmerged.erase member }

def step (plan : Plan) (gathering : Gathering) : Move → Gathering
  | .failWrites count => { gathering with store := gathering.store.failWrites count }
  | .join source id maxRecords => { gathering with
      crew := gathering.crew.step (.join id (plan.group source) maxRecords [plan.topic source]) }
  | .merge member =>
    match facing? plan gathering.crew member with
    | none => gathering
    | some updates => gathering.merge member updates
  | .other (.join ..) | .other (.take _ (.process _)) => gathering
  | .other (.leave member) => { gathering with
      crew := gathering.crew.step (.leave member), unmerged := gathering.unmerged.erase member }
  | .other move => { gathering with crew := gathering.crew.step move }

def run (plan : Plan) (gathering : Gathering) (moves : List Move) : Gathering :=
  moves.foldl (step plan) gathering

/-- What has been gathered from the beginning, with an empty broker and an empty store. -/
def after (plan : Plan) (moves : List Move) : Gathering := run plan {} moves

variable {plan : Plan} {gathering : Gathering} {member : Nat} {updates rest : List ChatUpdate}

@[simp] theorem after_concat (plan : Plan) (moves : List Move) (move : Move) :
    after plan (moves ++ [move]) = step plan (after plan moves) move := by
  simp [after, run]

/-- Left to itself, a processor merges all updates that are left, up to the first failure. -/
theorem merge_stretch (facing : facing? plan gathering.crew member = some updates)
    (left : gathering.unmerged.getD member updates = rest) :
    ∃ count, run plan gathering (List.replicate count (.merge member)) =
      { crew := gathering.crew.step (.take member (.process (gathering.store.mergeAll rest).2.1))
        store := (gathering.store.mergeAll rest).2.2
        unmerged := gathering.unmerged.erase member } := by
  induction rest generalizing gathering with
  | nil => exact ⟨1, by simp [run, step, facing, merge, left, ChatStore.mergeAll]⟩
  | cons update rest ih =>
    cases merged : gathering.store.merge update with
    | mk answer store =>
      cases answer with
      | error failure =>
        exact ⟨1, by simp [run, step, facing, merge, left, merged, ChatStore.mergeAll]⟩
      | ok state =>
        have next : step plan gathering (.merge member) =
            { gathering with store, unmerged := gathering.unmerged.insert member rest } := by
          simp [step, facing, merge, left, merged]
        have facing : facing? plan (step plan gathering (.merge member)).crew member = some updates := by
          rw [next]
          exact facing
        obtain ⟨count, reached⟩ := ih facing (by rw [next]; simp)
        refine ⟨count + 1, ?_⟩
        have again : (gathering.unmerged.insert member rest).erase member =
            gathering.unmerged.erase member := by
          apply Std.ExtTreeMap.ext_getElem?
          intro other
          by_cases same : member = other <;>
            simp [Std.ExtTreeMap.getElem?_erase, Std.ExtTreeMap.getElem?_insert, same]
        rw [next] at reached
        rw [List.replicate_succ]
        simp only [run, List.foldl_cons, next] at reached ⊢
        rw [reached]
        simp [ChatStore.mergeAll, merged, again]

/-- The processor of a source, given an envelope in one go, does what its merges do one by one. -/
theorem process_stretch {source : ChatSource} {relay : Relay}
    (facing : facing? plan gathering.crew member = some (source.updates envelope))
    (begun : gathering.unmerged[member]? = none) (same : relay.chats = gathering.store) :
    ∃ count, run plan gathering (List.replicate count (.merge member)) =
      { crew := gathering.crew.step
          (.take member (.process ((Processor.chatState source).process envelope relay).result))
        store := ((Processor.chatState source).process envelope relay).relay.chats
        unmerged := gathering.unmerged } := by
  have left : gathering.unmerged.getD member (source.updates envelope) = source.updates envelope := by
    rw [Std.ExtTreeMap.getD_eq_getD_getElem?, begun, Option.getD_none]
  obtain ⟨count, reached⟩ := merge_stretch facing left
  have kept : gathering.unmerged.erase member = gathering.unmerged := by
    apply Std.ExtTreeMap.ext_getElem?
    intro other
    by_cases same : member = other
    · subst same; simp [begun]
    · simp [Std.ExtTreeMap.getElem?_erase, same]
  refine ⟨count, ?_⟩
  rw [reached, kept]
  simp [Processor.process, Relay.mergeChats, Relay.record, same]

end Gathering
end ChatRelay
