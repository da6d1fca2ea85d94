import Mathlib.Data.List.Induction
import ChatRelay.Proofs.Chat.Staffing

/-! The chat store converges. Whatever is below a committed offset has been merged, nothing is in the store
but what some envelope in the logs says, and so the store is a function of the envelopes once all of them are
committed. -/
namespace ChatRelay

namespace Gathering

open ConsumeLoop (Phase Event)

variable {plan : Plan} {gathering : Gathering} {member : Nat} {updates rest : List ChatUpdate}
variable {store : ChatStore} {update : ChatUpdate} {reply : Except Failure Unit}
variable {unmerged : Std.ExtTreeMap Nat (List ChatUpdate)}

/-- Envelopes that were processed are merged, those in process as far as the updates that are not left; and all
that is merged is in the logs. -/
structure Sound (plan : Plan) (gathering : Gathering) : Prop where
  staffed : gathering.crew.Staffed plan
  merged : ∀ work record envelope, .processed work record ∈ gathering.crew.history →
    record.body = .ok envelope →
      ∀ update ∈ (plan.source work.group).updates envelope, gathering.store.Holds update
  pending : ∀ (member : Nat) rest, gathering.unmerged[member]? = some rest →
    ∃ done, facing? plan gathering.crew member = some (done ++ rest) ∧
      ∀ update ∈ done, gathering.store.Holds update
  told : gathering.store.Told (· ∈ plan.updates gathering.crew.cluster.broker.topics)
  nonneg : ∀ key field, 0 ≤ gathering.store.value key field

theorem Sound.crew_step {move : Crew.Move} (sound : gathering.Sound plan) (fits : move.Fits plan)
    (unanswered : ∀ member answer, move ≠ .take member (.process answer))
    (left : ∀ (member : Nat) rest, unmerged[member]? = some rest →
      gathering.unmerged[member]? = some rest ∧ move ≠ .leave member) :
    Sound plan { gathering with crew := gathering.crew.step move, unmerged } where
  staffed := sound.staffed.step fits
  merged work record envelope done body update among := by
    rcases gathering.crew.processed_step move done with done | ⟨_, _, _, _, answer, _⟩
    · exact sound.merged work record envelope done body update among
    · exact absurd answer (unanswered _ _)
  pending member rest present := by
    obtain ⟨present, stays⟩ := left member rest present
    obtain ⟨done, facing, holds⟩ := sound.pending member rest present
    exact ⟨done, facing?_step sound.staffed facing stays (unanswered member), holds⟩
  told := sound.told.mono fun update among =>
    plan.updates_mono (gathering.crew.grown_step move).topics among
  nonneg := sound.nonneg

theorem Sound.crew_move {move : Crew.Move} (sound : gathering.Sound plan) (fits : move.Fits plan)
    (unanswered : ∀ member answer, move ≠ .take member (.process answer))
    (stays : ∀ member, move ≠ .leave member) :
    Sound plan { gathering with crew := gathering.crew.step move } :=
  sound.crew_step fits unanswered fun member _ present => ⟨present, stays member⟩

theorem Sound.left (sound : gathering.Sound plan)
    (facing : facing? plan gathering.crew member = some updates) :
    ∃ done, updates = done ++ gathering.unmerged.getD member updates ∧
      ∀ update ∈ done, gathering.store.Holds update := by
  rw [Std.ExtTreeMap.getD_eq_getD_getElem?]
  cases present : gathering.unmerged[member]? with
  | none => exact ⟨[], rfl, by simp⟩
  | some rest =>
    obtain ⟨done, again, holds⟩ := sound.pending member rest present
    cases facing.symm.trans again
    exact ⟨done, rfl, holds⟩

/-- The answer of a processor, which accepts an envelope only when all its updates are merged. -/
theorem Sound.answer (sound : gathering.Sound plan)
    (facing : facing? plan gathering.crew member = some updates) (rows : store.rows = gathering.store.rows)
    (complete : reply = .ok () → ∀ update ∈ updates, gathering.store.Holds update) :
    Sound plan
      { crew := gathering.crew.step (.take member (.process reply))
        store
        unmerged := gathering.unmerged.erase member } where
  staffed := by
    have fits : (Crew.Move.take member (.process reply)).Fits plan := trivial
    exact sound.staffed.step fits
  merged work record envelope done body update among := by
    have below : gathering.store.Below store := .of_rows rows
    rcases gathering.crew.processed_step _ done with
        done | ⟨task, worker, batch, rest, move, is, found, group, handling⟩
    · exact (sound.merged work record envelope done body update among).mono below
    · cases move
      have again : facing? plan gathering.crew work.member =
          some ((plan.source work.group).updates envelope) :=
        facing?_eq_some_iff.mpr
          ⟨task, worker, batch, record, rest, envelope, is, found, handling, body, by rw [group]⟩
      cases facing.symm.trans again
      exact (complete rfl update among).mono below
  pending other rest present := by
    rw [Std.ExtTreeMap.getElem?_erase] at present
    split at present
    · cases present
    · rename_i different
      obtain ⟨done, before, holds⟩ := sound.pending other rest present
      refine ⟨done, facing?_step sound.staffed before (by simp) ?_, ?_⟩
      · rintro _ ⟨⟩
        exact different Std.ReflCmp.compare_self
      · intro update among
        exact (holds update among).mono (.of_rows rows)
  told := (sound.told.of_rows rows).mono fun update among =>
    plan.updates_mono (gathering.crew.grown_step _).topics among
  nonneg key field := by
    rw [ChatStore.value_congr rows]
    exact sound.nonneg key field

theorem Sound.advance (sound : gathering.Sound plan)
    (facing : facing? plan gathering.crew member = some updates)
    (left : gathering.unmerged.getD member updates = update :: rest)
    (merged : gathering.store.merge update = (.ok state, store)) :
    Sound plan { gathering with store, unmerged := gathering.unmerged.insert member rest } where
  staffed := sound.staffed
  merged work record envelope done body other among :=
    (sound.merged work record envelope done body other among).mono (ChatStore.below_merge merged)
  pending other remaining present := by
    have below := ChatStore.below_merge merged
    rw [Std.ExtTreeMap.getElem?_insert] at present
    split at present
    · rename_i same
      have same := Std.LawfulEqCmp.eq_of_compare same
      subst same
      cases present
      obtain ⟨done, split, holds⟩ := sound.left facing
      rw [left] at split
      refine ⟨done ++ [update], by simp [facing, split], ?_⟩
      intro other among
      rcases List.mem_append.mp among with among | among
      · exact (holds other among).mono below
      · cases List.mem_singleton.mp among
        exact ChatStore.holds_merge merged
    · obtain ⟨done, before, holds⟩ := sound.pending other remaining present
      exact ⟨done, before, fun update among => (holds update among).mono below⟩
  told := by
    obtain ⟨done, split, _⟩ := sound.left facing
    rw [left] at split
    exact sound.told.merge (facing?_mem_updates sound.staffed facing (by simp [split])) merged
  nonneg key field :=
    Int.le_trans (sound.nonneg key field) ((ChatStore.below_merge merged).values key field)

theorem Sound.merge (sound : gathering.Sound plan)
    (facing : facing? plan gathering.crew member = some updates) :
    Sound plan (gathering.merge member updates) := by
  obtain ⟨done, split, holds⟩ := sound.left facing
  unfold Gathering.merge
  cases left : gathering.unmerged.getD member updates with
  | nil =>
    rw [left, List.append_nil] at split
    subst split
    exact sound.answer facing rfl fun _ => holds
  | cons update rest =>
    dsimp only
    cases merged : gathering.store.merge update with
    | mk answer store =>
      cases answer with
      | ok state => exact sound.advance facing left merged
      | error failure =>
        obtain ⟨rows, _⟩ := ChatStore.merge_error merged
        exact sound.answer facing rows (by simp)

theorem Sound.step (sound : gathering.Sound plan) (move : Move) : Sound plan (step plan gathering move) := by
  cases move with
  | failWrites count =>
    exact ⟨sound.staffed, sound.merged, sound.pending, sound.told.of_rows rfl, sound.nonneg⟩
  | join source id maxRecords =>
    exact sound.crew_move ⟨source, rfl, rfl⟩ (by simp) (by simp)
  | merge member =>
    simp only [Gathering.step]
    split
    · exact sound
    · rename_i updates facing
      exact sound.merge facing
  | other move =>
    cases move with
    | join id group maxRecords topics => exact sound
    | createTopic topic partitions => exact sound.crew_move trivial (by simp) (by simp)
    | failPublishes count => exact sound.crew_move trivial (by simp) (by simp)
    | append partition data => exact sound.crew_move trivial (by simp) (by simp)
    | synchronise member => exact sound.crew_move trivial (by simp) (by simp)
    | leave member =>
      refine sound.crew_step trivial (by simp) ?_
      intro other rest present
      rw [Std.ExtTreeMap.getElem?_erase] at present
      split at present
      · cases present
      · rename_i different
        refine ⟨present, ?_⟩
        rintro ⟨⟩
        exact different Std.ReflCmp.compare_self
    | take member act =>
      cases act with
      | process answer => exact sound
      | cancel | poll | skip | commit | rewind =>
        exact sound.crew_move trivial (by simp) (by simp)

theorem sound_after (plan : Plan) (moves : List Move) : Sound plan (after plan moves) := by
  induction moves using List.reverseRecOn with
  | nil =>
    refine ⟨⟨Crew.sound_empty, fun source => ⟨?_, ?_⟩, ?_⟩, ?_, ?_, ⟨?_, ?_⟩, ?_⟩
    · intro group found
      simp [after, run] at found
    · intro member worker found
      simp [after, run] at found
    · intro member worker found
      simp [after, run] at found
    · intro work record envelope done
      simp [after, run] at done
    · intro member rest present
      simp [after, run] at present
    · intro key present
      simp [after, run] at present
    · intro key field
      cases field <;> exact .inl rfl
    · intro key field
      cases field <;> exact Int.le_refl _
  | append_singleton moves move ih =>
    rw [after_concat]
    exact ih.step move

theorem below_step (plan : Plan) (gathering : Gathering) (move : Move) :
    gathering.store.Below (step plan gathering move).store := by
  cases move with
  | failWrites count => exact .of_rows rfl
  | join source id maxRecords => exact .refl _
  | merge member =>
    simp only [step]
    split
    · exact .refl _
    · unfold Gathering.merge
      split
      · exact .refl _
      · split
        · rename_i merged
          exact ChatStore.below_merge merged
        · rename_i merged
          exact .of_rows (ChatStore.merge_error merged).1
  | other move =>
    cases move with
    | take member act => cases act <;> exact .refl _
    | createTopic | failPublishes | append | join | leave | synchronise => exact .refl _

theorem below_run (plan : Plan) (gathering : Gathering) (moves : List Move) :
    gathering.store.Below (run plan gathering moves).store := by
  induction moves generalizing gathering with
  | nil => exact .refl _
  | cons move moves ih => exact (below_step plan gathering move).trans (ih _)

/-- What an envelope says is in the store once its record is settled. -/
theorem Sound.holds_of_settled (sound : gathering.Sound plan)
    (settled : gathering.crew.Settled (plan.group source) partition offset)
    (present : gathering.crew.cluster.broker.topics.record? partition offset = some data)
    (decoded : Envelope.decode data = .ok envelope) (among : update ∈ source.updates envelope) :
    gathering.store.Holds update := by
  obtain ⟨work, batch, record, same, _, through, member, _, _, _, again, body⟩ := settled
  cases present.symm.trans again
  rw [decoded] at body
  have done : .processed work record ∈ gathering.crew.history := by
    simpa [Record.deed, body] using through record member
  exact sound.merged work record envelope done body update (by rwa [same, plan.source_group])

/-- All records of both topics are below the committed offsets. -/
def Finished (plan : Plan) (gathering : Gathering) : Prop :=
  ∀ source partition log, partition.topic = plan.topic source →
    gathering.crew.cluster.broker.log? partition = some log →
      log.length ≤ gathering.crew.cluster.committed (plan.group source) partition

theorem Sound.holds_of_finished (sound : gathering.Sound plan) (finished : gathering.Finished plan)
    (among : update ∈ plan.updates gathering.crew.cluster.broker.topics) : gathering.store.Holds update := by
  obtain ⟨source, envelope, member, among⟩ := (plan.mem_updates_iff _ update).mp among
  obtain ⟨partition, offset, data, same, present, decoded⟩ := (plan.mem_envelopes_iff _ source envelope).mp member
  obtain ⟨log, found, entry⟩ := Option.bind_eq_some_iff.mp present
  obtain ⟨bound, _⟩ := List.getElem?_eq_some_iff.mp entry
  -- A negative index reads the first log, but only the index of the slot can be committed.
  let proper : Partition := ⟨partition.topic, partition.slot⟩
  have read : gathering.crew.cluster.broker.topics.log? proper = some log := found
  have committed : log.length ≤ gathering.crew.cluster.committed (plan.group source) proper :=
    finished source proper log same (by simp [Broker.log?, proper, read])
  have settled := sound.staffed.sound.committed (plan.group source) proper offset (by omega)
  exact sound.holds_of_settled settled (by simp [Topics.record?, read, entry]) decoded among

/-- The store is bounded by what has been committed and by what there is. -/
theorem Sound.value_le (sound : gathering.Sound plan) (key : ChatKey) (field : ChatField) :
    gathering.store.value key field ≤
      ChatUpdate.highest (plan.updates gathering.crew.cluster.broker.topics) key field := by
  rcases sound.told.values key field with zero | ⟨update, given, concerns, same⟩
  · rw [zero]
    exact ChatUpdate.highest_nonneg _ key field
  · rw [same]
    exact ChatUpdate.le_highest given concerns

theorem Sound.value_eq (sound : gathering.Sound plan) (finished : gathering.Finished plan) (key : ChatKey)
    (field : ChatField) :
    gathering.store.value key field =
      ChatUpdate.highest (plan.updates gathering.crew.cluster.broker.topics) key field := by
  refine Int.le_antisymm (sound.value_le key field) (ChatUpdate.highest_le (sound.nonneg key field) ?_)
  rintro update among ⟨rfl, rfl⟩
  exact (sound.holds_of_finished finished among).2

theorem Sound.mem_rows_iff (sound : gathering.Sound plan) (finished : gathering.Finished plan)
    (key : ChatKey) :
    key ∈ gathering.store.rows ↔
      ∃ update ∈ plan.updates gathering.crew.cluster.broker.topics, update.key = key := by
  constructor
  · exact sound.told.rows key
  · rintro ⟨update, among, rfl⟩
    exact (sound.holds_of_finished finished among).1

/-- Finished stores are equal if the same envelopes are in their logs, whatever order they came in. -/
theorem Sound.rows_eq {others : Gathering} (sound : gathering.Sound plan) (other : others.Sound plan)
    (finished : gathering.Finished plan) (ended : others.Finished plan)
    (same : ∀ source envelope,
      envelope ∈ plan.envelopes gathering.crew.cluster.broker.topics source ↔
        envelope ∈ plan.envelopes others.crew.cluster.broker.topics source) :
    gathering.store.rows = others.store.rows := by
  have updates (update : ChatUpdate) :
      update ∈ plan.updates gathering.crew.cluster.broker.topics ↔
        update ∈ plan.updates others.crew.cluster.broker.topics := by
    simp only [plan.mem_updates_iff, same]
  have rows (key : ChatKey) : key ∈ gathering.store.rows ↔ key ∈ others.store.rows := by
    simp only [sound.mem_rows_iff finished, other.mem_rows_iff ended, updates]
  have values (key : ChatKey) (field : ChatField) :
      gathering.store.value key field = others.store.value key field := by
    rw [sound.value_eq finished, other.value_eq ended, ChatUpdate.highest_congr updates]
  exact ChatStore.rows_ext rows values

/-- The store converges. In every run it holds all that the records say which have ever been below their
group's committed offset, and of no field more than the greatest that the envelopes in the logs say. So once
all is committed, its rows and values depend on the envelopes alone. -/
theorem store_converges (plan : Plan) (moves : List Move) :
    (∀ earlier, earlier <+: moves → ∀ source partition offset data envelope,
      offset < (after plan earlier).crew.cluster.committed (plan.group source) partition →
      (after plan earlier).crew.cluster.broker.topics.record? partition offset = some data →
      Envelope.decode data = .ok envelope → ∀ update ∈ source.updates envelope,
        update.key ∈ (after plan moves).store.rows ∧
          update.id.value.toInt ≤ (after plan moves).store.value update.key update.field) ∧
    (∀ key field, (after plan moves).store.value key field ≤
      ChatUpdate.highest (plan.updates (after plan moves).crew.cluster.broker.topics) key field) ∧
    ((after plan moves).Finished plan →
      (∀ key field, (after plan moves).store.value key field =
        ChatUpdate.highest (plan.updates (after plan moves).crew.cluster.broker.topics) key field) ∧
      (∀ key, key ∈ (after plan moves).store.rows ↔
        ∃ update ∈ plan.updates (after plan moves).crew.cluster.broker.topics, update.key = key) ∧
      ∀ others, (after plan others).Finished plan →
        (∀ source envelope,
          envelope ∈ plan.envelopes (after plan moves).crew.cluster.broker.topics source ↔
            envelope ∈ plan.envelopes (after plan others).crew.cluster.broker.topics source) →
        (after plan moves).store.rows = (after plan others).store.rows) := by
  have sound := sound_after plan moves
  refine ⟨?_, sound.value_le, fun finished => ⟨sound.value_eq finished, sound.mem_rows_iff finished, ?_⟩⟩
  · rintro earlier ⟨later, rfl⟩ source partition offset data envelope below present decoded update among
    have before := sound_after plan earlier
    have settled := before.staffed.sound.committed (plan.group source) partition offset below
    have grown := below_run plan (after plan earlier) later
    have holds := (before.holds_of_settled settled present decoded among).mono grown
    simpa [after, run, ChatStore.Holds] using holds
  · exact fun others ended same => sound.rows_eq (sound_after plan others) finished ended same

def twoTopics : Plan where
  group := ChatSource.name
  topic
    | .senderTopic => "sender"
    | .messagesTopic => "messages"
  apart := by decide

/-- A message is told by both topics. The first time, the merge of its second update fails. -/
def toldTwice : List Move :=
  let message := (Envelope.message ⟨⟨1⟩, ⟨1⟩, ⟨2⟩, [104, 105]⟩).wire
  [.other (.createTopic "sender" 1), .other (.createTopic "messages" 1),
    .join .senderTopic "a" 500, .join .messagesTopic "b" 500,
    .other (.append ⟨"sender", 0⟩ message), .other (.append ⟨"messages", 0⟩ message),
    .other (.synchronise 1), .other (.take 1 .poll), .merge 1, .failWrites 1, .merge 1,
    .other (.synchronise 2), .other (.take 2 .poll), .merge 2,
    .other (.take 1 .rewind), .other (.take 1 .poll), .merge 1, .merge 1, .merge 1,
    .merge 2, .other (.take 2 .commit), .other (.take 1 .commit)]

theorem toldTwice_converges :
    (after twoTopics toldTwice).Finished twoTopics ∧
      (after twoTopics toldTwice).store.value (.forPair ⟨1⟩ ⟨2⟩) .processed =
        ChatUpdate.highest (twoTopics.updates (after twoTopics toldTwice).crew.cluster.broker.topics)
          (.forPair ⟨1⟩ ⟨2⟩) .processed ∧
      (after twoTopics toldTwice).store.value (.forPair ⟨1⟩ ⟨2⟩) .processed = 1 := by
  have logs (source : ChatSource) :
      (after twoTopics toldTwice).crew.cluster.broker.topics.getD (twoTopics.topic source) [] =
        [[(Envelope.message ⟨⟨1⟩, ⟨1⟩, ⟨2⟩, [104, 105]⟩).wire]] := by
    cases source <;> decide +kernel
  have committed (source : ChatSource) :
      (after twoTopics toldTwice).crew.cluster.committed (twoTopics.group source)
        ⟨twoTopics.topic source, 0⟩ = 1 := by
    cases source <;> decide +kernel
  have finished : (after twoTopics toldTwice).Finished twoTopics := by
    rintro source ⟨topic, index⟩ log same found
    dsimp only at same
    subst same
    unfold Broker.log? at found
    split at found
    · rename_i nonneg
      simp only [Topics.log?, logs, Partition.slot] at found
      obtain ⟨bound, rfl⟩ := List.getElem?_eq_some_iff.mp found
      have first : index = 0 := by simp at bound nonneg; omega
      subst first
      rw [committed]
      exact Nat.le_refl 1
    · cases found
  refine ⟨finished, ((store_converges twoTopics toldTwice).2.2 finished).1 _ _, ?_⟩
  decide +kernel

end Gathering
end ChatRelay
