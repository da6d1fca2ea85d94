import ChatRelay.Processor
import ChatRelay.Proofs.Chat.Maxima

/-! Rows about chats stay coherent. Of the updates of an envelope either all are merged or none, for writes fail
before the first or not at all; and so no field of a row gets ahead of the newest message. -/
namespace ChatRelay

namespace ChatSource

variable {source : ChatSource} {envelope : Envelope} {update : ChatUpdate}

theorem updates_ne_nil (source : ChatSource) (envelope : Envelope) : source.updates envelope ≠ [] := by
  cases envelope <;> cases source <;> simp [updates]

/-- Whatever an envelope says of a row, it says that its message is news there. -/
theorem newest_mem_updates (among : update ∈ source.updates envelope) :
    { update with field := .newestMessage } ∈ source.updates envelope := by
  cases envelope <;> cases source <;> simp only [updates, List.mem_cons, List.not_mem_nil, or_false] at among ⊢
  all_goals rcases among with rfl | rfl <;> simp

theorem key_of_mem_updates (among : update ∈ source.updates envelope) :
    update.key = .forPair envelope.sender envelope.receiver ∨
      update.key = .forPair envelope.receiver envelope.sender := by
  cases envelope <;> cases source <;> simp only [updates, List.mem_cons, List.not_mem_nil, or_false] at among
  all_goals rcases among with rfl | rfl <;> simp [Envelope.sender, Envelope.receiver]

end ChatSource

namespace ChatStore

variable {store middle later : ChatStore} {update : ChatUpdate} {updates rest : List ChatUpdate}

/-- A store has come to another one by merging updates. -/
structure Merges (store : ChatStore) (updates : List ChatUpdate) (later : ChatStore) : Prop where
  below : store.Below later
  holds : ∀ update ∈ updates, later.Holds update
  values : ∀ key field, later.value key field = store.value key field ∨
    ∃ update ∈ updates, update.Concerns key field ∧ later.value key field = update.id.value.toInt
  others : ∀ key, (∀ update ∈ updates, update.key ≠ key) → later.load? key = store.load? key

theorem Merges.refl (store : ChatStore) : store.Merges [] store where
  below := .refl store
  holds update among := by cases among
  values key field := .inl rfl
  others key _ := rfl

theorem Merges.cons (merged : store.merge update = (.ok state, middle)) (merges : middle.Merges rest later) :
    store.Merges (update :: rest) later where
  below := (below_merge merged).trans merges.below
  holds other among := by
    rcases List.mem_cons.mp among with rfl | among
    · exact (holds_merge merged).mono merges.below
    · exact merges.holds other among
  values key field := by
    rcases merges.values key field with same | ⟨other, among, concerns, value⟩
    · rw [same, value_merge merged]
      split
      · rename_i concerns
        rcases Int.le_total (store.value key field) update.id.value.toInt with less | more
        · exact .inr ⟨update, List.mem_cons_self, concerns, Int.max_eq_right less⟩
        · exact .inl (Int.max_eq_left more)
      · exact .inl rfl
    · exact .inr ⟨other, List.mem_cons_of_mem _ among, concerns, value⟩
  others key apart := by
    rw [merges.others key fun other among => apart other (List.mem_cons_of_mem _ among),
      load?_merge merged (apart update List.mem_cons_self)]

/-- Where no write is to fail, all updates are merged. -/
theorem mergeAll_of_calm (calm : store.failingWrites = 0) (updates : List ChatUpdate) :
    ∃ later, store.mergeAll updates = (updates, .ok (), later) ∧ later.failingWrites = 0 ∧
      store.Merges updates later := by
  induction updates generalizing store with
  | nil => exact ⟨store, rfl, calm, .refl store⟩
  | cons update rest ih =>
    rcases store.merge_cases update with ⟨failing, asked, _⟩ | ⟨state, middle, _, merged, still, _⟩
    · rw [calm] at asked
      cases asked
    · obtain ⟨later, all, calm, merges⟩ := ih still
      exact ⟨later, by simp [mergeAll, merged, all], calm, .cons merged merges⟩

/-- Where writes are to fail, the first one does, and no other is tried. -/
theorem mergeAll_of_armed (armed : store.failingWrites = failing + 1) (some_ : updates ≠ []) :
    ∃ failure, store.mergeAll updates = ([], .error failure, { store with failingWrites := failing }) := by
  obtain ⟨update, rest, rfl⟩ := List.exists_cons_of_ne_nil some_
  rcases store.merge_cases update with ⟨fewer, asked, failed⟩ | ⟨_, _, calm, _⟩
  · rw [armed] at asked
    cases asked
    exact ⟨_, by rw [mergeAll, failed]⟩
  · rw [armed] at calm
    cases calm

/-- No field of a row is ahead of the newest message. -/
def Coherent (store : ChatStore) : Prop :=
  ∀ key field, store.value key field ≤ store.value key .newestMessage

theorem Coherent.of_rows (coherent : store.Coherent) (rows : later.rows = store.rows) : later.Coherent := by
  rw [Coherent, value_congr rows]
  exact coherent

/-- Updates of whose messages each is news too keep rows coherent. -/
theorem Coherent.merges (coherent : store.Coherent) (merges : store.Merges updates later)
    (news : ∀ update ∈ updates, { update with field := .newestMessage } ∈ updates) : later.Coherent := by
  intro key field
  rcases merges.values key field with same | ⟨update, among, concerns, value⟩
  · rw [same]
    exact Int.le_trans (coherent key field) (merges.below.values key .newestMessage)
  · rw [value, ← concerns.1]
    exact (merges.holds _ (news update among)).2

end ChatStore

namespace Relay

variable {relay : Relay}

inductive ChatCall where
  /-- The processor of a source is given an envelope. -/
  | process (source : ChatSource) (envelope : Envelope)
  | failWrites (count : Nat)

def chatCall (relay : Relay) : ChatCall → Relay
  | .process source envelope => ((Processor.chatState source).process envelope relay).relay
  | .failWrites count => { relay with chats := relay.chats.failWrites count }

/-- What a relay has come to after calls, if it began without rows. -/
def afterCalls (relay : Relay) (calls : List ChatCall) : Relay :=
  calls.foldl chatCall { relay with chats := {} }

/-- An envelope fails and takes one from the failures to come, or all that it says is merged. -/
theorem process_cases (relay : Relay) (source : ChatSource) (envelope : Envelope) :
    let processing := (Processor.chatState source).process envelope relay
    (∃ failing failure, relay.chats.failingWrites = failing + 1 ∧ processing.result = .error failure ∧
      processing.relay.chats = { relay.chats with failingWrites := failing }) ∨
    relay.chats.failingWrites = 0 ∧ processing.result = .ok () ∧
      processing.relay.chats.failingWrites = 0 ∧
      relay.chats.Merges (source.updates envelope) processing.relay.chats := by
  cases armed : relay.chats.failingWrites with
  | succ failing =>
    obtain ⟨failure, failed⟩ := ChatStore.mergeAll_of_armed armed (source.updates_ne_nil envelope)
    exact .inl ⟨failing, failure, rfl, by simp [Processor.process, mergeChats, failed],
      by simp [Processor.process, mergeChats, failed, record]⟩
  | zero =>
    obtain ⟨later, all, calm, merges⟩ := ChatStore.mergeAll_of_calm armed (source.updates envelope)
    exact .inr ⟨rfl, by simp [Processor.process, mergeChats, all],
      by simp [Processor.process, mergeChats, all, record, calm],
      by simpa [Processor.process, mergeChats, all, record] using merges⟩

theorem coherent_chatCall (coherent : relay.chats.Coherent) (call : ChatCall) :
    (relay.chatCall call).chats.Coherent := by
  cases call with
  | failWrites count => exact coherent.of_rows rfl
  | process source envelope =>
    rcases relay.process_cases source envelope with ⟨_, _, _, _, same⟩ | ⟨_, _, _, merges⟩
    · exact coherent.of_rows (by rw [chatCall, same])
    · exact coherent.merges merges fun _ => ChatSource.newest_mem_updates

theorem coherent_afterCalls (relay : Relay) (calls : List ChatCall) :
    (relay.afterCalls calls).chats.Coherent := by
  induction calls using List.reverseRecOn with
  | nil =>
    intro key field
    cases field <;> simp [afterCalls, ChatStore.value, ChatState.get]
  | append_singleton calls call ih =>
    rw [afterCalls, List.foldl_concat]
    exact coherent_chatCall ih call

/-- What holds of the rows after calls, and of the envelope that a processor is given next. -/
structure KeepsRows (relay : Relay) (calls : List ChatCall) : Prop where
  coherent : ∀ key state, (relay.afterCalls calls).chats.load? key = some state →
    state.processed.value ≤ state.newestMessage.value ∧
      state.otherUserDelivered.value ≤ state.newestMessage.value ∧
      state.otherUserSeen.value ≤ state.newestMessage.value
  /-- It fails if and only if writes are to fail, and then it leaves no trace. -/
  failed : ∀ source envelope failure,
    ((Processor.chatState source).process envelope (relay.afterCalls calls)).result = .error failure →
      0 < (relay.afterCalls calls).chats.failingWrites ∧
        ((Processor.chatState source).process envelope (relay.afterCalls calls)).relay.chats.rows =
          (relay.afterCalls calls).chats.rows
  /-- Otherwise all that it says has come into the rows. -/
  accepted : ∀ source envelope,
    ((Processor.chatState source).process envelope (relay.afterCalls calls)).result = .ok () →
      (relay.afterCalls calls).chats.failingWrites = 0 ∧ ∀ update ∈ source.updates envelope,
        ((Processor.chatState source).process envelope (relay.afterCalls calls)).relay.chats.Holds update
  /-- Only the rows of its two users about their chat change. -/
  confined : ∀ source envelope key, key ≠ .forPair envelope.sender envelope.receiver →
    key ≠ .forPair envelope.receiver envelope.sender →
      ((Processor.chatState source).process envelope (relay.afterCalls calls)).relay.chats.load? key =
        (relay.afterCalls calls).chats.load? key

theorem rows_kept (relay : Relay) (calls : List ChatCall) : relay.KeepsRows calls where
  coherent key state found := by
    have coherent (field : ChatField) : (state.get field).value ≤ state.newestMessage.value := by
      have ahead := relay.coherent_afterCalls calls key field
      rw [ChatStore.value_of_load? found, ChatStore.value_of_load? found] at ahead
      exact Int64.le_iff_toInt_le.mpr ahead
    exact ⟨coherent .processed, coherent .otherUserDelivered, coherent .otherUserSeen⟩
  failed source envelope failure failed := by
    rcases (relay.afterCalls calls).process_cases source envelope with
      ⟨failing, _, armed, _, same⟩ | ⟨_, accepted, _⟩
    · exact ⟨by omega, by rw [same]⟩
    · rw [accepted] at failed
      cases failed
  accepted source envelope accepted := by
    rcases (relay.afterCalls calls).process_cases source envelope with
      ⟨_, _, _, failed, _⟩ | ⟨calm, _, _, merges⟩
    · rw [failed] at accepted
      cases accepted
    · exact ⟨calm, merges.holds⟩
  confined source envelope key apart away := by
    rcases (relay.afterCalls calls).process_cases source envelope with
      ⟨_, _, _, _, same⟩ | ⟨_, _, _, merges⟩
    · rw [same, ChatStore.load?, ChatStore.load?]
    · apply merges.others
      intro update among own
      rcases ChatSource.key_of_mem_updates among with theirs | theirs
      · exact apart (own.symm.trans theirs)
      · exact away (own.symm.trans theirs)

/-- An acknowledgement that fails leaves no row; tried again, it is also news there. -/
example :
    let seen := ChatCall.process .messagesTopic (.ack ⟨⟨7⟩, ⟨1⟩, ⟨2⟩, .seen⟩)
    (({} : Relay).afterCalls [.failWrites 1, seen]).chats.load? (.forPair ⟨1⟩ ⟨2⟩) = none ∧
      (({} : Relay).afterCalls [.failWrites 1, seen, seen]).chats.load? (.forPair ⟨1⟩ ⟨2⟩) =
        some { newestMessage := ⟨7⟩, otherUserSeen := ⟨7⟩ } := by
  decide +kernel

end Relay
end ChatRelay
