import ChatRelay.Proofs.Sessions.Subscriptions

/-! Whom the map of sessions keeps. Every user with sessions has an entry, and a user who disconnects the last
session is forgotten. A delivery drops the sessions whose receiving ends have vanished, but leaves the entry: one
that has lost all of them stays without sessions until the user connects or disconnects again. -/
namespace ChatRelay.SessionRegistry

variable {registry : SessionRegistry} {user other : UserId} {events : List Event} {event : Event}

/-- The user has an entry without sessions. -/
def Deserted (registry : SessionRegistry) (user : UserId) : Prop :=
  user ∈ registry.sessions ∧ registry.sessionsOf user = []

/-- The user connects a session, or disconnects one, whichever it is. -/
def Event.callOf (user : UserId) : Event → Bool
  | .change (.connect other) => other = user
  | .change (.disconnect other _) => other = user
  | _ => false

/-- A delivery found an entry of the user but nobody who listens, and the user has not called since. -/
def Emptied (events : List Event) (user : UserId) : Prop :=
  ∃ envelope earlier later, events = earlier ++ .deliver user envelope :: later ∧
    (user ∈ (after earlier).sessions ∧ ∀ session, ¬ Subscribed earlier user session) ∧
      ∀ event ∈ later, event.callOf user = false

theorem mem_sessions_of_sessionsOf_ne_nil (some : registry.sessionsOf user ≠ []) : user ∈ registry.sessions := by
  apply Decidable.byContradiction
  intro absent
  exact some (Std.ExtTreeMap.getD_eq_fallback absent)

theorem mem_sessions_connect (registry : SessionRegistry) (user : UserId) :
    other ∈ (registry.connect user).2.sessions ↔ user = other ∨ other ∈ registry.sessions := by
  rw [connect, Std.ExtTreeMap.mem_insert, Std.LawfulEqCmp.compare_eq_iff_eq]

theorem mem_sessions_disconnect (registry : SessionRegistry) (user : UserId) (ended : Nat) :
    other ∈ (registry.disconnect user ended).sessions ↔
      if user = other then (registry.sessionsOf other).erase ended ≠ [] else other ∈ registry.sessions := by
  simp only [disconnect, sessionsOf, Std.ExtTreeMap.mem_alter, Std.LawfulEqCmp.compare_eq_iff_eq,
    Std.ExtTreeMap.getD_eq_getD_getElem?]
  by_cases same : user = other
  · subst same
    cases (registry.sessions[user]?.getD []).erase ended <;> simp
  · simp [same]

theorem mem_sessions_deliver (registry : SessionRegistry) (user : UserId) (envelope : Envelope) :
    other ∈ (registry.deliver user envelope).2.sessions ↔ other ∈ registry.sessions := by
  unfold deliver
  split
  · rfl
  · rename_i sessions found
    have there : user ∈ registry.sessions := by
      rw [Std.ExtTreeMap.mem_iff_isSome_getElem?, found]
      rfl
    rw [Std.ExtTreeMap.mem_insert, Std.LawfulEqCmp.compare_eq_iff_eq]
    constructor
    · rintro (rfl | among)
      · exact there
      · exact among
    · exact .inr

theorem deserted_connect (registry : SessionRegistry) (user : UserId) :
    (registry.connect user).2.Deserted other ↔ registry.Deserted other ∧ user ≠ other := by
  rw [Deserted, Deserted, mem_sessions_connect, sessionsOf_connect]
  by_cases same : user = other <;> simp [same]

theorem deserted_disconnect (registry : SessionRegistry) (user : UserId) (ended : Nat) :
    (registry.disconnect user ended).Deserted other ↔ registry.Deserted other ∧ user ≠ other := by
  rw [Deserted, Deserted, mem_sessions_disconnect, sessionsOf_disconnect]
  by_cases same : user = other <;> simp [same]

theorem deserted_receive (registry : SessionRegistry) (taken : Nat) :
    (registry.receive taken).2.Deserted other ↔ registry.Deserted other := by
  have sessions : (registry.receive taken).2.sessions = registry.sessions := by
    unfold receive
    split <;> rfl
  rw [Deserted, Deserted, sessionsOf_receive, sessions]

namespace Orderly

variable (orderly : registry.Orderly)
include orderly

theorem deserted_deliver (user : UserId) (envelope : Envelope) :
    (registry.deliver user envelope).2.Deserted other ↔
      if user = other then other ∈ registry.sessions ∧ ∀ session, ¬ registry.Listens other session
      else registry.Deserted other := by
  rw [Deserted, Deserted, mem_sessions_deliver, sessionsOf_deliver]
  by_cases same : user = other
  · simp [same, List.filter_eq_nil_iff, orderly.listens_iff]
  · simp [same]

theorem deserted_handle (event : Event) :
    (registry.handle event).Deserted user ↔
      (registry.Deserted user ∧ event.callOf user = false) ∨
        ∃ envelope, event = .deliver user envelope ∧
          user ∈ registry.sessions ∧ ∀ session, ¬ registry.Listens user session := by
  rcases event with (other | ⟨other, ended⟩ | ended | taken) | ⟨other, envelope⟩
  case change.connect => simp [SessionRegistry.handle, SessionRegistry.change, deserted_connect, Event.callOf]
  case change.disconnect =>
    simp [SessionRegistry.handle, SessionRegistry.change, deserted_disconnect, Event.callOf]
  case change.dropInbox =>
    have same : (registry.dropInbox ended).2.Deserted user ↔ registry.Deserted user := Iff.rfl
    simp [SessionRegistry.handle, SessionRegistry.change, same, Event.callOf]
  case change.receive => simp [SessionRegistry.handle, SessionRegistry.change, deserted_receive, Event.callOf]
  case deliver =>
    rw [SessionRegistry.handle, orderly.deserted_deliver]
    by_cases own : other = user
    · subst own
      -- nobody listens at an entry that was without sessions before
      have nobody (deserted : registry.Deserted other) (session : Nat) : ¬ registry.Listens other session := by
        intro listens
        have among := listens.mem
        rw [deserted.2] at among
        cases among
      simp only [if_true, Event.callOf, and_true, Event.deliver.injEq, true_and, exists_eq_left']
      constructor
      · exact .inr
      · rintro (deserted | found)
        · exact ⟨deserted.1, nobody deserted⟩
        · exact found
    · simp [own, Event.callOf]

end Orderly

theorem emptied_concat :
    Emptied (events ++ [event]) user ↔ (Emptied events user ∧ event.callOf user = false) ∨
      ∃ envelope, event = .deliver user envelope ∧
        user ∈ (after events).sessions ∧ ∀ session, ¬ Subscribed events user session := by
  unfold Emptied
  simp only [exists_split_concat, exists_or, exists_and_right]

/-- An entry is without sessions exactly if a delivery has emptied it. -/
theorem deserted_after : (after events).Deserted user ↔ Emptied events user := by
  induction events using List.reverseRecOn with
  | nil => simp [Deserted, Emptied, after]
  | append_singleton events event ih =>
    rw [after_concat, (orderly_after events).deserted_handle, emptied_concat, ih]
    simp only [listens_after]

/-- What has an entry has sessions or is without. -/
theorem size_sessions (registry : SessionRegistry) :
    ∃ registered deserted : Finset UserId,
      (∀ user, user ∈ registered ↔ 0 < registry.sessionCount user) ∧
        (∀ user, user ∈ deserted ↔ registry.Deserted user) ∧
          registry.sessions.size = registered.card + deserted.card := by
  have entries : registry.sessions.keys.toFinset.card = registry.sessions.size := by
    rw [List.toFinset_card_of_nodup Std.ExtTreeMap.nodup_keys, Std.ExtTreeMap.length_keys]
  refine ⟨registry.sessions.keys.toFinset.filter fun user => ¬ registry.sessionsOf user = [],
    registry.sessions.keys.toFinset.filter fun user => registry.sessionsOf user = [], ?_, ?_, ?_⟩
  · intro user
    rw [Finset.mem_filter, List.mem_toFinset, Std.ExtTreeMap.mem_keys, sessionCount, List.length_pos_iff]
    exact ⟨And.right, fun some => ⟨mem_sessions_of_sessionsOf_ne_nil some, some⟩⟩
  · intro user
    rw [Finset.mem_filter, List.mem_toFinset, Std.ExtTreeMap.mem_keys, Deserted]
  · rw [← entries, Nat.add_comm, Finset.card_filter_add_card_filter_not]

/-- Which users have entries, after any events. -/
structure KeepsEntries (events : List Event) : Prop where
  /-- Users with sessions are never forgotten. -/
  registered : ∀ user, 0 < (after events).sessionCount user → user ∈ (after events).sessions
  /-- All others have been, but those whose entry a delivery has emptied. -/
  deserted : ∀ user, user ∈ (after events).sessions ∧ (after events).sessionCount user = 0 ↔ Emptied events user
  /-- There are more entries than users with sessions by as many. -/
  counted : ∃ registered emptied : Finset UserId,
    (∀ user, user ∈ registered ↔ 0 < (after events).sessionCount user) ∧
      (∀ user, user ∈ emptied ↔ Emptied events user) ∧
        (after events).sessions.size = registered.card + emptied.card

theorem entries_outlast_sessions (events : List Event) : KeepsEntries events where
  registered user some := mem_sessions_of_sessionsOf_ne_nil (List.length_pos_iff.mp some)
  deserted user := by
    rw [← deserted_after, Deserted, sessionCount, List.length_eq_zero_iff]
  counted := by
    obtain ⟨registered, deserted, some, none, size⟩ := (after events).size_sessions
    exact ⟨registered, deserted, some, fun user => (none user).trans deserted_after, size⟩

/-- A user's only session vanishes, and something is delivered to the user. -/
def vanished : List Event :=
  [.change (.connect ⟨1⟩), .change (.dropInbox 1), .deliver ⟨1⟩ (.message ⟨⟨7⟩, ⟨2⟩, ⟨1⟩, []⟩)]

/-- The entry stays, although nobody has a session. Had the session been disconnected, it would be gone. -/
theorem vanished_leaves_entry :
    (⟨1⟩ ∈ (after vanished).sessions ∧ (after vanished).sessionCount ⟨1⟩ = 0) ∧
      ((after vanished).sessions.size = 1 ∧ ∀ user, (after vanished).sessionCount user = 0) ∧
        (after [.change (.connect ⟨1⟩), .change (.disconnect ⟨1⟩ 1)]).sessions.size = 0 := by
  have entries : (after vanished).sessions.keys = [⟨1⟩] := by decide +kernel
  have nobody (user : UserId) : (after vanished).sessionCount user = 0 := by
    apply Decidable.byContradiction
    intro some
    have entry : user ∈ (after vanished).sessions :=
      mem_sessions_of_sessionsOf_ne_nil (mt List.length_eq_zero_iff.mpr some)
    rw [← Std.ExtTreeMap.mem_keys, entries, List.mem_singleton] at entry
    subst entry
    exact some (by decide +kernel)
  refine ⟨⟨?_, nobody ⟨1⟩⟩, ⟨?_, nobody⟩, by decide +kernel⟩
  · rw [← Std.ExtTreeMap.mem_keys, entries]
    exact List.mem_cons_self
  · rw [← Std.ExtTreeMap.length_keys, entries]
    rfl

end ChatRelay.SessionRegistry
