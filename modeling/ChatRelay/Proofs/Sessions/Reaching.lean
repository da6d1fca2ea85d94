import ChatRelay.Proofs.Sessions

namespace ChatRelay.SessionRegistry

/-- What happens to sessions without a delivery. -/
inductive Change where
  | connect (user : UserId)
  | disconnect (user : UserId) (session : Nat)
  | dropInbox (session : Nat)
  | receive (session : Nat)

def change (registry : SessionRegistry) : Change → SessionRegistry
  | .connect user => (registry.connect user).2
  | .disconnect user session => registry.disconnect user session
  | .dropInbox session => (registry.dropInbox session).2
  | .receive session => (registry.receive session).2

variable {registry : SessionRegistry} {user : UserId} {session : Nat}

/-- A session is listed once, for its user. -/
structure Orderly (registry : SessionRegistry) : Prop where
  numbered : registry.Numbered
  once : ∀ user, ∀ session ∈ registry.sessionsOf user, ∀ other,
    (registry.sessionsOf other).count session = if other = user then 1 else 0

theorem orderly_empty : ({} : SessionRegistry).Orderly where
  numbered := numbered_empty
  once user session member := by simp [sessionsOf] at member

theorem Listens.mem (listens : registry.Listens user session) : session ∈ registry.sessionsOf user := by
  apply List.count_pos_iff.mp
  rw [listens.listed, if_pos rfl]
  exact Nat.one_pos

namespace Orderly

variable (orderly : registry.Orderly)
include orderly

theorem listens (listed : session ∈ registry.sessionsOf user) (open_ : session ∈ registry.inboxes) :
    registry.Listens user session :=
  ⟨orderly.once user session listed, open_, orderly.numbered.sessions user session listed⟩

theorem listens_iff :
    registry.Listens user session ↔ session ∈ registry.sessionsOf user ∧ session ∈ registry.inboxes :=
  ⟨fun listens => ⟨listens.mem, listens.open_⟩, fun listed => orderly.listens listed.1 listed.2⟩

theorem connect (user : UserId) : (registry.connect user).2.Orderly := by
  refine ⟨orderly.numbered.connect user, fun owner session member other => ?_⟩
  have fresh (name : UserId) : registry.lastId + 1 ∉ registry.sessionsOf name := fun listed =>
    absurd (orderly.numbered.sessions name _ listed) (Nat.not_succ_le_self _)
  rw [sessionsOf_connect] at member ⊢
  rw [List.count_append]
  rcases List.mem_append.mp member with listed | added
  · have different : registry.lastId + 1 ≠ session := by
      rintro rfl
      exact fresh owner listed
    rw [orderly.once owner session listed]
    split <;> split <;> simp [different]
  · split at added
    · rename_i same
      cases List.mem_singleton.mp added
      subst same
      rw [List.count_eq_zero.mpr (fresh other)]
      by_cases here : user = other <;> simp [here, eq_comm]
    · cases added

theorem disconnect (user : UserId) (ended : Nat) : (registry.disconnect user ended).Orderly := by
  refine ⟨orderly.numbered.disconnect user ended, fun owner session member other => ?_⟩
  rw [sessionsOf_disconnect] at member ⊢
  have listed : session ∈ registry.sessionsOf owner := by
    split at member
    · exact List.mem_of_mem_erase member
    · exact member
  have count := orderly.once owner session listed
  by_cases gone : ended = session
  · subst gone
    -- the session that ends is listed for nobody else
    have elsewhere : user ≠ owner := by
      rintro rfl
      rw [if_pos rfl] at member
      have left := List.count_pos_iff.mpr member
      rw [List.count_erase, count] at left
      simp at left
    split
    · rename_i same
      subst same
      rw [List.count_erase, count]
      simp [elsewhere]
    · exact count other
  · split
    · rw [List.count_erase, count]
      simp [gone]
    · exact count other

theorem dropInbox (ended : Nat) : (registry.dropInbox ended).2.Orderly :=
  ⟨orderly.numbered.dropInbox ended, orderly.once⟩

theorem receive (taken : Nat) : (registry.receive taken).2.Orderly := by
  refine ⟨orderly.numbered.receive taken, ?_⟩
  unfold SessionRegistry.receive
  split <;> exact orderly.once

theorem change (change : Change) : (registry.change change).Orderly := by
  cases change with
  | connect user => exact orderly.connect user
  | disconnect user session => exact orderly.disconnect user session
  | dropInbox session => exact orderly.dropInbox session
  | receive session => exact orderly.receive session

theorem deliver (user : UserId) (envelope : Envelope) : (registry.deliver user envelope).2.Orderly := by
  refine ⟨orderly.numbered.deliver user envelope, fun owner session member other => ?_⟩
  rw [sessionsOf_deliver] at member ⊢
  have listed : session ∈ registry.sessionsOf owner := by
    split at member
    · exact (List.mem_filter.mp member).1
    · exact member
  have count := orderly.once owner session listed
  split
  · rename_i same
    subst same
    by_cases here : user = owner
    · subst here
      rw [if_pos rfl] at member
      rw [List.count_filter (List.mem_filter.mp member).2]
      exact count user
    · have absent : session ∉ registry.sessionsOf user := by
        apply List.count_eq_zero.mp
        rw [count, if_neg here]
      rw [if_neg here]
      exact List.count_eq_zero.mpr fun among => absent (List.mem_filter.mp among).1
  · exact count other

/-- An envelope is delivered if and only if its recipient has a session whose receiving end exists. -/
theorem delivered_iff (envelope : Envelope) :
    (registry.deliver user envelope).1 = .delivered ↔ ∃ session, registry.Listens user session := by
  unfold SessionRegistry.deliver
  cases found : registry.sessions[user]? with
  | none =>
    have nobody : registry.sessionsOf user = [] := by
      rw [sessionsOf, Std.ExtTreeMap.getD_eq_getD_getElem?, found, Option.getD_none]
    constructor
    · intro delivered
      cases delivered
    · rintro ⟨session, listens⟩
      have among := listens.mem
      rw [nobody] at among
      cases among
  | some sessions =>
    have all : registry.sessionsOf user = sessions := by
      rw [sessionsOf, Std.ExtTreeMap.getD_eq_getD_getElem?, found, Option.getD_some]
    dsimp only
    constructor
    · intro delivered
      split at delivered
      · cases delivered
      · rename_i some_
        obtain ⟨session, among⟩ := List.exists_mem_of_ne_nil _ (mt List.isEmpty_iff.mpr some_)
        obtain ⟨among, open_⟩ := List.mem_filter.mp among
        exact ⟨session, orderly.listens (all ▸ among) (by simpa using open_)⟩
    · rintro ⟨session, listens⟩
      have among : session ∈ sessions.filter registry.inboxes.contains :=
        List.mem_filter.mpr ⟨all ▸ listens.mem, by simpa using listens.open_⟩
      rw [if_neg]
      intro empty
      rw [List.isEmpty_iff.mp empty] at among
      cases among

end Orderly
end ChatRelay.SessionRegistry
