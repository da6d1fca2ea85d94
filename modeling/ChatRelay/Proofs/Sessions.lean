import ChatRelay.Session

namespace ChatRelay.SessionRegistry

variable {registry : SessionRegistry} {user other : UserId} {session ended : Nat} {envelope : Envelope}

def waiting (registry : SessionRegistry) (session : Nat) : List Envelope :=
  (registry.inboxes[session]?.map (·.waiting)).getD []

/-- No session has a number that has yet to be given out. -/
structure Numbered (registry : SessionRegistry) : Prop where
  sessions : ∀ user, ∀ session ∈ registry.sessionsOf user, session ≤ registry.lastId
  inboxes : ∀ session ∈ registry.inboxes, session ≤ registry.lastId

/-- A session of the user is connected, and its receiving end exists. -/
structure Listens (registry : SessionRegistry) (user : UserId) (session : Nat) : Prop where
  listed : ∀ other, (registry.sessionsOf other).count session = if other = user then 1 else 0
  open_ : session ∈ registry.inboxes
  given : session ≤ registry.lastId

theorem sessionsOf_connect (registry : SessionRegistry) (user other : UserId) :
    (registry.connect user).2.sessionsOf other =
      registry.sessionsOf other ++ if user = other then [registry.lastId + 1] else [] := by
  by_cases same : user = other
  · simp [connect, sessionsOf, same]
  · simp [connect, sessionsOf, same, Std.ExtTreeMap.getD_insert]

theorem sessionsOf_disconnect (registry : SessionRegistry) (user other : UserId) (session : Nat) :
    (registry.disconnect user session).sessionsOf other =
      if user = other then (registry.sessionsOf other).erase session else registry.sessionsOf other := by
  unfold sessionsOf disconnect
  rw [Std.ExtTreeMap.getD_alter]
  by_cases same : user = other
  · subst same
    simp only [Std.ExtTreeMap.getD_eq_getD_getElem?, Std.ReflCmp.compare_self, ↓reduceIte]
    split
    · rename_i none
      exact none.symm
    · rfl
  · simp [same]

theorem sessionsOf_deliver (registry : SessionRegistry) (user other : UserId) (envelope : Envelope) :
    (registry.deliver user envelope).2.sessionsOf other =
      if user = other then (registry.sessionsOf other).filter registry.inboxes.contains
      else registry.sessionsOf other := by
  unfold deliver
  cases found : registry.sessions[user]? with
  | none =>
    by_cases same : user = other
    · subst same
      simp [sessionsOf, Std.ExtTreeMap.getD_eq_getD_getElem?, found]
    · simp [same]
  | some sessions =>
    by_cases same : user = other
    · subst same
      simp [sessionsOf, Std.ExtTreeMap.getD_eq_getD_getElem?, found]
    · simp [sessionsOf, same, Std.ExtTreeMap.getD_insert]

theorem inbox?_fold_put (envelope : Envelope) (sessions : List Nat) (inboxes : Std.ExtTreeMap Nat Inbox) :
    (sessions.foldl (put envelope) inboxes)[session]? =
      inboxes[session]?.map fun (inbox : Inbox) =>
        { inbox with waiting := inbox.waiting ++ List.replicate (sessions.count session) envelope } := by
  induction sessions generalizing inboxes with
  | nil => simp
  | cons other sessions ih =>
    rw [List.foldl_cons, ih, put, Std.ExtTreeMap.getElem?_modify]
    by_cases here : other = session
    · subst here
      simp [List.replicate_succ, Function.comp_def]
    · simp [here]

theorem mem_fold_put (envelope : Envelope) (sessions : List Nat) (inboxes : Std.ExtTreeMap Nat Inbox) :
    session ∈ sessions.foldl (put envelope) inboxes ↔ session ∈ inboxes := by
  rw [Std.ExtTreeMap.mem_iff_isSome_getElem?, inbox?_fold_put, Option.isSome_map,
    ← Std.ExtTreeMap.mem_iff_isSome_getElem?]

theorem lastId_deliver (registry : SessionRegistry) (user : UserId) (envelope : Envelope) :
    (registry.deliver user envelope).2.lastId = registry.lastId := by
  unfold deliver
  split <;> rfl

theorem lastId_receive (registry : SessionRegistry) (session : Nat) :
    (registry.receive session).2.lastId = registry.lastId := by
  unfold receive
  split <;> rfl

theorem mem_inboxes_deliver (registry : SessionRegistry) (user : UserId) (envelope : Envelope) :
    session ∈ (registry.deliver user envelope).2.inboxes ↔ session ∈ registry.inboxes := by
  unfold deliver
  split
  · rfl
  · exact mem_fold_put ..

theorem mem_inboxes_receive (registry : SessionRegistry) (taken : Nat) :
    session ∈ (registry.receive taken).2.inboxes ↔ session ∈ registry.inboxes := by
  unfold receive
  split
  · rfl
  · rename_i found
    rw [Std.ExtTreeMap.mem_insert, Std.LawfulEqCmp.compare_eq_iff_eq]
    constructor
    · rintro (rfl | there)
      · exact Std.ExtTreeMap.mem_iff_isSome_getElem?.mpr (by simp [found])
      · exact there
    · exact .inr

theorem numbered_empty : ({} : SessionRegistry).Numbered where
  sessions user session member := by simp [sessionsOf] at member
  inboxes session member := by simp at member

namespace Numbered

variable (numbered : registry.Numbered)
include numbered

theorem connect (user : UserId) : (registry.connect user).2.Numbered := by
  refine ⟨fun other session member => ?_, fun session member => ?_⟩
  · rw [sessionsOf_connect] at member
    rcases List.mem_append.mp member with member | member
    · exact Nat.le_succ_of_le (numbered.sessions other session member)
    · split at member
      · cases List.mem_singleton.mp member
        exact Nat.le_refl _
      · cases member
  · rw [SessionRegistry.connect, Std.ExtTreeMap.mem_insert, Std.LawfulEqCmp.compare_eq_iff_eq] at member
    rcases member with rfl | member
    · exact Nat.le_refl _
    · exact Nat.le_succ_of_le (numbered.inboxes session member)

theorem disconnect (user : UserId) (ended : Nat) : (registry.disconnect user ended).Numbered := by
  refine ⟨fun other session member => ?_, numbered.inboxes⟩
  rw [sessionsOf_disconnect] at member
  split at member
  · exact numbered.sessions other session (List.mem_of_mem_erase member)
  · exact numbered.sessions other session member

theorem dropInbox (ended : Nat) : (registry.dropInbox ended).2.Numbered :=
  ⟨numbered.sessions, fun session member => numbered.inboxes session (Std.ExtTreeMap.mem_of_mem_erase member)⟩

theorem deliver (user : UserId) (envelope : Envelope) : (registry.deliver user envelope).2.Numbered := by
  refine ⟨fun other session member => ?_, fun session member => ?_⟩
  · rw [lastId_deliver]
    rw [sessionsOf_deliver] at member
    split at member
    · exact numbered.sessions other session (List.mem_filter.mp member).1
    · exact numbered.sessions other session member
  · rw [lastId_deliver]
    exact numbered.inboxes session ((registry.mem_inboxes_deliver user envelope).mp member)

theorem receive (taken : Nat) : (registry.receive taken).2.Numbered := by
  refine ⟨fun other session member => ?_, fun session member => ?_⟩
  · unfold SessionRegistry.receive at member ⊢
    split at member <;> exact numbered.sessions other session member
  · rw [lastId_receive]
    exact numbered.inboxes session ((registry.mem_inboxes_receive taken).mp member)

theorem waiting_eq_nil (fresh : registry.lastId < session) : registry.waiting session = [] := by
  have absent : session ∉ registry.inboxes := fun member =>
    absurd (numbered.inboxes session member) (Nat.not_le_of_lt fresh)
  simp [waiting, Std.ExtTreeMap.getElem?_eq_none absent]

theorem listens_connect (user : UserId) :
    (registry.connect user).2.Listens user (registry.lastId + 1) ∧
      (registry.connect user).2.waiting (registry.lastId + 1) = [] := by
  refine ⟨⟨fun other => ?_, ?_, Nat.le_refl _⟩, ?_⟩
  · have fresh : (registry.sessionsOf other).count (registry.lastId + 1) = 0 := by
      apply List.count_eq_zero.mpr
      intro member
      exact absurd (numbered.sessions other _ member) (Nat.not_succ_le_self _)
    rw [sessionsOf_connect, List.count_append, fresh]
    by_cases same : user = other <;> simp [same, eq_comm]
  · simp [SessionRegistry.connect]
  · simp [waiting, SessionRegistry.connect]

end Numbered

namespace Listens

variable (listens : registry.Listens user session)
include listens

theorem connect (other : UserId) :
    (registry.connect other).2.Listens user session ∧
      (registry.connect other).2.waiting session = registry.waiting session := by
  have different : registry.lastId + 1 ≠ session := Nat.ne_of_gt (Nat.lt_succ_of_le listens.given)
  refine ⟨⟨fun another => ?_, ?_, Nat.le_succ_of_le listens.given⟩, ?_⟩
  · rw [sessionsOf_connect, List.count_append, listens.listed]
    split <;> split <;> simp [different]
  · simp [SessionRegistry.connect, listens.open_]
  · simp [waiting, SessionRegistry.connect, Std.ExtTreeMap.getElem?_insert, different]

theorem disconnect (stays : other ≠ user ∨ ended ≠ session) :
    (registry.disconnect other ended).Listens user session := by
  refine ⟨fun another => ?_, listens.open_, listens.given⟩
  rw [sessionsOf_disconnect]
  split
  · rename_i same
    subst same
    rw [List.count_erase, listens.listed]
    by_cases here : other = user
    · have kept : ended ≠ session := stays.resolve_left fun different => different here
      simp [here, kept]
    · simp [here]
  · exact listens.listed another

theorem dropInbox (stays : ended ≠ session) :
    (registry.dropInbox ended).2.Listens user session ∧
      (registry.dropInbox ended).2.waiting session = registry.waiting session := by
  refine ⟨⟨listens.listed, ?_, listens.given⟩, ?_⟩
  · simp [SessionRegistry.dropInbox, listens.open_, stays]
  · simp [waiting, SessionRegistry.dropInbox, Std.ExtTreeMap.getElem?_erase, stays]

/-- A delivery to the user waits behind what waited before; no other delivery does. -/
theorem deliver (recipient : UserId) (envelope : Envelope) :
    (registry.deliver recipient envelope).2.Listens user session ∧
      (registry.deliver recipient envelope).2.waiting session =
        registry.waiting session ++ if recipient = user then [envelope] else [] := by
  have there : registry.inboxes.contains session := by simpa using listens.open_
  obtain ⟨inbox, found⟩ := Option.isSome_iff_exists.mp (Std.ExtTreeMap.mem_iff_isSome_getElem?.mp listens.open_)
  have count := listens.listed recipient
  refine ⟨⟨fun other => ?_, ?_, ?_⟩, ?_⟩
  · rw [sessionsOf_deliver]
    split
    · rw [List.count_filter there]
      exact listens.listed other
    · exact listens.listed other
  · exact (registry.mem_inboxes_deliver recipient envelope).mpr listens.open_
  · rw [lastId_deliver]
    exact listens.given
  · unfold SessionRegistry.deliver
    split
    · rename_i none
      rw [sessionsOf, Std.ExtTreeMap.getD_eq_getD_getElem?, none] at count
      have other : recipient ≠ user := fun same => by simp [same] at count
      simp [other]
    · rename_i sessions listed
      rw [sessionsOf, Std.ExtTreeMap.getD_eq_getD_getElem?, listed, Option.getD_some] at count
      simp only [waiting, inbox?_fold_put, found, List.count_filter there, count, Option.map_some,
        Option.getD_some]
      split <;> rfl

theorem receive (taken : Nat) :
    (registry.receive taken).2.Listens user session ∧
      (registry.receive taken).2.waiting session =
        if taken = session then [] else registry.waiting session := by
  unfold SessionRegistry.receive
  split
  · rename_i none
    have different : taken ≠ session := by
      rintro rfl
      have open_ := listens.open_
      rw [Std.ExtTreeMap.mem_iff_isSome_getElem?, none] at open_
      cases open_
    exact ⟨listens, by simp [different]⟩
  · refine ⟨⟨listens.listed, ?_, listens.given⟩, ?_⟩
    · simp [listens.open_]
    · by_cases same : taken = session <;> simp [waiting, Std.ExtTreeMap.getElem?_insert, same]

end Listens
end ChatRelay.SessionRegistry
