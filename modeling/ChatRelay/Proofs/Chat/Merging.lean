import ChatRelay.Chat.Store

namespace ChatRelay

theorem ChatState.ext_get {first second : ChatState}
    (same : ∀ field, (first.get field).value.toInt = (second.get field).value.toInt) : first = second := by
  have fields (field : ChatField) : first.get field = second.get field := by
    have equal := Int64.toInt_inj.mp (same field)
    generalize first.get field = left at equal
    generalize second.get field = right at equal
    cases left
    cases right
    exact congrArg MessageId.mk equal
  obtain ⟨_, _, _, _⟩ := first
  obtain ⟨_, _, _, _⟩ := second
  have newest := fields .newestMessage
  have processed := fields .processed
  have delivered := fields .otherUserDelivered
  have seen := fields .otherUserSeen
  simp only [ChatState.get] at newest processed delivered seen
  rw [newest, processed, delivered, seen]

namespace ChatUpdate

def Concerns (update : ChatUpdate) (key : ChatKey) (field : ChatField) : Prop :=
  update.key = key ∧ update.field = field

instance (update : ChatUpdate) (key : ChatKey) (field : ChatField) :
    Decidable (update.Concerns key field) :=
  inferInstanceAs (Decidable (_ ∧ _))

/-- The greatest message number that updates give for a field, or zero. -/
def highest (updates : List ChatUpdate) (key : ChatKey) (field : ChatField) : Int :=
  updates.foldr (fun update best =>
    if update.Concerns key field then max update.id.value.toInt best else best) 0

variable {updates others : List ChatUpdate} {update : ChatUpdate} {key : ChatKey} {field : ChatField}

theorem highest_nonneg (updates : List ChatUpdate) (key : ChatKey) (field : ChatField) :
    0 ≤ highest updates key field := by
  induction updates with
  | nil => exact Int.le_refl 0
  | cons update rest ih =>
    simp only [highest, List.foldr_cons] at ih ⊢
    split
    · exact Int.le_trans ih (Int.le_max_right _ _)
    · exact ih

theorem le_highest (member : update ∈ updates) (concerns : update.Concerns key field) :
    update.id.value.toInt ≤ highest updates key field := by
  induction updates with
  | nil => cases member
  | cons first rest ih =>
    simp only [highest, List.foldr_cons] at ih ⊢
    rcases List.mem_cons.mp member with rfl | member
    · rw [if_pos concerns]
      exact Int.le_max_left _ _
    · split
      · exact Int.le_trans (ih member) (Int.le_max_right _ _)
      · exact ih member

theorem highest_le {bound : Int} (nonneg : 0 ≤ bound)
    (bounds : ∀ update ∈ updates, update.Concerns key field → update.id.value.toInt ≤ bound) :
    highest updates key field ≤ bound := by
  induction updates with
  | nil => exact nonneg
  | cons first rest ih =>
    have rest := ih fun update member => bounds update (List.mem_cons_of_mem _ member)
    simp only [highest, List.foldr_cons] at rest ⊢
    split
    · rename_i concerns
      exact Int.max_le.mpr ⟨bounds first List.mem_cons_self concerns, rest⟩
    · exact rest

/-- The greatest number depends on what is among the updates, not on their order or how often they come. -/
theorem highest_congr (same : ∀ update, update ∈ updates ↔ update ∈ others) :
    highest updates key field = highest others key field := by
  refine Int.le_antisymm (highest_le (highest_nonneg _ _ _) ?_) (highest_le (highest_nonneg _ _ _) ?_)
  · exact fun update among concerns => le_highest ((same update).mp among) concerns
  · exact fun update among concerns => le_highest ((same update).mpr among) concerns

end ChatUpdate

namespace ChatStore

variable {store middle later : ChatStore} {failure : Failure} {update : ChatUpdate} {key : ChatKey} {field : ChatField}

/-- The number of the message that a field has come to, zero if there is no row. -/
def value (store : ChatStore) (key : ChatKey) (field : ChatField) : Int :=
  ((store.rows.getD key {}).get field).value.toInt

/-- The row is there and its field has come to the update's message. -/
def Holds (store : ChatStore) (update : ChatUpdate) : Prop :=
  update.key ∈ store.rows ∧ update.id.value.toInt ≤ store.value update.key update.field

/-- No row is lost, and no field goes back. -/
structure Below (store later : ChatStore) : Prop where
  rows : ∀ key, key ∈ store.rows → key ∈ later.rows
  values : ∀ key field, store.value key field ≤ later.value key field

theorem Below.refl (store : ChatStore) : store.Below store :=
  ⟨fun _ present => present, fun _ _ => Int.le_refl _⟩

theorem Below.trans (first : store.Below middle) (second : middle.Below later) : store.Below later :=
  ⟨fun key present => second.rows key (first.rows key present),
    fun key field => Int.le_trans (first.values key field) (second.values key field)⟩

theorem Holds.mono (holds : store.Holds update) (below : store.Below later) : later.Holds update :=
  ⟨below.rows _ holds.1, Int.le_trans holds.2 (below.values _ _)⟩

theorem value_congr (rows : later.rows = store.rows) : later.value = store.value := by
  funext key field
  rw [value, value, rows]

theorem Below.of_rows (rows : later.rows = store.rows) : store.Below later :=
  ⟨fun _ present => rows ▸ present, fun key field => Int.le_of_eq (by rw [value_congr rows])⟩

theorem value_of_load? (found : store.load? key = some state) (field : ChatField) :
    store.value key field = (state.get field).value.toInt := by
  rw [value, Std.ExtTreeMap.getD_eq_getD_getElem?, ← load?, found, Option.getD_some]

theorem rows_ext {other : ChatStore} (rows : ∀ key, key ∈ store.rows ↔ key ∈ other.rows)
    (values : ∀ key field, store.value key field = other.value key field) : store.rows = other.rows := by
  apply Std.ExtTreeMap.ext_getElem?
  intro key
  by_cases present : key ∈ store.rows
  · have first : store.rows[key]? = some (store.rows.getD key {}) :=
      Std.ExtTreeMap.getElem?_eq_some_getD present
    have second : other.rows[key]? = some (other.rows.getD key {}) :=
      Std.ExtTreeMap.getElem?_eq_some_getD ((rows key).mp present)
    rw [first, second, ChatState.ext_get (values key)]
  · have absent := mt (rows key).mpr present
    rw [Std.ExtTreeMap.getElem?_eq_none present, Std.ExtTreeMap.getElem?_eq_none absent]

/-- A failed write leaves all rows alone, and is worth retrying. -/
theorem merge_error (failed : store.merge update = (.error failure, later)) :
    later.rows = store.rows ∧ failure.isRetriable = true := by
  unfold merge at failed
  split at failed
  · cases failed
    exact ⟨rfl, rfl⟩
  · cases failed

/-- A merge brings its field up to the message, and leaves all other fields alone. -/
theorem value_merge (merged : store.merge update = (.ok state, later)) (key : ChatKey)
    (field : ChatField) :
    later.value key field =
      if update.Concerns key field then max (store.value key field) update.id.value.toInt
      else store.value key field := by
  unfold merge at merged
  split at merged
  · cases merged
  · cases merged
    unfold value
    rw [Std.ExtTreeMap.getD_insert]
    by_cases same : update.key = key
    · subst same
      simp [ChatState.get_merge, ChatUpdate.Concerns]
    · simp [same, ChatUpdate.Concerns]

theorem mem_rows_merge (merged : store.merge update = (.ok state, later)) (key : ChatKey) :
    key ∈ later.rows ↔ update.key = key ∨ key ∈ store.rows := by
  unfold merge at merged
  split at merged
  · cases merged
  · cases merged
    simp

theorem load?_merge (merged : store.merge update = (.ok state, later)) (other : update.key ≠ key) :
    later.load? key = store.load? key := by
  unfold merge at merged
  split at merged
  · cases merged
  · cases merged
    simp [load?, Std.ExtTreeMap.getElem?_insert, other]

theorem below_merge (merged : store.merge update = (.ok state, later)) : store.Below later := by
  constructor
  · intro key present
    exact (mem_rows_merge merged key).mpr (.inr present)
  · intro key field
    rw [value_merge merged]
    split
    · exact Int.le_max_left _ _
    · exact Int.le_refl _

theorem holds_merge (merged : store.merge update = (.ok state, later)) : later.Holds update := by
  refine ⟨(mem_rows_merge merged update.key).mpr (.inl rfl), ?_⟩
  rw [value_merge merged, if_pos ⟨rfl, rfl⟩]
  exact Int.le_max_right _ _

/-- All that the store holds it was told by one of some updates. -/
structure Told (store : ChatStore) (told : ChatUpdate → Prop) : Prop where
  rows : ∀ key, key ∈ store.rows → ∃ update, told update ∧ update.key = key
  values : ∀ key field, store.value key field = 0 ∨
    ∃ update, told update ∧ update.Concerns key field ∧ store.value key field = update.id.value.toInt

namespace Told

variable {told more : ChatUpdate → Prop}

theorem mono (faithful : store.Told told) (within : ∀ update, told update → more update) :
    store.Told more := by
  constructor
  · intro key present
    obtain ⟨update, given, same⟩ := faithful.rows key present
    exact ⟨update, within update given, same⟩
  · intro key field
    rcases faithful.values key field with zero | ⟨update, given, concerns, same⟩
    · exact .inl zero
    · exact .inr ⟨update, within update given, concerns, same⟩

theorem of_rows (faithful : store.Told told) (rows : later.rows = store.rows) : later.Told told := by
  constructor
  · intro key present
    exact faithful.rows key (rows ▸ present)
  · intro key field
    rw [value_congr rows]
    exact faithful.values key field

theorem merge (faithful : store.Told told) (given : told update)
    (merged : store.merge update = (.ok state, later)) : later.Told told := by
  constructor
  · intro key present
    rcases (mem_rows_merge merged key).mp present with same | present
    · exact ⟨update, given, same⟩
    · exact faithful.rows key present
  · intro key field
    rw [value_merge merged]
    split
    · rename_i concerns
      rcases Int.le_total (store.value key field) update.id.value.toInt with less | more
      · rw [Int.max_eq_right less]
        exact .inr ⟨update, given, concerns, rfl⟩
      · rw [Int.max_eq_left more]
        exact faithful.values key field
    · exact faithful.values key field

end Told
end ChatStore
end ChatRelay
