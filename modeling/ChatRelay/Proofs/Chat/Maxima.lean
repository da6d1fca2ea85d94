import Mathlib.Data.Finset.Card
import Mathlib.Data.List.Induction
import ChatRelay.Proofs.Chat.Merging

namespace ChatRelay

namespace ChatUpdate

theorem highest_concat (updates : List ChatUpdate) (update : ChatUpdate) (key : ChatKey)
    (field : ChatField) :
    highest (updates ++ [update]) key field =
      if update.Concerns key field then max (highest updates key field) update.id.value.toInt
      else highest updates key field := by
  induction updates with
  | nil => simp [highest, Int.max_comm]
  | cons first rest ih =>
    simp only [highest, List.cons_append, List.foldr_cons] at ih ⊢
    rw [ih]
    split <;> split <;> simp [Int.max_assoc]

end ChatUpdate

namespace ChatStore

variable {store later : ChatStore} {update : ChatUpdate} {key : ChatKey}

/-- What those who share a store do to it. Each is one step. -/
inductive Writing where
  | merge (update : ChatUpdate)
  | failWrites (count : Nat)

def write (store : ChatStore) : Writing → ChatStore
  | .merge update => (store.merge update).2
  | .failWrites count => store.failWrites count

def writtenTo (writings : List Writing) : ChatStore := writings.foldl write {}

def merged? (store : ChatStore) : Writing → Option ChatUpdate
  | .merge update => if (store.merge update).1.isOk then some update else none
  | .failWrites _ => none

def merged (store : ChatStore) : List Writing → List ChatUpdate
  | [] => []
  | writing :: rest => (store.merged? writing).toList ++ (store.write writing).merged rest

/-- The updates of the merges that are not made to fail, if the next `failing` are. -/
def accepted : (failing : Nat) → List Writing → List ChatUpdate
  | _, [] => []
  | _, .failWrites count :: rest => accepted count rest
  | 0, .merge update :: rest => update :: accepted 0 rest
  | failing + 1, .merge _ :: rest => accepted failing rest

/-- A merge fails if that was asked for, and goes through otherwise. -/
theorem merge_cases (store : ChatStore) (update : ChatUpdate) :
    (∃ failing, store.failingWrites = failing + 1 ∧
      store.merge update = (.error (.storage (.injectedWriteFailure update.key)),
        { store with failingWrites := failing })) ∨
    ∃ state later, store.failingWrites = 0 ∧ store.merge update = (.ok state, later) ∧
      later.failingWrites = 0 ∧ later.load? update.key = some state := by
  unfold merge
  cases asked : store.failingWrites with
  | succ failing => exact .inl ⟨failing, rfl, rfl⟩
  | zero => exact .inr ⟨_, _, rfl, rfl, rfl, Std.ExtTreeMap.getElem?_insert_self⟩

theorem merged_eq_accepted (store : ChatStore) (writings : List Writing) :
    store.merged writings = accepted store.failingWrites writings := by
  induction writings generalizing store with
  | nil => simp [merged, accepted]
  | cons writing rest ih =>
    rw [merged, ih]
    cases writing with
    | failWrites count => rfl
    | merge update =>
      rcases store.merge_cases update with ⟨failing, asked, failed⟩ | ⟨state, later, calm, went, still, _⟩
      · simp [merged?, write, failed, asked, accepted, Except.isOk, Except.toBool]
      · simp [merged?, write, went, calm, still, accepted, Except.isOk, Except.toBool]

theorem merged_append (store : ChatStore) (earlier later : List Writing) :
    store.merged (earlier ++ later) = store.merged earlier ++ (earlier.foldl write store).merged later := by
  induction earlier generalizing store with
  | nil => rfl
  | cons writing earlier ih => simp [merged, ih]

@[simp] theorem writtenTo_concat (writings : List Writing) (writing : Writing) :
    writtenTo (writings ++ [writing]) = (writtenTo writings).write writing := by
  simp [writtenTo]

theorem merged_concat (writings : List Writing) (writing : Writing) :
    merged {} (writings ++ [writing]) =
      merged {} writings ++ ((writtenTo writings).merged? writing).toList := by
  simp [merged_append, merged, writtenTo]

theorem write_cases (store : ChatStore) (writing : Writing) :
    (store.merged? writing = none ∧ (store.write writing).rows = store.rows) ∨
    ∃ update state, store.merged? writing = some update ∧
      store.merge update = (.ok state, store.write writing) := by
  cases writing with
  | failWrites count => exact .inl ⟨rfl, rfl⟩
  | merge update =>
    rcases store.merge_cases update with ⟨failing, -, failed⟩ | ⟨state, later, -, went, -⟩
    · exact .inl (by simp [merged?, write, failed, Except.isOk, Except.toBool])
    · exact .inr ⟨update, state, by simp [merged?, write, went, Except.isOk, Except.toBool]⟩

theorem mem_rows_writtenTo (writings : List Writing) (key : ChatKey) :
    key ∈ (writtenTo writings).rows ↔ ∃ update ∈ merged {} writings, update.key = key := by
  induction writings using List.reverseRecOn with
  | nil => simp [writtenTo, merged]
  | append_singleton writings writing ih =>
    rw [writtenTo_concat, merged_concat]
    rcases (writtenTo writings).write_cases writing with ⟨none, rows⟩ | ⟨update, state, some, went⟩
    · simp [none, rows, ih]
    · rw [mem_rows_merge went, ih, some]
      simp [or_and_right, exists_or, or_comm]

theorem value_writtenTo (writings : List Writing) (key : ChatKey) (field : ChatField) :
    (writtenTo writings).value key field = ChatUpdate.highest (merged {} writings) key field := by
  induction writings using List.reverseRecOn with
  | nil => cases field <;> simp [writtenTo, merged, value, ChatUpdate.highest] <;> rfl
  | append_singleton writings writing ih =>
    rw [writtenTo_concat, merged_concat]
    rcases (writtenTo writings).write_cases writing with ⟨none, rows⟩ | ⟨update, state, some, went⟩
    · rw [none, value_congr rows, ih, Option.toList_none, List.append_nil]
    · rw [some, value_merge went, ih, Option.toList_some, ChatUpdate.highest_concat]

/-- The rows of a user that are late enough are listed once each, and no others, the latest first. -/
structure Lists (store : ChatStore) (user : UserId) (time : Int) (chats : List (ChatKey × ChatState)) :
    Prop where
  once : (chats.map (·.1)).Nodup
  latestFirst : chats.Pairwise fun first second =>
    second.2.newestMessage.value ≤ first.2.newestMessage.value
  mem_iff : ∀ key state, (key, state) ∈ chats ↔ store.load? key = some state ∧ key.owner = user ∧
    (MessageId.floorAt time).value < state.newestMessage.value

theorem newerThan_lists (store : ChatStore) (user : UserId) (time : Int) :
    store.Lists user time (store.newerThan user time) where
  once := by
    have distinct : store.rows.toList.Pairwise fun first second => first.1 ≠ second.1 :=
      Std.ExtTreeMap.distinct_keys_toList.imp fun different same => different (by simp [same])
    rw [List.Nodup, List.pairwise_map]
    refine List.Pairwise.perm (distinct.filter _) (List.mergeSort_perm _ _).symm ?_
    exact fun different => different.symm
  latestFirst := by
    unfold newerThan
    apply (List.pairwise_mergeSort ?transitive ?total _).imp of_decide_eq_true
    case transitive =>
      intro first second third above below
      simp only [decide_eq_true_eq, Int64.le_iff_toInt_le] at above below ⊢
      omega
    case total =>
      intro first second
      simp only [Bool.or_eq_true, decide_eq_true_eq, Int64.le_iff_toInt_le]
      omega
  mem_iff key state := by
    unfold newerThan load?
    simp [List.mem_mergeSort, Std.ExtTreeMap.mem_toList_iff_getElem?_eq_some]

/-- A store that was written to is a map of maxima. -/
structure MapsMaxima (writings : List Writing) : Prop where
  /-- As many merges fail as were asked to, and no others. -/
  accepted : merged {} writings = accepted 0 writings
  rows : ∀ key, ((writtenTo writings).load? key).isSome ↔ ∃ update ∈ merged {} writings, update.key = key
  fields : ∀ key state, (writtenTo writings).load? key = some state → ∀ field,
    (state.get field).value.toInt = ChatUpdate.highest (merged {} writings) key field
  /-- A merge that goes through answers with the row as it then is. -/
  answers : ∀ earlier update later state, writings = earlier ++ .merge update :: later →
    ((writtenTo earlier).merge update).1 = .ok state →
      (writtenTo (earlier ++ [.merge update])).load? update.key = some state
  /-- One that fails takes one from the failures to come, and changes nothing else. -/
  failures : ∀ earlier update later failure, writings = earlier ++ .merge update :: later →
    ((writtenTo earlier).merge update).1 = .error failure →
      ∃ failing, (writtenTo earlier).failingWrites = failing + 1 ∧
        writtenTo (earlier ++ [.merge update]) = { writtenTo earlier with failingWrites := failing }
  size : (writtenTo writings).rows.size = ((merged {} writings).map ChatUpdate.key).toFinset.card
  newer : ∀ user time, (writtenTo writings).Lists user time ((writtenTo writings).newerThan user time)
  /-- Neither the order of the updates nor how often each was merged makes a difference. -/
  determined : ∀ others, (∀ update, update ∈ merged {} others ↔ update ∈ merged {} writings) →
    (writtenTo others).rows = (writtenTo writings).rows

theorem size_writtenTo (writings : List Writing) :
    (writtenTo writings).rows.size = ((merged {} writings).map ChatUpdate.key).toFinset.card := by
  have distinct : (writtenTo writings).rows.keys.Nodup :=
    Std.ExtTreeMap.distinct_keys.imp fun different same => different (by simp [same])
  have same : ((merged {} writings).map ChatUpdate.key).toFinset =
      (writtenTo writings).rows.keys.toFinset := by
    ext key
    simp [mem_rows_writtenTo]
  rw [same, List.toFinset_card_of_nodup distinct, Std.ExtTreeMap.length_keys]

theorem store_maps_maxima (writings : List Writing) : MapsMaxima writings where
  accepted := merged_eq_accepted {} writings
  rows key := by
    rw [load?, ← Std.ExtTreeMap.mem_iff_isSome_getElem?, mem_rows_writtenTo]
  fields key state found field := by
    rw [← value_writtenTo, value, Std.ExtTreeMap.getD_eq_getD_getElem?, ← load?, found, Option.getD_some]
  answers earlier update later state _ answered := by
    rw [writtenTo_concat, write]
    rcases (writtenTo earlier).merge_cases update with ⟨_, -, failed⟩ | ⟨_, _, -, went, -, found⟩
    · rw [failed] at answered
      cases answered
    · rw [went] at answered ⊢
      cases answered
      exact found
  failures earlier update later failure _ answered := by
    rw [writtenTo_concat, write]
    rcases (writtenTo earlier).merge_cases update with ⟨failing, asked, failed⟩ | ⟨_, _, -, went, -⟩
    · exact ⟨failing, asked, by rw [failed]⟩
    · rw [went] at answered
      cases answered
  size := size_writtenTo writings
  newer := (writtenTo writings).newerThan_lists
  determined others same := by
    apply rows_ext
    · intro key
      simp only [mem_rows_writtenTo, same]
    · intro key field
      rw [value_writtenTo, value_writtenTo, ChatUpdate.highest_congr same]

/-- The merge after the failed one makes up for it, and the last two change nothing. -/
example :
    let key := ChatKey.forPair ⟨1⟩ ⟨2⟩
    (writtenTo [.failWrites 1, .merge ⟨key, .processed, ⟨7⟩⟩, .merge ⟨key, .processed, ⟨7⟩⟩,
      .merge ⟨key, .processed, ⟨-3⟩⟩, .merge ⟨key, .processed, ⟨7⟩⟩]).load? key =
        some { processed := ⟨7⟩ } := by
  decide +kernel

end ChatStore
end ChatRelay
