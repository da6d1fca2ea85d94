import Mathlib.Data.List.Induction
import Mathlib.Data.Set.Basic
import ChatRelay.Proofs.Ownership

/-! When the partitions of a consumer are settled. What its ownership was told, changes and completed polls,
says all about its flags: the loop rebalances until the second poll after the latest change that counts. -/
namespace ChatRelay.Ownership

inductive Told where
  | changed (change : AssignmentChange)
  | pollCompleted
deriving DecidableEq

/-- What comes of an ownership and the health of its loop. -/
def hear (ownership : Ownership) (health : LoopHealth) : Told → Ownership × LoopHealth
  | .changed change => ownership.reassign change health
  | .pollCompleted => ownership.pollCompleted health

/-- A change counts if there is something in it, or if it is the first. -/
def Counts (earlier : List Told) (change : AssignmentChange) : Prop :=
  change.isEmpty = false ∨ ∀ other, .changed other ∉ earlier

/-- Since the latest change that counts at least two polls have completed: the one that brought it, and one
more. -/
def Settled (told : List Told) : Prop :=
  ∃ earlier change later, told = earlier ++ .changed change :: later ∧ Counts earlier change ∧
    (∀ other, .changed other ∈ later → other.isEmpty) ∧ 2 ≤ later.count .pollCompleted

/-- What is owned after all changes: each takes away what it revokes, and then adds what it assigns. -/
def ownedAfter (told : List Told) : Set Partition :=
  told.foldl (fun owned told => match told with
    | .changed change => owned \ {partition | partition ∈ change.revoked} ∪
        {partition | partition ∈ change.assigned}
    | .pollCompleted => owned) ∅

/-- One more thing told, where some number of polls have completed since the latest change that counts. -/
def recount : Option Nat → Told → Option Nat
  | none, .changed _ => some 0
  | none, .pollCompleted => none
  | some polls, .changed change => some (if change.isEmpty then polls else 0)
  | some polls, .pollCompleted => some (polls + 1)

/-- How many polls have completed since the latest change that counts, if there was any. -/
def pollsSince (told : List Told) : Option Nat := told.foldl recount none

variable {told later : List Told} {polls : Nat}

@[simp] theorem pollsSince_concat (told : List Told) (next : Told) :
    pollsSince (told ++ [next]) = recount (pollsSince told) next := by
  simp [pollsSince]

theorem pollsSince_eq_none_iff : pollsSince told = none ↔ ∀ change, .changed change ∉ told := by
  induction told using List.reverseRecOn with
  | nil => simp [pollsSince]
  | append_singleton told next ih =>
    rw [pollsSince_concat]
    cases next with
    | changed change =>
      refine ⟨fun none => ?_, fun unchanged => absurd (by simp) (unchanged change)⟩
      cases since : pollsSince told <;> simp [since, recount] at none
    | pollCompleted =>
      simp only [List.mem_append, List.mem_singleton, reduceCtorEq, or_false, ← ih]
      cases pollsSince told <;> simp [recount]

/-- Changes that do not count leave the count of polls alone. -/
theorem foldl_recount (empty : ∀ other, .changed other ∈ later → other.isEmpty) (polls : Nat) :
    later.foldl recount (some polls) = some (polls + later.count .pollCompleted) := by
  induction later generalizing polls with
  | nil => rfl
  | cons next later ih =>
    have rest := ih fun other among => empty other (List.mem_cons_of_mem _ among)
    cases next with
    | changed change => simp [recount, empty change List.mem_cons_self, rest]
    | pollCompleted =>
      rw [List.foldl_cons, recount, rest, List.count_cons_self]
      congr 1
      omega

theorem pollsSince_append {earlier : List Told} {change : AssignmentChange} (counts : Counts earlier change)
    (empty : ∀ other, .changed other ∈ later → other.isEmpty) :
    pollsSince (earlier ++ .changed change :: later) = some (later.count .pollCompleted) := by
  have counted : recount (pollsSince earlier) (.changed change) = some 0 := by
    cases before : pollsSince earlier with
    | none => rfl
    | some elapsed =>
      rcases counts with something | first
      · simp [recount, something]
      · rw [pollsSince_eq_none_iff.mpr first] at before
        cases before
  rw [pollsSince, List.foldl_append, List.foldl_cons, ← pollsSince, counted, foldl_recount empty, Nat.zero_add]

/-- Where polls are counted there was a change that counts, and the latest is where the count began. -/
theorem exists_of_pollsSince (since : pollsSince told = some polls) :
    ∃ earlier change later, told = earlier ++ .changed change :: later ∧ Counts earlier change ∧
      (∀ other, .changed other ∈ later → other.isEmpty) ∧ later.count .pollCompleted = polls := by
  induction told using List.reverseRecOn generalizing polls with
  | nil => cases since
  | append_singleton told next ih =>
    rw [pollsSince_concat] at since
    cases before : pollsSince told with
    | none =>
      have first := pollsSince_eq_none_iff.mp before
      cases next with
      | changed change =>
        rw [before, recount, Option.some_inj] at since
        exact ⟨told, change, [], rfl, .inr first, by simp, since⟩
      | pollCompleted => simp [before, recount] at since
    | some elapsed =>
      obtain ⟨earlier, latest, later, same, counts, empty, counted⟩ := ih before
      rw [before] at since
      cases next with
      | changed change =>
        rw [recount, Option.some_inj] at since
        cases nothing : change.isEmpty with
        | true =>
          rw [nothing, if_pos rfl] at since
          refine ⟨earlier, latest, later ++ [.changed change], by simp [same], counts, ?_, ?_⟩
          · intro other among
            rcases List.mem_append.mp among with among | last
            · exact empty other among
            · cases List.mem_singleton.mp last
              exact nothing
          · simp [counted, since]
        | false =>
          rw [nothing, if_neg Bool.false_ne_true] at since
          exact ⟨told, change, [], rfl, .inl nothing, by simp, since⟩
      | pollCompleted =>
        rw [recount, Option.some_inj] at since
        refine ⟨earlier, latest, later ++ [.pollCompleted], by simp [same], counts, ?_, ?_⟩
        · intro other among
          exact empty other (by simpa using among)
        · simp [counted, since]

theorem settled_iff : Settled told ↔ ∃ polls, pollsSince told = some (polls + 2) := by
  constructor
  · rintro ⟨earlier, change, later, rfl, counts, empty, twice⟩
    refine ⟨later.count .pollCompleted - 2, ?_⟩
    rw [pollsSince_append counts empty]
    congr 1
    omega
  · rintro ⟨polls, since⟩
    obtain ⟨earlier, change, later, same, counts, empty, counted⟩ := exists_of_pollsSince since
    exact ⟨earlier, change, later, same, counts, empty, by omega⟩

/-- The flags of an ownership, whether it is joining and whether its assignment changed this poll, and that of
its loop. -/
def flags : Option Nat → Bool × Bool × Bool
  | none => (true, false, true)
  | some 0 => (false, true, true)
  | some 1 => (false, false, true)
  | some (_ + 2) => (false, false, false)

/-- An ownership and the flag of its loop have come about by what they were told. -/
structure Follows (told : List Told) (ownership : Ownership) (rebalancing : Bool) : Prop where
  flags : (ownership.joining, ownership.changedThisPoll, rebalancing) = flags (pollsSince told)
  mem_owned : ∀ partition, partition ∈ ownership.owned ↔ partition ∈ ownedAfter told

variable {ownership : Ownership} {health : LoopHealth} {rebalancing : Bool}

theorem follows_watch (consumer : String) (health : LoopHealth) :
    Follows [] (watch consumer health).1 (watch consumer health).2.rebalancing :=
  ⟨rfl, fun partition => by simp [watch, ownedAfter]⟩

theorem ownedAfter_concat (told : List Told) (change : AssignmentChange) (partition : Partition) :
    partition ∈ ownedAfter (told ++ [.changed change]) ↔
      partition ∈ change.assigned ∨ partition ∈ ownedAfter told ∧ partition ∉ change.revoked := by
  simp [ownedAfter, or_comm]

theorem Follows.reassign (follows : Follows told ownership health.rebalancing) (change : AssignmentChange) :
    Follows (told ++ [.changed change]) (ownership.reassign change health).1
      (ownership.reassign change health).2.rebalancing := by
  obtain ⟨flags, owned⟩ := follows
  have transferred (partition : Partition) : partition ∈ transfer ownership.owned change ↔
      partition ∈ ownedAfter (told ++ [.changed change]) := by
    rw [mem_transfer, ownedAfter_concat, owned]
  cases heeded : ownership.heeds change with
  | true =>
    simp only [Ownership.reassign, heeded, if_true]
    refine ⟨?_, transferred⟩
    have zero : pollsSince (told ++ [.changed change]) = some 0 := by
      rw [pollsSince_concat]
      cases since : pollsSince told with
      | none => rfl
      | some elapsed =>
        have joined : ownership.joining = false := by
          rw [since] at flags
          cases elapsed with
          | zero => exact congrArg Prod.fst flags
          | succ elapsed => cases elapsed <;> exact congrArg Prod.fst flags
        have something : change.isEmpty = false := by simpa [heeds, joined] using heeded
        simp [recount, something]
    rw [zero]
    rfl
  | false =>
    obtain ⟨nothing, joined⟩ : change.isEmpty ∧ ownership.joining = false := by simpa [heeds] using heeded
    simp only [Ownership.reassign, heeded, Bool.false_eq_true, if_false]
    refine ⟨?_, fun partition => ?_⟩
    · rw [flags, pollsSince_concat]
      cases since : pollsSince told with
      | none =>
        rw [since] at flags
        have joining : ownership.joining = true := congrArg Prod.fst flags
        rw [joined] at joining
        cases joining
      | some elapsed => simp [recount, nothing]
    · rw [← transferred, transfer_of_isEmpty nothing]

theorem Follows.pollCompleted (follows : Follows told ownership health.rebalancing) :
    Follows (told ++ [.pollCompleted]) (ownership.pollCompleted health).1
      (ownership.pollCompleted health).2.rebalancing := by
  obtain ⟨flags, owned⟩ := follows
  have same (partition : Partition) :
      partition ∈ (ownership.pollCompleted health).1.owned ↔
        partition ∈ ownedAfter (told ++ [.pollCompleted]) := by
    rw [pollCompleted_fst, owned]
    simp [ownedAfter]
  refine ⟨?_, same⟩
  rw [pollsSince_concat]
  cases since : pollsSince told with
  | none =>
    simp only [since, Ownership.flags, Prod.mk.injEq] at flags
    simp [Ownership.pollCompleted, flags, recount, Ownership.flags]
  | some elapsed =>
    rcases elapsed with _ | _ | elapsed <;>
      simp only [since, Ownership.flags, Prod.mk.injEq] at flags <;>
      simp [Ownership.pollCompleted, flags, recount, Ownership.flags, LoopHealth.setRebalancing]

theorem Follows.hear (follows : Follows told ownership health.rebalancing) (next : Told) :
    Follows (told ++ [next]) (ownership.hear health next).1 (ownership.hear health next).2.rebalancing := by
  cases next with
  | changed change => exact follows.reassign change
  | pollCompleted => exact follows.pollCompleted

/-- The loop is settled as soon as what its ownership was told is. -/
theorem Follows.rebalancing_iff (follows : Follows told ownership rebalancing) :
    rebalancing = false ↔ Settled told := by
  have flag : rebalancing = (Ownership.flags (pollsSince told)).2.2 :=
    congrArg (fun flags => flags.2.2) follows.flags
  rw [flag, settled_iff]
  cases pollsSince told with
  | none => simp [Ownership.flags]
  | some polls => rcases polls with _ | _ | polls <;> simp [Ownership.flags]

/-- An ownership changes no more of the health of its loop than whether it rebalances. -/
theorem hear_snd (ownership : Ownership) (health : LoopHealth) (next : Told) :
    (ownership.hear health next).2 =
      health.setRebalancing (ownership.hear health next).2.rebalancing := by
  cases next with
  | changed change =>
    simp only [hear, reassign]
    split <;> rfl
  | pollCompleted =>
    simp only [hear, pollCompleted]
    split
    · rfl
    · split <;> rfl

end ChatRelay.Ownership
