import Mathlib.Data.List.Rotate
import ChatRelay.Proofs.Consumer.Stint

/-! No partition is starved. A partition with something to read either has its turn in a poll, or is nearer to
the beginning of the round in the next. -/
namespace ChatRelay

theorem Reads.serves {topics : Topics} {start reached : Positions} {records : List Record}
    {partition : Partition} (reads : Reads topics start records reached)
    (further : start.getD partition 0 < reached.getD partition 0) :
    ∃ record ∈ records, record.partition = partition := by
  by_contra none
  have same : reached[partition]? = start[partition]? :=
    reads.unread fun record among served => none ⟨record, among, served⟩
  rw [Std.ExtTreeMap.getD_eq_getD_getElem?, Std.ExtTreeMap.getD_eq_getD_getElem?, same] at further
  exact Nat.lt_irrefl _ further

namespace Consumer

variable {consumer : Consumer} {partition : Partition}

/-- A round visits all partitions in order, beginning where the cursor is. -/
theorem round_eq_rotate (consumer : Consumer) : consumer.round = consumer.assignment.rotate consumer.cursor := by
  unfold round List.rotateLeft
  dsimp only
  rw [List.rotate_eq_drop_append_take_mod, Nat.mod_mod]
  split
  · rename_i few
    rcases Nat.le_one_iff_eq_zero_or_eq_one.mp few with none | one
    · simp [List.length_eq_zero_iff.mp none]
    · simp [one, Nat.mod_one]
  · rfl

theorem assignment_fetch (consumer : Consumer) (topics : Topics) :
    (consumer.fetch topics).2.assignment = consumer.assignment := by
  have same : (consumer.fetch topics).2.assignment.Perm consumer.assignment := by
    apply (List.perm_ext_iff_of_nodup Std.ExtTreeMap.nodup_keys Std.ExtTreeMap.nodup_keys).mpr
    intro partition
    exact Std.ExtTreeMap.mem_keys.trans
      ((consumer.fetch_reads topics).mem_iff.trans Std.ExtTreeMap.mem_keys.symm)
  refine same.eq_of_pairwise ?_ Std.ExtTreeMap.ordered_keys Std.ExtTreeMap.ordered_keys
  intro first second _ _ before after
  rw [Std.OrientedCmp.gt_of_lt before] at after
  cases after

/-- After a poll that did not serve it, a partition is nearer to the beginning of the round. -/
theorem fetch_serves (roomy : 0 < consumer.maxRecords) (topics : Topics)
    (held : partition ∈ consumer.positions)
    (unread : consumer.positions.getD partition 0 < (topics.records partition).length) :
    (∃ record ∈ (consumer.fetch topics).1, record.partition = partition) ∨
      (consumer.fetch topics).2.round.idxOf partition < consumer.round.idxOf partition := by
  have reads := consumer.fetch_reads topics
  obtain ⟨visited, ends, cursor⟩ := consumer.fetch_ends topics roomy
  have visits := consumer.mem_round.mpr held
  have next : ∀ before last rest, consumer.round = before ++ last :: rest → visited = some (before.length + 1) →
      (consumer.fetch topics).2.round = rest ++ (before ++ [last]) := by
    rintro before last rest whole rfl
    rw [round_eq_rotate, assignment_fetch, cursor]
    dsimp only
    rw [List.rotate_mod, ← List.rotate_rotate, List.rotate_mod, ← round_eq_rotate, whole, List.append_cons]
    have visited := List.rotate_append_length_eq (before ++ [last]) rest
    rwa [List.length_append, List.length_singleton] at visited
  generalize consumer.round = round at *
  cases ends with
  | drained left ended =>
    exact .inl (reads.serves (Nat.lt_of_lt_of_le unread (ended partition visits)))
  | @full before last rest exhausted ended served =>
    by_cases early : partition ∈ before
    · exact .inl (reads.serves (Nat.lt_of_lt_of_le unread (ended partition early)))
    by_cases now : last = partition
    · exact .inl (now ▸ served)
    -- its turn is yet to come, and all that were visited are behind it now
    have late : partition ∈ rest := by simpa [early, Ne.symm now] using visits
    right
    rw [next before last rest rfl rfl, List.idxOf_append_of_mem late, List.idxOf_append_of_notMem early,
      List.idxOf_cons_ne rest now]
    omega

end Consumer

namespace Stint

variable {stint : Stint} {partition : Partition} {limit : Nat}

/-- Records are left to read of a partition that the consumer holds. -/
structure Waiting (stint : Stint) (partition : Partition) : Prop where
  held : partition ∈ stint.consumer.positions
  unread : stint.consumer.positions.getD partition 0 < (stint.broker.topics.records partition).length

theorem Waiting.step (waiting : stint.Waiting partition) (steady : stint.Steady) {move : Move}
    (unserved : ¬∃ record ∈ (stint.step move).1, record.partition = partition) :
    (stint.step move).2.Waiting partition := by
  have reads := steady.reads_step move
  have grown := ((stint.within_step move).records partition).length_le
  refine ⟨reads.mem_iff.mpr waiting.held, Nat.lt_of_lt_of_le ?_ grown⟩
  have stays : ¬stint.consumer.positions.getD partition 0 <
      (stint.step move).2.consumer.positions.getD partition 0 := mt reads.serves unserved
  exact Nat.lt_of_le_of_lt (Nat.le_of_not_lt stays) waiting.unread

/-- A partition that waits is served before as many polls have been made as there are turns before its own. -/
theorem Waiting.served (waiting : stint.Waiting partition) (steady : stint.Steady)
    (roomy : 0 < stint.consumer.maxRecords) {moves : List Move}
    (enough : stint.consumer.round.idxOf partition < moves.count .poll) :
    ∃ record ∈ (stint.run moves).1, record.partition = partition := by
  induction moves generalizing stint with
  | nil => exact absurd enough (Nat.not_lt_zero _)
  | cons move moves ih =>
    by_cases now : ∃ record ∈ (stint.step move).1, record.partition = partition
    · obtain ⟨record, among, served⟩ := now
      exact ⟨record, List.mem_append_left _ among, served⟩
    have nearer : (stint.step move).2.consumer.round.idxOf partition < moves.count .poll := by
      cases move with
      | append target data =>
        rw [List.count_cons_of_ne (by simp)] at enough
        exact enough
      | poll =>
        obtain ⟨generation, polled⟩ := steady.step_poll
        rw [polled] at now ⊢
        rw [List.count_cons_self] at enough
        rcases Consumer.fetch_serves roomy stint.broker.topics waiting.held waiting.unread with served | nearer
        · exact absurd served now
        · exact Nat.lt_of_lt_of_le nearer (Nat.le_of_lt_succ enough)
    have still : 0 < (stint.step move).2.consumer.maxRecords := by rwa [steady.maxRecords_step]
    obtain ⟨record, among, served⟩ := ih (waiting.step steady now) (steady.step move) still nearer
    exact ⟨record, List.mem_append_right _ among, served⟩

/-- Over as many polls as partitions are held, each of those with something to read is served. -/
theorem polls_serve_all (made : stint.consumer.maxRecords = max limit 1) (steady : stint.Steady)
    (moves : List Move) (enough : stint.consumer.assignment.length ≤ moves.count .poll)
    (waiting : stint.Waiting partition) : ∃ record ∈ (stint.run moves).1, record.partition = partition := by
  apply waiting.served steady (by omega)
  have visits := List.idxOf_lt_length_of_mem (stint.consumer.mem_round.mpr waiting.held)
  rw [Consumer.round_eq_rotate, List.length_rotate, ← Consumer.round_eq_rotate] at visits
  exact Nat.lt_of_lt_of_le visits enough

/-- The busy topic, where records keep coming for the first partition. The cursor may be stale. -/
theorem busy_served : ∃ record ∈ (({ busy with consumer := { busy.consumer with cursor := 7 } } : Stint).run
    [.poll, .append ⟨"chats", 0⟩ [5], .poll, .append ⟨"chats", 0⟩ [6], .poll]).1, record.partition = ⟨"chats", 2⟩ :=
  polls_serve_all (rfl : _ = max 0 1) (.of_current rfl (by decide +kernel)) _ (by decide +kernel)
    ⟨by decide +kernel, by decide +kernel⟩

end Stint
end ChatRelay
