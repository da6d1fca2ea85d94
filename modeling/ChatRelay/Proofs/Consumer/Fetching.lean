import ChatRelay.Proofs.Consumer.Reading

namespace ChatRelay

variable {topics : Topics} {start reached : Positions} {records : List Record} {partition : Partition}

/-- Of each partition that is held, the records that come next in its log, and nothing else. The position is
past the last of them. -/
structure Consecutive (topics : Topics) (start reached : Positions) (records : List Record) : Prop where
  held : ∀ partition, partition ∈ reached ↔ partition ∈ start
  only : ∀ record ∈ records, record.partition ∈ start
  read : ∀ partition ∈ start, records.filter (·.partition = partition) =
    ((topics.records partition).drop (start.getD partition 0)).take
      (records.countP (·.partition = partition))
  offsets : ∀ partition ∈ start, (records.filter (·.partition = partition)).map (·.offset) =
    List.range' (start.getD partition 0) (records.countP (·.partition = partition))
  moved : ∀ partition ∈ start,
    reached.getD partition 0 = start.getD partition 0 + records.countP (·.partition = partition)
  within : ∀ partition ∈ start, reached.getD partition 0 ≤ (topics.records partition).length

/-- Some partitions have been read to their end. -/
def Drained (topics : Topics) (reached : Positions) (partitions : List Partition) : Prop :=
  ∀ partition ∈ partitions, (topics.records partition).length ≤ reached.getD partition 0

namespace Topics

theorem offset_records (topics : Topics) (partition : Partition) :
    (topics.records partition).map (·.offset) = List.range (topics.records partition).length := by
  apply List.ext_getElem
  · simp
  · simp [records]

end Topics

namespace Reads

theorem getD_le (reads : Reads topics start records reached) (partition : Partition) :
    start.getD partition 0 ≤ reached.getD partition 0 := by
  induction reads with
  | done => exact Nat.le_refl _
  | @next positions other offset data records reached held _ _ ih =>
    refine Nat.le_trans ?_ ih
    rw [Std.ExtTreeMap.getD_insert]
    split
    · rename_i same
      obtain rfl := Std.LawfulEqCmp.eq_of_compare same
      rw [Std.ExtTreeMap.getD_eq_getD_getElem?, held]
      exact Nat.le_succ offset
    · exact Nat.le_refl _

/-- What is read of a partition is what lies between its positions before and after. -/
theorem filter_eq (reads : Reads topics start records reached)
    (within : start.getD partition 0 ≤ (topics.records partition).length) :
    records.filter (·.partition = partition) =
        ((topics.records partition).drop (start.getD partition 0)).take
          (records.countP (·.partition = partition)) ∧
      reached.getD partition 0 = start.getD partition 0 + records.countP (·.partition = partition) := by
  have upTo := List.take_prefix (start.getD partition 0) (topics.records partition)
  have length : ((topics.records partition).take (start.getD partition 0)).length =
      start.getD partition 0 := by
    simp [within]
  obtain ⟨⟨rest, whole⟩, reaches⟩ := reads.continues ⟨upTo, length⟩
  rw [List.length_append, length, ← List.countP_eq_length_filter] at reaches
  refine ⟨?_, reaches.symm⟩
  have left : (topics.records partition).drop (start.getD partition 0) =
      records.filter (·.partition = partition) ++ rest := by
    rw [List.append_assoc] at whole
    exact List.append_cancel_left ((List.take_append_drop _ _).trans whole.symm)
  rw [left, List.countP_eq_length_filter, List.take_left]

theorem consecutive (reads : Reads topics start records reached)
    (within : ∀ partition ∈ start, start.getD partition 0 ≤ (topics.records partition).length) :
    Consecutive topics start reached records where
  held _ := reads.mem_iff
  only record among := by
    obtain ⟨first, held⟩ := reads.held among
    exact Std.ExtTreeMap.mem_iff_isSome_getElem?.mpr (by simp [held])
  read partition held := (reads.filter_eq (within partition held)).1
  offsets partition held := by
    obtain ⟨read, moved⟩ := reads.filter_eq (within partition held)
    have bound := reads.within partition (within partition held)
    rw [read, List.map_take, List.map_drop, topics.offset_records, List.range_eq_range', List.drop_range',
      List.take_range'_of_length_ge (by omega), Nat.zero_add, Nat.mul_one]
  moved partition held := (reads.filter_eq (within partition held)).2
  within partition held := reads.within partition (within partition held)

end Reads

namespace Consumer

/-- How a round ends: everything is read, or there is no more room after records of one partition. -/
inductive Ends (topics : Topics) (reached : Positions) (records : List Record) (room : Nat) :
    List Partition → Option Nat → Prop where
  | drained {round : List Partition} (left : records.length < room) (ended : Drained topics reached round) :
      Ends topics reached records room round none
  | full (before : List Partition) {last : Partition} {rest : List Partition}
      (exhausted : records.length = room) (ended : Drained topics reached before)
      (served : ∃ record ∈ records, record.partition = last) :
      Ends topics reached records room (before ++ last :: rest) (some (before.length + 1))

theorem partition_of_mem_read {offset room : Nat} {record : Record}
    (among : record ∈ read topics partition offset room) : record.partition = partition := by
  obtain ⟨step, _, rfl⟩ := List.mem_mapIdx.mp among
  rfl

theorem readInTurn_ends (topics : Topics) (round : List Partition) {positions : Positions} {room : Nat}
    (roomy : 0 < room) (held : ∀ partition ∈ round, partition ∈ positions) :
    Ends topics (readInTurn topics positions room round).2.1 (readInTurn topics positions room round).1 room
      round (readInTurn topics positions room round).2.2 := by
  induction round generalizing positions room with
  | nil => exact .drained roomy (by simp [Drained])
  | cons first round ih =>
    have length := length_read topics first (positions.getD first 0) room
    rw [← Topics.length_records] at length
    simp only [readInTurn]
    split
    · rename_i full
      have exhausted : (read topics first (positions.getD first 0) room).length = room := by omega
      have nonempty : read topics first (positions.getD first 0) room ≠ [] :=
        List.ne_nil_of_length_pos (Nat.lt_of_lt_of_eq roomy exhausted.symm)
      obtain ⟨record, among⟩ := List.exists_mem_of_ne_nil _ nonempty
      exact .full [] exhausted (by simp [Drained]) ⟨record, among, partition_of_mem_read among⟩
    · rename_i further
      generalize counted : (read topics first (positions.getD first 0) room).length = count at *
      have still : ∀ partition ∈ round, partition ∈
          positions.insert first (positions.getD first 0 + count) := fun partition member => by
        simp [held partition (List.mem_cons_of_mem _ member)]
      have reads := readInTurn_reads topics round (room - count) still
      -- the first partition was read to its end, and what is read later does not go back
      have ended : (topics.records first).length ≤ ((readInTurn topics
          (positions.insert first (positions.getD first 0 + count)) (room - count) round).2.1.getD first 0) := by
        have onward := reads.getD_le first
        rw [Std.ExtTreeMap.getD_insert_self] at onward
        omega
      have rest := ih (show 0 < room - count by omega) still
      generalize readInTurn topics (positions.insert first (positions.getD first 0 + count)) (room - count)
        round = after at *
      obtain ⟨more, reached, visited⟩ := after
      dsimp only at rest ended ⊢
      cases rest with
      | drained left drained =>
        refine .drained ?_ (List.forall_mem_cons.mpr ⟨ended, drained⟩)
        rw [List.length_append, counted]
        omega
      | full before exhausted drained served =>
        obtain ⟨record, among, served⟩ := served
        refine .full (first :: before) ?_ (List.forall_mem_cons.mpr ⟨ended, drained⟩)
          ⟨record, List.mem_append_right _ among, served⟩
        rw [List.length_append, counted]
        omega

/-- How the round of a fetch ends. Where the next one begins depends on it. -/
theorem fetch_ends (consumer : Consumer) (topics : Topics) (roomy : 0 < consumer.maxRecords) :
    ∃ visited, Ends topics (consumer.fetch topics).2.positions (consumer.fetch topics).1 consumer.maxRecords
        consumer.round visited ∧
      (consumer.fetch topics).2.cursor = match visited with
        | none => consumer.cursor
        | some visited =>
          (consumer.cursor % consumer.assignment.length + visited) % consumer.assignment.length :=
  ⟨_, readInTurn_ends topics consumer.round roomy fun _ => consumer.mem_round.mp, rfl⟩

/-- Who reads nothing though there is room has come to the end of all it holds. -/
theorem fetch_eq_nil (consumer : Consumer) (topics : Topics) (roomy : 0 < consumer.maxRecords)
    (empty : (consumer.fetch topics).1 = []) (held : partition ∈ consumer.positions) :
    (topics.records partition).length ≤ consumer.positions.getD partition 0 := by
  have reads := consumer.fetch_reads topics
  obtain ⟨visited, ends, -⟩ := consumer.fetch_ends topics roomy
  rw [empty] at reads ends
  have visits := consumer.mem_round.mpr held
  generalize consumer.round = round at ends visits
  cases ends with
  | drained _ ended =>
    have past := ended partition visits
    rwa [Std.ExtTreeMap.getD_eq_getD_getElem?, reads.unread (by simp),
      ← Std.ExtTreeMap.getD_eq_getD_getElem?] at past
  | full before exhausted =>
    rw [List.length_nil] at exhausted
    omega

def Within (consumer : Consumer) (topics : Topics) : Prop :=
  ∀ partition ∈ consumer.positions,
    consumer.positions.getD partition 0 ≤ (topics.records partition).length

instance (consumer : Consumer) (topics : Topics) : Decidable (consumer.Within topics) :=
  decidable_of_iff (∀ partition ∈ consumer.assignment,
      consumer.positions.getD partition 0 ≤ (topics.records partition).length)
    (forall_congr' fun _ => imp_congr_left Std.ExtTreeMap.mem_keys)

/-- What a fetch is to return, and where the consumer is to stand after it. A limit of zero counts as one. -/
structure Fetched (consumer : Consumer) (limit : Nat) (topics : Topics) (records : List Record)
    (reached : Positions) : Prop where
  bounded : records.length ≤ max limit 1
  consecutive : Consecutive topics consumer.positions reached records
  exhausted : records.length < max limit 1 → ∀ partition ∈ consumer.positions,
    reached.getD partition 0 = (topics.records partition).length

theorem fetch_fetched {consumer : Consumer} {limit : Nat} (made : consumer.maxRecords = max limit 1)
    (within : consumer.Within topics) :
    consumer.Fetched limit topics (consumer.fetch topics).1 (consumer.fetch topics).2.positions := by
  have consecutive := (consumer.fetch_reads topics).consecutive within
  obtain ⟨visited, ends, -⟩ := consumer.fetch_ends topics (by omega)
  have visits (partition : Partition) : partition ∈ consumer.round ↔ partition ∈ consumer.positions :=
    consumer.mem_round
  generalize consumer.round = round at ends visits
  cases ends with
  | drained left ended =>
    refine ⟨by omega, consecutive, fun _ partition held => Nat.le_antisymm ?_ ?_⟩
    · exact consecutive.within partition held
    · exact ended partition ((visits partition).mpr held)
  | full before exhausted => exact ⟨by omega, consecutive, fun less => by omega⟩

end Consumer
end ChatRelay
