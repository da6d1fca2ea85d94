import ChatRelay.Broker.Consumer
import ChatRelay.Proofs.Broker.Logs

namespace ChatRelay

abbrev Positions := Std.ExtTreeMap Partition Nat

/-- Records read from some positions on, with the positions that are reached. -/
inductive Reads (topics : Topics) : Positions → List Record → Positions → Prop where
  | done : Reads topics positions [] positions
  | next (held : positions[partition]? = some offset)
      (present : topics.record? partition offset = some data)
      (rest : Reads topics (positions.insert partition (offset + 1)) records reached) :
      Reads topics positions (⟨partition, offset, Envelope.decode data⟩ :: records) reached

namespace Reads

variable {topics later : Topics} {start middle reached : Positions} {records : List Record}
variable {partition : Partition} {first last offset : Nat}

theorem append (first : Reads topics start records middle) (second : Reads topics middle more reached) :
    Reads topics start (records ++ more) reached := by
  induction first with
  | done => exact second
  | next held present _ ih => exact .next held present (ih second)

theorem mono (reads : Reads topics start records reached) (within : topics.Within later) :
    Reads later start records reached := by
  induction reads with
  | done => exact .done
  | next held present _ ih => exact .next held (within present) ih

/-- A batch that is cut in two was read in two stretches. -/
theorem split (reads : Reads topics start (earlier ++ rest) reached) :
    ∃ middle, Reads topics start earlier middle ∧ Reads topics middle rest reached := by
  induction earlier generalizing start with
  | nil => exact ⟨start, .done, reads⟩
  | cons record earlier ih =>
    cases reads with
    | next held present reads =>
      obtain ⟨middle, before, after⟩ := ih reads
      exact ⟨middle, .next held present before, after⟩

/-- Reading takes up no partition and never goes back. -/
theorem started (reads : Reads topics start records reached) (position : reached[partition]? = some last) :
    ∃ first, start[partition]? = some first ∧ first ≤ last := by
  induction reads with
  | done => exact ⟨last, position, Nat.le_refl _⟩
  | @next positions other offset _ _ _ held _ _ ih =>
    obtain ⟨first, at_, le⟩ := ih position
    by_cases same : other = partition
    · subst same
      simp only [Std.ExtTreeMap.getElem?_insert_self, Option.some.injEq] at at_
      exact ⟨offset, held, by omega⟩
    · exact ⟨first, by simpa [Std.ExtTreeMap.getElem?_insert, same] using at_, le⟩

theorem reaches (reads : Reads topics start records reached) (position : start[partition]? = some first) :
    ∃ last, reached[partition]? = some last := by
  induction reads generalizing first with
  | done => exact ⟨first, position⟩
  | @next positions other offset _ _ _ held _ _ ih =>
    by_cases same : other = partition
    · have moved : (positions.insert other (offset + 1))[partition]? = some (offset + 1) := by simp [same]
      exact ih moved
    · have kept : (positions.insert other (offset + 1))[partition]? = some first := by
        simpa [Std.ExtTreeMap.getElem?_insert, same] using position
      exact ih kept

/-- An offset below the position reached was below the first position, or its record was read. -/
theorem covers (reads : Reads topics start records reached) (position : reached[partition]? = some last)
    (below : offset < last) :
    (∃ first, start[partition]? = some first ∧ offset < first) ∨
      ∃ record ∈ records, record.partition = partition ∧ record.offset = offset := by
  induction reads with
  | done => exact .inl ⟨last, position, below⟩
  | @next positions other place _ _ _ held _ _ ih =>
    rcases ih position with ⟨first, at_, before⟩ | ⟨record, member, same⟩
    · by_cases same : other = partition
      · subst same
        simp only [Std.ExtTreeMap.getElem?_insert_self, Option.some.injEq] at at_
        by_cases here : offset = place
        · exact .inr ⟨_, List.mem_cons_self, rfl, here.symm⟩
        · exact .inl ⟨place, held, by omega⟩
      · exact .inl ⟨first, by simpa [Std.ExtTreeMap.getElem?_insert, same] using at_, before⟩
    · exact .inr ⟨record, List.mem_cons_of_mem _ member, same⟩

/-- A record that was read is the log's record at its place, decoded. -/
theorem record_eq (reads : Reads topics start records reached) (member : record ∈ records) :
    ∃ data, topics.record? record.partition record.offset = some data ∧
      record.body = Envelope.decode data := by
  induction reads with
  | done => cases member
  | next held present _ ih =>
    rcases List.mem_cons.mp member with rfl | member
    · exact ⟨_, present, rfl⟩
    · exact ih member

theorem held (reads : Reads topics start records reached) (member : record ∈ records) :
    ∃ first, start[record.partition]? = some first := by
  induction reads with
  | done => cases member
  | @next positions other offset _ _ _ held _ _ ih =>
    rcases List.mem_cons.mp member with rfl | member
    · exact ⟨offset, held⟩
    · obtain ⟨first, at_⟩ := ih member
      by_cases same : other = record.partition
      · exact ⟨offset, same ▸ held⟩
      · exact ⟨first, by simpa [Std.ExtTreeMap.getElem?_insert, same] using at_⟩

/-- A partition of which no record was read stays at its position. -/
theorem unread (reads : Reads topics start records reached)
    (none : ∀ record ∈ records, record.partition ≠ partition) :
    reached[partition]? = start[partition]? := by
  induction reads with
  | done => rfl
  | @next positions other offset _ _ _ _ _ _ ih =>
    have different : other ≠ partition := none _ List.mem_cons_self
    rw [ih fun record member => none record (List.mem_cons_of_mem _ member)]
    simp [Std.ExtTreeMap.getElem?_insert, different]

theorem find? (reads : Reads topics start records reached)
    (first : records.find? (·.partition = partition) = some record) :
    start[partition]? = some record.offset := by
  obtain ⟨same, earlier, rest, rfl, others⟩ := List.find?_eq_some_iff_append.mp first
  obtain ⟨middle, before, after⟩ := reads.split
  have same : record.partition = partition := by simpa using same
  subst same
  rw [← before.unread fun other member => by simpa using others other member]
  cases after with
  | next held _ _ => exact held

/-- Before a record of a batch stands the record before it in the log, unless reading began there. -/
theorem predecessor (reads : Reads topics start (earlier ++ record :: rest) reached)
    (follows : record.offset = offset + 1) :
    (∃ first, start[record.partition]? = some first ∧ offset < first) ∨
      ∃ other ∈ earlier, other.partition = record.partition ∧ other.offset = offset := by
  obtain ⟨middle, before, after⟩ := reads.split
  cases after with
  | next position _ _ =>
    exact before.covers position (by dsimp only at follows; omega)

private theorem latest_fold (reads : Reads topics start records reached) (marked : Positions)
    (agrees : ∀ (partition : Partition) (next : Nat),
      marked[partition]? = some next → start[partition]? = some next)
    (partition : Partition) :
    ((records.map Record.mark).foldl
        (fun next mark => next.insert mark.partition (max (next.getD mark.partition 0) mark.next))
        marked)[partition]? =
      if ∃ record ∈ records, record.partition = partition then reached[partition]?
      else marked[partition]? := by
  induction reads generalizing marked with
  | done => simp
  | @next positions other offset data records reached held _ rest ih =>
    have greatest : max (marked.getD other 0) (offset + 1) = offset + 1 := by
      rw [Std.ExtTreeMap.getD_eq_getD_getElem?]
      cases found : marked[other]? with
      | none => simp
      | some next =>
        have same := agrees other next found
        rw [held] at same
        cases same
        simp
    simp only [List.map_cons, List.foldl_cons, Record.mark, greatest]
    rw [ih]
    · by_cases later : ∃ record ∈ records, record.partition = partition
      · simp [later]
      · have unread := rest.unread fun record member same => later ⟨record, member, same⟩
        by_cases same : other = partition
        · simp [later, same, unread]
        · simp [later, same, Std.ExtTreeMap.getElem?_insert]
    · intro partition next found
      by_cases same : other = partition
      · simpa [same] using found
      · simp only [Std.ExtTreeMap.getElem?_insert, Std.LawfulEqCmp.compare_eq_iff_eq, same, ↓reduceIte]
        at found ⊢
        exact agrees partition next found

/-- The greatest mark of a partition that was read is the position reached. -/
theorem latest (reads : Reads topics start records reached) (partition : Partition) :
    (Consumer.latest (records.map Record.mark))[partition]? =
      if ∃ record ∈ records, record.partition = partition then reached[partition]? else none := by
  rw [Consumer.latest, reads.latest_fold ∅ (by simp) partition]
  simp

end Reads

namespace Consumer

theorem record?_eq (topics : Topics) (partition : Partition) (offset : Nat) :
    topics.record? partition offset = ((topics.log? partition).getD [])[offset]? := by
  unfold Topics.record?
  cases topics.log? partition <;> simp

/-- Reading goes record by record, until there is none or no room. -/
theorem read_succ (topics : Topics) (partition : Partition) (offset room : Nat) :
    read topics partition offset (room + 1) =
      match topics.record? partition offset with
      | none => []
      | some data =>
        ⟨partition, offset, Envelope.decode data⟩ :: read topics partition (offset + 1) room := by
  rw [record?_eq]
  unfold read
  generalize (topics.log? partition).getD [] = log
  cases found : log[offset]? with
  | none =>
    have past := List.getElem?_eq_none_iff.mp found
    simp [List.drop_eq_nil_of_le past]
  | some data =>
    obtain ⟨bound, entry⟩ := List.getElem?_eq_some_iff.mp found
    rw [List.drop_eq_getElem_cons bound, List.take_succ_cons, List.mapIdx_cons, entry]
    simp [Nat.add_assoc, Nat.add_comm 1]

theorem insert_held {positions : Positions} (held : positions[partition]? = some offset) :
    positions.insert partition offset = positions := by
  apply Std.ExtTreeMap.ext_getElem?
  intro other
  by_cases same : partition = other
  · subst same; simp [held]
  · simp [Std.ExtTreeMap.getElem?_insert, same]

theorem insert_insert (positions : Positions) (partition : Partition) (first second : Nat) :
    (positions.insert partition first).insert partition second = positions.insert partition second := by
  apply Std.ExtTreeMap.ext_getElem?
  intro other
  by_cases same : partition = other <;> simp [Std.ExtTreeMap.getElem?_insert, same]

theorem read_reads (topics : Topics) {positions : Positions} {partition : Partition} {offset : Nat}
    (held : positions[partition]? = some offset) (room : Nat) :
    Reads topics positions (read topics partition offset room)
      (positions.insert partition (offset + (read topics partition offset room).length)) := by
  induction room generalizing positions offset with
  | zero =>
    have none : read topics partition offset 0 = [] := by simp [read]
    rw [none, List.length_nil, Nat.add_zero, insert_held held]
    exact .done
  | succ room ih =>
    rw [read_succ]
    cases present : topics.record? partition offset with
    | none =>
      dsimp only
      rw [List.length_nil, Nat.add_zero, insert_held held]
      exact .done
    | some data =>
      have moved : (positions.insert partition (offset + 1))[partition]? = some (offset + 1) := by simp
      have rest := ih moved
      rw [insert_insert] at rest
      apply Reads.next held present
      simpa [Nat.add_assoc, Nat.add_comm 1] using rest

theorem readInTurn_reads (topics : Topics) (round : List Partition) {positions : Positions} (room : Nat)
    (held : ∀ partition ∈ round, partition ∈ positions) :
    Reads topics positions (readInTurn topics positions room round).1
      (readInTurn topics positions room round).2.1 := by
  induction round generalizing positions room with
  | nil => exact .done
  | cons partition round ih =>
    have position : positions[partition]? = some (positions.getD partition 0) :=
      Std.ExtTreeMap.getElem?_eq_some_getD (held partition List.mem_cons_self)
    have first := read_reads topics position room
    have still : ∀ other ∈ round, other ∈ positions.insert partition (positions.getD partition 0 +
        (read topics partition (positions.getD partition 0) room).length) := by
      intro other member
      simp [held other (List.mem_cons_of_mem _ member)]
    have later := ih (room - (read topics partition (positions.getD partition 0) room).length) still
    simp only [readInTurn]
    split
    · exact first
    · exact first.append later

theorem mem_round (consumer : Consumer) : partition ∈ consumer.round ↔ partition ∈ consumer.positions := by
  rw [← Std.ExtTreeMap.mem_keys]
  unfold round assignment List.rotateLeft
  dsimp only
  split
  · rfl
  · rw [List.mem_append, or_comm, ← List.mem_append, List.take_append_drop]

/-- A fetch reads each partition on from its position. -/
theorem fetch_reads (consumer : Consumer) (topics : Topics) :
    Reads topics consumer.positions (consumer.fetch topics).1 (consumer.fetch topics).2.positions := by
  apply readInTurn_reads
  intro partition member
  exact consumer.mem_round.mp member

end Consumer

namespace Topics

def records (topics : Topics) (partition : Partition) : List Record :=
  ((topics.log? partition).getD []).mapIdx fun offset data => ⟨partition, offset, Envelope.decode data⟩

variable {topics earlier later : Topics} {partition : Partition}

theorem length_records (topics : Topics) (partition : Partition) :
    (topics.records partition).length = ((topics.log? partition).getD []).length := by
  simp [records]

theorem getElem?_records (topics : Topics) (partition : Partition) (offset : Nat) :
    (topics.records partition)[offset]? =
      (topics.record? partition offset).map fun data => ⟨partition, offset, Envelope.decode data⟩ := by
  rw [Consumer.record?_eq, records, List.getElem?_mapIdx]

theorem Within.records (within : earlier.Within later) (partition : Partition) :
    earlier.records partition <+: later.records partition := by
  rw [List.prefix_iff_getElem?]
  intro offset below
  have found := List.getElem?_eq_getElem below
  rw [getElem?_records, Option.map_eq_some_iff] at found
  obtain ⟨data, present, same⟩ := found
  rw [getElem?_records, within present, ← same]
  rfl

end Topics

theorem Reads.mem_iff {topics : Topics} {start reached : Positions} {records : List Record}
    (reads : Reads topics start records reached) : partition ∈ reached ↔ partition ∈ start := by
  rw [Std.ExtTreeMap.mem_iff_isSome_getElem?, Std.ExtTreeMap.mem_iff_isSome_getElem?,
    Option.isSome_iff_exists, Option.isSome_iff_exists]
  constructor
  · rintro ⟨last, position⟩
    obtain ⟨first, stood, -⟩ := reads.started position
    exact ⟨first, stood⟩
  · rintro ⟨first, position⟩
    exact reads.reaches position

theorem Reads.within {topics : Topics} {start reached : Positions} {records : List Record}
    (reads : Reads topics start records reached) (partition : Partition)
    (within : start.getD partition 0 ≤ (topics.records partition).length) :
    reached.getD partition 0 ≤ (topics.records partition).length := by
  induction reads with
  | done => exact within
  | @next positions other offset data records reached held present _ ih =>
    apply ih
    rw [Std.ExtTreeMap.getD_insert]
    split
    · rename_i same
      obtain rfl := Std.LawfulEqCmp.eq_of_compare same
      have entry := topics.getElem?_records other offset
      rw [present, Option.map_some] at entry
      exact (List.getElem?_eq_some_iff.mp entry).1
    · exact within

/-- What is read of a partition goes on from what was read before, if reading stood there. -/
theorem Reads.continues {topics : Topics} {start reached : Positions} {records before : List Record}
    {partition : Partition} (reads : Reads topics start records reached)
    (upTo : before <+: topics.records partition ∧ before.length = start.getD partition 0) :
    before ++ records.filter (·.partition = partition) <+: topics.records partition ∧
      (before ++ records.filter (·.partition = partition)).length = reached.getD partition 0 := by
  induction reads generalizing before with
  | done => simpa using upTo
  | @next positions other offset data records _ held present _ ih =>
    obtain ⟨earlier, length⟩ := upTo
    by_cases here : other = partition
    · subst here
      have stood : before.length = offset := by
        rw [length, Std.ExtTreeMap.getD_eq_getD_getElem?, held, Option.getD_some]
      have further : before ++ [⟨other, offset, Envelope.decode data⟩] <+: topics.records other := by
        obtain ⟨rest, whole⟩ := earlier
        have next := topics.getElem?_records other offset
        rw [← whole, present, ← stood, List.getElem?_append_right (Nat.le_refl _), Nat.sub_self] at next
        cases rest with
        | nil => cases next
        | cons record rest =>
          cases next
          exact ⟨rest, by rw [← whole, ← stood]; simp⟩
      have continued := ih ⟨further, by simp [stood]⟩
      simpa using continued
    · have continued := ih ⟨earlier, by simp [Std.ExtTreeMap.getD_insert, here, length]⟩
      simpa [here] using continued

end ChatRelay
