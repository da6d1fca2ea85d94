import ChatRelay.Broker

namespace ChatRelay

def Topics.record? (topics : Topics) (partition : Partition) (offset : Nat) : Option Bytes :=
  (topics.log? partition).bind (·[offset]?)

/-- Every record of `earlier` is still where it was. -/
def Topics.Within (earlier later : Topics) : Prop :=
  ∀ ⦃partition offset data⦄, earlier.record? partition offset = some data →
    later.record? partition offset = some data

namespace Topics

theorem Within.refl (topics : Topics) : topics.Within topics := fun _ _ _ present => present

theorem Within.trans {first second third : Topics} (lower : first.Within second)
    (upper : second.Within third) : first.Within third :=
  fun _ _ _ present => upper (lower present)

theorem Within.of_logs {earlier later : Topics}
    (grown : ∀ partition log, earlier.log? partition = some log →
      ∃ added, later.log? partition = some (log ++ added)) : earlier.Within later := by
  intro partition offset data present
  obtain ⟨log, found, entry⟩ := Option.bind_eq_some_iff.mp present
  obtain ⟨added, kept⟩ := grown partition log found
  obtain ⟨bound, _⟩ := List.getElem?_eq_some_iff.mp entry
  simp only [record?, kept, Option.bind_some]
  rw [List.getElem?_append_left bound]
  exact entry

/-- A change to the log of one partition is seen where topic and slot agree, and nowhere else. -/
theorem log?_modify (topics : Topics) (partition other : Partition) (change : Log → Log) :
    log? (topics.modify partition.topic fun logs => logs.modify partition.slot change) other =
      if partition.topic = other.topic ∧ partition.slot = other.slot then (topics.log? other).map change
      else topics.log? other := by
  unfold log?
  rw [Std.ExtTreeMap.getD_modify]
  by_cases same : partition.topic = other.topic
  · cases found : topics[other.topic]? <;> by_cases place : partition.slot = other.slot <;>
      simp [same, place, found, Std.ExtTreeMap.getD_eq_getD_getElem?]
  · simp [same]

end Topics

namespace Broker

theorem topics_createTopic (broker : Broker) (topic : String) (partitions : Nat) :
    (broker.createTopic topic partitions).topics =
      broker.topics.insert topic (broker.topics.getD topic [] ++
        List.replicate (partitions - (broker.topics.getD topic []).length) []) := by
  unfold createTopic
  dsimp only
  split <;> rfl

theorem record?_createTopic (broker : Broker) (topic : String) (partitions : Nat) (partition : Partition)
    (offset : Nat) :
    (broker.createTopic topic partitions).topics.record? partition offset =
      broker.topics.record? partition offset := by
  rw [topics_createTopic]
  unfold Topics.record? Topics.log?
  by_cases same : topic = partition.topic
  · subst same
    rw [Std.ExtTreeMap.getD_insert_self]
    generalize broker.topics.getD partition.topic [] = logs
    by_cases old : partition.slot < logs.length
    · rw [List.getElem?_append_left old]
    · have past := Nat.le_of_not_lt old
      rw [List.getElem?_append_right past, List.getElem?_eq_none past, List.getElem?_replicate]
      split <;> rfl
  · simp [Std.ExtTreeMap.getD_insert, same]

theorem within_createTopic (broker : Broker) (topic : String) (partitions : Nat) :
    broker.topics.Within (broker.createTopic topic partitions).topics := by
  intro partition offset data present
  rw [record?_createTopic]
  exact present

/-- A record that is there after an append was there before, or is what was appended. -/
theorem record?_append {broker : Broker} {partition target : Partition} (natural : 0 ≤ partition.index)
    (found : (broker.append target data).2.topics.record? partition offset = some present) :
    broker.topics.record? partition offset = some present ∨ target = partition ∧ data = present := by
  unfold append at found
  split at found
  · exact .inl found
  · cases known : broker.log? target with
    | none => exact .inl (by simpa [known] using found)
    | some log =>
      simp only [known] at found
      unfold Topics.record? at found ⊢
      rw [Topics.log?_modify] at found
      split at found
      · rename_i here
        unfold log? at known
        split at known
        · rename_i nonneg
          have same : target = partition := by
            obtain ⟨topic, index⟩ := target
            obtain ⟨name, place⟩ := partition
            obtain ⟨rfl, slots⟩ := here
            simp only [Partition.slot, Partition.mk.injEq, true_and] at natural nonneg slots ⊢
            omega
          subst same
          rw [known, Option.map_some, Option.bind_some, List.getElem?_append] at found
          split at found
          · exact .inl (by rw [known]; exact found)
          · exact .inr ⟨rfl, (List.mem_singleton.mp (List.mem_of_getElem? found)).symm⟩
        · cases known
      · exact .inl found

theorem within_append (broker : Broker) (partition : Partition) (data : Bytes) :
    broker.topics.Within (broker.append partition data).2.topics := by
  unfold append
  split
  · exact Topics.Within.refl broker.topics
  · split
    · exact Topics.Within.refl broker.topics
    · apply Topics.Within.of_logs
      intro other log found
      rw [Topics.log?_modify]
      split
      · exact ⟨[data], by simp [found]⟩
      · exact ⟨[], by simp [found]⟩

/-- Without failures to come, a record goes to the end of an existing partition. -/
theorem append_eq {broker : Broker} {partition : Partition} {log : Log}
    (calm : broker.failingPublishes = 0) (found : broker.log? partition = some log) (data : Bytes) :
    broker.append partition data =
      (.ok log.length,
       { broker with topics := broker.topics.modify partition.topic fun logs =>
           logs.modify partition.slot (· ++ [data]) }) := by
  simp [append, calm, found]

theorem log?_append {broker : Broker} {partition : Partition} {log : Log}
    (calm : broker.failingPublishes = 0) (found : broker.log? partition = some log) (data : Bytes)
    (other : Partition) :
    (broker.append partition data).2.log? other =
      (broker.log? other).map (· ++ if other = partition then [data] else []) := by
  have nonneg : 0 ≤ partition.index := by
    unfold log? at found
    split at found
    · assumption
    · cases found
  rw [append_eq calm found]
  unfold log?
  split
  · rename_i natural
    dsimp only
    rw [Topics.log?_modify]
    have same : (partition.topic = other.topic ∧ partition.slot = other.slot) ↔ other = partition := by
      obtain ⟨topic, index⟩ := partition
      obtain ⟨name, place⟩ := other
      simp only [Partition.slot, Partition.mk.injEq] at nonneg natural ⊢
      exact ⟨fun ⟨topics, places⟩ => ⟨topics.symm, by omega⟩, fun ⟨topics, places⟩ => ⟨topics.symm, by omega⟩⟩
    split
    · rename_i here
      rw [if_pos (same.mp here)]
    · rename_i elsewhere
      rw [if_neg (mt same.mpr elsewhere)]
      simp
  · rfl

end Broker
end ChatRelay
