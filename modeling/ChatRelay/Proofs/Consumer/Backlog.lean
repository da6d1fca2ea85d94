import Mathlib.Algebra.BigOperators.Group.Finset.Basic
import Mathlib.Algebra.Ring.Nat
import ChatRelay.Proofs.Broker.Appending
import ChatRelay.Proofs.Broker.Generations
import ChatRelay.Proofs.Consumer.Fetching

namespace ChatRelay

namespace Topics

variable {topics : Topics} {topic : String} {next : Partition → Nat} {partition : Partition}
variable {weight : Except Failure Envelope → Nat} {start reached : Positions} {records : List Record}

def Holds (topics : Topics) (topic : String) (partition : Partition) : Prop :=
  ∃ slot : Nat, slot < topics.partitionCount topic ∧ partition = ⟨topic, slot⟩

/-- The weight of all records of a topic from the next offset of each partition on. -/
def backlog (weight : Except Failure Envelope → Nat) (topics : Topics) (topic : String)
    (next : Partition → Nat) : Nat :=
  ∑ slot ∈ Finset.range (topics.partitionCount topic),
    (((topics.records ⟨topic, slot⟩).drop (next ⟨topic, slot⟩)).map fun record => weight record.body).sum

private theorem sum_range_eq_add {first second : Nat → Nat} {count place extra : Nat} (within : place < count)
    (here : first place = second place + extra)
    (elsewhere : ∀ other, other ≠ place → first other = second other) :
    ∑ slot ∈ Finset.range count, first slot = ∑ slot ∈ Finset.range count, second slot + extra := by
  have member := Finset.mem_range.mpr within
  have others : ∑ slot ∈ (Finset.range count).erase place, first slot =
      ∑ slot ∈ (Finset.range count).erase place, second slot :=
    Finset.sum_congr rfl fun other erased => elsewhere other (Finset.ne_of_mem_erase erased)
  rw [← Finset.add_sum_erase _ first member, ← Finset.add_sum_erase _ second member, others, here]
  omega

private theorem slot_injective {first second : Nat}
    (same : (⟨topic, first⟩ : Partition) = ⟨topic, second⟩) : first = second := by
  have index : (first : Int) = second := congrArg Partition.index same
  omega

theorem backlog_advance (holds : topics.Holds topic partition) {record : Record}
    (present : (topics.records partition)[next partition]? = some record) :
    topics.backlog weight topic next =
      topics.backlog weight topic (Function.update next partition (next partition + 1)) +
        weight record.body := by
  obtain ⟨place, within, rfl⟩ := holds
  apply sum_range_eq_add within
  · obtain ⟨bound, entry⟩ := List.getElem?_eq_some_iff.mp present
    rw [Function.update_self, List.drop_eq_getElem_cons bound, entry, List.map_cons, List.sum_cons,
      Nat.add_comm]
  · intro other different
    rw [Function.update_of_ne fun same => different (slot_injective same)]

theorem backlog_reads (reads : Reads topics start records reached)
    (holds : ∀ partition ∈ start, topics.Holds topic partition) :
    topics.backlog weight topic (start.getD · 0) =
      topics.backlog weight topic (reached.getD · 0) +
        (records.map fun record => weight record.body).sum := by
  induction reads with
  | done => simp
  | @next positions partition offset data records reached held present _ ih =>
    have member : partition ∈ positions := by simp [Std.ExtTreeMap.mem_iff_isSome_getElem?, held]
    have stands : positions.getD partition 0 = offset := by simp [Std.ExtTreeMap.getD_eq_getD_getElem?, held]
    have entry : (topics.records partition)[positions.getD partition 0]? =
        some ⟨partition, offset, Envelope.decode data⟩ := by
      rw [stands, getElem?_records, present, Option.map_some]
    have moved : Function.update (positions.getD · 0) partition (positions.getD partition 0 + 1) =
        ((positions.insert partition (offset + 1)).getD · 0) := by
      funext other
      by_cases same : partition = other
      · subst same
        simp [stands]
      · simp [Std.ExtTreeMap.getD_insert, same, Ne.symm same]
    have rest := ih fun other among => by
      rcases Std.ExtTreeMap.mem_insert.mp among with same | among
      · exact Std.LawfulEqCmp.eq_of_compare same ▸ holds partition member
      · exact holds other among
    rw [backlog_advance (holds partition member) entry, moved, rest, List.map_cons, List.sum_cons]
    omega

theorem backlog_congr {other : Partition → Nat}
    (same : ∀ partition, topics.Holds topic partition → next partition = other partition) :
    topics.backlog weight topic next = topics.backlog weight topic other :=
  Finset.sum_congr rfl fun slot member => by rw [same _ ⟨slot, Finset.mem_range.mp member, rfl⟩]

end Topics

namespace Broker

theorem log?_eq_some_iff {broker : Broker} {partition : Partition} {log : Log} :
    broker.log? partition = some log ↔ 0 ≤ partition.index ∧ broker.topics.log? partition = some log := by
  unfold log?
  split <;> simp [*]

theorem records_append {broker : Broker} {target : Partition} {log : Log}
    (calm : broker.failingPublishes = 0) (found : broker.log? target = some log) (data : Bytes)
    (topic : String) (slot : Nat) :
    (broker.append target data).2.topics.records ⟨topic, slot⟩ = broker.topics.records ⟨topic, slot⟩ ++
      if ⟨topic, slot⟩ = target then [⟨target, log.length, Envelope.decode data⟩] else [] := by
  have natural : 0 ≤ (⟨topic, slot⟩ : Partition).index := Int.natCast_nonneg slot
  have grown := log?_append calm found data ⟨topic, slot⟩
  unfold log? at grown
  rw [if_pos natural, if_pos natural] at grown
  unfold Topics.records
  rw [grown]
  split
  · rename_i here
    rw [here, (log?_eq_some_iff.mp found).2]
    simp [List.mapIdx_append]
  · cases broker.topics.log? ⟨topic, slot⟩ <;> simp

/-- An append puts no more than the weight of its record on a backlog, which may be that of another topic. -/
theorem backlog_append (broker : Broker) (target : Partition) (data : Bytes) (topic : String)
    (next : Partition → Nat)
    (within : ∀ partition, broker.topics.Holds topic partition →
      next partition ≤ (broker.topics.records partition).length) :
    (broker.append target data).2.topics.backlog weight topic next ≤
      broker.topics.backlog weight topic next + weight (Envelope.decode data) := by
  rcases append_cases broker target data with ⟨failing, -, fate⟩ | ⟨-, -, fate⟩ | ⟨log, calm, found⟩
  · rw [fate]
    exact Nat.le_add_right _ _
  · rw [fate]
    exact Nat.le_add_right _ _
  · have grown (slot : Nat) := records_append calm found data topic slot
    unfold Topics.backlog
    rw [partitionCount_append]
    by_cases here : broker.topics.Holds topic target
    · obtain ⟨place, bound, rfl⟩ := here
      apply Nat.le_of_eq
      apply Topics.sum_range_eq_add bound
      · rw [grown, if_pos rfl, List.drop_append_of_le_length (within _ ⟨place, bound, rfl⟩)]
        simp
      · intro other different
        rw [grown, if_neg fun same => different (Topics.slot_injective same), List.append_nil]
    · refine Nat.le_trans (Nat.le_of_eq (Finset.sum_congr rfl fun slot member => ?_)) (Nat.le_add_right _ _)
      have apart : (⟨topic, slot⟩ : Partition) ≠ target := by
        rintro rfl
        exact here ⟨slot, Finset.mem_range.mp member, rfl⟩
      rw [grown, if_neg apart, List.append_nil]

end Broker
end ChatRelay
