import ChatRelay.Proofs.Partition.Known
import ChatRelay.Relay

namespace ChatRelay

namespace Ownership

variable {owned : Std.ExtTreeSet Partition} {revoked : List Partition} {change : AssignmentChange}
variable {partition : Partition}

private theorem foldl_erase
    {kept : Std.ExtDTreeMap Partition (fun _ => Unit) compare → Prop}
    (next : ∀ map partition, kept map → kept (map.erase partition)) (start : { map // kept map }) :
    (⟨⟨(revoked.foldl (fun map partition => ⟨map.val.erase partition, next map.val partition map.property⟩)
      start).val⟩⟩ : Std.ExtTreeSet Partition) = revoked.foldl (·.erase ·) ⟨⟨start.val⟩⟩ := by
  induction revoked generalizing start with
  | nil => rfl
  | cons partition revoked ih => exact ih _

theorem eraseMany_eq_foldl (owned : Std.ExtTreeSet Partition) (revoked : List Partition) :
    owned.eraseMany revoked = revoked.foldl (·.erase ·) owned := by
  unfold Std.ExtTreeSet.eraseMany Std.ExtTreeMap.eraseMany Std.ExtDTreeMap.eraseMany
  simp only [bind_pure_comp, List.forIn_pure_yield_eq_foldl, map_pure, Id.run_pure]
  -- the library's loop carries along that its map came about by erasing
  let erased : Std.ExtDTreeMap Partition (fun _ => Unit) compare → Prop := fun map =>
    ∀ holds : Std.ExtDTreeMap Partition (fun _ => Unit) compare → Prop, holds owned.inner.inner →
      (∀ map partition, holds map → holds (map.erase partition)) → holds map
  have next : ∀ map partition, erased map → erased (map.erase partition) :=
    fun map partition kept holds first step => step map partition (kept holds first step)
  exact foldl_erase next ⟨owned.inner.inner, fun _ first _ => first⟩

theorem mem_eraseMany : partition ∈ owned.eraseMany revoked ↔ partition ∈ owned ∧ partition ∉ revoked := by
  rw [eraseMany_eq_foldl]
  induction revoked generalizing owned with
  | nil => simp
  | cons other revoked ih =>
    rw [List.foldl_cons, ih, Std.ExtTreeSet.mem_erase, List.mem_cons, not_or, ne_eq,
      Std.LawfulEqCmp.compare_eq_iff_eq, eq_comm, and_comm (a := ¬_), and_assoc]

theorem mem_transfer : partition ∈ transfer owned change ↔
    partition ∈ change.assigned ∨ partition ∈ owned ∧ partition ∉ change.revoked := by
  rw [transfer, Std.ExtTreeSet.mem_insertMany_list, mem_eraseMany, List.contains_iff_mem, or_comm]

theorem transfer_of_isEmpty (empty : change.isEmpty) : transfer owned change = owned := by
  simp only [AssignmentChange.isEmpty, Bool.and_eq_true, List.isEmpty_iff] at empty
  ext partition
  simp [mem_transfer, empty]

@[simp] theorem transfer_nothing : transfer owned {} = owned := transfer_of_isEmpty rfl

theorem pollCompleted_fst (ownership : Ownership) (health : LoopHealth) :
    (ownership.pollCompleted health).1 =
      { ownership with changedThisPoll := (ownership.pollCompleted health).1.changedThisPoll } := by
  unfold pollCompleted
  split
  · rfl
  · split <;> rfl

end Ownership

namespace Metrics

/-- Of what a change is counted as, the last measurement sets the gauge. -/
theorem ownedPartitions_recordAll (metrics : Metrics) (ownership : Ownership) (change : AssignmentChange) :
    (metrics.recordAll (ownership.measurements change)).ownedPartitions =
      metrics.ownedPartitions.set [ownership.consumer] (Ownership.transfer ownership.owned change).size := by
  unfold recordAll Ownership.measurements
  split <;> split <;> rfl

end Metrics

/-- What was known stays known, and no loop is given up. -/
structure Relay.Grows (relay later : Relay) : Prop where
  loops : relay.health.loops.length ≤ later.health.loops.length
  inOrder : relay.table.InOrder → later.table.InOrder
  known : ∀ topic index partition, relay.table.get? topic index = some partition →
    later.table.get? topic index = some partition

namespace Relay

variable {relay : Relay} {loop : Nat} {ownership : Ownership} {change : AssignmentChange}

section WithHealth

variable (relay : Relay) (loop : Nat) (act : LoopHealth → Ownership × LoopHealth) (unchanged : Ownership)

/-- An ownership that acts on the health of a loop changes nothing else of the relay. -/
theorem withHealth_snd :
    ∃ health : HealthRegistry, health.loops.length = relay.health.loops.length ∧
      (relay.withHealth loop act unchanged).2 = { relay with health } := by
  unfold withHealth
  split
  · exact ⟨relay.health, rfl, rfl⟩
  · exact ⟨_, by simp [HealthRegistry.modify], rfl⟩

theorem withHealth_fst (there : loop < relay.health.loops.length) :
    ∃ health, (relay.withHealth loop act unchanged).1 = (act health).1 := by
  unfold withHealth
  rw [List.getElem?_eq_getElem there]
  exact ⟨_, rfl⟩

theorem withHealth_of_getElem? {health : LoopHealth} (there : relay.health.loops[loop]? = some health) :
    relay.withHealth loop act unchanged =
      ((act health).1, relay.modifyHealth loop fun _ => (act health).2) := by
  simp [withHealth, there]

end WithHealth

/-- A change that is not heeded changes nothing. -/
theorem reassign_of_unheeded (unheeded : ownership.heeds change = false) :
    relay.reassign loop ownership change = (ownership, relay) := by
  simp [reassign, unheeded]

theorem reassign_fst (there : loop < relay.health.loops.length) (heeded : ownership.heeds change = true) :
    (relay.reassign loop ownership change).1 =
      { ownership with
        owned := Ownership.transfer ownership.owned change
        joining := false
        changedThisPoll := true } := by
  obtain ⟨health, changed⟩ := relay.withHealth_fst loop (ownership.reassign change) ownership there
  simp only [reassign, heeded, if_true, changed, Ownership.reassign]

theorem reassign_snd (loop : Nat) (heeded : ownership.heeds change = true) :
    ∃ health : HealthRegistry, health.loops.length = relay.health.loops.length ∧
      (relay.reassign loop ownership change).2 =
        { relay with
          health
          table := relay.table.learn change.assigned
          metrics := relay.metrics.recordAll (ownership.measurements change) } := by
  obtain ⟨health, loops, changed⟩ := relay.withHealth_snd loop (ownership.reassign change) ownership
  refine ⟨health, loops, ?_⟩
  simp only [reassign, heeded, if_true, changed, record]

section Growing

variable (relay : Relay) (loop : Nat)

theorem Grows.refl : relay.Grows relay := ⟨Nat.le_refl _, id, fun _ _ _ => id⟩

theorem broker_withHealth (act : LoopHealth → Ownership × LoopHealth) (unchanged : Ownership) :
    (relay.withHealth loop act unchanged).2.broker = relay.broker := by
  obtain ⟨_, _, same⟩ := relay.withHealth_snd loop act unchanged
  rw [same]

theorem metrics_withHealth (act : LoopHealth → Ownership × LoopHealth) (unchanged : Ownership) :
    (relay.withHealth loop act unchanged).2.metrics = relay.metrics := by
  obtain ⟨_, _, same⟩ := relay.withHealth_snd loop act unchanged
  rw [same]

theorem grows_withHealth (act : LoopHealth → Ownership × LoopHealth) (unchanged : Ownership) :
    relay.Grows (relay.withHealth loop act unchanged).2 := by
  obtain ⟨_, loops, same⟩ := relay.withHealth_snd loop act unchanged
  rw [same]
  exact ⟨Nat.le_of_eq loops.symm, id, fun _ _ _ => id⟩

variable (ownership : Ownership) (change : AssignmentChange)

theorem broker_reassign : (relay.reassign loop ownership change).2.broker = relay.broker := by
  cases heeded : ownership.heeds change with
  | false => rw [reassign_of_unheeded heeded]
  | true =>
    obtain ⟨_, _, same⟩ := relay.reassign_snd loop heeded
    rw [same]

theorem grows_reassign : relay.Grows (relay.reassign loop ownership change).2 := by
  cases heeded : ownership.heeds change with
  | false =>
    rw [reassign_of_unheeded heeded]
    exact .refl relay
  | true =>
    obtain ⟨_, loops, same⟩ := relay.reassign_snd loop heeded
    rw [same]
    exact ⟨Nat.le_of_eq loops.symm, fun inOrder => inOrder.learn change.assigned,
      fun _ _ _ known => PartitionTable.get?_learn known change.assigned⟩

theorem consumer_reassign :
    (relay.reassign loop ownership change).1.consumer = ownership.consumer := by
  cases heeded : ownership.heeds change with
  | false => rw [reassign_of_unheeded heeded]
  | true =>
    simp only [reassign, heeded, if_true, withHealth, Ownership.reassign]
    cases relay.health.loops[loop]? <;> rfl

theorem ownedPartitions_reassign :
    (relay.reassign loop ownership change).2.metrics.ownedPartitions =
      if ownership.heeds change then
        relay.metrics.ownedPartitions.set [ownership.consumer]
          (Ownership.transfer ownership.owned change).size
      else relay.metrics.ownedPartitions := by
  cases heeded : ownership.heeds change with
  | false => simp [reassign_of_unheeded heeded]
  | true =>
    obtain ⟨_, _, same⟩ := relay.reassign_snd loop heeded
    rw [same, if_pos rfl]
    exact relay.metrics.ownedPartitions_recordAll ownership change

/-- The gauge shows how many partitions are owned, once an ownership was told of the first. -/
def Shows (relay : Relay) (ownership : Ownership) : Prop :=
  ownership.joining = false →
    relay.metrics.ownedPartitions.get? [ownership.consumer] = some ownership.owned.size

theorem Shows.reassign (shows : relay.Shows ownership) (there : loop < relay.health.loops.length) :
    (relay.reassign loop ownership change).2.Shows (relay.reassign loop ownership change).1 := by
  cases heeded : ownership.heeds change with
  | false =>
    rw [reassign_of_unheeded heeded]
    exact shows
  | true =>
    intro _
    rw [ownedPartitions_reassign, if_pos heeded, reassign_fst there heeded, Children.set,
      Children.get?_update, if_pos rfl]

end Growing

end Relay
end ChatRelay
