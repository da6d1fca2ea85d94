import ChatRelay.Proofs.Cluster

namespace ChatRelay

namespace Group

/-- All members subscribe to the topic alone, and are assigned its partitions alone. -/
def Confined (group : Group) (topic : String) : Prop :=
  ∀ membership ∈ group.members, membership.topics = [topic] ∧
    ∀ partition ∈ membership.assigned, partition.topic = topic

namespace Confined

variable {group : Group} {topic : String} {id : Nat} {partition : Partition}

theorem rebalance (confined : ∀ membership ∈ group.members, membership.topics = [topic])
    (topics : Topics) : (group.rebalance topics).Confined topic := by
  intro membership member
  obtain ⟨before, was, rfl⟩ := List.mem_map.mp member
  have only := confined before was
  refine ⟨only, ?_⟩
  intro partition assigned
  simp only [Std.ExtTreeSet.mem_ofList, only, List.flatMap_cons, List.flatMap_nil, List.append_nil] at assigned
  have assigned : partition ∈ share topics group.members before.id topic := by simpa using assigned
  obtain ⟨index, _, rfl⟩ := List.mem_map.mp assigned
  rfl

theorem enrol (confined : group.Confined topic) (id : Nat) (topics : Topics) :
    ((group.enrol id [topic]).rebalance topics).Confined topic := by
  apply rebalance
  intro membership member
  unfold Group.enrol at member
  split at member
  · obtain ⟨before, was, rfl⟩ := List.mem_map.mp member
    split
    · rfl
    · exact (confined before was).1
  · rcases List.mem_append.mp member with member | member
    · exact (confined membership member).1
    · cases List.mem_singleton.mp member
      rfl

theorem dismiss (confined : group.Confined topic) (id : Nat) (topics : Topics) :
    ((group.dismiss id).rebalance topics).Confined topic :=
  rebalance (fun membership member => (confined membership (List.mem_filter.mp member).1).1) topics

theorem owns (confined : group.Confined topic) (owned : group.owns id partition = true) :
    partition.topic = topic := by
  unfold Group.owns Group.assigned at owned
  cases found : group.find? id with
  | none => simp [found] at owned
  | some membership =>
    simp only [found, Option.map_some, Option.getD_some, Std.ExtTreeSet.contains_iff_mem] at owned
    exact (confined membership (List.mem_of_find?_eq_some found)).2 partition owned

end Confined
end Group

namespace Broker

def Confined (broker : Broker) (name topic : String) : Prop :=
  ∀ group, broker.groups[name]? = some group → group.Confined topic

variable {broker : Broker} {name topic : String} {id : Nat} {partition : Partition}

namespace Confined

theorem assigns (confined : broker.Confined name topic)
    (assigned : broker.assigns name id partition = true) : partition.topic = topic := by
  unfold Broker.assigns at assigned
  cases found : broker.groups[name]? with
  | none => simp [found] at assigned
  | some group => exact (confined group found).owns (by simpa [found] using assigned)

theorem createTopic (confined : broker.Confined name topic) (other : String) (partitions : Nat) :
    (broker.createTopic other partitions).Confined name topic := by
  intro group found
  unfold Broker.createTopic at found
  dsimp only at found
  split at found
  · exact confined group found
  · simp only [Std.ExtTreeMap.getElem?_map] at found
    obtain ⟨before, was, rfl⟩ := Option.map_eq_some_iff.mp found
    split
    · exact Group.Confined.rebalance (fun membership member => (confined before was membership member).1) _
    · exact confined before was

theorem append (confined : broker.Confined name topic) (partition : Partition) (data : Bytes) :
    (broker.append partition data).2.Confined name topic := by
  unfold Broker.append
  split
  · exact confined
  · split <;> exact confined

theorem subscribe (confined : broker.Confined name topic) (consumer : Consumer) (topics : List String)
    (same : consumer.group = name → topics = [topic]) :
    (consumer.subscribe topics broker).2.Confined name topic := by
  intro group found
  simp only [Consumer.subscribe, Std.ExtTreeMap.getElem?_insert] at found
  split at found
  · rename_i here
    have here := Std.LawfulEqCmp.eq_of_compare here
    cases found
    rw [same here]
    refine Group.Confined.enrol ?_ _ _
    intro membership member
    rw [Std.ExtTreeMap.getD_eq_getD_getElem?] at member
    cases was : broker.groups[consumer.group]? with
    | none => simp [was] at member
    | some before => exact confined before (here ▸ was) membership (by simpa [was] using member)
  · exact confined group found

theorem leave (confined : broker.Confined name topic) (consumer : Consumer) :
    (consumer.leave broker).Confined name topic := by
  intro group found
  unfold Consumer.leave at found
  split at found
  · exact confined group found
  · simp only [Std.ExtTreeMap.getElem?_modify] at found
    split at found
    · rename_i here
      have here := Std.LawfulEqCmp.eq_of_compare here
      obtain ⟨before, was, rfl⟩ := Option.map_eq_some_iff.mp found
      exact (confined before (here ▸ was)).dismiss _ _
    · exact confined group found

theorem commit (confined : broker.Confined name topic) (consumer : Consumer) (marks : List Mark) :
    (consumer.commit marks broker).2.Confined name topic := by
  intro group found
  unfold Consumer.commit at found
  split at found
  · exact confined group found
  · split at found
    · exact confined group found
    · rename_i before was
      simp only [Std.ExtTreeMap.getElem?_insert] at found
      split at found
      · rename_i here
        have here := Std.LawfulEqCmp.eq_of_compare here
        cases found
        exact fun membership member => confined before (here ▸ was) membership member
      · exact confined group found

end Confined
end Broker

namespace Cluster

variable {cluster : Cluster} {move : Move} {name topic : String}

/-- The group stays within the topic, and so do the positions of its members. -/
structure Confined (cluster : Cluster) (name topic : String) : Prop where
  broker : cluster.broker.Confined name topic
  positions : ∀ (member : Nat) worker, cluster.workers[member]? = some worker →
    worker.consumer.group = name → ∀ (partition : Partition) (position : Nat),
      worker.consumer.positions[partition]? = some position → partition.topic = topic

/-- Whoever joins the group subscribes to the topic alone, and nobody subscribes anew. -/
def Move.Suits (name topic : String) : Move → Prop
  | .join _ group _ topics => group = name → topics = [topic]
  | .operate _ (.subscribe _) => False
  | _ => True

theorem Confined.broker_step (confined : cluster.Confined name topic) (suits : move.Suits name topic) :
    (cluster.step move).broker.Confined name topic := by
  cases move with
  | createTopic other partitions => exact confined.broker.createTopic other partitions
  | failPublishes count => exact confined.broker
  | append partition data => exact confined.broker.append partition data
  | join id group maxRecords topics => exact confined.broker.subscribe _ topics suits
  | leave member =>
    simp only [step]
    split
    · exact confined.broker
    · exact confined.broker.leave _
  | operate member operation =>
    simp only [step]
    split
    · exact confined.broker
    · cases operation with
      | subscribe topics => exact suits.elim
      | synchronise => simp only [Worker.perform]; split <;> exact confined.broker
      | fetch => simp only [Worker.perform]; split <;> exact confined.broker
      | commit => exact confined.broker.commit _ _
      | rewind => exact confined.broker

theorem Confined.step (confined : cluster.Confined name topic) (sound : cluster.Sound)
    (suits : move.Suits name topic) : (cluster.step move).Confined name topic := by
  refine ⟨confined.broker_step suits, ?_⟩
  intro member worker found same partition position held
  rcases worker_step found with was | ⟨operation, before, rfl, was, rfl⟩ | ⟨_, _, _, _, _, _, rfl⟩
  · exact confined.positions member worker was same partition position held
  · obtain ⟨present, _⟩ := sound member before was
    rw [(before.identity_perform cluster.broker operation present).2] at same
    have kept := confined.positions member before was same partition
    cases operation with
    | subscribe topics => exact suits.elim
    | synchronise =>
      simp only [Worker.perform] at held
      split at held
      · exact kept position held
      · rename_i synced
        rw [Consumer.position_synchronise synced present] at held
        split at held
        · rename_i assigned
          exact confined.broker.assigns (same ▸ assigned)
        · cases held
    | fetch =>
      simp only [Worker.perform] at held
      split at held
      · exact kept position held
      · obtain ⟨first, stood, _⟩ := (before.consumer.fetch_reads cluster.broker.topics).started held
        exact kept first stood
    | commit => exact kept position held
    | rewind =>
      simp only [Worker.perform, Consumer.position_rewind, Option.map_eq_some_iff] at held
      obtain ⟨first, stood, _⟩ := held
      exact kept first stood
  · simp [Consumer.create] at held

end Cluster
end ChatRelay
