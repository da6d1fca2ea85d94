import ChatRelay.Proofs.Fleet.Following

/-! The views of ownership. When a poll returns, what its consumer holds, what the listener counts as owned
and what the group assigns are the same partitions, all of them known; and the gauge shows how many they are,
unless the gauge is shared. -/
namespace ChatRelay.Fleet

variable {fleet : Fleet} {moves more : List Move} {member : Nat} {worker : Worker} {listener : Listener}

/-- A poll of the member can return: its listener was told of everything, and there is no new generation to
catch up with. While nothing else moves, every poll comes to that, `poll_returns`. -/
structure Returns (fleet : Fleet) (member : Nat) (worker : Worker) : Prop where
  found : fleet.workers[member]? = some worker
  told : fleet.busy member = false
  current : worker.consumer.synchronise fleet.relay.broker = none

/-- A consumer goes on with its poll once its listener was told. -/
theorem free_tell (fleet : Fleet) (member : Nat) : (fleet.step (.tell member)).busy member = false := by
  rw [busy, step, listener?_onListener, if_pos rfl]
  cases fleet.listeners[member]? with
  | none => rfl
  | some listener =>
    simp only [Option.map_some, Option.bind_some, Listener.tell]
    split
    · rename_i told
      simp [told]
    · rfl

/-- While nothing else moves, a poll catches up once, tells the listener and returns. -/
theorem poll_returns (found : fleet.workers[member]? = some worker) (free : fleet.busy member = false) :
    ∃ caught, (fleet.run [.act (.operate member .synchronise), .tell member]).Returns member caught := by
  have acted : (fleet.step (.act (.operate member .synchronise))).cluster =
      fleet.cluster.step (.operate member .synchronise) := by
    simp [step, Cluster.Move.member?, free]
    rfl
  have found : fleet.cluster.workers[member]? = some worker := found
  obtain ⟨caught, there, current⟩ := Cluster.current_synchronise found
  rw [← acted] at there current
  have same : (fleet.run [.act (.operate member .synchronise), .tell member]).cluster =
      (fleet.step (.act (.operate member .synchronise))).cluster := by
    rcases (fleet.step (.act (.operate member .synchronise))).cluster_step (.tell member) with
        same | ⟨_, told, _⟩
    · exact same
    · cases told
  rw [← same] at there current
  exact ⟨caught, there, (fleet.step (.act (.operate member .synchronise))).free_tell member, current⟩

/-- The views of ownership after a poll of the member: what it read and holds, what its listener owns, and
what is known are what its group assigns to it. -/
structure Agrees (fleet : Fleet) (member : Nat) (worker : Worker) (listener : Listener) : Prop where
  read : ∀ record ∈ worker.batch,
    fleet.relay.broker.assigns worker.consumer.group member record.partition
  held : ∀ partition, partition ∈ worker.consumer.assignment ↔
    fleet.relay.broker.assigns worker.consumer.group member partition
  owned : ∀ partition, partition ∈ listener.ownership.owned ↔
    fleet.relay.broker.assigns worker.consumer.group member partition
  known : ∀ partition ∈ listener.ownership.owned,
    fleet.relay.table.get? partition.topic partition.index = some partition

theorem mem_fetch {consumer : Consumer} {topics : Topics} {record : Record}
    (read : record ∈ (consumer.fetch topics).1) : record.partition ∈ consumer.positions := by
  obtain ⟨first, held⟩ := (consumer.fetch_reads topics).held read
  exact Std.ExtTreeMap.mem_iff_isSome_getElem?.mpr (by simp [held])

section Returns

variable (bounded : ∀ topic partitions, .act (.createTopic topic partitions) ∈ moves →
  partitions ≤ 0x7fffffff)
variable (returns : (after moves).Returns member worker)
include returns

theorem Returns.step :
    (after (moves ++ [.act (.operate member .fetch)])).workers[member]? =
        some (worker.perform (after moves).relay.broker .fetch).1 ∧
      (after (moves ++ [.act (.operate member .fetch)])).relay = (after moves).relay ∧
      (after (moves ++ [.act (.operate member .fetch)])).listeners = (after moves).listeners := by
  have unchanged : (worker.perform (after moves).relay.broker .fetch).2 = (after moves).relay.broker := by
    simp [Worker.perform, returns.current]
  rw [after_concat]
  simp [Fleet.step, Cluster.Move.member?, returns.told, act, cluster, Cluster.step, returns.found, unchanged]

theorem Returns.held_iff_assigns (partition : Partition) :
    partition ∈ worker.consumer.positions ↔
      (after moves).relay.broker.assigns worker.consumer.group member partition := by
  obtain ⟨acts, reached, _⟩ := reached_after moves
  have found : (after moves).cluster.workers[member]? = some worker := returns.found
  have current : worker.consumer.synchronise (after moves).cluster.broker = none := returns.current
  have broker : (Cluster.after acts).broker = (after moves).relay.broker := by rw [← reached]; rfl
  rw [← broker]
  exact Cluster.held_iff_assigns (reached ▸ found) (reached ▸ current) partition

include bounded

theorem Returns.follows (listening : (after moves).listeners[member]? = some listener) :
    listener.Follows worker (after moves).relay ∧ listener.untold = none := by
  refine ⟨(sound_after bounded).follows member listener worker listening returns.found, ?_⟩
  simpa [busy, listening] using returns.told

theorem Returns.agrees (listening : (after moves).listeners[member]? = some listener) :
    (after (moves ++ [.act (.operate member .fetch)])).Agrees member
      (worker.perform (after moves).relay.broker .fetch).1 listener := by
  obtain ⟨_, relay, _⟩ := returns.step
  obtain ⟨follows, told⟩ := returns.follows bounded listening
  have assigned := returns.held_iff_assigns
  have held := follows.held_iff
  rw [told, Option.getD_none, Ownership.transfer_nothing] at held
  have group : (worker.perform (after moves).relay.broker .fetch).1.consumer.group =
      worker.consumer.group := by simp only [Worker.perform, returns.current]; rfl
  refine ⟨fun record read => ?_, fun partition => ?_, fun partition => ?_, fun partition owned => ?_⟩
  · rw [relay, group, ← assigned]
    simp only [Worker.perform, returns.current] at read
    exact mem_fetch read
  · rw [relay, group, ← assigned, Consumer.assignment, Std.ExtTreeMap.mem_keys]
    exact Worker.mem_positions_perform (by rintro ⟨⟩)
  · rw [relay, group, ← assigned, held]
  · rw [relay]
    exact follows.known partition owned

/-- A member whose poll can return has joined, and its listener knows. -/
theorem Returns.joined (listening : (after moves).listeners[member]? = some listener) :
    listener.ownership.joining = false := by
  obtain ⟨follows, told⟩ := returns.follows bounded listening
  refine Bool.eq_false_iff.mpr fun joining => ?_
  rcases follows.joining joining with pending | unpolled
  · simp [told] at pending
  · obtain ⟨acts, reached, _⟩ := reached_after moves
    have found : (after moves).cluster.workers[member]? = some worker := returns.found
    have current : worker.consumer.synchronise (after moves).cluster.broker = none := returns.current
    rw [reached] at found current
    have started := (Cluster.tracked_after acts member worker found).started
    have caught := (Cluster.synchronise_eq_none_iff found).mp current
    omega

/-- In one generation of a group no partition is held by two members whose polls return. -/
theorem Returns.held_once {rival : Nat} {other : Worker} {partition : Partition}
    (also : (after (moves ++ more)).Returns rival other)
    (sameGroup : other.consumer.group = worker.consumer.group)
    (sameGeneration : other.consumer.generation = worker.consumer.generation)
    (held : partition ∈ worker.consumer.positions) (taken : partition ∈ other.consumer.positions) :
    rival = member := by
  obtain ⟨acts, reached, among⟩ := reached_after moves
  obtain ⟨further, went, _⟩ := (after moves).cluster_run more
  rw [← after_append, reached, ← Cluster.after_append] at went
  have found : (after moves).cluster.workers[member]? = some worker := returns.found
  have current : worker.consumer.synchronise (after moves).cluster.broker = none := returns.current
  have there : (after (moves ++ more)).cluster.workers[rival]? = some other := also.found
  have caught : other.consumer.synchronise (after (moves ++ more)).cluster.broker = none := also.current
  rw [reached] at found current
  rw [went] at there caught
  exact Cluster.held_once (fun topic partitions asked => bounded _ _ (among _ asked)) found current there
    caught sameGroup sameGeneration held taken

end Returns

/-- When a poll returns, all views of ownership agree, as does the gauge unless another ownership shares it;
and whoever polls in the same generation of the group, before or after, reads other partitions. -/
theorem views_agree
    (bounded : ∀ topic partitions, .act (.createTopic topic partitions) ∈ moves → partitions ≤ 0x7fffffff)
    (returns : (after moves).Returns member worker)
    (listening : (after moves).listeners[member]? = some listener) :
    ∃ returned,
      (after (moves ++ [.act (.operate member .fetch)])).workers[member]? = some returned ∧
      (after (moves ++ [.act (.operate member .fetch)])).listeners[member]? = some listener ∧
      (after (moves ++ [.act (.operate member .fetch)])).Agrees member returned listener ∧
      (Alone moves member returned.consumer.id →
        (after (moves ++ [.act (.operate member .fetch)])).relay.metrics.ownedPartitions.get?
          [returned.consumer.id] = some listener.ownership.owned.size) ∧
      ∀ (course : List Move) (rival : Nat) (other : Worker), course <+: moves ∨ moves <+: course →
        (after course).Returns rival other → rival ≠ member →
        other.consumer.group = returned.consumer.group →
        other.consumer.generation = returned.consumer.generation →
          ∀ record ∈ returned.batch,
            ∀ taken ∈ (other.consumer.fetch (after course).relay.broker.topics).1,
              record.partition ≠ taken.partition := by
  obtain ⟨found, relay, listeners⟩ := returns.step
  obtain ⟨follows, _⟩ := returns.follows bounded listening
  refine ⟨_, found, by rw [listeners, listening], returns.agrees bounded listening, ?_, ?_⟩
  · rw [Worker.id_perform, ← follows.consumer, relay]
    exact fun alone => shows_after bounded alone listening (returns.joined bounded listening)
  · intro course rival other related also different sameGroup sameGeneration record read taken got same
    simp only [Worker.perform, returns.current] at read sameGroup sameGeneration
    have held := mem_fetch read
    have holds := mem_fetch got
    rw [← same] at holds
    rcases related with ⟨rest, rfl⟩ | ⟨rest, rfl⟩
    · have earlier : ∀ topic partitions, .act (.createTopic topic partitions) ∈ course →
          partitions ≤ 0x7fffffff := fun topic partitions asked =>
        bounded topic partitions (List.mem_append_left _ asked)
      exact different (also.held_once earlier returns sameGroup.symm sameGeneration.symm holds held).symm
    · exact different (returns.held_once bounded also sameGroup sameGeneration held holds)

/-- While the listener of the only member is told of its first assignment, another consumer joins and the
topic grows. -/
def grownMeanwhile : List Move :=
  [.act (.createTopic "t" 2), .register "loop", .act (.append ⟨"t", 0⟩ [1, 2, 3]),
   .act (.join "a" "g" 10 ["t"]), .listen 1 0, .act (.operate 1 .synchronise),
   .act (.join "b" "g" 10 ["t"]), .act (.createTopic "t" 5), .tell 1,
   .act (.operate 1 .synchronise), .tell 1]

theorem grownMeanwhile_agrees :
    ∃ returned listener,
      (after (grownMeanwhile ++ [.act (.operate 1 .fetch)])).workers[1]? = some returned ∧
      (after (grownMeanwhile ++ [.act (.operate 1 .fetch)])).Agrees 1 returned listener ∧
      listener.ownership.owned.toList = [⟨"t", 0⟩, ⟨"t", 1⟩, ⟨"t", 2⟩] ∧
      (after (grownMeanwhile ++ [.act (.operate 1 .fetch)])).relay.metrics.ownedPartitions.get? ["a"] =
        some 3 := by
  have stood : ((after grownMeanwhile).workers[1]?.map fun worker =>
      (worker.consumer.id, (worker.consumer.synchronise (after grownMeanwhile).relay.broker).isNone)) =
        some ("a", true) := by decide +kernel
  have listened : ((after grownMeanwhile).listeners[1]?.map fun listener =>
      listener.ownership.owned.toList) = some [⟨"t", 0⟩, ⟨"t", 1⟩, ⟨"t", 2⟩] := by decide +kernel
  have only : (after grownMeanwhile).listeners.toList.map (·.1) = [1] := by decide +kernel
  obtain ⟨worker, found, worker_eq⟩ := Option.map_eq_some_iff.mp stood
  obtain ⟨listener, listening, owned⟩ := Option.map_eq_some_iff.mp listened
  rw [Prod.mk.injEq, Option.isNone_iff_eq_none] at worker_eq
  have returns : (after grownMeanwhile).Returns 1 worker := ⟨found, by decide +kernel, worker_eq.2⟩
  have bounded : ∀ topic partitions, .act (.createTopic topic partitions) ∈ grownMeanwhile →
      partitions ≤ 0x7fffffff := by
    intro topic partitions asked
    simp [grownMeanwhile] at asked
    omega
  obtain ⟨returned, there, _, agrees, shown, _⟩ := views_agree bounded returns listening
  have named : returned.consumer.id = "a" := by
    obtain ⟨fetched, _⟩ := returns.step
    rw [there, Option.some.injEq] at fetched
    rw [fetched, Worker.id_perform, worker_eq.1]
  have alone : Alone grownMeanwhile 1 returned.consumer.id := by
    refine ⟨fun other rival among _ => ?_, by simp [grownMeanwhile]⟩
    have entry := Std.ExtTreeMap.mem_toList_iff_getElem?_eq_some.mpr among
    have member := List.mem_map_of_mem (f := (·.1)) entry
    simpa [only] using member
  refine ⟨returned, listener, there, agrees, owned, ?_⟩
  rw [← named, shown alone, ← Std.ExtTreeSet.length_toList, owned]
  rfl

/-- Two consumers whose names have the same fingerprint. -/
def sharedGauge : List Move :=
  [.act (.createTopic "t" 3), .register "loop",
   .act (.join "7mohtcOFVz" "g" 10 ["t"]), .listen 1 0,
   .act (.join "c1E51sSEyx" "g" 10 ["t"]), .listen 2 0,
   .act (.operate 1 .synchronise), .tell 1, .act (.operate 2 .synchronise), .tell 2]

/-- The listener of member 1 is the only one of its name and owns two partitions, but the gauge of that name
shows the one partition of member 2. -/
theorem sharedGauge_misleads :
    ∃ worker listener,
      (after sharedGauge).Returns 1 worker ∧ (after sharedGauge).listeners[1]? = some listener ∧
      (∀ (other : Nat) (rival : Listener), (after sharedGauge).listeners[other]? = some rival →
        rival.ownership.consumer = worker.consumer.id → other = 1) ∧
      (∀ loop ownership change, .tellOther loop ownership change ∉ sharedGauge) ∧
      listener.ownership.owned.size = 2 ∧
      (after (sharedGauge ++ [.act (.operate 1 .fetch)])).relay.metrics.ownedPartitions.get?
        [worker.consumer.id] = some 1 := by
  have stood : ((after sharedGauge).workers[1]?.map fun worker =>
      (worker.consumer.id, (worker.consumer.synchronise (after sharedGauge).relay.broker).isNone)) =
        some ("7mohtcOFVz", true) := by decide +kernel
  have listened : ((after sharedGauge).listeners[1]?.map fun listener => listener.ownership.owned.size) =
      some 2 := by decide +kernel
  have named : (after sharedGauge).listeners.toList.map
      (fun entry => (entry.1, entry.2.ownership.consumer)) = [(1, "7mohtcOFVz"), (2, "c1E51sSEyx")] := by
    decide +kernel
  have shown : (after (sharedGauge ++ [.act (.operate 1 .fetch)])).relay.metrics.ownedPartitions.get?
      ["7mohtcOFVz"] = some 1 := by decide +kernel
  obtain ⟨worker, found, worker_eq⟩ := Option.map_eq_some_iff.mp stood
  obtain ⟨listener, listening, owned⟩ := Option.map_eq_some_iff.mp listened
  rw [Prod.mk.injEq, Option.isNone_iff_eq_none] at worker_eq
  obtain ⟨id, current⟩ := worker_eq
  refine ⟨worker, listener, ⟨found, by decide +kernel, current⟩, listening, ?_, by simp [sharedGauge],
    owned, by rw [id, shown]⟩
  intro other rival among same
  have entry := Std.ExtTreeMap.mem_toList_iff_getElem?_eq_some.mpr among
  have member := List.mem_map_of_mem (f := fun entry => (entry.1, entry.2.ownership.consumer)) entry
  rw [named, same, id] at member
  simpa using member

end ChatRelay.Fleet
