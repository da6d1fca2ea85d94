import ChatRelay.Proofs.Fleet

namespace ChatRelay

namespace Listener

/-- The listener follows what its consumer holds: once it was told of what is pending, it owns the same. -/
structure Follows (listener : Listener) (worker : Worker) (relay : Relay) : Prop where
  consumer : listener.ownership.consumer = worker.consumer.id
  held_iff : ∀ partition, partition ∈ worker.consumer.positions ↔
    partition ∈ Ownership.transfer listener.ownership.owned (listener.untold.getD {})
  known : ∀ partition ∈ listener.ownership.owned,
    relay.table.get? partition.topic partition.index = some partition
  /-- Only before the first poll there is nothing to be told of to a listener that never was. -/
  joining : listener.ownership.joining → listener.untold.isSome ∨ worker.consumer.generation = 0

variable {listener : Listener} {worker next : Worker} {relay later : Relay} {broker : Broker}

namespace Follows

variable (follows : listener.Follows worker relay)
include follows

theorem mono (grows : relay.Grows later) : listener.Follows worker later :=
  { follows with
    known := fun partition owned => grows.known _ _ _ (follows.known partition owned) }

/-- Nothing is told by operations other than a catch-up. -/
theorem perform {operation : Worker.Operation} (other : operation ≠ .synchronise) :
    listener.Follows (worker.perform broker operation).1 relay where
  consumer := by rw [Worker.id_perform, follows.consumer]
  held_iff partition := by rw [Worker.mem_positions_perform other, follows.held_iff]
  known := follows.known
  joining joining := by rw [Worker.generation_perform other]; exact follows.joining joining

/-- What a catch-up changes is left to be told. -/
theorem catchUp (broker : Broker) (told : listener.untold = none) :
    Follows { listener with untold := (worker.consumer.synchronise broker).map Prod.fst }
      (worker.perform broker .synchronise).1 relay where
  consumer := by rw [Worker.id_perform, follows.consumer]
  held_iff partition := by
    have held := follows.held_iff partition
    rw [told, Option.getD_none, Ownership.transfer_nothing] at held
    cases synced : worker.consumer.synchronise broker with
    | none => simpa [Worker.perform, synced] using held
    | some caught =>
      obtain ⟨change, next⟩ := caught
      obtain ⟨assigned, revoked⟩ := Consumer.mem_change synced partition
      simp only [Worker.perform, synced, Option.map_some, Option.getD_some, Ownership.mem_transfer,
        assigned, revoked, ← held]
      by_cases before : partition ∈ worker.consumer.positions <;> simp [before]
  known := follows.known
  joining joining := by
    cases synced : worker.consumer.synchronise broker with
    | none => simpa [Worker.perform, synced, told] using follows.joining joining
    | some caught => exact .inl rfl

/-- A listener that is told owns what its consumer holds, and knows all of it. -/
theorem tell (there : listener.loop < relay.health.loops.length) (inOrder : relay.table.InOrder)
    (bounds : ∀ partition ∈ worker.consumer.positions, 0 ≤ partition.index ∧ partition.index < 0x7fffffff) :
    (listener.tell relay).1.Follows worker (listener.tell relay).2 := by
  obtain ⟨loop, ownership, untold⟩ := listener
  cases untold with
  | none => exact follows
  | some change =>
    have held := follows.held_iff
    simp only [Option.getD_some] at held
    cases heeded : ownership.heeds change with
    | false =>
      have empty : change.isEmpty = true ∧ ownership.joining = false := by
        simpa [Ownership.heeds] using heeded
      rw [Ownership.transfer_of_isEmpty empty.1] at held
      simp only [Listener.tell, Relay.reassign_of_unheeded heeded]
      refine ⟨follows.consumer, fun partition => ?_, follows.known, fun joining => ?_⟩
      · rw [held, Option.getD_none, Ownership.transfer_nothing]
      · rw [empty.2] at joining
        cases joining
    | true =>
      obtain ⟨health, _, changed⟩ := relay.reassign_snd loop heeded
      simp only [Listener.tell, Relay.reassign_fst there heeded, changed]
      refine ⟨follows.consumer, fun partition => ?_, fun partition owned => ?_,
        fun joining => by cases joining⟩
      · rw [held, Option.getD_none, Ownership.transfer_nothing]
      · rcases Ownership.mem_transfer.mp owned with gained | ⟨kept, _⟩
        · refine inOrder.get?_learn_of_mem (fun other assigned => bounds other ?_) gained
          exact (held other).mpr (Ownership.mem_transfer.mpr (.inl assigned))
        · exact PartitionTable.get?_learn (follows.known partition kept) change.assigned

theorem pollCompleted :
    (listener.pollCompleted relay).1.Follows worker (listener.pollCompleted relay).2 := by
  have grows := relay.grows_withHealth listener.loop listener.ownership.pollCompleted listener.ownership
  rw [Listener.pollCompleted_fst]
  exact { follows.mono grows with }

end Follows

theorem shows_tell (shows : relay.Shows listener.ownership)
    (there : listener.loop < relay.health.loops.length) :
    (listener.tell relay).2.Shows (listener.tell relay).1.ownership := by
  unfold tell
  split
  · exact shows
  · exact shows.reassign _ _ _ _ there

end Listener

namespace Fleet

variable {fleet : Fleet} {move : Move} {moves more : List Move} {acts : List Cluster.Move}
variable {member : Nat} {worker : Worker} {listener : Listener}

/-- The partitions that are known are in order, and every listener follows its consumer. -/
structure Sound (fleet : Fleet) : Prop where
  inOrder : fleet.relay.table.InOrder
  given : ∀ (member : Nat) (listener : Listener), fleet.listeners[member]? = some listener →
    member ≤ fleet.relay.broker.lastMember ∧ listener.loop < fleet.relay.health.loops.length
  follows : ∀ (member : Nat) (listener : Listener) (worker : Worker),
    fleet.listeners[member]? = some listener → fleet.workers[member]? = some worker →
      listener.Follows worker fleet.relay

section Step

variable (sound : fleet.Sound) (reached : fleet.cluster = Cluster.after acts)
include sound reached

theorem Sound.given_step (found : (fleet.step move).listeners[member]? = some listener) :
    member ≤ (fleet.step move).relay.broker.lastMember ∧
      listener.loop < (fleet.step move).relay.health.loops.length := by
  have before : member ≤ fleet.relay.broker.lastMember ∧
      listener.loop < fleet.relay.health.loops.length := by
    rcases listener_step found with
        ⟨was, _⟩ | ⟨before, was, change⟩ | ⟨loop, worker, _, there, present, _, rfl⟩
    · exact sound.given member listener was
    · have same : listener.loop = before.loop := by
        rcases change with ⟨_, _, rfl⟩ | ⟨_, rfl⟩ | ⟨_, rfl⟩
        · rfl
        · exact before.loop_tell _
        · rfl
      rw [same]
      exact sound.given member before was
    · have present : fleet.cluster.workers[member]? = some worker := present
      have numbered := Cluster.sound_after acts member worker (reached ▸ present)
      rw [← reached] at numbered
      exact ⟨numbered.2.1, there⟩
  refine ⟨Nat.le_trans before.1 ?_, Nat.lt_of_lt_of_le before.2 (fleet.grows_step move).loops⟩
  have later : fleet.cluster.broker.lastMember ≤ (fleet.step move).cluster.broker.lastMember := by
    rcases fleet.cluster_step move with same | ⟨act, _, _, acted⟩
    · exact Nat.le_of_eq (by rw [same])
    · rw [acted]
      exact (reached ▸ Cluster.sound_after acts : fleet.cluster.Sound).lastMember_le act
  exact later

theorem Sound.follows_step
    (bounded : ∀ topic partitions, .createTopic topic partitions ∈ acts → partitions ≤ 0x7fffffff)
    (listening : (fleet.step move).listeners[member]? = some listener)
    (found : (fleet.step move).workers[member]? = some worker) :
    listener.Follows worker (fleet.step move).relay := by
  have grows := fleet.grows_step move
  have idle (still : ∀ act, move ≠ .act act) : fleet.workers[member]? = some worker := by
    rcases fleet.cluster_step move with same | ⟨act, acted, _⟩
    · have found : (fleet.step move).cluster.workers[member]? = some worker := found
      rwa [same] at found
    · exact absurd acted (still act)
  rcases listener_step listening with
      ⟨was, _, caught⟩ | ⟨before, was, ⟨rfl, told, rfl⟩ | ⟨rfl, rfl⟩ | ⟨rfl, rfl⟩⟩ |
      ⟨loop, newcomer, rfl, _, present, unpolled, rfl⟩
  · rcases worker_step found with present | ⟨operation, earlier, rfl, free, present, rfl⟩ | fresh
    · exact (sound.follows member listener worker was present).mono grows
    · -- a catch-up would have left its change to the listener
      have other : operation ≠ .synchronise := by
        rintro rfl
        rw [caught rfl] at free
        cases free
      exact ((sound.follows member listener earlier was present).perform other).mono grows
    · -- a newcomer has a number that no listener was given
      have := (sound.given member listener was).1
      omega
  · have free : fleet.busy member = false := by simp [busy, was, told]
    cases present : fleet.workers[member]? with
    | none => simp [step, act, Cluster.Move.member?, free, cluster, Cluster.step, present] at found
    | some earlier =>
      simp only [step, act, Cluster.Move.member?, Option.any_some, free, Bool.false_eq_true, if_false,
        cluster, Cluster.step, present, Std.ExtTreeMap.getElem?_insert_self, Option.some.injEq] at found
      subst found
      have follows := (sound.follows member before earlier was present).catchUp
        fleet.relay.broker told
      simpa [change?, present] using follows.mono grows
  · have present := idle fun _ same => by cases same
    have held (partition : Partition) (holds : partition ∈ worker.consumer.positions) := by
      have present : fleet.cluster.workers[member]? = some worker := present
      exact Cluster.held_bounds bounded (reached ▸ present) holds
    have follows := (sound.follows member before worker was present).tell
      (sound.given member before was).2 sound.inOrder held
    simpa [step, onListener, was] using follows
  · have present := idle fun _ same => by cases same
    have follows := (sound.follows member before worker was present).pollCompleted
    simpa [step, onListener, was] using follows
  · have same := idle fun _ same => by cases same
    rw [present, Option.some.injEq] at same
    subst same
    -- a new listener owns nothing, and a consumer that never caught up holds nothing
    have present : fleet.cluster.workers[member]? = some newcomer := present
    have tracks := Cluster.tracked_after acts member newcomer (reached ▸ present)
    refine ⟨rfl, fun partition => ?_, fun partition owned => ?_,
      fun _ => .inr unpolled⟩
    · simp [tracks.unpolled unpolled partition]
    · simp at owned

theorem Sound.step
    (bounded : ∀ topic partitions, .createTopic topic partitions ∈ acts → partitions ≤ 0x7fffffff)
    (move : Move) : (fleet.step move).Sound where
  inOrder := (fleet.grows_step move).inOrder sound.inOrder
  given _ _ found := sound.given_step reached found
  follows _ _ _ listening found := sound.follows_step reached bounded listening found

end Step

theorem reached_after (moves : List Move) :
    ∃ acts : List Cluster.Move, (after moves).cluster = Cluster.after acts ∧
      ∀ act ∈ acts, .act act ∈ moves :=
  cluster_run {} moves

theorem sound_after
    (bounded : ∀ topic partitions, .act (.createTopic topic partitions) ∈ moves → partitions ≤ 0x7fffffff) :
    (after moves).Sound := by
  induction moves using List.reverseRecOn with
  | nil => exact ⟨PartitionTable.inOrder_empty, fun _ _ found => by simp [after, run] at found,
      fun _ _ _ found => by simp [after, run] at found⟩
  | append_singleton moves move ih =>
    have earlier : ∀ topic partitions, .act (.createTopic topic partitions) ∈ moves →
        partitions ≤ 0x7fffffff := fun topic partitions asked => bounded topic partitions (by simp [asked])
    obtain ⟨acts, reached, among⟩ := reached_after moves
    rw [after_concat]
    exact (ih earlier).step reached (fun topic partitions asked => earlier _ _ (among _ asked)) move

/-- No other ownership shares the gauge of the consumer: the label values of all others have another
fingerprint. -/
def Alone (moves : List Move) (member : Nat) (consumer : String) : Prop :=
  (∀ (other : Nat) (listener : Listener), (after moves).listeners[other]? = some listener →
    Children.fingerprint [listener.ownership.consumer] = Children.fingerprint [consumer] →
      other = member) ∧
  ∀ loop ownership change, .tellOther loop ownership change ∈ moves →
    Children.fingerprint [ownership.consumer] ≠ Children.fingerprint [consumer]

theorem Alone.of_concat {consumer : String} (alone : Alone (moves ++ [move]) member consumer) :
    Alone moves member consumer := by
  refine ⟨fun other listener found same => ?_, fun loop ownership change told =>
    alone.2 loop ownership change (by simp [told])⟩
  obtain ⟨later, kept, named⟩ := listener_kept found move
  exact alone.1 other later (by rw [after_concat]; exact kept) (named ▸ same)

theorem shows_after
    (bounded : ∀ topic partitions, .act (.createTopic topic partitions) ∈ moves → partitions ≤ 0x7fffffff)
    (alone : Alone moves member listener.ownership.consumer)
    (listening : (after moves).listeners[member]? = some listener) :
    (after moves).relay.Shows listener.ownership := by
  induction moves using List.reverseRecOn generalizing listener with
  | nil => simp [after, run] at listening
  | append_singleton moves move ih =>
    have earlier : ∀ topic partitions, .act (.createTopic topic partitions) ∈ moves →
        partitions ≤ 0x7fffffff := fun topic partitions asked => bounded topic partitions (by simp [asked])
    rw [after_concat] at listening ⊢
    rcases listener_step listening with
        ⟨was, untold, _⟩ | ⟨before, was, change⟩ | ⟨_, _, _, _, _, _, rfl⟩
    · intro joined
      have shown := ih earlier alone.of_concat was joined
      rcases (after moves).ownedPartitions_step move with same | ⟨ownership, change, told, _, changed⟩
      · rw [same, shown]
      · have apart : Children.fingerprint [ownership.consumer] ≠
            Children.fingerprint [listener.ownership.consumer] := by
          rcases told with ⟨rival, other, rfl, found, rfl, _⟩ | ⟨loop, rfl⟩
          · intro shared
            obtain ⟨later, kept, named⟩ := listener_kept found (.tell rival)
            have same := alone.1 rival later (by rw [after_concat]; exact kept) (named ▸ shared)
            exact untold (same ▸ rfl)
          · exact alone.2 loop ownership change (by simp)
        rw [changed, Children.set, Children.get?_update, if_neg apart, shown]
    · rcases change with ⟨rfl, _, rfl⟩ | ⟨rfl, rfl⟩ | ⟨rfl, rfl⟩
      · have alone : Alone _ member before.ownership.consumer := alone
        have shows := ih earlier alone.of_concat was
        simp only [step]
        split <;> exact shows
      · rw [Listener.consumer_tell] at alone
        have shows := ih earlier alone.of_concat was
        simpa [step, onListener, was] using
          before.shows_tell shows ((sound_after earlier).given member before was).2
      · rw [Listener.pollCompleted_fst] at alone ⊢
        have alone : Alone _ member before.ownership.consumer := alone
        have shows := ih earlier alone.of_concat was
        simpa [step, onListener, was, Listener.pollCompleted, Relay.Shows, Relay.metrics_withHealth]
          using shows
    · intro joined
      cases joined

end Fleet
end ChatRelay
