import ChatRelay.Proofs.Cluster.Tracking
import ChatRelay.Proofs.Ownership

/-! Consumers with listeners. A poll that catches up with a new generation tells the listener of its consumer
before it looks again; whatever others do may come between, but the consumer itself does nothing else until
its listener was told. -/
namespace ChatRelay

/-- The listener of a member: its ownership, the loop on whose health that acts, and the change of which it
has yet to be told. -/
structure Listener where
  loop : Nat
  ownership : Ownership
  untold : Option AssignmentChange := none

namespace Listener

def tell (listener : Listener) (relay : Relay) : Listener × Relay :=
  match listener.untold with
  | none => (listener, relay)
  | some change =>
    let (ownership, relay) := relay.reassign listener.loop listener.ownership change
    ({ listener with ownership, untold := none }, relay)

def pollCompleted (listener : Listener) (relay : Relay) : Listener × Relay :=
  let (ownership, relay) :=
    relay.withHealth listener.loop listener.ownership.pollCompleted listener.ownership
  ({ listener with ownership }, relay)

variable (listener : Listener) (relay : Relay)

theorem loop_tell : (listener.tell relay).1.loop = listener.loop := by
  unfold tell
  split <;> rfl

theorem consumer_tell : (listener.tell relay).1.ownership.consumer = listener.ownership.consumer := by
  unfold tell
  split
  · rfl
  · exact relay.consumer_reassign ..

theorem pollCompleted_fst :
    (listener.pollCompleted relay).1 =
      { listener with ownership := { listener.ownership with
          changedThisPoll := (listener.pollCompleted relay).1.ownership.changedThisPoll } } := by
  unfold pollCompleted Relay.withHealth
  cases relay.health.loops[listener.loop]? with
  | none => rfl
  | some health =>
    exact congrArg (fun ownership => { listener with ownership })
      (listener.ownership.pollCompleted_fst health)

end Listener

def Cluster.Move.member? : Cluster.Move → Option Nat
  | .operate member _ | .leave member => some member
  | _ => none

/-- Consumers by their numbers, and the listeners of those that have one. A listener outlasts its consumer.
The poll of a scenario makes moves of a fleet, `pollListening_leads`, and comes to `poll_agrees`. -/
structure Fleet where
  relay : Relay := {}
  workers : Std.ExtTreeMap Nat Worker := ∅
  listeners : Std.ExtTreeMap Nat Listener := ∅

namespace Fleet

inductive Move where
  /-- What consumers and others do on the broker. -/
  | act (move : Cluster.Move)
  /-- A consumer that has not polled yet is given a new listener. -/
  | listen (member loop : Nat)
  /-- The listener of a consumer is told of the change that is pending. -/
  | tell (member : Nat)
  | pollCompleted (member : Nat)
  /-- An ownership that listens to none of these consumers is told of a change. -/
  | tellOther (loop : Nat) (ownership : Ownership) (change : AssignmentChange)
  | register (loop : String)
  | ensure (topic : String) (count : UInt32)

/-- The consumers alone. -/
def cluster (fleet : Fleet) : Cluster := ⟨fleet.relay.broker, fleet.workers⟩

/-- A consumer is in the middle of a poll while its listener is to be told. -/
def busy (fleet : Fleet) (member : Nat) : Bool :=
  (fleet.listeners[member]?.bind (·.untold)).isSome

/-- The change that a member would catch up with. -/
def change? (fleet : Fleet) (member : Nat) : Option AssignmentChange :=
  (fleet.workers[member]?.bind fun worker => worker.consumer.synchronise fleet.relay.broker).map (·.1)

def act (fleet : Fleet) (move : Cluster.Move) : Fleet :=
  let cluster := fleet.cluster.step move
  { relay := { fleet.relay with broker := cluster.broker }
    workers := cluster.workers
    listeners := match move with
      | .operate member .synchronise => fleet.listeners.modify member fun listener =>
          { listener with untold := fleet.change? member }
      | _ => fleet.listeners }

def onListener (fleet : Fleet) (member : Nat) (act : Listener → Relay → Listener × Relay) : Fleet :=
  match fleet.listeners[member]? with
  | none => fleet
  | some listener =>
    let (listener, relay) := act listener fleet.relay
    { fleet with relay, listeners := fleet.listeners.insert member listener }

def listen (fleet : Fleet) (member loop : Nat) : Fleet :=
  match fleet.workers[member]? with
  | none => fleet
  | some worker =>
    if worker.consumer.generation = 0 ∧ member ∉ fleet.listeners ∧
        loop < fleet.relay.health.loops.length then
      let (ownership, relay) := fleet.relay.withHealth loop (Ownership.watch worker.consumer.id)
        { consumer := worker.consumer.id }
      { fleet with relay, listeners := fleet.listeners.insert member { loop, ownership } }
    else fleet

def step (fleet : Fleet) : Move → Fleet
  | .act move => if move.member?.any fleet.busy then fleet else fleet.act move
  | .listen member loop => fleet.listen member loop
  | .tell member => fleet.onListener member Listener.tell
  | .pollCompleted member => fleet.onListener member Listener.pollCompleted
  | .tellOther loop ownership change =>
    { fleet with relay := (fleet.relay.reassign loop ownership change).2 }
  | .register loop =>
    { fleet with relay := { fleet.relay with health := (fleet.relay.health.register loop).2 } }
  | .ensure topic count =>
    { fleet with relay := { fleet.relay with table := (fleet.relay.table.ensure topic count).2 } }

def run (fleet : Fleet) (moves : List Move) : Fleet := moves.foldl step fleet

def after (moves : List Move) : Fleet := run {} moves

variable {fleet : Fleet} {move : Move} {moves more : List Move} {member : Nat}
variable {worker : Worker} {listener : Listener}

theorem after_append (moves more : List Move) : after (moves ++ more) = (after moves).run more := by
  simp [after, run]

@[simp] theorem after_concat (moves : List Move) (move : Move) :
    after (moves ++ [move]) = (after moves).step move := by
  simp [after, run]

/-- The consumers do a move of their own, or nothing happens to them. -/
theorem cluster_step (fleet : Fleet) (move : Move) :
    (fleet.step move).cluster = fleet.cluster ∨
      ∃ act, move = .act act ∧ act.member?.any fleet.busy = false ∧
        (fleet.step move).cluster = fleet.cluster.step act := by
  have onListener (member : Nat) (change : Listener → Relay → Listener × Relay)
      (same : ∀ listener relay, (change listener relay).2.broker = relay.broker) :
      (fleet.onListener member change).cluster = fleet.cluster := by
    unfold Fleet.onListener
    split
    · rfl
    · simp [cluster, same]
  cases move with
  | act act =>
    simp only [step]
    split
    · exact .inl rfl
    · rename_i free
      exact .inr ⟨act, rfl, by simpa using free, rfl⟩
  | listen member loop =>
    refine .inl ?_
    simp only [step, listen]
    split
    · rfl
    · split
      · simp [cluster, Relay.broker_withHealth]
      · rfl
  | tell member =>
    refine .inl (onListener member Listener.tell fun listener relay => ?_)
    unfold Listener.tell
    split
    · rfl
    · exact relay.broker_reassign ..
  | pollCompleted member =>
    exact .inl (onListener member Listener.pollCompleted fun listener relay => relay.broker_withHealth ..)
  | tellOther loop ownership change =>
    exact .inl (by simp [step, cluster, Relay.broker_reassign])
  | register loop => exact .inl rfl
  | ensure topic count => exact .inl rfl

/-- What a fleet does to its consumers is what they could do alone. -/
theorem cluster_run (fleet : Fleet) (moves : List Move) :
    ∃ acts : List Cluster.Move, (fleet.run moves).cluster = fleet.cluster.run acts ∧
      ∀ act ∈ acts, .act act ∈ moves := by
  induction moves generalizing fleet with
  | nil => exact ⟨[], rfl, fun _ member => by cases member⟩
  | cons move moves ih =>
    obtain ⟨acts, reached, among⟩ := ih (fleet.step move)
    rcases fleet.cluster_step move with same | ⟨act, rfl, _, acted⟩
    · exact ⟨acts, by rw [run, List.foldl_cons, ← run, reached, same],
        fun act member => .tail _ (among act member)⟩
    · refine ⟨act :: acts, by rw [run, List.foldl_cons, ← run, reached, acted]; rfl, ?_⟩
      intro other member
      rcases List.mem_cons.mp member with rfl | member
      · exact List.mem_cons_self
      · exact .tail _ (among other member)

theorem grows_step (fleet : Fleet) (move : Move) : fleet.relay.Grows (fleet.step move).relay := by
  have onListener (member : Nat) (change : Listener → Relay → Listener × Relay)
      (grows : ∀ listener (relay : Relay), relay.Grows (change listener relay).2) :
      fleet.relay.Grows (fleet.onListener member change).relay := by
    unfold Fleet.onListener
    split
    · exact .refl _
    · exact grows ..
  cases move with
  | act act =>
    simp only [step]
    split
    · exact .refl _
    · exact ⟨Nat.le_refl _, id, fun _ _ _ => id⟩
  | listen member loop =>
    simp only [step, listen]
    split
    · exact .refl _
    · split
      · exact Relay.grows_withHealth ..
      · exact .refl _
  | tell member =>
    refine onListener member Listener.tell fun listener relay => ?_
    unfold Listener.tell
    split
    · exact .refl _
    · exact relay.grows_reassign ..
  | pollCompleted member =>
    exact onListener member Listener.pollCompleted fun listener relay => relay.grows_withHealth ..
  | tellOther loop ownership change => exact fleet.relay.grows_reassign ..
  | register loop =>
    refine ⟨?_, id, fun _ _ _ => id⟩
    simp [step, HealthRegistry.register]
  | ensure topic count =>
    exact ⟨Nat.le_refl _, fun inOrder => inOrder.ensure topic count,
      fun _ _ _ known => PartitionTable.get?_ensure known topic count⟩

theorem worker_step (found : (fleet.step move).workers[member]? = some worker) :
    fleet.workers[member]? = some worker ∨
    (∃ operation before, move = .act (.operate member operation) ∧ fleet.busy member = false ∧
      fleet.workers[member]? = some before ∧
      worker = (before.perform fleet.relay.broker operation).1) ∨
    member = fleet.relay.broker.lastMember + 1 := by
  have found : (fleet.step move).cluster.workers[member]? = some worker := found
  rcases fleet.cluster_step move with same | ⟨act, rfl, free, acted⟩
  · exact .inl (by rwa [same] at found)
  · rw [acted] at found
    rcases Cluster.worker_step found with
        was | ⟨operation, before, rfl, was, performed⟩ | ⟨_, _, _, _, _, fresh, _⟩
    · exact .inl was
    · exact .inr (.inl ⟨operation, before, rfl, by simpa [Cluster.Move.member?] using free, was, performed⟩)
    · exact .inr (.inr fresh)

theorem listener?_onListener (fleet : Fleet) (other : Nat) (act : Listener → Relay → Listener × Relay)
    (member : Nat) :
    (fleet.onListener other act).listeners[member]? =
      if other = member then fleet.listeners[member]?.map fun listener => (act listener fleet.relay).1
      else fleet.listeners[member]? := by
  unfold onListener
  by_cases same : other = member
  · subst same
    cases found : fleet.listeners[other]? <;> simp [found]
  · split <;> simp [Std.ExtTreeMap.getElem?_insert, same]

theorem listener?_act_synchronise (fleet : Fleet) (member : Nat) :
    (fleet.act (.operate member .synchronise)).listeners[member]? =
      fleet.listeners[member]?.map fun listener => { listener with untold := fleet.change? member } := by
  simp [act]

theorem listener?_act {act : Cluster.Move} (other : act ≠ .operate member .synchronise) :
    (fleet.act act).listeners[member]? = fleet.listeners[member]? := by
  unfold Fleet.act
  split
  · rename_i caught
    have different : caught ≠ member := fun same => other (same ▸ rfl)
    simp [Std.ExtTreeMap.getElem?_modify, different]
  · rfl

/-- Where the listeners after a move come from. -/
theorem listener_step (found : (fleet.step move).listeners[member]? = some listener) :
    (fleet.listeners[member]? = some listener ∧ move ≠ .tell member ∧
      (move = .act (.operate member .synchronise) → fleet.busy member)) ∨
    (∃ before, fleet.listeners[member]? = some before ∧
      (move = .act (.operate member .synchronise) ∧ before.untold = none ∧
          listener = { before with untold := fleet.change? member } ∨
        move = .tell member ∧ listener = (before.tell fleet.relay).1 ∨
        move = .pollCompleted member ∧ listener = (before.pollCompleted fleet.relay).1)) ∨
    ∃ loop worker, move = .listen member loop ∧ loop < fleet.relay.health.loops.length ∧
      fleet.workers[member]? = some worker ∧ worker.consumer.generation = 0 ∧
      listener = { loop, ownership := { consumer := worker.consumer.id } } := by
  cases move with
  | act act =>
    simp only [step] at found
    split at found
    · rename_i blocked
      refine .inl ⟨found, (by rintro ⟨⟩), fun same => ?_⟩
      cases same
      simpa [Cluster.Move.member?] using blocked
    · rename_i free
      by_cases caught : act = .operate member .synchronise
      · subst caught
        rw [listener?_act_synchronise, Option.map_eq_some_iff] at found
        obtain ⟨before, was, rfl⟩ := found
        have told : before.untold = none := by simpa [Cluster.Move.member?, busy, was] using free
        exact .inr (.inl ⟨before, was, .inl ⟨rfl, told, rfl⟩⟩)
      · rw [listener?_act caught] at found
        exact .inl ⟨found, (by rintro ⟨⟩), fun same => absurd (Move.act.inj same) caught⟩
  | listen other loop =>
    simp only [step, listen] at found
    split at found
    · exact .inl ⟨found, (by rintro ⟨⟩), (by rintro ⟨⟩)⟩
    · rename_i worker present
      split at found
      · rename_i may
        rw [Std.ExtTreeMap.getElem?_insert] at found
        split at found
        · rename_i here
          have here := Std.LawfulEqCmp.eq_of_compare here
          subst here
          obtain ⟨_, watched⟩ := fleet.relay.withHealth_fst loop (Ownership.watch worker.consumer.id)
            { consumer := worker.consumer.id } may.2.2
          simp only [watched, Option.some.injEq] at found
          exact .inr (.inr ⟨loop, worker, rfl, may.2.2, present, may.1, found.symm⟩)
        · exact .inl ⟨found, (by rintro ⟨⟩), (by rintro ⟨⟩)⟩
      · exact .inl ⟨found, (by rintro ⟨⟩), (by rintro ⟨⟩)⟩
  | tell other =>
    rw [step, listener?_onListener] at found
    split at found
    · rename_i here
      obtain ⟨before, was, rfl⟩ := Option.map_eq_some_iff.mp found
      exact .inr (.inl ⟨before, was, .inr (.inl ⟨here ▸ rfl, rfl⟩)⟩)
    · rename_i elsewhere
      exact .inl ⟨found, fun same => elsewhere (Move.tell.inj same), (by rintro ⟨⟩)⟩
  | pollCompleted other =>
    rw [step, listener?_onListener] at found
    split at found
    · rename_i here
      obtain ⟨before, was, rfl⟩ := Option.map_eq_some_iff.mp found
      exact .inr (.inl ⟨before, was, .inr (.inr ⟨here ▸ rfl, rfl⟩)⟩)
    · exact .inl ⟨found, (by rintro ⟨⟩), (by rintro ⟨⟩)⟩
  | tellOther loop ownership change => exact .inl ⟨found, (by rintro ⟨⟩), (by rintro ⟨⟩)⟩
  | register loop => exact .inl ⟨found, (by rintro ⟨⟩), (by rintro ⟨⟩)⟩
  | ensure topic count => exact .inl ⟨found, (by rintro ⟨⟩), (by rintro ⟨⟩)⟩

theorem listener_kept (found : fleet.listeners[member]? = some listener) (move : Move) :
    ∃ later, (fleet.step move).listeners[member]? = some later ∧
      later.ownership.consumer = listener.ownership.consumer := by
  have onListener (other : Nat) (act : Listener → Relay → Listener × Relay)
      (same : ∀ listener relay, (act listener relay).1.ownership.consumer = listener.ownership.consumer) :
      ∃ later, (fleet.onListener other act).listeners[member]? = some later ∧
        later.ownership.consumer = listener.ownership.consumer := by
    rw [listener?_onListener, found]
    split
    · exact ⟨_, rfl, same ..⟩
    · exact ⟨listener, rfl, rfl⟩
  cases move with
  | act act =>
    simp only [step]
    split
    · exact ⟨listener, found, rfl⟩
    · by_cases caught : act = .operate member .synchronise
      · subst caught
        rw [listener?_act_synchronise, found]
        exact ⟨_, rfl, rfl⟩
      · rw [listener?_act caught]
        exact ⟨listener, found, rfl⟩
  | listen other loop =>
    simp only [step, listen]
    split
    · exact ⟨listener, found, rfl⟩
    · split
      · rename_i may
        have elsewhere : other ≠ member := by
          rintro rfl
          exact may.2.1 (Std.ExtTreeMap.mem_iff_isSome_getElem?.mpr (by simp [found]))
        exact ⟨listener, by simp [Std.ExtTreeMap.getElem?_insert, elsewhere, found], rfl⟩
      · exact ⟨listener, found, rfl⟩
  | tell other => exact onListener other Listener.tell Listener.consumer_tell
  | pollCompleted other =>
    exact onListener other Listener.pollCompleted fun listener relay => by rw [listener.pollCompleted_fst]
  | tellOther loop ownership change => exact ⟨listener, found, rfl⟩
  | register loop => exact ⟨listener, found, rfl⟩
  | ensure topic count => exact ⟨listener, found, rfl⟩

/-- The gauges change only when a listener or another ownership heeds a change. -/
theorem ownedPartitions_step (fleet : Fleet) (move : Move) :
    (fleet.step move).relay.metrics.ownedPartitions = fleet.relay.metrics.ownedPartitions ∨
    ∃ ownership change,
      ((∃ member listener, move = .tell member ∧ fleet.listeners[member]? = some listener ∧
          listener.ownership = ownership ∧ listener.untold = some change) ∨
        ∃ loop, move = .tellOther loop ownership change) ∧
      ownership.heeds change ∧
      (fleet.step move).relay.metrics.ownedPartitions =
        fleet.relay.metrics.ownedPartitions.set [ownership.consumer]
          (Ownership.transfer ownership.owned change).size := by
  have reassigned (loop : Nat) (ownership : Ownership) (change : AssignmentChange) :
      (fleet.relay.reassign loop ownership change).2.metrics.ownedPartitions =
          fleet.relay.metrics.ownedPartitions ∨
        ownership.heeds change ∧
          (fleet.relay.reassign loop ownership change).2.metrics.ownedPartitions =
            fleet.relay.metrics.ownedPartitions.set [ownership.consumer]
              (Ownership.transfer ownership.owned change).size := by
    rw [Relay.ownedPartitions_reassign]
    split
    · rename_i heeded
      exact .inr ⟨heeded, rfl⟩
    · exact .inl rfl
  cases move with
  | act act =>
    simp only [step]
    split <;> exact .inl rfl
  | listen member loop =>
    simp only [step, listen]
    split
    · exact .inl rfl
    · split
      · exact .inl (by simp [Relay.metrics_withHealth])
      · exact .inl rfl
  | tell member =>
    simp only [step, onListener]
    cases found : fleet.listeners[member]? with
    | none => exact .inl rfl
    | some listener =>
      obtain ⟨loop, ownership, untold⟩ := listener
      cases untold with
      | none => exact .inl rfl
      | some change =>
        rcases reassigned loop ownership change with same | ⟨heeded, changed⟩
        · exact .inl same
        · exact .inr ⟨ownership, change, .inl ⟨member, _, rfl, found, rfl, rfl⟩, heeded, changed⟩
  | pollCompleted member =>
    simp only [step, onListener]
    split
    · exact .inl rfl
    · exact .inl (by simp [Listener.pollCompleted, Relay.metrics_withHealth])
  | tellOther loop ownership change =>
    rcases reassigned loop ownership change with same | ⟨heeded, changed⟩
    · exact .inl same
    · exact .inr ⟨ownership, change, .inr ⟨loop, rfl⟩, heeded, changed⟩
  | register loop => exact .inl rfl
  | ensure topic count => exact .inl rfl

end Fleet
end ChatRelay
