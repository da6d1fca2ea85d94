import ChatRelay.Proofs.Fleet.Agreement
import ChatRelay.Scenario.Run

/-! The poll of a scenario. A poll that tells a watch is made of moves of a fleet, with those of other steps
between, and ends where a poll returns; so the views of ownership agree when it does. -/
namespace ChatRelay.Fleet

open Scenario (Action Interlude Polled Step World)

variable {fleet : Fleet} {member place : Nat} {consumer : Consumer} {world : World} {interlude : Interlude}

/-- A world shows what a fleet has: the relay, a member's consumer, and its listener as one of the watches. -/
structure Shown (fleet : Fleet) (member place : Nat) (consumer : Consumer) (world : World) : Prop where
  relay : world.relay = fleet.relay
  worker : ∃ batch, fleet.workers[member]? = some { consumer, batch }
  listener : ∃ watch, world.watches[place]? = some watch ∧
    fleet.listeners[member]? = some { loop := watch.loop, ownership := watch.ownership }

/-- No topic is asked for with more partitions than there are indices. -/
def Bounded (moves : List Move) : Prop :=
  ∀ topic partitions, .act (.createTopic topic partitions) ∈ moves → partitions ≤ 0x7fffffff

theorem Bounded.append {moves more : List Move} (first : Bounded moves) (further : Bounded more) :
    Bounded (moves ++ more) := fun topic partitions asked =>
  (List.mem_append.mp asked).elim (first topic partitions) (further topic partitions)

/-- Whatever the steps of a script do between, others of the fleet could do. -/
def Scripted (interlude : Interlude) (member place : Nat) (script : List Step) : Prop :=
  ∀ fleet consumer world, Shown fleet member place consumer world →
    ∃ moves, Bounded moves ∧ Shown (fleet.run moves) member place consumer (interlude script world)

namespace Shown

variable (shown : Shown fleet member place consumer world)
include shown

theorem free : fleet.busy member = false := by
  obtain ⟨watch, _, listening⟩ := shown.listener
  simp [busy, listening]

theorem returns (current : consumer.synchronise world.relay.broker = none) :
    ∃ worker, fleet.Returns member worker ∧ worker.consumer = consumer := by
  obtain ⟨batch, found⟩ := shown.worker
  rw [shown.relay] at current
  exact ⟨_, ⟨found, shown.free, current⟩, rfl⟩

theorem fetch (current : consumer.synchronise world.relay.broker = none) (onChange : List (List Step)) :
    Shown (fleet.step (.act (.operate member .fetch))) member place
      (world.fetch consumer onChange).consumer (world.fetch consumer onChange).world := by
  obtain ⟨batch, found⟩ := shown.worker
  obtain ⟨watch, watched, listening⟩ := shown.listener
  have relay := shown.relay
  rw [relay] at current
  let fetched := consumer.fetch fleet.relay.broker.topics
  have stepped : fleet.step (.act (.operate member .fetch)) =
      { fleet with workers := fleet.workers.insert member ⟨fetched.2, fetched.1⟩ } := by
    simp [step, Cluster.Move.member?, shown.free, act, cluster, Cluster.step, found, Worker.perform, current,
      fetched]
  rw [stepped]
  refine ⟨relay, ⟨fetched.1, ?_⟩, watch, watched, listening⟩
  simp [World.fetch, relay, fetched]

theorem tell {change : AssignmentChange} {caught : Consumer}
    (synced : consumer.synchronise world.relay.broker = some (change, caught)) :
    Shown (fleet.run [.act (.operate member .synchronise), .tell member]) member place caught
      (world.tell caught.id (some place) change) := by
  obtain ⟨batch, found⟩ := shown.worker
  obtain ⟨watch, watched, listening⟩ := shown.listener
  have relay := shown.relay
  rw [relay] at synced
  have caughtUp : fleet.step (.act (.operate member .synchronise)) =
      { fleet with
        workers := fleet.workers.insert member ⟨caught, []⟩
        listeners := fleet.listeners.modify member fun listener =>
          { listener with untold := some change } } := by
    simp [step, Cluster.Move.member?, shown.free, act, cluster, Cluster.step, found, Worker.perform, synced,
      change?]
  rcases reassigned : fleet.relay.reassign watch.loop watch.ownership change with ⟨ownership, changed⟩
  have told : fleet.run [.act (.operate member .synchronise), .tell member] =
      { relay := changed
        workers := fleet.workers.insert member ⟨caught, []⟩
        listeners := (fleet.listeners.modify member fun listener =>
          { listener with untold := some change }).insert member { loop := watch.loop, ownership } } := by
    refine (congrArg (step · (.tell member)) caughtUp).trans ?_
    simp [step, onListener, listening, Listener.tell, reassigned]
  have inside : place < world.watches.length := (List.getElem?_eq_some_iff.mp watched).1
  rw [told]
  refine ⟨?_, ⟨[], by simp⟩, { watch with ownership }, ?_, by simp⟩
  · simp [World.tell, World.emit, World.reassign, watched, relay, reassigned]
  · simp only [World.tell, World.emit, World.reassign, watched, relay, reassigned]
    rw [List.getElem?_set_self inside]

/-- Once it has caught up and told, a poll looks at the group again. -/
theorem current_tell {change : AssignmentChange} {caught : Consumer}
    (synced : consumer.synchronise world.relay.broker = some (change, caught)) :
    caught.synchronise (world.tell caught.id (some place) change).relay.broker = none := by
  obtain ⟨watch, watched, _⟩ := shown.listener
  simpa [World.tell, World.emit, World.reassign, watched, Relay.broker_reassign] using
    Consumer.synchronise_again synced

end Shown

/-- Moves of a fleet bring a member to where its poll returns, with the same records, and the world shows the
fleet again when the poll has returned. -/
def Leads (fleet : Fleet) (member place : Nat) (polled : Polled) : Prop :=
  ∃ moves worker, Bounded moves ∧ (fleet.run moves).Returns member worker ∧
    polled.records = (worker.consumer.fetch (fleet.run moves).relay.broker.topics).1 ∧
    Shown ((fleet.run moves).step (.act (.operate member .fetch))) member place polled.consumer polled.world

theorem Shown.leads (shown : Shown fleet member place consumer world)
    (current : consumer.synchronise world.relay.broker = none) (onChange : List (List Step)) :
    fleet.Leads member place (world.fetch consumer onChange) := by
  obtain ⟨worker, returns, rfl⟩ := shown.returns current
  refine ⟨[], worker, (fun _ _ asked => by cases asked), returns, ?_, shown.fetch current onChange⟩
  have relay : world.relay = (fleet.run []).relay := shown.relay
  rw [← relay]
  rfl

theorem Leads.after {polled : Polled} {moves : List Move} (bounded : Bounded moves)
    (leads : (fleet.run moves).Leads member place polled) : fleet.Leads member place polled := by
  obtain ⟨more, worker, further, returns, records, shown⟩ := leads
  have joined : (fleet.run moves).run more = fleet.run (moves ++ more) := by simp [run]
  rw [joined] at returns records shown
  exact ⟨_, worker, bounded.append further, returns, records, shown⟩

section PollListening

variable (onChange : List (List Step))
variable (scripted : ∀ script ∈ onChange, Scripted interlude member place script)
include scripted

/-- A poll that tells a watch comes, by moves of the fleet, to where a poll of the member returns. -/
theorem pollListening_leads (shown : Shown fleet member place consumer world) :
    fleet.Leads member place (World.pollListening interlude (some place) onChange consumer world) := by
  have noTopic : Bounded [.act (.operate member .synchronise), .tell member] := by
    intro topic partitions asked
    simp at asked
  induction onChange generalizing fleet consumer world with
  | nil =>
    unfold World.pollListening
    split
    · rename_i current
      exact shown.leads current []
    · rename_i synced
      exact ((shown.tell synced).leads (shown.current_tell synced) []).after noTopic
  | cons script onChange ih =>
    unfold World.pollListening
    split
    · rename_i current
      exact shown.leads current _
    · rename_i synced
      -- the script may give the group another generation, so that the poll goes round again
      obtain ⟨others, bounded, between⟩ := scripted script List.mem_cons_self _ _ _ (shown.tell synced)
      exact ((ih (fun later among => scripted later (.tail _ among)) between).after bounded).after noTopic

/-- When a poll that tells a watch has returned, what it read, what the consumer holds, what the watch owns
and what is known are what the group assigns to the member, whatever the scripts did meanwhile. -/
theorem pollListening_agrees {moves : List Move} (bounded : Bounded moves)
    (shown : Shown (after moves) member place consumer world) :
    let polled := World.pollListening interlude (some place) onChange consumer world
    let assigned := polled.world.relay.broker.assigns polled.consumer.group member
    ∃ watch, polled.world.watches[place]? = some watch ∧
      (∀ record ∈ polled.records, assigned record.partition) ∧
      (∀ partition, partition ∈ polled.consumer.assignment ↔ assigned partition) ∧
      (∀ partition, partition ∈ watch.ownership.owned ↔ assigned partition) ∧
      ∀ partition ∈ watch.ownership.owned,
        polled.world.relay.table.get? partition.topic partition.index = some partition := by
  intro polled assigned
  obtain ⟨more, worker, further, returns, records, shows⟩ := pollListening_leads onChange scripted shown
  rw [← after_append] at returns records shows
  obtain ⟨found, relay, listeners⟩ := returns.step
  rw [← after_concat] at shows
  obtain ⟨watch, watched, listening⟩ := shows.listener
  obtain ⟨batch, there⟩ := shows.worker
  have agrees := returns.agrees (bounded.append further) (listeners ▸ listening)
  have fetched : (worker.perform (after (moves ++ more)).relay.broker .fetch).1 =
      ⟨polled.consumer, polled.records⟩ := by
    rw [found, Option.some.injEq] at there
    simp only [Worker.perform, returns.current, Worker.mk.injEq] at there ⊢
    exact ⟨there.1, records.symm⟩
  rw [fetched] at agrees
  obtain ⟨read, held, owned, known⟩ := agrees
  rw [← shows.relay] at read held owned known
  exact ⟨watch, watched, read, held, owned, known⟩

end PollListening

section Topics

/-- Actions on topics alone, as moves of the consumers' broker. -/
def onTopics? : Action → Option Cluster.Move
  | .createTopic topic partitions => some (.createTopic topic partitions)
  | .failPublishes count => some (.failPublishes count)
  | .append partition data => some (.append partition data)
  | _ => none

theorem Shown.act {action : Action} {move : Cluster.Move} (shown : Shown fleet member place consumer world)
    (onTopics : onTopics? action = some move) :
    Shown (fleet.step (.act move)) member place consumer (world.act action).2 := by
  obtain ⟨relay, worker, listener⟩ := shown
  unfold onTopics? at onTopics
  split at onTopics <;> cases onTopics <;>
    refine ⟨?_, worker, listener⟩ <;>
    simp [World.act, World.actOnBroker, relay, step, Cluster.Move.member?, Fleet.act, Cluster.step, cluster]

def steps (depth : Nat) : Interlude := fun script world => script.foldl (fun world step =>
  let (answer, world) := Step.run depth step world
  world.emit (.step step answer)) world

/-- The script does nothing but create topics and append, and asks for no more partitions than there are
indices. -/
def OnTopics (script : List Step) : Prop :=
  ∀ step ∈ script, ∃ action move, step = .act action ∧ onTopics? action = some move ∧ Bounded [.act move]

theorem scripted_of_onTopics {script : List Step} (depth : Nat) (onTopics : OnTopics script) :
    Scripted (steps (depth + 1)) member place script := by
  intro fleet consumer world shown
  induction script generalizing fleet world with
  | nil => exact ⟨[], (fun _ _ asked => by cases asked), shown⟩
  | cons step script ih =>
    obtain ⟨action, move, rfl, changes, bounded⟩ := onTopics step List.mem_cons_self
    have acted := shown.act changes
    obtain ⟨moves, further, reached⟩ := ih (fun later among => onTopics later (.tail _ among)) _
      ((world.act action).2.emit (.step (.act action) (world.act action).1))
      ⟨acted.relay, acted.worker, acted.listener⟩
    exact ⟨.act move :: moves, bounded.append further, reached⟩

theorem readers_steps {script : List Step} (depth : Nat) (onTopics : OnTopics script) (world : World) :
    (steps (depth + 1) script world).readers = world.readers := by
  induction script generalizing world with
  | nil => rfl
  | cons step script ih =>
    obtain ⟨action, move, rfl, changes, -⟩ := onTopics step List.mem_cons_self
    have acted : (world.act action).2.readers = world.readers := by
      unfold onTopics? at changes
      split at changes <;> cases changes <;> rfl
    refine (ih (fun later among => onTopics later (.tail _ among)) _).trans ?_
    exact acted

theorem readers_tell (world : World) (id : String) (watch : Option Nat) (change : AssignmentChange) :
    (world.tell id watch change).readers = world.readers := by
  unfold World.tell World.reassign
  split
  · dsimp only
    split <;> rfl
  · rfl

/-- A poll changes nobody's consumer but the one that polls, and that keeps its name. -/
theorem readers_pollListening (interlude : Interlude) (watch : Option Nat) {onChange : List (List Step)}
    (keeps : ∀ script ∈ onChange, ∀ world, (interlude script world).readers = world.readers)
    (consumer : Consumer) (world : World) :
    (World.pollListening interlude watch onChange consumer world).world.readers = world.readers ∧
      (World.pollListening interlude watch onChange consumer world).consumer.id = consumer.id := by
  induction onChange generalizing consumer world with
  | nil =>
    unfold World.pollListening
    split
    · exact ⟨rfl, rfl⟩
    · rename_i synced
      obtain ⟨_, _, _, _, rfl⟩ := Consumer.synchronise_eq_some synced
      exact ⟨readers_tell .., rfl⟩
  | cons script onChange ih =>
    unfold World.pollListening
    split
    · exact ⟨rfl, rfl⟩
    · rename_i synced
      obtain ⟨_, _, _, _, rfl⟩ := Consumer.synchronise_eq_some synced
      obtain ⟨readers, id⟩ := ih (fun later among => keeps later (.tail _ among)) _ _
      exact ⟨readers.trans ((keeps script List.mem_cons_self _).trans (readers_tell ..)), id⟩

/-- When the poll of a scenario has returned, its records are of partitions that the group assigns to the
member, which are those that the consumer holds and its watch owns, and all of them are known. -/
theorem poll_agrees {moves : List Move} {name : String} {reader : Scenario.Reader} (depth : Nat)
    (bounded : Bounded moves) (shown : Shown (after moves) member place reader.consumer world)
    (found : world.readers[name]? = some reader) (named : reader.consumer.id = name)
    (listens : reader.listens = true) (watched : reader.watch = some place)
    (onTopics : ∀ script ∈ reader.onChange, OnTopics script) :
    ∃ records later consumer onChange watch,
      Step.run (depth + 2) (.poll name) world = (.records records, later) ∧
      later.readers[name]? = some { reader with consumer, onChange } ∧
      later.watches[place]? = some watch ∧
      let assigned := later.relay.broker.assigns consumer.group member
      (∀ record ∈ records, assigned record.partition) ∧
      (∀ partition, partition ∈ consumer.assignment ↔ assigned partition) ∧
      (∀ partition, partition ∈ watch.ownership.owned ↔ assigned partition) ∧
      ∀ partition ∈ watch.ownership.owned,
        later.relay.table.get? partition.topic partition.index = some partition := by
  let away := { world with readers := world.readers.erase name }
  have without : Shown (after moves) member place reader.consumer away :=
    ⟨shown.relay, shown.worker, shown.listener⟩
  obtain ⟨watch, there, agrees⟩ := pollListening_agrees reader.onChange
    (fun script among => scripted_of_onTopics depth (onTopics script among)) bounded without
  obtain ⟨readers, id⟩ := readers_pollListening (steps (depth + 1)) (some place)
    (fun script among => readers_steps depth (onTopics script among)) reader.consumer away
  have enrolled : reader.consumer.member = some member := by
    obtain ⟨batch, worker⟩ := shown.worker
    obtain ⟨acts, reached, -⟩ := reached_after moves
    have worker : (Cluster.after acts).workers[member]? = some ⟨reader.consumer, batch⟩ := reached ▸ worker
    exact (Cluster.sound_after acts member _ worker).1
  let done := World.pollListening (steps (depth + 1)) (some place) reader.onChange reader.consumer away
  let again : Scenario.Reader := { reader with consumer := done.consumer, onChange := done.onChange }
  let polled := { done.world with polled := done.world.polled.insert name done.records }
  -- nobody took the name while the consumer was away, so that nobody leaves a group now
  have put : polled.addReader again = { polled with readers := polled.readers.insert name again } := by
    have same : again.consumer.id = name := id.trans named
    have free : polled.readers[name]? = none := by
      rw [show polled.readers = away.readers from readers]
      exact Std.ExtTreeMap.getElem?_erase_self
    unfold World.addReader
    rw [same]
    dsimp only
    rw [free]
  refine ⟨done.records, { polled with readers := polled.readers.insert name again }, done.consumer,
    done.onChange, watch, ?_, Std.ExtTreeMap.getElem?_insert_self, there, agrees⟩
  have answered : world.poll (steps (depth + 1)) name = (.records done.records, polled.addReader again) := by
    simp [World.poll, World.onReader, found, enrolled, listens, watched, again, polled, done, away]
  exact answered.trans (by rw [put])

end Topics

end ChatRelay.Fleet
