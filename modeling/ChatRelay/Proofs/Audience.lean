import Mathlib.Data.List.Induction
import ChatRelay.Proofs.Consumer.Offsets
import ChatRelay.Proofs.Ownership
import ChatRelay.Scenario.Run

/-! What the consumers of a broker get to see. Consumers are made, take part in their groups, are answered and
are dropped, in any order; what a listener lets others do comes between the stretches of a poll. -/
namespace ChatRelay

namespace Consumer

structure Options where
  id : String
  group : String
  maxRecords : Nat

def Options.consumer (options : Options) : Consumer :=
  .create options.id options.group options.maxRecords

/-- Catches up with the group. The change is what a listener is told. -/
def catchUp (consumer : Consumer) (broker : Broker) : Option AssignmentChange × Consumer :=
  match consumer.synchronise broker with
  | none => (none, consumer)
  | some (change, consumer) => (some change, consumer)

/-- A poll, or what is left of one after its listener let others act. -/
def poll (consumer : Consumer) (broker : Broker) :
    Option AssignmentChange × Except Failure (List Record) × Consumer :=
  if consumer.member.isNone then (none, .error consumer.notSubscribed, consumer)
  else
    let (change, consumer) := consumer.catchUp broker
    let (records, consumer) := consumer.fetch broker.topics
    (change, .ok records, consumer)

theorem poll_eq {consumer : Consumer} (present : consumer.member.isSome) (broker : Broker) :
    consumer.poll broker = ((consumer.catchUp broker).1,
      .ok ((consumer.catchUp broker).2.fetch broker.topics).1,
      ((consumer.catchUp broker).2.fetch broker.topics).2) := by
  have member : consumer.member.isNone = false := by simpa using present
  simp [poll, member]

section Polls

open Scenario (Interlude Step World)

/-- Stretches of a poll, each of which catches up and then lets the listener's next script act. -/
inductive Stretches (interlude : Interlude) (watch : Option Nat) :
    List (List Step) → Consumer → World → Consumer → World → Prop where
  | none : Stretches interlude watch onChange consumer world consumer world
  | catchUp (caughtUp : consumer.catchUp world.relay.broker = (some change, caught))
      (later : Stretches interlude watch onChange caught
        (interlude script (world.tell caught.id watch change)) last after) :
      Stretches interlude watch (script :: onChange) consumer world last after

variable {consumer : Consumer} (world : World) (interlude : Interlude) (watch : Option Nat)

theorem broker_tell (world : World) (name : String) (watch : Option Nat) (change : AssignmentChange) :
    (world.tell name watch change).relay.broker = world.relay.broker := by
  unfold World.tell World.reassign
  split
  · dsimp only
    split
    · rfl
    · exact Relay.broker_reassign ..
  · rfl

/-- Without a listener this is how a scenario polls. -/
theorem poll_pollSilently (present : consumer.member.isSome) :
    (consumer.poll world.relay.broker).2 =
      (.ok (world.pollSilently consumer).records, (world.pollSilently consumer).consumer) := by
  rw [poll_eq present]
  simp only [catchUp, World.pollSilently]
  cases consumer.synchronise world.relay.broker <;> rfl

/-- A poll that nobody interrupts. -/
theorem pollListening_quiet (consumer : Consumer) (world : World) :
    let done := World.pollListening interlude watch [] consumer world
    (done.records, done.consumer) = (consumer.catchUp world.relay.broker).2.fetch world.relay.broker.topics ∧
      done.onChange = [] ∧ done.world.relay.broker = world.relay.broker := by
  unfold World.pollListening catchUp
  cases consumer.synchronise world.relay.broker with
  | none => exact ⟨rfl, rfl, rfl⟩
  | some caught =>
    have told : (world.tell caught.2.id watch caught.1).relay.broker = world.relay.broker :=
      broker_tell world caught.2.id watch caught.1
    dsimp only [World.fetch]
    rw [told]
    exact ⟨rfl, rfl, rfl⟩

/-- With a listener that lets nobody act it polls the same. -/
theorem poll_pollListening (present : consumer.member.isSome) :
    (consumer.poll world.relay.broker).2 =
      (.ok (World.pollListening interlude watch [] consumer world).records,
       (World.pollListening interlude watch [] consumer world).consumer) := by
  rw [poll_eq present, ← (pollListening_quiet interlude watch consumer world).1]

/-- Before its listener lets others act, a poll catches up. -/
theorem catchUp_pollListening (caughtUp : consumer.catchUp world.relay.broker = (some change, caught))
    (script : List Step) (onChange : List (List Step)) :
    World.pollListening interlude watch (script :: onChange) consumer world =
      World.pollListening interlude watch onChange caught
        (interlude script (world.tell caught.id watch change)) := by
  unfold catchUp at caughtUp
  split at caughtUp
  · cases caughtUp
  · rename_i synced
    cases caughtUp
    rw [World.pollListening, synced]

theorem pollListening_stretches (present : consumer.member.isSome) (onChange : List (List Step)) :
    ∃ last after, Stretches interlude watch onChange consumer world last after ∧
      (last.poll after.relay.broker).2 =
        (.ok (World.pollListening interlude watch onChange consumer world).records,
         (World.pollListening interlude watch onChange consumer world).consumer) := by
  induction onChange generalizing consumer world with
  | nil => exact ⟨consumer, world, .none, poll_pollListening world interlude watch present⟩
  | cons script onChange ih =>
    cases synced : consumer.synchronise world.relay.broker with
    | none =>
      refine ⟨consumer, world, .none, ?_⟩
      simp [poll_eq present, catchUp, World.pollListening, synced, World.fetch]
    | some caught =>
      obtain ⟨change, caught⟩ := caught
      have caughtUp : consumer.catchUp world.relay.broker = (some change, caught) := by simp [catchUp, synced]
      obtain ⟨_, _, _, _, same⟩ := synchronise_eq_some synced
      have still : caught.member.isSome := by rw [same]; exact present
      obtain ⟨last, after, later, polled⟩ := ih (interlude script (world.tell caught.id watch change)) still
      rw [catchUp_pollListening world interlude watch caughtUp]
      exact ⟨last, after, .catchUp caughtUp later, polled⟩

/-- The poll of a scenario is such stretches and then a poll, or a poll alone without a listener. -/
theorem poll_served {name : String} {reader : Scenario.Reader} (found : world.readers[name]? = some reader) :
    let away := { world with readers := world.readers.erase name }
    ∃ last after,
      (if reader.listens then
        Stretches interlude reader.watch reader.onChange reader.consumer away last after
      else last = reader.consumer ∧ after = away) ∧
      (world.poll interlude name).1 = match (last.poll after.relay.broker).2.1 with
        | .ok records => .records records
        | .error failure => .failed failure := by
  intro away
  cases present : reader.consumer.member with
  | none =>
    refine ⟨reader.consumer, away, ?_, ?_⟩
    · split
      · exact .none
      · exact ⟨rfl, rfl⟩
    · simp [World.poll, World.onReader, found, present, poll]
  | some id =>
    have present : reader.consumer.member.isSome := by simp [present]
    have enrolled : reader.consumer.member.isNone = false := by simpa using present
    split
    · rename_i listens
      obtain ⟨last, after, stretches, polled⟩ :=
        pollListening_stretches away interlude reader.watch present reader.onChange
      refine ⟨last, after, stretches, ?_⟩
      rw [polled]
      simp [World.poll, World.onReader, found, enrolled, listens, away]
    · rename_i silent
      refine ⟨reader.consumer, away, ⟨rfl, rfl⟩, ?_⟩
      rw [poll_pollSilently away present]
      simp [World.poll, World.onReader, found, enrolled, silent, away]

end Polls

/-- What a consumer is asked for. The poll of a scenario comes to such requests, `poll_served`. -/
inductive Request where
  | subscribe (topics : List String)
  /-- The stretch of a poll after which its listener lets others act. -/
  | catchUp
  | poll
  | commit (marks : List Mark)
  | rewind
  | assignment

inductive Answer where
  | done
  | told (change : Option AssignmentChange)
  | polled (change : Option AssignmentChange) (result : Except Failure (List Record))
  | committed (result : Except Failure Unit)
  | assignment (partitions : List Partition)

def serve (consumer : Consumer) (broker : Broker) : Request → Answer × Consumer × Broker
  | .subscribe topics =>
    let (consumer, broker) := consumer.subscribe topics broker
    (.done, consumer, broker)
  | .catchUp =>
    let (change, consumer) := consumer.catchUp broker
    (.told change, consumer, broker)
  | .poll =>
    let (change, result, consumer) := consumer.poll broker
    (.polled change result, consumer, broker)
  | .commit marks =>
    let (result, broker) := consumer.commit marks broker
    (.committed result, consumer, broker)
  | .rewind => (.done, consumer.rewind broker, broker)
  | .assignment => (.assignment consumer.assignment, consumer, broker)

end Consumer

/-- Nothing happened that a group could see. -/
structure Broker.Keeps (name : String) (broker later : Broker) : Prop where
  topics : later.topics = broker.topics
  failingPublishes : later.failingPublishes = broker.failingPublishes
  group : later.groups[name]? = broker.groups[name]?
  lastMember : broker.lastMember ≤ later.lastMember

theorem Broker.Keeps.refl (name : String) (broker : Broker) : broker.Keeps name broker :=
  ⟨rfl, rfl, rfl, Nat.le_refl _⟩

namespace Consumer

variable {consumer : Consumer} {name : String}

theorem group_catchUp (consumer : Consumer) (broker : Broker) :
    (consumer.catchUp broker).2.group = consumer.group ∧
      (consumer.catchUp broker).2.member = consumer.member := by
  unfold catchUp
  split
  · exact ⟨rfl, rfl⟩
  · rename_i synced
    obtain ⟨_, _, _, _, rfl⟩ := synchronise_eq_some synced
    exact ⟨rfl, rfl⟩

theorem group_poll (consumer : Consumer) (broker : Broker) :
    (consumer.poll broker).2.2.group = consumer.group ∧
      (consumer.poll broker).2.2.member = consumer.member := by
  unfold poll
  split
  · exact ⟨rfl, rfl⟩
  · exact consumer.group_catchUp broker

theorem group_serve (consumer : Consumer) (broker : Broker) (request : Request) :
    (consumer.serve broker request).2.1.group = consumer.group := by
  cases request with
  | catchUp => exact (consumer.group_catchUp broker).1
  | poll => exact (consumer.group_poll broker).1
  | subscribe _ | commit _ | rewind | assignment => rfl

theorem lastMember_serve (consumer : Consumer) (broker : Broker) (request : Request) :
    broker.lastMember ≤ (consumer.serve broker request).2.2.lastMember := by
  cases request with
  | subscribe topics => exact Nat.le_max_left _ _
  | commit marks => exact Nat.le_of_eq (consumer.lastMember_commit marks broker).symm
  | catchUp | poll | rewind | assignment => exact Nat.le_refl _

/-- A consumer acts on its own group and on no other. -/
theorem keeps_serve (other : consumer.group ≠ name) (broker : Broker) (request : Request) :
    broker.Keeps name (consumer.serve broker request).2.2 := by
  cases request with
  | subscribe topics =>
    exact ⟨rfl, rfl, by simp [serve, subscribe, Std.ExtTreeMap.getElem?_insert, other],
      Nat.le_max_left _ _⟩
  | commit marks =>
    simp only [serve, commit]
    split
    · exact .refl name broker
    · split
      · exact .refl name broker
      · exact ⟨rfl, rfl, by simp [Std.ExtTreeMap.getElem?_insert, other], Nat.le_refl _⟩
  | catchUp | poll | rewind | assignment => exact .refl name broker

theorem keeps_leave (other : consumer.group ≠ name) (broker : Broker) :
    broker.Keeps name (consumer.leave broker) := by
  unfold leave
  split
  · exact .refl name broker
  · exact ⟨rfl, rfl, by simp [Std.ExtTreeMap.getElem?_modify, other], Nat.le_refl _⟩

end Consumer

/-- Consumers by their places in a roster, which says what each is made with. -/
structure Audience where
  broker : Broker := {}
  consumers : Std.ExtTreeMap Nat Consumer := ∅

namespace Audience

inductive Operation where
  | createTopic (topic : String) (partitions : Nat)
  | failPublishes (count : Nat)
  | append (partition : Partition) (data : Bytes)
  /-- Makes the consumer of a place, unless it is there. -/
  | arrive (place : Nat)
  | ask (place : Nat) (request : Consumer.Request)
  /-- A consumer is dropped, as when its loop ends or fails. -/
  | drop (place : Nat)

inductive Outcome where
  | nothing
  | appended (result : Except Failure Nat)
  | answered (answer : Consumer.Answer)

/-- The consumer whose operation it is, if it is not one on the broker itself. -/
def Operation.place? : Operation → Option Nat
  | .arrive place | .ask place _ | .drop place => some place
  | _ => none

section Roster

variable (roster : Nat → Consumer.Options)

/-- Not an operation of a consumer of another group. -/
def Operation.concerns (name : String) (operation : Operation) : Bool :=
  operation.place?.all fun place => (roster place).group = name

def perform (audience : Audience) : Operation → Outcome × Audience
  | .createTopic topic partitions =>
    (.nothing, { audience with broker := audience.broker.createTopic topic partitions })
  | .failPublishes count => (.nothing, { audience with broker := audience.broker.failPublishes count })
  | .append partition data =>
    let (result, broker) := audience.broker.append partition data
    (.appended result, { audience with broker })
  | .arrive place =>
    (.nothing,
     { audience with consumers := audience.consumers.insertIfNew place (roster place).consumer })
  | .ask place request =>
    match audience.consumers[place]? with
    | none => (.nothing, audience)
    | some consumer =>
      let (answer, consumer, broker) := consumer.serve audience.broker request
      (.answered answer, { broker, consumers := audience.consumers.insert place consumer })
  | .drop place =>
    match audience.consumers[place]? with
    | none => (.nothing, audience)
    | some consumer =>
      (.nothing,
       { broker := consumer.leave audience.broker, consumers := audience.consumers.erase place })

/-- What comes of operations, each with what there is to see of it. -/
def outcomes (audience : Audience) : List Operation → List (Operation × Outcome)
  | [] => []
  | operation :: rest =>
    (operation, (audience.perform roster operation).1) ::
      outcomes (audience.perform roster operation).2 rest

def run (audience : Audience) (operations : List Operation) : Audience :=
  operations.foldl (fun audience operation => (audience.perform roster operation).2) audience

def after (operations : List Operation) : Audience := run roster {} operations

/-- The consumers belong to the groups that the roster says. -/
def Seated (audience : Audience) : Prop :=
  ∀ place consumer, audience.consumers[place]? = some consumer → consumer.group = (roster place).group

variable {roster} {audience : Audience} {name : String} {operation : Operation}

theorem Seated.perform (seated : audience.Seated roster) (operation : Operation) :
    (audience.perform roster operation).2.Seated roster := by
  intro place consumer found
  cases operation with
  | createTopic _ _ | failPublishes _ | append _ _ => exact seated place consumer found
  | arrive other =>
    simp only [Audience.perform, Std.ExtTreeMap.getElem?_insertIfNew] at found
    split at found
    · rename_i fresh
      cases Std.LawfulEqCmp.eq_of_compare fresh.1
      cases found
      rfl
    · exact seated place consumer found
  | ask other request =>
    simp only [Audience.perform] at found
    split at found
    · exact seated place consumer found
    · rename_i before was
      rw [Std.ExtTreeMap.getElem?_insert] at found
      split at found
      · rename_i same
        have same := Std.LawfulEqCmp.eq_of_compare same
        subst same
        cases found
        exact (before.group_serve audience.broker request).trans (seated other before was)
      · exact seated place consumer found
  | drop other =>
    simp only [Audience.perform] at found
    split at found
    · exact seated place consumer found
    · rw [Std.ExtTreeMap.getElem?_erase] at found
      split at found
      · cases found
      · exact seated place consumer found

theorem seated_after (operations : List Operation) : (after roster operations).Seated roster := by
  induction operations using List.reverseRecOn with
  | nil => intro place consumer found; simp [after, run] at found
  | append_singleton operations operation ih =>
    simpa [after, run] using ih.perform operation

theorem Operation.own (concerns : operation.concerns roster name) (acts : operation.place? = some place) :
    (roster place).group = name := by
  simpa [Operation.concerns, acts] using concerns

theorem Operation.foreign (foreign : operation.concerns roster name = false)
    (acts : operation.place? = some place) : (roster place).group ≠ name := by
  simpa [Operation.concerns, acts] using foreign

/-- An operation of a consumer of another group is not seen on the broker. -/
theorem Seated.keeps (seated : audience.Seated roster) (foreign : operation.concerns roster name = false) :
    audience.broker.Keeps name (audience.perform roster operation).2.broker := by
  cases operation with
  | createTopic _ _ | failPublishes _ | append _ _ => simp [Operation.concerns, Operation.place?] at foreign
  | arrive place => exact .refl name audience.broker
  | ask place request =>
    have other := Operation.foreign foreign rfl
    simp only [Audience.perform]
    split
    · exact .refl name audience.broker
    · rename_i consumer found
      exact consumer.keeps_serve (seated place consumer found ▸ other) audience.broker request
  | drop place =>
    have other := Operation.foreign foreign rfl
    simp only [Audience.perform]
    split
    · exact .refl name audience.broker
    · rename_i consumer found
      exact consumer.keeps_leave (seated place consumer found ▸ other) audience.broker

theorem consumer?_perform_foreign (foreign : operation.concerns roster name = false)
    (own : (roster place).group = name) :
    (audience.perform roster operation).2.consumers[place]? = audience.consumers[place]? := by
  have elsewhere : operation.place? ≠ some place := fun same => Operation.foreign foreign same own
  cases operation with
  | createTopic _ _ | failPublishes _ | append _ _ => rfl
  | arrive other =>
    have different : other ≠ place := fun same => elsewhere (congrArg some same)
    simp [Audience.perform, Std.ExtTreeMap.getElem?_insertIfNew, different]
  | ask other request =>
    have different : other ≠ place := fun same => elsewhere (congrArg some same)
    simp only [Audience.perform]
    split
    · rfl
    · simp [Std.ExtTreeMap.getElem?_insert, different]
  | drop other =>
    have different : other ≠ place := fun same => elsewhere (congrArg some same)
    simp only [Audience.perform]
    split
    · rfl
    · simp [Std.ExtTreeMap.getElem?_erase, different]

end Roster
end Audience
end ChatRelay
