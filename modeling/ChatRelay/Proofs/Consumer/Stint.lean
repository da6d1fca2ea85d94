import ChatRelay.Proofs.Audience
import ChatRelay.Proofs.Broker.Generations
import ChatRelay.Proofs.Consumer.Fetching

/-! A stint of a consumer: it polls and records are appended, in any order, while its assignment stays as it is
and nobody sends it back. All that it reads meanwhile is one stretch of each log. -/
namespace ChatRelay

namespace Consumer

variable {consumer : Consumer} {broker later : Broker}

/-- A consumer is current unless its group has moved on to another generation. -/
theorem synchronise_eq_none : consumer.synchronise broker = none ↔ ∀ id group, consumer.member = some id →
    broker.groups[consumer.group]? = some group → group.generation = consumer.generation := by
  unfold synchronise
  cases consumer.member with
  | none => simp
  | some id =>
    cases broker.groups[consumer.group]? with
    | none => simp
    | some group => by_cases current : group.generation = consumer.generation <;> simp [current]

theorem synchronise_catchUp (consumer : Consumer) (broker : Broker) :
    (consumer.catchUp broker).2.synchronise broker = none := by
  unfold catchUp
  split
  · assumption
  · rename_i synced
    exact synchronise_again synced

theorem synchronise_fetch (current : consumer.synchronise broker = none) (topics : Topics) :
    (consumer.fetch topics).2.synchronise broker = none :=
  synchronise_eq_none.mpr fun id group present found => synchronise_eq_none.mp current id group present found

theorem catchUp_congr (groups : later.groups = broker.groups) :
    consumer.catchUp later = consumer.catchUp broker := by
  simp only [catchUp, synchronise, groups]

theorem catchUp_of_current (current : consumer.synchronise broker = none) :
    consumer.catchUp broker = (none, consumer) := by
  simp only [catchUp, current]

end Consumer

structure Stint where
  broker : Broker
  consumer : Consumer

namespace Stint

inductive Move where
  | append (partition : Partition) (data : Bytes)
  | poll
deriving DecidableEq

/-- Makes a move. Gives the records that the consumer is answered with. -/
def step (stint : Stint) : Move → List Record × Stint
  | .append partition data => ([], { stint with broker := (stint.broker.append partition data).2 })
  | .poll =>
    let (_, result, consumer) := stint.consumer.poll stint.broker
    (result.toOption.getD [], { stint with consumer })

def run (stint : Stint) : List Move → List Record × Stint
  | [] => ([], stint)
  | move :: moves =>
    let (records, stint) := stint.step move
    let (more, stint) := stint.run moves
    (records ++ more, stint)

/-- The consumer is a member, and has nothing to catch up with that changes what it holds. -/
structure Steady (stint : Stint) : Prop where
  member : stint.consumer.member.isSome
  kept : (stint.consumer.catchUp stint.broker).2.positions = stint.consumer.positions

variable {stint : Stint} {partition : Partition} {limit : Nat}

theorem Steady.of_current (present : stint.consumer.member.isSome)
    (current : stint.consumer.synchronise stint.broker = none) : stint.Steady :=
  ⟨present, by rw [Consumer.catchUp_of_current current]⟩

theorem Steady.catchUp (steady : stint.Steady) :
    ∃ generation, (stint.consumer.catchUp stint.broker).2 = { stint.consumer with generation } := by
  have kept := steady.kept
  unfold Consumer.catchUp at kept ⊢
  split at kept
  · exact ⟨stint.consumer.generation, rfl⟩
  · rename_i synced
    obtain ⟨_, group, _, _, rfl⟩ := Consumer.synchronise_eq_some synced
    refine ⟨group.generation, ?_⟩
    dsimp only at kept ⊢
    rw [kept]

theorem Steady.poll (steady : stint.Steady) :
    ∃ change generation, stint.consumer.poll stint.broker =
      (change, .ok (stint.consumer.fetch stint.broker.topics).1,
        { (stint.consumer.fetch stint.broker.topics).2 with generation }) := by
  obtain ⟨generation, caught⟩ := steady.catchUp
  rw [Consumer.poll_eq steady.member, caught]
  exact ⟨_, generation, rfl⟩

theorem Steady.step (steady : stint.Steady) (move : Move) : (stint.step move).2.Steady := by
  cases move with
  | append partition data =>
    refine ⟨steady.member, ?_⟩
    have same : stint.consumer.catchUp (stint.broker.append partition data).2 =
        stint.consumer.catchUp stint.broker := Consumer.catchUp_congr (stint.broker.groups_append partition data)
    simpa only [Stint.step, same] using steady.kept
  | poll =>
    have current := Consumer.synchronise_fetch (stint.consumer.synchronise_catchUp stint.broker)
      stint.broker.topics
    have present : (stint.consumer.catchUp stint.broker).2.member.isSome := by
      rw [(stint.consumer.group_catchUp stint.broker).2]
      exact steady.member
    simp only [Stint.step, Consumer.poll_eq steady.member]
    exact .of_current present current

theorem Steady.step_poll (steady : stint.Steady) :
    ∃ generation, stint.step .poll = ((stint.consumer.fetch stint.broker.topics).1,
      { stint with consumer := { (stint.consumer.fetch stint.broker.topics).2 with generation } }) := by
  obtain ⟨change, generation, polled⟩ := steady.poll
  exact ⟨generation, by simp only [Stint.step, polled]; rfl⟩

theorem within_step (stint : Stint) (move : Move) :
    stint.broker.topics.Within (stint.step move).2.broker.topics := by
  cases move with
  | append partition data => exact stint.broker.within_append partition data
  | poll => exact .refl _

/-- What a move returns is read on from where the consumer stood. -/
theorem Steady.reads_step (steady : stint.Steady) (move : Move) :
    Reads (stint.step move).2.broker.topics stint.consumer.positions (stint.step move).1
      (stint.step move).2.consumer.positions := by
  cases move with
  | append partition data => exact .done
  | poll =>
    obtain ⟨generation, polled⟩ := steady.step_poll
    rw [polled]
    exact stint.consumer.fetch_reads stint.broker.topics

theorem Steady.maxRecords_step (steady : stint.Steady) (move : Move) :
    (stint.step move).2.consumer.maxRecords = stint.consumer.maxRecords := by
  cases move with
  | append partition data => rfl
  | poll =>
    obtain ⟨generation, polled⟩ := steady.step_poll
    rw [polled]
    rfl

section Run

theorem Steady.run (steady : stint.Steady) (moves : List Move) : (stint.run moves).2.Steady := by
  induction moves generalizing stint with
  | nil => exact steady
  | cons move moves ih => exact ih (steady.step move)

theorem Steady.maxRecords_run (steady : stint.Steady) (moves : List Move) :
    (stint.run moves).2.consumer.maxRecords = stint.consumer.maxRecords := by
  induction moves generalizing stint with
  | nil => rfl
  | cons move moves ih => exact (ih (steady.step move)).trans (steady.maxRecords_step move)

theorem within_run (stint : Stint) (moves : List Move) :
    stint.broker.topics.Within (stint.run moves).2.broker.topics := by
  induction moves generalizing stint with
  | nil => exact .refl _
  | cons move moves ih => exact (stint.within_step move).trans (ih (stint.step move).2)

/-- All that is returned is one reading of the logs as they are in the end. -/
theorem Steady.reads_run (steady : stint.Steady) (moves : List Move) :
    Reads (stint.run moves).2.broker.topics stint.consumer.positions (stint.run moves).1
      (stint.run moves).2.consumer.positions := by
  induction moves generalizing stint with
  | nil => exact .done
  | cons move moves ih =>
    have first := (steady.reads_step move).mono (within_run (stint.step move).2 moves)
    exact first.append (ih (steady.step move))

theorem Steady.consecutive_run (steady : stint.Steady) (within : stint.consumer.Within stint.broker.topics)
    (moves : List Move) :
    Consecutive (stint.run moves).2.broker.topics stint.consumer.positions
      (stint.run moves).2.consumer.positions (stint.run moves).1 := by
  apply (steady.reads_run moves).consecutive
  intro partition held
  exact Nat.le_trans (within partition held) ((stint.within_run moves).records partition).length_le

end Run

/-- What a run of moves returns, and what the poll after it does. -/
structure Faithful (stint : Stint) (limit : Nat) (moves : List Move) : Prop where
  /-- The next poll succeeds, and returns what a fetch should. -/
  next : ∃ change records consumer,
    (stint.run moves).2.consumer.poll (stint.run moves).2.broker = (change, .ok records, consumer) ∧
      (stint.run moves).2.consumer.Fetched limit (stint.run moves).2.broker.topics records consumer.positions
  /-- From the first poll to the last nothing was skipped and nothing returned twice. -/
  whole : Consecutive (stint.run moves).2.broker.topics stint.consumer.positions
    (stint.run moves).2.consumer.positions (stint.run moves).1

/-- Fetching is bounded, and loses and repeats nothing: neither in one fetch nor over all fetches of a stint. -/
theorem fetching_faithful (made : stint.consumer.maxRecords = max limit 1) (steady : stint.Steady)
    (within : stint.consumer.Within stint.broker.topics) (moves : List Move) : stint.Faithful limit moves where
  next := by
    have whole := steady.consecutive_run within moves
    have stands : (stint.run moves).2.consumer.Within (stint.run moves).2.broker.topics :=
      fun partition held => whole.within partition ((whole.held partition).mp held)
    have still : (stint.run moves).2.consumer.maxRecords = max limit 1 := (steady.maxRecords_run moves).trans made
    obtain ⟨change, generation, polled⟩ := (steady.run moves).poll
    exact ⟨change, _, _, polled, Consumer.fetch_fetched still stands⟩
  whole := steady.consecutive_run within moves

/-- A topic of three partitions, of which the first is busy, and a consumer that gets one record at a time. -/
def busy : Stint :=
  let broker := ([⟨"chats", 0⟩, ⟨"chats", 0⟩, ⟨"chats", 0⟩, ⟨"chats", 2⟩] : List Partition).foldl
    (fun broker partition => (broker.append partition [0]).2) (({} : Broker).createTopic "chats" 3)
  let (consumer, broker) := (Consumer.create "reader" "readers" 0).subscribe ["chats"] broker
  ⟨broker, (consumer.catchUp broker).2⟩

theorem busy_faithful : busy.Faithful 0 [.poll, .append ⟨"chats", 1⟩ [1], .poll, .poll, .poll, .poll] :=
  fetching_faithful rfl (.of_current rfl (by decide +kernel)) (by decide +kernel) _

end Stint
end ChatRelay
