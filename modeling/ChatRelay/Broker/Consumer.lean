import ChatRelay.Broker

/-! A consumer reads partitions on behalf of its group. It keeps a position for each partition that it was
assigned when it last looked, and learns of new generations only when it polls. -/
namespace ChatRelay

/-- A record as read, decoded or with the reason why not. -/
structure Record where
  partition : Partition
  offset : Nat
  body : Except Failure Envelope

/-- A promise that all offsets of a partition below `next` are done with. -/
structure Mark where
  partition : Partition
  next : Nat
deriving DecidableEq, Repr

def Record.mark (record : Record) : Mark := ⟨record.partition, record.offset + 1⟩

/-- The mark after a signed 64-bit offset; there is nothing to be done with below zero. -/
def Mark.after (partition : Partition) (offset : Int64) : Mark :=
  ⟨partition, (offset + 1).toNatClampNeg⟩

structure Consumer where
  id : String
  group : String
  /-- The most records that one poll returns. -/
  maxRecords : Nat
  /-- Its number in the group, from the first subscription on. -/
  member : Option Nat := none
  /-- The generation of the group that it has caught up with. -/
  generation : Nat := 0
  /-- The next offset to read from each partition. -/
  positions : Std.ExtTreeMap Partition Nat := ∅
  /-- Which of the partitions the next round begins with. -/
  cursor : Nat := 0

namespace Consumer

/-- A consumer that has not subscribed; its polls return one record at least. -/
def create (id group : String) (maxRecords : Nat) : Consumer :=
  { id, group, maxRecords := max maxRecords 1 }

def assignment (consumer : Consumer) : List Partition := consumer.positions.keys

/-- Subscribes to topics instead of those before, which gives the group a new generation. -/
def subscribe (consumer : Consumer) (topics : List String) (broker : Broker) : Consumer × Broker :=
  let id := consumer.member.getD (broker.lastMember + 1)
  let group := ((broker.groups.getD consumer.group {}).enrol id topics).rebalance broker.topics
  ({ consumer with member := some id },
   { broker with
     lastMember := max broker.lastMember id
     groups := broker.groups.insert consumer.group group })

def leave (consumer : Consumer) (broker : Broker) : Broker :=
  match consumer.member with
  | none => broker
  | some id => { broker with
      groups := broker.groups.modify consumer.group fun group =>
        (group.dismiss id).rebalance broker.topics }

/-- The positions after a new assignment: kept where the partition was held, else where the group resumes. -/
def reposition (positions : Std.ExtTreeMap Partition Nat) (group : Group)
    (assigned : Std.ExtTreeSet Partition) : Std.ExtTreeMap Partition Nat :=
  .ofList (assigned.toList.map fun partition =>
    (partition, positions.getD partition (group.resume partition)))

/-- Catches up with the generation of the group, if it is a new one. The change may be empty. -/
def synchronise (consumer : Consumer) (broker : Broker) : Option (AssignmentChange × Consumer) := do
  let id ← consumer.member
  let group ← broker.groups[consumer.group]?
  if group.generation = consumer.generation then none
  else
    let assigned := group.assigned id
    let change :=
      { assigned := assigned.toList.filter (!consumer.positions.contains ·)
        revoked := consumer.assignment.filter (!assigned.contains ·) }
    some (change,
      { consumer with
        generation := group.generation
        positions := reposition consumer.positions group assigned })

/-- Up to `room` records of a partition from an offset on. -/
def read (topics : Topics) (partition : Partition) (offset room : Nat) : List Record :=
  ((((topics.log? partition).getD []).drop offset).take room).mapIdx fun step data =>
    ⟨partition, offset + step, Envelope.decode data⟩

theorem length_read (topics : Topics) (partition : Partition) (offset room : Nat) :
    (read topics partition offset room).length =
      min room (((topics.log? partition).getD []).length - offset) := by
  simp [read]

/-- Reads partitions in turn until there is no room for more records. Gives the records, the positions
reached and, if room ran out, how many partitions were visited. -/
def readInTurn (topics : Topics) (positions : Std.ExtTreeMap Partition Nat) :
    (room : Nat) → List Partition → List Record × Std.ExtTreeMap Partition Nat × Option Nat
  | _, [] => ([], positions, none)
  | room, partition :: rest =>
    let offset := positions.getD partition 0
    let records := read topics partition offset room
    let positions := positions.insert partition (offset + records.length)
    if room ≤ records.length then (records, positions, some 1)
    else
      let (more, positions, visited) := readInTurn topics positions (room - records.length) rest
      (records ++ more, positions, visited.map (· + 1))

/-- The assigned partitions in the order of the next round. -/
def round (consumer : Consumer) : List Partition :=
  consumer.assignment.rotateLeft (consumer.cursor % consumer.assignment.length)

/-- Reads one round. A round that ran out of room makes the next one begin with the partition after the
last one visited, so that a busy partition cannot starve the others. -/
def fetch (consumer : Consumer) (topics : Topics) : List Record × Consumer :=
  let count := consumer.assignment.length
  let (records, positions, visited) :=
    readInTurn topics consumer.positions consumer.maxRecords consumer.round
  let cursor := match visited with
    | none => consumer.cursor
    | some visited => (consumer.cursor % count + visited) % count
  (records, { consumer with positions, cursor })

def notSubscribed (consumer : Consumer) : Failure :=
  .broker (.notSubscribed consumer.id)

/-- The greatest mark of each partition. -/
def latest (marks : List Mark) : Std.ExtTreeMap Partition Nat :=
  marks.foldl (fun next mark => next.insert mark.partition (max (next.getD mark.partition 0) mark.next)) ∅

/-- Commits marks for the group. Those of partitions that the group has not assigned to the consumer now are
passed over. -/
def commit (consumer : Consumer) (marks : List Mark) (broker : Broker) : Except Failure Unit × Broker :=
  match consumer.member with
  | none => (.error consumer.notSubscribed, broker)
  | some id => match broker.groups[consumer.group]? with
    | none => (.error (.broker (.unknownGroup consumer.group)), broker)
    | some group =>
      let owned := (latest marks).filter fun partition _ => group.owns id partition
      let group := { group with committed := group.committed.insertMany owned.toList }
      (.ok (), { broker with groups := broker.groups.insert consumer.group group })

theorem lastMember_leave (consumer : Consumer) (broker : Broker) :
    (consumer.leave broker).lastMember = broker.lastMember := by
  unfold leave
  split <;> rfl

theorem lastMember_commit (consumer : Consumer) (marks : List Mark) (broker : Broker) :
    (consumer.commit marks broker).2.lastMember = broker.lastMember := by
  unfold commit
  split
  · rfl
  · split <;> rfl

/-- Goes back to where the group would resume. -/
def rewind (consumer : Consumer) (broker : Broker) : Consumer :=
  { consumer with
    positions := consumer.positions.map fun partition _ =>
      ((broker.groups[consumer.group]?.map (·.resume partition)).getD 0) }

end Consumer
end ChatRelay
