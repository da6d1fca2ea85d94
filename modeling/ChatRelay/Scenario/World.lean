import ChatRelay.Health.Endpoint
import ChatRelay.Scenario.Step

namespace ChatRelay.Scenario

inductive Answer where
  | nothing
  /-- The step refers to a part that does not exist. -/
  | unknown (name : String)
  | failed (failure : Failure)
  | accepted
  | flag (value : Bool)
  | number (value : Nat)
  | text (value : String)
  | offset (offset : Nat)
  | envelopes (envelopes : List Envelope)
  | committed (next : Option Nat)
  | producer (id : String)
  | partition (known : Option Partition)
  | session (id : Nat)
  | sessionsLeft (count : Nat)
  | delivery (outcome : DeliveryOutcome) (sessions : Nat)
  | received (inbox : Option (List Envelope × Bool))
  | chatState (state : Option ChatState)
  | chats (chats : List (ChatKey × ChatState))
  | storeSize (size : Nat)
  | updates (source : ChatSource) (updates : List ChatUpdate)
  | health (health : LoopHealth)
  | registry (registry : HealthRegistry)
  | owned (partitions : List Partition)
  | ownership (consumer : String) (partitions : List Partition)
  | records (records : List Record)
  | recordCount (count : Nat)
  | assignment (consumer : String) (partitions : List Partition)
  | loopEnded (owned : List Partition)

/-- What happens while a step runs. -/
inductive Event where
  | delivery (report : DeliveryReport)
  | assignment (consumer : String) (change : AssignmentChange)
  /-- A step inside a poll was run. -/
  | step (step : Step) (answer : Answer)
  | created (consumer : String) (assignment : List Partition)
  | beforePoll (owned : List Partition) (ready rebalancing : Bool)
  | polled (records : List Record)
  | committing (records : Nat)
  | rewinding
  | injected (site : Site) (failure : Failure)

/-- An ownership and the place of the loop whose health it acts on. -/
structure Watch where
  loop : Nat
  ownership : Ownership

/-- A consumer with what is to happen when it polls. -/
structure Reader where
  consumer : Consumer
  listens : Bool
  watch : Option Nat
  onChange : List (List Step)

structure World where
  network : Endpoint.Network
  relay : Relay := {}
  producers : List String := []
  routers : Std.ExtTreeMap String Router := ∅
  /-- All watches, also those whose name was given to another. -/
  watches : List Watch := []
  watchPlaces : Std.ExtTreeMap String Nat := ∅
  /-- A consumer that polls is taken out while it does. -/
  readers : Std.ExtTreeMap String Reader := ∅
  /-- The records of the last successful poll under each name. They outlast the consumer. -/
  polled : Std.ExtTreeMap String (List Record) := ∅
  /-- In the order in which they happened. -/
  events : List Event := []

namespace World

def emit (world : World) (event : Event) : World :=
  { world with events := world.events ++ [event] }

/-- Takes over what an instance reported and became. -/
def report (world : World) (reports : List DeliveryReport) (relay : Relay) : World :=
  { world with relay, events := world.events ++ reports.map .delivery }

def processor? (world : World) : ProcessorName → Option Processor
  | .receivers router => world.routers[router]?.map .receivers
  | .chatState source => some (.chatState source)
  | .failing after failure => some (.failing after failure)

def watch? (world : World) (name : String) : Option (Nat × Watch) := do
  let place ← world.watchPlaces[name]?
  let watch ← world.watches[place]?
  return (place, watch)

def addWatch (world : World) (name : String) (loop : Nat) : Nat × World :=
  let (ownership, relay) := world.relay.withHealth loop (Ownership.watch name) { consumer := name }
  let place := world.watches.length
  (place,
   { world with
     relay
     watches := world.watches ++ [⟨loop, ownership⟩]
     watchPlaces := world.watchPlaces.insert name place })

def reassign (world : World) (place : Nat) (change : AssignmentChange) : World :=
  match world.watches[place]? with
  | none => world
  | some watch =>
    let (ownership, relay) := world.relay.reassign watch.loop watch.ownership change
    { world with relay, watches := world.watches.set place { watch with ownership } }

def pollCompleted (world : World) (place : Nat) : World :=
  match world.watches[place]? with
  | none => world
  | some watch =>
    let (ownership, relay) :=
      world.relay.withHealth watch.loop watch.ownership.pollCompleted watch.ownership
    { world with relay, watches := world.watches.set place { watch with ownership } }

def owned (world : World) (place : Nat) : List Partition :=
  (world.watches[place]?.map (·.ownership.owned.toList)).getD []

def watchedHealth (world : World) (place : Nat) : LoopHealth :=
  ((world.watches[place]?.bind fun watch => world.relay.health.loops[watch.loop]?)).getD { name := "" }

/-- A consumer under a name in use takes the place of the one before, which leaves its group. -/
def addReader (world : World) (reader : Reader) : World :=
  let id := reader.consumer.id
  let broker := match world.readers[id]? with
    | some before => before.consumer.leave world.relay.broker
    | none => world.relay.broker
  { world with relay := { world.relay with broker }, readers := world.readers.insert id reader }

end World
end ChatRelay.Scenario
