import ChatRelay.ConsumeLoop
import ChatRelay.Scenario.Acting

/-! Runs scenarios. Steps run inside polls are run by the same rules as all others; each is written once and
runs at most once, so that the number of steps bounds how deep they can nest. -/
namespace ChatRelay.Scenario

abbrev Interlude := List Step → World → World

structure Polled where
  records : List Record
  consumer : Consumer
  onChange : List (List Step)
  world : World

namespace World

def tell (world : World) (consumer : String) (watch : Option Nat) (change : AssignmentChange) : World :=
  let world := world.emit (.assignment consumer change)
  match watch with
  | some place => world.reassign place change
  | none => world

def fetch (world : World) (consumer : Consumer) (onChange : List (List Step)) : Polled :=
  let (records, consumer) := consumer.fetch world.relay.broker.topics
  { records, consumer, onChange, world }

/-- Polls for a consumer whose listener is told each change and then runs the next of its scripts. A script
may move the group on, so that there is another change to catch up with; without one nothing moves. -/
def pollListening (interlude : Interlude) (watch : Option Nat) :
    (onChange : List (List Step)) → Consumer → World → Polled
  | onChange, consumer, world =>
    match consumer.synchronise world.relay.broker with
    | none => world.fetch consumer onChange
    | some (change, consumer) =>
      let world := world.tell consumer.id watch change
      match onChange with
      | [] => world.fetch consumer []
      | script :: rest => pollListening interlude watch rest consumer (interlude script world)

def pollSilently (world : World) (consumer : Consumer) : Polled :=
  match consumer.synchronise world.relay.broker with
  | none => world.fetch consumer []
  | some (_, consumer) => world.fetch consumer []

def poll (interlude : Interlude) (name : String) (world : World) : Answer × World :=
  world.onReader name fun reader =>
    if reader.consumer.member.isNone then (.failed reader.consumer.notSubscribed, world)
    else
      let away := { world with readers := world.readers.erase name }
      let done :=
        if reader.listens then
          pollListening interlude reader.watch reader.onChange reader.consumer away
        else away.pollSilently reader.consumer
      let reader := { reader with consumer := done.consumer, onChange := done.onChange }
      let world := { done.world with polled := done.world.polled.insert name done.records }
      (.records done.records, world.addReader reader)

end World

structure LoopState where
  world : World
  consumer : Consumer
  processor : Processor
  cancelled : Bool
  polls : List (List Step)
  onChange : List (List Step)
  /-- How many calls were made at each site. -/
  calls : Site → Nat := fun _ => 0

namespace LoopState

/-- Makes the next call at a site, or fails it if that was planned. -/
def call (plan : LoopPlan) (site : Site) (state : LoopState)
    (proceed : LoopState → Except Failure α × LoopState) : Except Failure α × LoopState :=
  let number := state.calls site + 1
  let state := { state with calls := fun other => if other = site then number else state.calls other }
  match plan.injections.find? fun injection => injection.site = site && injection.number = number with
  | some injection =>
    (.error injection.failure,
     { state with world := state.world.emit (.injected site injection.failure) })
  | none => proceed state

/-- Runs the steps planned for the next poll. The last of them cancel the loop. -/
def prepare (interlude : Interlude) (watch : Nat) (state : LoopState) : LoopState :=
  let health := state.world.watchedHealth watch
  let world :=
    state.world.emit (.beforePoll (state.world.owned watch) health.isReady health.rebalancing)
  match state.polls with
  | [] => { state with world, cancelled := true }
  | script :: rest =>
    { state with
      world := interlude script world
      polls := rest
      cancelled := state.cancelled || rest.isEmpty }

def subscribe (plan : LoopPlan) (state : LoopState) : Except Failure Unit × LoopState :=
  call plan .subscribe state fun state =>
    let (consumer, broker) := state.consumer.subscribe plan.topics state.world.relay.broker
    (.ok (), { state with consumer, world := state.world.actOnBroker broker })

def poll (plan : LoopPlan) (interlude : Interlude) (watch : Nat) (state : LoopState) :
    Except Failure (List Record) × LoopState :=
  call plan .poll (prepare interlude watch state) fun state =>
    let done := World.pollListening interlude (some watch) state.onChange state.consumer state.world
    (.ok done.records,
     { state with
       consumer := done.consumer
       onChange := done.onChange
       world := done.world.emit (.polled done.records) })

def commit (plan : LoopPlan) (records : List Record) (state : LoopState) :
    Except Failure Unit × LoopState :=
  call plan .commit state fun state =>
    let world := state.world.emit (.committing records.length)
    let (result, broker) := state.consumer.commit (records.map Record.mark) world.relay.broker
    (result, { state with world := world.actOnBroker broker })

def rewind (plan : LoopPlan) (state : LoopState) : Except Failure Unit × LoopState :=
  call plan .rewind state fun state =>
    (.ok (),
     { state with
       consumer := state.consumer.rewind state.world.relay.broker
       world := state.world.emit .rewinding })

def process (envelope : Envelope) (state : LoopState) : Except Failure Unit × LoopState :=
  let done := state.processor.process envelope state.world.relay
  (done.result,
   { state with processor := done.processor, world := state.world.report done.reports done.relay })

/-- What the loop of a plan calls. There is no clock in a scenario: batches take no time. -/
def host (plan : LoopPlan) (interlude : Interlude) (watch : Nat) : Host LoopState where
  consumer := plan.id
  cancelled := LoopState.cancelled
  poll := poll plan interlude watch
  pollCompleted state := { state with world := state.world.pollCompleted watch }
  process := process
  commit := commit plan
  rewind := rewind plan
  elapsed _ := 0
  count measurement state :=
    { state with world := { state.world with relay := state.world.relay.record [measurement] } }

end LoopState

namespace World

/-- Runs a consume loop on a consumer that joins its group and leaves it when the loop ends. Each planned
poll happens once, and one poll if none is planned. -/
def runLoop (interlude : Interlude) (plan : LoopPlan) (polls onChange : List (List Step)) (world : World) :
    Answer × World :=
  match world.relay.health.findLast? plan.loop, world.processor? plan.processor with
  | none, _ => (.unknown plan.loop, world)
  | _, none => (.unknown "router", world)
  | some loop, some processor =>
    let (watch, world) := world.addWatch plan.id loop
    let consumer := Consumer.create plan.id plan.group plan.maxRecords
    let state : LoopState :=
      { world, consumer, processor, cancelled := plan.cancelled, polls, onChange }
    match state.subscribe plan with
    | (.error failure, state) => (.failed failure, state.world)
    | (.ok (), state) =>
      let created := state.world.emit (.created plan.id state.consumer.assignment)
      let ending := ConsumeLoop.run (LoopState.host plan interlude watch) (polls.length + 1)
        { state with world := created }
      let world := ending.state.world
      let answer := match ending.outcome with
        | .ok () => .loopEnded (world.owned watch)
        | .error failure => .failed failure
      (answer, world.actOnBroker (ending.state.consumer.leave world.relay.broker))

def addConsumer (world : World) (plan : ConsumerPlan) (onChange : List (List Step)) : Answer × World :=
  let reader : Reader :=
    { consumer := .create plan.id plan.group plan.maxRecords
      listens := plan.listens
      watch := plan.watch.bind (world.watchPlaces[·]?)
      onChange }
  (.nothing, world.addReader reader)

end World

/-- Runs one step, with steps inside it down to a depth. -/
def Step.run : (depth : Nat) → Step → World → Answer × World
  | 0, _, world => (.unknown "depth", world)
  | depth + 1, step, world =>
    let interlude : Interlude := fun script world => script.foldl (fun world step =>
      let (answer, world) := Step.run depth step world
      world.emit (.step step answer)) world
    match step with
    | .act action => world.act action
    | .addConsumer plan onChange => world.addConsumer plan onChange
    | .poll consumer => world.poll interlude consumer
    | .runLoop plan polls onChange => world.runLoop interlude plan polls onChange

/-- Runs steps in turn; gives the answer of each and the events that happened while it ran. -/
def runSteps (depth : Nat) : List Step → World → List (Answer × List Event)
  | [], _ => []
  | step :: rest, world =>
    let (answer, world) := step.run depth { world with events := [] }
    (answer, world.events) :: runSteps depth rest world

def run (network : Endpoint.Network) (steps : List Step) : List (Answer × List Event) :=
  runSteps (scriptSize steps) steps { network := network }

end ChatRelay.Scenario
