import ChatRelay.Scenario.World

namespace ChatRelay.Scenario.World

def onReader (world : World) (name : String) (act : Reader → Answer × World) : Answer × World :=
  match world.readers[name]? with
  | some reader => act reader
  | none => (.unknown name, world)

def onWatch (world : World) (name : String) (act : Nat → Watch → Answer × World) : Answer × World :=
  match world.watch? name with
  | some (place, watch) => act place watch
  | none => (.unknown name, world)

/-- Changes the health of the last loop registered under a name, and shows it. -/
def onLoop (world : World) (name : String) (change : Relay → Nat → Relay) : Answer × World :=
  match world.relay.health.findLast? name with
  | none => (.unknown name, world)
  | some loop =>
    let relay := change world.relay loop
    (.health (relay.health.loops[loop]?.getD { name := name }), { world with relay })

def answerOf (result : Except Failure Unit) (answer : Answer) : Answer :=
  match result with
  | .ok () => answer
  | .error failure => .failed failure

def commit (world : World) (reader : Reader) (marks : List Mark) : Answer × World :=
  let (result, broker) := reader.consumer.commit marks world.relay.broker
  (answerOf result (.recordCount marks.length), { world with relay := { world.relay with broker } })

def actOnBroker (world : World) (broker : Broker) : World :=
  { world with relay := { world.relay with broker } }

def act (world : World) : Action → Answer × World
  | .createTopic topic partitions =>
    (.nothing, world.actOnBroker (world.relay.broker.createTopic topic partitions))
  | .failPublishes count => (.nothing, world.actOnBroker (world.relay.broker.failPublishes count))
  | .append partition data =>
    let (result, broker) := world.relay.broker.append partition data
    (match result with
      | .ok offset => .offset offset
      | .error failure => .failed failure,
     world.actOnBroker broker)
  | .envelopes partition => (.envelopes (world.relay.broker.envelopes partition), world)
  | .recordCount partition => (.number (world.relay.broker.recordCount partition), world)
  | .committed group partition => (.committed (world.relay.broker.committed? group partition), world)
  | .addProducer id =>
    (.nothing,
     { world with
       relay := world.relay.record [.producerCreated]
       producers := id :: world.producers })
  | .publish producer partition envelope =>
    if world.producers.contains producer then
      let (report, relay) := world.relay.publish producer envelope partition
      (.nothing, world.report [report] relay)
    else (.unknown producer, world)
  | .flush producer =>
    (if world.producers.contains producer then .text producer else .unknown producer, world)
  | .addRouter name router =>
    if world.producers.contains router.producer then
      (.producer router.producer,
       { world with
         relay := world.relay.addRouter router
         routers := world.routers.insert name router })
    else (.unknown router.producer, world)
  | .route name envelope =>
    match world.routers[name]? with
    | none => (.unknown name, world)
    | some router =>
      let (reports, relay) := world.relay.route router envelope
      (.nothing, world.report reports relay)
  | .knownPartition partition =>
    (.partition (world.relay.table.get? partition.topic partition.index), world)
  | .knownCount topic => (.number (world.relay.table.count topic), world)
  | .connect user =>
    let (id, sessions) := world.relay.sessions.connect user
    (.session id, { world with relay := { world.relay with sessions } })
  | .disconnect user session =>
    let sessions := world.relay.sessions.disconnect user session
    (.sessionsLeft (sessions.sessionCount user), { world with relay := { world.relay with sessions } })
  | .dropInbox session =>
    let (existed, sessions) := world.relay.sessions.dropInbox session
    (.flag existed, { world with relay := { world.relay with sessions } })
  | .sessionCount user => (.number (world.relay.sessions.sessionCount user), world)
  | .deliver user envelope =>
    let (outcome, sessions) := world.relay.sessions.deliver user envelope
    (.delivery outcome (sessions.sessionCount user),
     { world with relay := { world.relay with sessions } })
  | .receive session =>
    let (inbox, sessions) := world.relay.sessions.receive session
    (.received inbox, { world with relay := { world.relay with sessions } })
  | .failWrites count =>
    (.nothing,
     { world with relay := { world.relay with chats := world.relay.chats.failWrites count } })
  | .merge update =>
    let (result, chats) := world.relay.chats.merge update
    (match result with
      | .ok state => .chatState (some state)
      | .error failure => .failed failure,
     { world with relay := { world.relay with chats } })
  | .load key => (.chatState (world.relay.chats.load? key), world)
  | .newerThan user time => (.chats (world.relay.chats.newerThan user time), world)
  | .storeSize => (.storeSize world.relay.chats.rows.size, world)
  | .updates source envelope => (.updates source (source.updates envelope), world)
  | .process name envelope =>
    match world.processor? name with
    | none => (.unknown "router", world)
    | some processor =>
      let done := processor.process envelope world.relay
      (answerOf done.result .accepted, world.report done.reports done.relay)
  | .register loop =>
    let (_, health) := world.relay.health.register loop
    (.health { name := loop }, { world with relay := { world.relay with health } })
  | .start loop => world.onLoop loop Relay.markStarted
  | .stop loop => world.onLoop loop Relay.markStopped
  | .setRebalancing loop rebalancing =>
    world.onLoop loop fun relay place => relay.modifyHealth place (·.setRebalancing rebalancing)
  | .registry => (.registry world.relay.health, world)
  | .request data =>
    let metrics := Exposition.timelessText world.relay.metrics
    (match Endpoint.request world.network data world.relay.health metrics with
      | .ok text => .text text
      | .error failure => .failed failure,
     world)
  | .watch id loop =>
    match world.relay.health.findLast? loop with
    | none => (.unknown loop, world)
    | some place =>
      let (watch, world) := world.addWatch id place
      (.health (world.watchedHealth watch), world)
  | .reassign name change =>
    world.onWatch name fun place _ =>
      let world := world.reassign place change
      (.owned (world.owned place), world)
  | .pollCompleted name => world.onWatch name fun place _ => (.nothing, world.pollCompleted place)
  | .owned name =>
    world.onWatch name fun place watch =>
      (.ownership watch.ownership.consumer (world.owned place), world)
  | .owns name partition =>
    world.onWatch name fun _ watch => (.flag (watch.ownership.owns partition), world)
  | .subscribe name topics =>
    world.onReader name fun reader =>
      let (consumer, broker) := reader.consumer.subscribe topics world.relay.broker
      (.nothing,
       { world.actOnBroker broker with
         readers := world.readers.insert name { reader with consumer } })
  | .commitPolled name count source =>
    world.onReader name fun reader =>
      let polled := world.polled.getD source []
      let records := match count with
        | some count => polled.take count
        | none => polled
      world.commit reader (records.map Record.mark)
  | .commitMarks name marks => world.onReader name fun reader => world.commit reader marks
  | .rewind name =>
    world.onReader name fun reader =>
      let consumer := reader.consumer.rewind world.relay.broker
      (.nothing, { world with readers := world.readers.insert name { reader with consumer } })
  | .assignment name =>
    world.onReader name fun reader => (.assignment name reader.consumer.assignment, world)
  | .leave name =>
    match world.readers[name]? with
    | none => (.flag false, world)
    | some reader =>
      (.flag true,
       { world.actOnBroker (reader.consumer.leave world.relay.broker) with
         readers := world.readers.erase name })
  | .refused _ failure => (.failed failure, world)
  | .metrics => (.text (Exposition.timelessText world.relay.metrics), world)

end ChatRelay.Scenario.World
