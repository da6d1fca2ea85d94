import ChatRelay.Processor
import ChatRelay.Proofs.Cluster.Cover
import ChatRelay.Proofs.Crew.Delivery
import ChatRelay.Proofs.Sessions

/-! Envelopes on their way to sessions. A router publishes them, and the loops of the receivers push them to the
sessions of their recipients, with the publications of both and all that others do in any order. -/
namespace ChatRelay

open ConsumeLoop (Phase Event)

/-- Where a destination of an envelope is, if that partition is known. -/
def Router.target? (router : Router) (table : PartitionTable) (destination : String × UserId) :
    Option Partition :=
  table.get? destination.1 (Placement.index destination.2 router.partitions)

/-- What is published of a delivery: a message that reached a session is acknowledged. -/
def Envelope.receipt? : DeliveryOutcome → Envelope → Option Envelope
  | .delivered, .message m => some (.ack (.ofMessage m .delivered))
  | _, _ => none

theorem Relay.push_eq (relay : Relay) (router : Router) (envelope : Envelope) :
    (relay.push router envelope).2 =
      match Envelope.receipt? (relay.deliver envelope).1 envelope with
      | some receipt => ((relay.deliver envelope).2.route router receipt).2
      | none => (relay.deliver envelope).2 := by
  unfold Relay.push
  rcases relay.deliver envelope with ⟨outcome, pushed⟩
  cases outcome <;> cases envelope <;> rfl

/-- A receipt goes to one destination. -/
theorem Router.destinations_receipt (router : Router)
    (due : Envelope.receipt? outcome envelope = some receipt) : (router.destinations receipt).length = 1 := by
  cases outcome <;> cases envelope <;> cases due
  rfl

/-- On the messages topic an envelope goes to its recipient alone. -/
theorem Router.eq_recipient (router : Router) (apart : router.messagesTopic ≠ router.senderTopic)
    (among : (router.messagesTopic, user) ∈ router.destinations envelope) : user = envelope.recipient := by
  cases envelope with
  | message m =>
    simp only [destinations, List.mem_cons, Prod.mk.injEq, apart, false_and, List.not_mem_nil, or_false,
      true_and] at among
    exact among
  | ack a =>
    simp only [destinations] at among
    split at among <;> exact (Prod.mk.inj (List.mem_singleton.mp among)).2

/-- The router that is used, and the group whose loops push to sessions. -/
structure Receivers where
  router : Router
  group : String

namespace Receivers

def topic (receivers : Receivers) : String := receivers.router.messagesTopic

def place (receivers : Receivers) (user : UserId) : Partition :=
  ⟨receivers.topic, Placement.index user receivers.router.partitions⟩

end Receivers

/-- The loops with the broker, and what else pushing to sessions is about. -/
structure Mailing where
  crew : Crew := {}
  table : PartitionTable := {}
  sessions : SessionRegistry := {}
  /-- What was received at each session, in the order in which it came. -/
  taken : Std.ExtTreeMap Nat (List Envelope) := ∅
  /-- The acknowledgement that a member's processor has yet to publish. -/
  owed : Std.ExtTreeMap Nat Envelope := ∅

namespace Mailing

inductive Move where
  /-- Partitions become known. -/
  | ensure (topic : String) (count : UInt32)
  /-- One of the publications of an envelope that is routed. -/
  | publish (envelope : Envelope) (destination : Nat)
  | connect (user : UserId)
  | disconnect (user : UserId) (session : Nat)
  | dropInbox (session : Nat)
  | receive (session : Nat)
  /-- A loop of the receivers is set up. -/
  | join (id : String) (maxRecords : Nat)
  /-- The processor of a receiver pushes the envelope before it. -/
  | deliver (member : Nat)
  /-- It publishes the acknowledgement that it owes. -/
  | acknowledge (member : Nat)
  /-- Any other move. -/
  | other (move : Crew.Move)

/-- All that a session was sent: what was received, and what waits. -/
def received (mailing : Mailing) (session : Nat) : List Envelope :=
  mailing.taken.getD session [] ++ mailing.sessions.waiting session

section Receivers

variable (receivers : Receivers)

/-- Publishes an envelope at one of its destinations. Nothing is written where no partition is known, or if
the envelope has no wire form. -/
def publish (mailing : Mailing) (envelope : Envelope) (destination : Nat) : Mailing :=
  match (receivers.router.destinations envelope)[destination]?.bind
      (receivers.router.target? mailing.table), envelope.encode with
  | some target, .ok data => { mailing with crew := mailing.crew.step (.append target data) }
  | _, _ => mailing

def facing? (mailing : Mailing) (member : Nat) : Option Envelope := do
  let task ← mailing.crew.tasks[member]?
  let worker ← mailing.crew.cluster.workers[member]?
  match task.phase with
  | .handling _ (record :: _) =>
    if worker.consumer.group = receivers.group ∧ member ∉ mailing.owed then record.body.toOption else none
  | _ => none

/-- Pushes an envelope to the sessions of its recipient; with that the loop is past its record. A message that
reached a session is to be acknowledged, before the loop goes on. -/
def deliver (mailing : Mailing) (member : Nat) (envelope : Envelope) : Mailing :=
  let (outcome, sessions) := mailing.sessions.deliver envelope.recipient envelope
  { mailing with
    crew := mailing.crew.step (.take member (.process (.ok ())))
    sessions
    owed := match Envelope.receipt? outcome envelope with
      | some receipt => mailing.owed.insert member receipt
      | none => mailing.owed }

def acknowledge (mailing : Mailing) (member : Nat) : Mailing :=
  match mailing.owed[member]? with
  | none => mailing
  | some receipt => { mailing.publish receivers receipt 0 with owed := mailing.owed.erase member }

/-- The receivers' processors push, and their loops do nothing else while an acknowledgement is owed. -/
def allows (mailing : Mailing) : Crew.Move → Bool
  | .join _ group _ _ => group ≠ receivers.group
  | .take member (.process _) => mailing.crew.cluster.groupOf? member ≠ some receivers.group
  | .take member _ | .synchronise member => member ∉ mailing.owed
  | .createTopic .. | .failPublishes _ | .append .. | .leave _ => true

def step (mailing : Mailing) : Move → Mailing
  | .ensure topic count => { mailing with table := (mailing.table.ensure topic count).2 }
  | .publish envelope destination => mailing.publish receivers envelope destination
  | .connect user => { mailing with sessions := (mailing.sessions.connect user).2 }
  | .disconnect user session => { mailing with sessions := mailing.sessions.disconnect user session }
  | .dropInbox session => { mailing with sessions := (mailing.sessions.dropInbox session).2 }
  | .receive session =>
    { mailing with
      sessions := (mailing.sessions.receive session).2
      taken := mailing.taken.insert session (mailing.received session) }
  | .join id maxRecords =>
    { mailing with crew := mailing.crew.step (.join id receivers.group maxRecords [receivers.topic]) }
  | .deliver member =>
    match mailing.facing? receivers member with
    | none => mailing
    | some envelope => mailing.deliver member envelope
  | .acknowledge member => mailing.acknowledge receivers member
  | .other move =>
    if mailing.allows receivers move then
      { mailing with
        crew := mailing.crew.step move
        owed := match move with
          | .leave member => mailing.owed.erase member
          | _ => mailing.owed }
    else mailing

def run (mailing : Mailing) (moves : List Move) : Mailing := moves.foldl (step receivers) mailing

def after (moves : List Move) : Mailing := run receivers {} moves

end Receivers

variable {receivers : Receivers} {mailing : Mailing} {member : Nat} {envelope : Envelope} {relay : Relay}
variable {move : Move} {moves : List Move}

@[simp] theorem after_concat (receivers : Receivers) (moves : List Move) (move : Move) :
    after receivers (moves ++ [move]) = (after receivers moves).step receivers move := by
  simp [after, run]

/-- A mailing and a relay have the same broker and know the same partitions. -/
structure Matches (mailing : Mailing) (relay : Relay) : Prop where
  broker : mailing.crew.cluster.broker = relay.broker
  table : mailing.table = relay.table

theorem Matches.publish (same : mailing.Matches relay) (destination : Nat)
    (found : (receivers.router.destinations envelope)[destination]?.bind
      (receivers.router.target? relay.table) = some target) :
    (mailing.publish receivers envelope destination).Matches
      (relay.publish receivers.router.producer envelope target).2 := by
  rw [← same.table] at found
  unfold Mailing.publish Relay.publish Broker.publish
  rw [found]
  cases envelope.encode with
  | error failure => exact ⟨same.broker, same.table⟩
  | ok data => exact ⟨by simp [Crew.step, Cluster.step, same.broker, Relay.record], same.table⟩

/-- The bytes of an envelope go to one of its destinations. -/
def Sends (receivers : Receivers) (table : PartitionTable) (target : Partition) (data : Bytes) : Prop :=
  ∃ envelope, ∃ destination ∈ receivers.router.destinations envelope,
    receivers.router.target? table destination = some target ∧ envelope.encode = .ok data

theorem publish_cases (mailing : Mailing) (envelope : Envelope) (destination : Nat) :
    mailing.publish receivers envelope destination = mailing ∨
      ∃ target data, Sends receivers mailing.table target data ∧
        mailing.publish receivers envelope destination =
          { mailing with crew := mailing.crew.step (.append target data) } := by
  unfold publish
  split
  · rename_i target data found written
    obtain ⟨at_, here, known⟩ := Option.bind_eq_some_iff.mp found
    exact .inr ⟨target, data, ⟨envelope, at_, List.mem_of_getElem? here, known, written⟩, rfl⟩
  · exact .inl rfl

theorem publish_eq (receivers : Receivers) (mailing : Mailing) (envelope : Envelope) (destination : Nat) :
    mailing.publish receivers envelope destination =
      { mailing with crew := (mailing.publish receivers envelope destination).crew } := by
  rcases mailing.publish_cases envelope destination with same | ⟨_, _, _, published⟩
  · rw [same]
  · rw [published]

theorem publish_unknown (found : (receivers.router.destinations envelope)[destination]?.bind
    (receivers.router.target? mailing.table) = none) :
    mailing.publish receivers envelope destination = mailing := by
  simp [publish, found]

/-- Left to itself, the router makes one publication after the other. -/
theorem publish_stretch (same : mailing.Matches relay) (earlier rest : List (String × UserId))
    (split : receivers.router.destinations envelope = earlier ++ rest) :
    (mailing.run receivers ((List.range' earlier.length rest.length).map (.publish envelope))).Matches
      (relay.publishAll receivers.router.producer envelope
        (rest.filterMap (receivers.router.target? relay.table))).2 := by
  induction rest generalizing mailing relay earlier with
  | nil => exact same
  | cons destination rest ih =>
    have here : (receivers.router.destinations envelope)[earlier.length]? = some destination := by simp [split]
    have split : receivers.router.destinations envelope = (earlier ++ [destination]) ++ rest := by simp [split]
    rw [List.length_cons, List.range'_succ, List.map_cons, run, List.foldl_cons, ← run, List.filterMap_cons]
    cases known : receivers.router.target? relay.table destination with
    | none =>
      have kept : mailing.step receivers (.publish envelope earlier.length) = mailing :=
        publish_unknown (by rw [here, same.table]; exact known)
      rw [kept]
      simpa using ih same (earlier ++ [destination]) split
    | some target =>
      have published := same.publish earlier.length (by rw [here]; exact known)
      have continued := ih published (earlier ++ [destination]) split
      rw [List.length_append, List.length_singleton] at continued
      exact continued

/-- Routing an envelope is to make its publications in turn. -/
theorem route_stretch (same : mailing.Matches relay) (envelope : Envelope) :
    (mailing.run receivers
      ((List.range (receivers.router.destinations envelope).length).map (.publish envelope))).Matches
        (relay.route receivers.router envelope).2 := by
  rw [List.range_eq_range']
  exact publish_stretch same [] _ rfl

theorem facing?_eq_some_iff :
    mailing.facing? receivers member = some envelope ↔
      member ∉ mailing.owed ∧ ∃ task worker batch record rest, mailing.crew.tasks[member]? = some task ∧
        mailing.crew.cluster.workers[member]? = some worker ∧ task.phase = .handling batch (record :: rest) ∧
        worker.consumer.group = receivers.group ∧ record.body = .ok envelope := by
  simp only [facing?, bind, Option.bind_eq_some_iff]
  constructor
  · rintro ⟨task, is, worker, found, facing⟩
    split at facing
    · rename_i batch record rest handling
      split at facing
      · rename_i may
        cases body : record.body with
        | error fault => simp [body, Except.toOption] at facing
        | ok other =>
          simp only [body, Except.toOption, Option.some.injEq] at facing
          exact ⟨may.2, task, worker, batch, record, rest, is, found, handling, may.1, facing ▸ body⟩
      · cases facing
    · cases facing
  · rintro ⟨free, task, worker, batch, record, rest, is, found, handling, own, body⟩
    refine ⟨task, is, worker, found, ?_⟩
    simp [handling, own, free, body, Except.toOption]

theorem cluster_process (crew : Crew) (member : Nat) (answer : Except Failure Unit) :
    (crew.step (.take member (.process answer))).cluster = crew.cluster := by
  rw [Crew.step]
  cases taken : crew.take? member (.process answer) with
  | none => rfl
  | some next =>
    obtain ⟨_, _, _, _, _, _, _, _, cluster, _⟩ := Crew.take?_eq_some taken
    exact cluster

theorem Matches.deliver (same : mailing.Matches relay) (member : Nat) (envelope : Envelope) :
    (mailing.deliver member envelope).Matches (relay.deliver envelope).2 :=
  ⟨(congrArg Cluster.broker (cluster_process ..)).trans same.broker, same.table⟩

theorem sessions_publishAll (relay : Relay) (producer : String) (envelope : Envelope)
    (targets : List Partition) : (relay.publishAll producer envelope targets).2.sessions = relay.sessions := by
  induction targets generalizing relay with
  | nil => rfl
  | cons target targets ih => exact ih (relay.publish producer envelope target).2

theorem sessions_route (relay : Relay) (router : Router) (envelope : Envelope) :
    (relay.route router envelope).2.sessions = relay.sessions := sessions_publishAll ..

/-- The processor of the receivers, given an envelope in one go, pushes it and then acknowledges. -/
theorem process_stretch (same : mailing.Matches relay) (sessions : mailing.sessions = relay.sessions)
    (facing : mailing.facing? receivers member = some envelope) :
    (mailing.run receivers [.deliver member, .acknowledge member]).Matches
        ((Processor.receivers receivers.router).process envelope relay).relay ∧
      (mailing.run receivers [.deliver member, .acknowledge member]).sessions =
        ((Processor.receivers receivers.router).process envelope relay).relay.sessions ∧
      ((Processor.receivers receivers.router).process envelope relay).result = .ok () := by
  have both : mailing.run receivers [.deliver member, .acknowledge member] =
      (mailing.deliver member envelope).acknowledge receivers member := by
    simp [run, step, facing]
  have pushed := same.deliver member envelope
  have reached : (mailing.deliver member envelope).sessions = (relay.deliver envelope).2.sessions := by
    rw [deliver, sessions]
    rfl
  have outcome : (mailing.sessions.deliver envelope.recipient envelope).1 = (relay.deliver envelope).1 := by
    rw [sessions]
    rfl
  have owed : (mailing.deliver member envelope).owed =
      match Envelope.receipt? (relay.deliver envelope).1 envelope with
      | some receipt => mailing.owed.insert member receipt
      | none => mailing.owed := by
    rw [← outcome]
    rfl
  have processed : ((Processor.receivers receivers.router).process envelope relay).relay =
      (relay.push receivers.router envelope).2 := rfl
  rw [both, processed, relay.push_eq]
  cases due : Envelope.receipt? (relay.deliver envelope).1 envelope with
  | none =>
    have nothing : (mailing.deliver member envelope).owed[member]? = none := by
      rw [owed, due]
      exact Std.ExtTreeMap.getElem?_eq_none (facing?_eq_some_iff.mp facing).1
    rw [acknowledge, nothing]
    exact ⟨pushed, reached, rfl⟩
  | some receipt =>
    have something : (mailing.deliver member envelope).owed[member]? = some receipt := by
      rw [owed, due]
      exact Std.ExtTreeMap.getElem?_insert_self
    have routed : (Mailing.run receivers _ _).Matches _ := route_stretch pushed receipt
    rw [receivers.router.destinations_receipt due] at routed
    rw [acknowledge, something]
    refine ⟨⟨routed.broker, routed.table⟩, ?_, rfl⟩
    dsimp only
    rw [publish_eq, sessions_route, reached]

/-- What a move is to the loops and the broker. -/
inductive Makes (receivers : Receivers) (mailing : Mailing) : Move → Crew.Move → Prop where
  | join (id : String) (maxRecords : Nat) : Makes receivers mailing (.join id maxRecords)
      (.join id receivers.group maxRecords [receivers.topic])
  | publish (envelope : Envelope) (destination : Nat) (sends : Sends receivers mailing.table target data) :
      Makes receivers mailing (.publish envelope destination) (.append target data)
  | acknowledge (member : Nat) (sends : Sends receivers mailing.table target data) :
      Makes receivers mailing (.acknowledge member) (.append target data)
  | deliver {member : Nat} {envelope : Envelope} (facing : mailing.facing? receivers member = some envelope) :
      Makes receivers mailing (.deliver member) (.take member (.process (.ok ())))
  | other (allowed : mailing.allows receivers made) : Makes receivers mailing (.other made) made

/-- A move makes at most one move of the crew. -/
theorem crew_step (receivers : Receivers) (mailing : Mailing) (move : Move) :
    (mailing.step receivers move).crew = mailing.crew ∨
      ∃ made, Makes receivers mailing move made ∧
        (mailing.step receivers move).crew = mailing.crew.step made := by
  cases move with
  | ensure | connect | disconnect | dropInbox | receive => exact .inl rfl
  | publish envelope destination =>
    rcases mailing.publish_cases envelope destination with same | ⟨target, data, sends, published⟩
    · exact .inl (congrArg Mailing.crew same)
    · exact .inr ⟨_, .publish _ _ sends, congrArg Mailing.crew published⟩
  | join id maxRecords => exact .inr ⟨_, .join id maxRecords, rfl⟩
  | deliver member =>
    simp only [step]
    split
    · exact .inl rfl
    · rename_i facing
      exact .inr ⟨_, .deliver facing, rfl⟩
  | acknowledge member =>
    simp only [step, acknowledge]
    split
    · exact .inl rfl
    · rename_i receipt _
      rcases mailing.publish_cases receipt 0 with same | ⟨target, data, sends, published⟩
      · have kept := congrArg Mailing.crew same
        exact .inl kept
      · have stepped := congrArg Mailing.crew published
        exact .inr ⟨_, .acknowledge member sends, stepped⟩
  | other made =>
    simp only [step]
    split
    · rename_i allowed
      exact .inr ⟨made, .other allowed, rfl⟩
    · exact .inl rfl

theorem acknowledge_eq (receivers : Receivers) (mailing : Mailing) (member : Nat) :
    mailing.acknowledge receivers member =
      { mailing with
        crew := (mailing.acknowledge receivers member).crew
        owed := (mailing.acknowledge receivers member).owed } := by
  unfold acknowledge
  split
  · rfl
  · rw [publish_eq]

theorem table_step (receivers : Receivers) (mailing : Mailing) (move : Move) :
    (mailing.step receivers move).table =
      match move with
      | .ensure topic count => (mailing.table.ensure topic count).2
      | _ => mailing.table := by
  cases move with
  | publish => rw [step, publish_eq]
  | acknowledge => rw [step, acknowledge_eq]
  | deliver | other => simp only [step]; split <;> rfl
  | ensure | connect | disconnect | dropInbox | receive | join => rfl

theorem taken_step (receivers : Receivers) (mailing : Mailing) (move : Move) :
    (mailing.step receivers move).taken =
      match move with
      | .receive session => mailing.taken.insert session (mailing.received session)
      | _ => mailing.taken := by
  cases move with
  | publish => rw [step, publish_eq]
  | acknowledge => rw [step, acknowledge_eq]
  | deliver | other => simp only [step]; split <;> rfl
  | ensure | connect | disconnect | dropInbox | receive | join => rfl

theorem sessions_step (receivers : Receivers) (mailing : Mailing) (move : Move) :
    (mailing.step receivers move).sessions =
      match move with
      | .connect user => (mailing.sessions.connect user).2
      | .disconnect user session => mailing.sessions.disconnect user session
      | .dropInbox session => (mailing.sessions.dropInbox session).2
      | .receive session => (mailing.sessions.receive session).2
      | .deliver member =>
        match mailing.facing? receivers member with
        | none => mailing.sessions
        | some envelope => (mailing.sessions.deliver envelope.recipient envelope).2
      | _ => mailing.sessions := by
  cases move with
  | publish => rw [step, publish_eq]
  | acknowledge => rw [step, acknowledge_eq]
  | deliver | other => simp only [step]; split <;> rfl
  | ensure | connect | disconnect | dropInbox | receive | join => rfl

/-- What mailing does to the loops and the broker they could do alone. -/
theorem crew_after (receivers : Receivers) (moves : List Move) :
    ∃ made, (after receivers moves).crew = Crew.after made ∧
      ∀ topic partitions, .createTopic topic partitions ∈ made →
        .other (.createTopic topic partitions) ∈ moves := by
  induction moves using List.reverseRecOn with
  | nil => exact ⟨[], rfl, by simp⟩
  | append_singleton moves move ih =>
    obtain ⟨earlier, same, among⟩ := ih
    rw [after_concat]
    rcases crew_step receivers (after receivers moves) move with kept | ⟨made, makes, stepped⟩
    · exact ⟨earlier, kept.trans same, fun topic partitions asked =>
        List.mem_append_left _ (among topic partitions asked)⟩
    · refine ⟨earlier ++ [made], by rw [stepped, same, Crew.after_concat], fun topic partitions asked => ?_⟩
      rcases List.mem_append.mp asked with asked | asked
      · exact List.mem_append_left _ (among topic partitions asked)
      · cases List.mem_singleton.mp asked
        cases makes
        exact List.mem_append_right _ (List.mem_singleton.mpr rfl)

end Mailing
end ChatRelay
