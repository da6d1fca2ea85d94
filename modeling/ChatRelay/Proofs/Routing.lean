import Mathlib.Data.List.Basic
import ChatRelay.Relay
import ChatRelay.Proofs.Broker.Logs
import ChatRelay.Proofs.Envelope.Canonical
import ChatRelay.Proofs.Partition.Known

namespace ChatRelay

namespace Relay

def routeAll (relay : Relay) (router : Router) : List Envelope → List DeliveryReport × Relay
  | [] => ([], relay)
  | envelope :: rest =>
    let (reports, relay) := relay.route router envelope
    let (more, relay) := relay.routeAll router rest
    (reports ++ more, relay)

/-- The logs have gained what is said for each partition, and publishing may go on as before. -/
structure Gains (before after : Relay) (gain : Partition → List Bytes) : Prop where
  calm : after.broker.failingPublishes = 0
  table : after.table = before.table
  log? : ∀ partition, after.broker.log? partition = (before.broker.log? partition).map (· ++ gain partition)

variable {relay middle after : Relay} {router : Router} {envelope : Envelope} {target : Partition}

namespace Gains

theorem refl (calm : relay.broker.failingPublishes = 0) : relay.Gains relay fun _ => [] where
  calm := calm
  table := rfl
  log? partition := by simp

theorem trans (first : relay.Gains middle gain) (second : middle.Gains after more) :
    relay.Gains after fun partition => gain partition ++ more partition where
  calm := second.calm
  table := second.table.trans first.table
  log? partition := by simp [second.log?, first.log?, Function.comp_def]

theorem exists_log (gains : relay.Gains after gain) (exists_ : (relay.broker.log? target).isSome) :
    (after.broker.log? target).isSome := by
  rw [gains.log?, Option.isSome_map]
  exact exists_

theorem logs_of_empty (gains : relay.Gains after gain) {topic : String}
    (empty : ∀ log ∈ relay.broker.topics.getD topic [], log = []) :
    after.broker.topics.getD topic [] =
      (List.range (relay.broker.topics.partitionCount topic)).map fun (slot : Nat) => gain ⟨topic, slot⟩ := by
  apply List.ext_getElem?
  intro slot
  have gained := gains.log? ⟨topic, slot⟩
  simp only [Broker.log?, Topics.log?, Partition.slot, Int.natCast_nonneg, ↓reduceIte, Int.toNat_natCast]
    at gained
  rw [gained, List.getElem?_map]
  by_cases there : slot < (relay.broker.topics.getD topic []).length
  · have before := List.getElem?_eq_getElem there
    rw [empty _ (List.getElem_mem there)] at before
    rw [before]
    simp [Topics.partitionCount, there]
  · simp [Topics.partitionCount, there]

theorem logs_of_none (gains : relay.Gains after gain) {topic : String}
    (none : ∀ slot : Nat, gain ⟨topic, slot⟩ = []) :
    after.broker.topics.getD topic [] = relay.broker.topics.getD topic [] := by
  apply List.ext_getElem?
  intro slot
  have gained := gains.log? ⟨topic, slot⟩
  simpa [Broker.log?, Topics.log?, Partition.slot, none] using gained

end Gains

/-- A publication that is not refused adds the envelope's bytes to the log of its partition. -/
theorem gains_publish (calm : relay.broker.failingPublishes = 0) (producer : String)
    (limit : envelope.payload.length ≤ Envelope.maxPayload) (exists_ : (relay.broker.log? target).isSome) :
    (relay.publish producer envelope target).1.partition = target ∧
      (relay.publish producer envelope target).1.failed = false ∧
      relay.Gains (relay.publish producer envelope target).2 fun partition =>
        if partition = target then [envelope.wire] else [] := by
  obtain ⟨log, found⟩ := Option.isSome_iff_exists.mp exists_
  have written := Broker.append_eq calm found envelope.wire
  have broker : (relay.publish producer envelope target).2.broker =
      (relay.broker.append target envelope.wire).2 := by
    simp [publish, Broker.publish, Envelope.encode_eq_ok envelope limit, record]
  refine ⟨?_, ?_, ?_, ?_, ?_⟩
  · simp [publish, Broker.publish, Envelope.encode_eq_ok envelope limit]
  · simp [publish, Broker.publish, Envelope.encode_eq_ok envelope limit, written, DeliveryReport.failed]
  · rw [broker, written]
    exact calm
  · simp [publish, Broker.publish, Envelope.encode_eq_ok envelope limit, record]
  · intro partition
    rw [broker, Broker.log?_append calm found]

/-- Publishing on several partitions adds to each log as often as its partition is named. -/
theorem gains_publishAll (calm : relay.broker.failingPublishes = 0) (producer : String)
    (limit : envelope.payload.length ≤ Envelope.maxPayload) (targets : List Partition)
    (exist : ∀ target ∈ targets, (relay.broker.log? target).isSome) :
    (relay.publishAll producer envelope targets).1.map (·.partition) = targets ∧
      (∀ report ∈ (relay.publishAll producer envelope targets).1, report.failed = false) ∧
      relay.Gains (relay.publishAll producer envelope targets).2 fun partition =>
        List.replicate (targets.count partition) envelope.wire := by
  induction targets generalizing relay with
  | nil => exact ⟨rfl, by simp [publishAll], .refl calm⟩
  | cons target targets ih =>
    obtain ⟨own, accepted, first⟩ := gains_publish calm producer limit (exist target List.mem_cons_self)
    have later : ∀ other ∈ targets,
        ((relay.publish producer envelope target).2.broker.log? other).isSome :=
      fun other member => first.exists_log (exist other (List.mem_cons_of_mem _ member))
    obtain ⟨partitions, rest, second⟩ := ih first.calm later
    refine ⟨by simp [publishAll, own, partitions], ?_, ?_⟩
    · intro report member
      rcases List.mem_cons.mp member with rfl | member
      · exact accepted
      · exact rest report member
    · have both := first.trans second
      have counted : (fun partition => (if partition = target then [envelope.wire] else []) ++
          List.replicate (targets.count partition) envelope.wire) =
          fun partition => List.replicate ((target :: targets).count partition) envelope.wire := by
        funext partition
        by_cases here : partition = target
        · simp [here, List.replicate_succ]
        · simp [here, Ne.symm here]
      rw [← counted]
      exact both

end Relay

namespace Router

def places (router : Router) (envelope : Envelope) : List Partition :=
  (router.destinations envelope).map fun (topic, user) =>
    ⟨topic, Placement.index user router.partitions⟩

/-- Whether the messages topic keeps an envelope at an index: a message at its receiver's, and at its sender's
that it was delivered or seen. -/
def deliversAt (router : Router) (index : Int) : Envelope → Bool
  | .message m => Placement.index m.receiver router.partitions = index
  | .ack a => a.status ≠ .processed ∧ Placement.index a.sender router.partitions = index

/-- Whether the sender topic keeps an envelope at an index: a message at its sender's, and there that it was
processed. -/
def recordsAt (router : Router) (index : Int) : Envelope → Bool
  | .message m => Placement.index m.sender router.partitions = index
  | .ack a => a.status = .processed ∧ Placement.index a.sender router.partitions = index

/-- The router's partitions are known and exist, and no publication is to fail. -/
structure Serves (router : Router) (relay : Relay) : Prop where
  calm : relay.broker.failingPublishes = 0
  known : ∀ topic ∈ [router.messagesTopic, router.senderTopic], ∀ user,
    relay.table.get? topic (Placement.index user router.partitions) =
      some ⟨topic, Placement.index user router.partitions⟩
  exist : ∀ topic ∈ [router.messagesTopic, router.senderTopic], ∀ user,
    (relay.broker.log? ⟨topic, Placement.index user router.partitions⟩).isSome

variable {router : Router} {relay after : Relay} {envelope : Envelope} {topic : String} {index : Int}

theorem topic_of_destination (destination : String × UserId)
    (member : destination ∈ router.destinations envelope) :
    destination.1 ∈ [router.messagesTopic, router.senderTopic] := by
  cases envelope with
  | message m =>
    simp only [destinations, List.mem_cons, List.not_mem_nil, or_false] at member
    rcases member with rfl | rfl <;> simp
  | ack a =>
    obtain ⟨_, _, _, status⟩ := a
    cases status <;> simp_all [destinations]

/-- A router in service leaves out none of the partitions. -/
theorem Serves.targets (serves : router.Serves relay) (envelope : Envelope) :
    router.targets relay.table envelope = router.places envelope := by
  unfold Router.targets places
  rw [← List.filterMap_eq_map]
  apply List.filterMap_congr
  intro destination member
  exact serves.known destination.1 (topic_of_destination destination member) destination.2

theorem Serves.gains (serves : router.Serves relay) (gains : relay.Gains after gain) :
    router.Serves after where
  calm := gains.calm
  known topic member user := by rw [gains.table]; exact serves.known topic member user
  exist topic member user := gains.exists_log (serves.exist topic member user)

theorem Serves.gains_route (serves : router.Serves relay)
    (limit : envelope.payload.length ≤ Envelope.maxPayload) :
    (relay.route router envelope).1.map (·.partition) = router.places envelope ∧
      (∀ report ∈ (relay.route router envelope).1, report.failed = false) ∧
      relay.Gains (relay.route router envelope).2 fun partition =>
        List.replicate ((router.places envelope).count partition) envelope.wire := by
  unfold Relay.route
  rw [serves.targets]
  apply Relay.gains_publishAll serves.calm router.producer limit
  intro target member
  obtain ⟨destination, among, rfl⟩ := List.mem_map.mp member
  exact serves.exist destination.1 (topic_of_destination destination among) destination.2

/-- Each call adds the envelope to the logs of its places, and so do all calls in turn. -/
theorem Serves.gains_routeAll (serves : router.Serves relay) (calls : List Envelope)
    (limits : ∀ envelope ∈ calls, envelope.payload.length ≤ Envelope.maxPayload) :
    (relay.routeAll router calls).1.map (·.partition) = calls.flatMap router.places ∧
      (∀ report ∈ (relay.routeAll router calls).1, report.failed = false) ∧
      relay.Gains (relay.routeAll router calls).2 fun partition =>
        calls.flatMap fun envelope =>
          List.replicate ((router.places envelope).count partition) envelope.wire := by
  induction calls generalizing relay with
  | nil => exact ⟨rfl, by simp [Relay.routeAll], .refl serves.calm⟩
  | cons envelope calls ih =>
    obtain ⟨partitions, accepted, first⟩ := serves.gains_route (limits envelope List.mem_cons_self)
    obtain ⟨more, rest, second⟩ :=
      ih (serves.gains first) fun other member => limits other (List.mem_cons_of_mem _ member)
    refine ⟨by simp [Relay.routeAll, partitions, more], ?_, first.trans second⟩
    intro report member
    rcases List.mem_append.mp member with member | member
    · exact accepted report member
    · exact rest report member

theorem count_places_messages (apart : router.messagesTopic ≠ router.senderTopic) (envelope : Envelope)
    (index : Int) :
    (router.places envelope).count ⟨router.messagesTopic, index⟩ =
      if router.deliversAt index envelope then 1 else 0 := by
  cases envelope with
  | message m => simp [places, destinations, deliversAt, List.count_cons, Ne.symm apart]
  | ack a =>
    obtain ⟨_, _, _, status⟩ := a
    cases status <;> simp [places, destinations, deliversAt, List.count_cons, Ne.symm apart]

theorem count_places_sender (apart : router.messagesTopic ≠ router.senderTopic) (envelope : Envelope)
    (index : Int) :
    (router.places envelope).count ⟨router.senderTopic, index⟩ =
      if router.recordsAt index envelope then 1 else 0 := by
  cases envelope with
  | message m => simp [places, destinations, recordsAt, List.count_cons, apart]
  | ack a =>
    obtain ⟨_, _, _, status⟩ := a
    cases status <;> simp [places, destinations, recordsAt, List.count_cons, apart]

theorem count_places_other (other : topic ∉ [router.messagesTopic, router.senderTopic])
    (envelope : Envelope) (index : Int) : (router.places envelope).count ⟨topic, index⟩ = 0 := by
  apply List.count_eq_zero.mpr
  intro member
  obtain ⟨destination, among, same⟩ := List.mem_map.mp member
  cases same
  exact other (topic_of_destination destination among)

theorem flatMap_replicate (calls : List Envelope) (keeps : Envelope → Bool) :
    (calls.flatMap fun envelope => List.replicate (if keeps envelope then 1 else 0) envelope.wire) =
      (calls.filter keeps).map Envelope.wire := by
  induction calls with
  | nil => rfl
  | cons envelope calls ih =>
    rw [List.flatMap_cons, ih]
    cases kept : keeps envelope <;> simp [kept]

/-- A router put into service finds its partitions known, however the table has grown before. -/
theorem serves_addRouter (router : Router) (relay : Relay) (positive : 0 < router.partitions.toNat)
    (small : router.partitions.toNat < 0x80000000) (inOrder : relay.table.InOrder)
    (calm : relay.broker.failingPublishes = 0)
    (room : ∀ topic ∈ [router.messagesTopic, router.senderTopic],
      router.partitions.toNat ≤ relay.broker.topics.partitionCount topic) :
    router.Serves (relay.addRouter router) where
  calm := calm
  known topic member user := by
    obtain ⟨nonneg, below⟩ := Placement.index_lt user positive small
    have both := (inOrder.ensure router.messagesTopic router.partitions).ensure router.senderTopic
      router.partitions
    rcases List.mem_cons.mp member with rfl | member
    · apply PartitionTable.get?_ensure
      apply (inOrder.ensure router.messagesTopic router.partitions).get?_eq nonneg
      have known := relay.table.le_count_ensure router.messagesTopic small
      omega
    · cases List.mem_singleton.mp member
      apply both.get?_eq nonneg
      have known := (relay.table.ensure router.messagesTopic router.partitions).2.le_count_ensure
        router.senderTopic small
      omega
  exist topic member user := by
    obtain ⟨nonneg, below⟩ := Placement.index_lt user positive small
    have enough := room topic member
    have slot : (Placement.index user router.partitions).toNat <
        (relay.broker.topics.getD topic []).length := by
      unfold Topics.partitionCount at enough
      omega
    have there := List.getElem?_eq_getElem slot
    have log : (relay.addRouter router).broker.log? ⟨topic, Placement.index user router.partitions⟩ =
        (relay.broker.topics.getD topic [])[(Placement.index user router.partitions).toNat]? := by
      simp [Relay.addRouter, Broker.log?, nonneg, Topics.log?, Partition.slot]
    rw [log, there]
    rfl

theorem not_deliversAt (positive : 0 < router.partitions.toNat) (small : router.partitions.toNat < 0x80000000)
    (past : router.partitions.toNat ≤ index) (envelope : Envelope) :
    router.deliversAt index envelope = false ∧ router.recordsAt index envelope = false := by
  have elsewhere (user : UserId) : Placement.index user router.partitions ≠ index := by
    have below := (Placement.index_lt user positive small).2
    omega
  cases envelope <;> simp [deliversAt, recordsAt, elsewhere]

theorem deliversAt_iff (envelope : Envelope) (index : Int) :
    router.deliversAt index envelope ↔
      envelope.kindName ≠ Status.processed.name ∧
        Placement.index envelope.recipient router.partitions = index := by
  cases envelope with
  | message m => simp [deliversAt, Envelope.kindName, Envelope.recipient, Status.name]
  | ack a =>
    obtain ⟨_, _, _, status⟩ := a
    cases status <;> simp [deliversAt, Envelope.kindName, Envelope.recipient, Status.name]

theorem filter_deliversAt (calls : List Envelope) (user : UserId) (index : Int) :
    (calls.filter (router.deliversAt index)).filter (·.recipient = user) =
      if Placement.index user router.partitions = index then
        calls.filter fun envelope => envelope.recipient = user ∧ envelope.kindName ≠ Status.processed.name
      else [] := by
  rw [List.filter_filter]
  split
  · rename_i here
    apply List.filter_congr
    intro envelope _
    rw [Bool.eq_iff_iff]
    simp only [Bool.and_eq_true, decide_eq_true_eq, deliversAt_iff]
    constructor
    · rintro ⟨rfl, told, _⟩
      exact ⟨rfl, told⟩
    · rintro ⟨rfl, told⟩
      exact ⟨rfl, told, here⟩
  · rename_i elsewhere
    apply List.filter_eq_nil_iff.mpr
    intro envelope _
    simp only [Bool.and_eq_true, decide_eq_true_eq, deliversAt_iff]
    rintro ⟨rfl, _, here⟩
    exact elsewhere here

theorem decode_wires (envelopes : List Envelope)
    (sendable : ∀ envelope ∈ envelopes, envelope.id.isNone = false ∧
      envelope.payload.length ≤ Envelope.maxPayload) :
    (envelopes.map Envelope.wire).filterMap (fun data => (Envelope.decode data).toOption) = envelopes := by
  rw [List.filterMap_map]
  calc envelopes.filterMap ((fun data => (Envelope.decode data).toOption) ∘ Envelope.wire)
      = envelopes.filterMap some := by
        apply List.filterMap_congr
        intro envelope member
        obtain ⟨named, limit⟩ := sendable envelope member
        simp [Envelope.decode_wire envelope named limit, Except.toOption]
    _ = envelopes := List.filterMap_some

/-- Logs of envelopes that may be published are read back as those envelopes. -/
theorem envelopes_of_logs {broker : Broker} {topic : String} {calls : List Envelope}
    {keeps : Nat → Envelope → Bool}
    (logs : broker.topics.getD topic [] =
      (List.range count).map fun slot => (calls.filter (keeps slot)).map Envelope.wire)
    (sendable : ∀ envelope ∈ calls, envelope.id.isNone = false ∧
      envelope.payload.length ≤ Envelope.maxPayload)
    (past : ∀ slot, count ≤ slot → calls.filter (keeps slot) = []) (slot : Nat) :
    broker.envelopes ⟨topic, slot⟩ = calls.filter (keeps slot) := by
  unfold Broker.envelopes Topics.log?
  rw [logs, Partition.slot, Int.toNat_natCast, List.getElem?_map]
  by_cases there : slot < count
  · have kept := decode_wires (calls.filter (keeps slot)) fun envelope member =>
      sendable envelope (List.mem_filter.mp member).1
    simpa [there] using kept
  · simp [there, past slot (Nat.le_of_not_lt there)]

/-- What a router's calls leave behind on a relay. -/
structure Filed (router : Router) (before : Relay) (calls : List Envelope) (reports : List DeliveryReport)
    (after : Relay) : Prop where
  /-- The logs of the messages topic, from the first to the last. -/
  messages : after.broker.topics.getD router.messagesTopic [] =
    (List.range (before.broker.topics.partitionCount router.messagesTopic)).map fun (slot : Nat) =>
      (calls.filter (router.deliversAt slot)).map Envelope.wire
  sender : after.broker.topics.getD router.senderTopic [] =
    (List.range (before.broker.topics.partitionCount router.senderTopic)).map fun (slot : Nat) =>
      (calls.filter (router.recordsAt slot)).map Envelope.wire
  others : ∀ topic ∉ [router.messagesTopic, router.senderTopic],
    after.broker.topics.getD topic [] = before.broker.topics.getD topic []
  /-- Nothing goes past the partitions that the router counts. -/
  beyond : ∀ slot : Nat, router.partitions.toNat ≤ slot →
    calls.filter (router.deliversAt slot) = [] ∧ calls.filter (router.recordsAt slot) = []
  /-- The records are read back. -/
  decoded : ∀ slot : Nat,
    after.broker.envelopes ⟨router.messagesTopic, slot⟩ = calls.filter (router.deliversAt slot) ∧
      after.broker.envelopes ⟨router.senderTopic, slot⟩ = calls.filter (router.recordsAt slot)
  /-- Nothing is dropped or refused. -/
  reports : reports.map (·.partition) = calls.flatMap router.places ∧
    ∀ report ∈ reports, report.failed = false
  /-- What the messages topic has for one recipient is on one partition, in the order of the calls. -/
  recipients : ∀ (user : UserId) (slot : Nat),
    (after.broker.envelopes ⟨router.messagesTopic, slot⟩).filter (·.recipient = user) =
      if Placement.index user router.partitions = slot then
        calls.filter fun envelope => envelope.recipient = user ∧ envelope.kindName ≠ Status.processed.name
      else []

/-- Routing is exact. However its table has grown, a router whose topics are apart and empty, and have the
partitions that it counts, leaves on each partition the envelopes of its users and nothing else, each once and
in the order of the calls. -/
theorem routes_file_by_user (router : Router) (relay : Relay) (counts : List (String × UInt32))
    (calls : List Envelope) (positive : 0 < router.partitions.toNat)
    (small : router.partitions.toNat < 0x80000000) (apart : router.messagesTopic ≠ router.senderTopic)
    (grown : relay.table = PartitionTable.grow {} counts) (calm : relay.broker.failingPublishes = 0)
    (room : ∀ topic ∈ [router.messagesTopic, router.senderTopic],
      router.partitions.toNat ≤ relay.broker.topics.partitionCount topic)
    (empty : ∀ topic ∈ [router.messagesTopic, router.senderTopic],
      ∀ log ∈ relay.broker.topics.getD topic [], log = [])
    (sendable : ∀ envelope ∈ calls, envelope.id.isNone = false ∧
      envelope.payload.length ≤ Envelope.maxPayload) :
    router.Filed relay calls ((relay.addRouter router).routeAll router calls).1
      ((relay.addRouter router).routeAll router calls).2 := by
  have inOrder : relay.table.InOrder := by
    rw [grown]
    exact PartitionTable.inOrder_empty.grow counts
  have serves := router.serves_addRouter relay positive small inOrder calm room
  obtain ⟨partitions, accepted, gains⟩ :=
    serves.gains_routeAll calls fun envelope member => (sendable envelope member).2
  have messages := gains.logs_of_empty (empty router.messagesTopic (by simp))
  have sender := gains.logs_of_empty (empty router.senderTopic (by simp))
  simp only [count_places_messages apart, count_places_sender apart, flatMap_replicate] at messages sender
  have beyond (slot : Nat) (past : router.partitions.toNat ≤ slot) :
      calls.filter (router.deliversAt slot) = [] ∧ calls.filter (router.recordsAt slot) = [] := by
    have none := not_deliversAt positive small (Int.ofNat_le.mpr past)
    exact ⟨List.filter_eq_nil_iff.mpr fun envelope _ => by simp [(none envelope).1],
      List.filter_eq_nil_iff.mpr fun envelope _ => by simp [(none envelope).2]⟩
  have enough := room router.messagesTopic (by simp)
  have delivered := envelopes_of_logs messages sendable fun slot past =>
    (beyond slot (Nat.le_trans enough past)).1
  have enough := room router.senderTopic (by simp)
  have recorded := envelopes_of_logs sender sendable fun slot past =>
    (beyond slot (Nat.le_trans enough past)).2
  refine ⟨messages, sender, ?_, beyond, fun slot => ⟨delivered slot, recorded slot⟩,
    ⟨partitions, accepted⟩, ?_⟩
  · intro topic other
    refine gains.logs_of_none fun slot => ?_
    simp [count_places_other other]
  · intro user slot
    rw [delivered, filter_deliversAt]

/-- A relay whose table was grown by others before, once by a count past the signed range. -/
def shared : Relay :=
  { broker := (Broker.createTopic {} "messages" 3).createTopic "sender" 2
    table := PartitionTable.grow {} [("messages", 1), ("other", 7), ("sender", 4000000000)] }

/-- A message and what becomes of it, between two messages to another user. -/
def conversation : List Envelope :=
  [.message ⟨⟨1⟩, ⟨1⟩, ⟨3⟩, [104]⟩, .message ⟨⟨2⟩, ⟨1⟩, ⟨2⟩, []⟩, .ack ⟨⟨2⟩, ⟨1⟩, ⟨2⟩, .processed⟩,
    .ack ⟨⟨2⟩, ⟨1⟩, ⟨2⟩, .delivered⟩, .ack ⟨⟨2⟩, ⟨1⟩, ⟨2⟩, .seen⟩, .message ⟨⟨3⟩, ⟨1⟩, ⟨3⟩, [105]⟩]

theorem conversation_filed :
    let router : Router := ⟨"p", "messages", "sender", 2⟩
    let routed := (shared.addRouter router).routeAll router conversation
    router.Filed shared conversation routed.1 routed.2 ∧
      routed.2.broker.envelopes ⟨"messages", 0⟩ = conversation.filter (router.deliversAt 0) := by
  have filed := routes_file_by_user ⟨"p", "messages", "sender", 2⟩ shared
    [("messages", 1), ("other", 7), ("sender", 4000000000)] conversation (by decide) (by decide)
    (by decide) rfl rfl (by decide +kernel) (by decide +kernel) (by decide +kernel)
  exact ⟨filed, (filed.decoded 0).1⟩

end Router
end ChatRelay
