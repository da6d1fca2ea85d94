import ChatRelay.Proofs.Exchange

/-! The calls of an instance in full. Left to itself, an exchange makes of a message that is routed, and of an
envelope that is processed, what the relay of the instance makes of it in one go. -/
namespace ChatRelay

namespace Relay

theorem publishAll_append (relay : Relay) (producer : String) (envelope : Envelope)
    (first second : List Partition) :
    (relay.publishAll producer envelope (first ++ second)).2 =
      ((relay.publishAll producer envelope first).2.publishAll producer envelope second).2 := by
  induction first generalizing relay with
  | nil => rfl
  | cons target first ih => exact ih (relay.publish producer envelope target).2

theorem publishAll_frame (relay : Relay) (producer : String) (envelope : Envelope)
    (targets : List Partition) :
    (relay.publishAll producer envelope targets).2.table = relay.table ∧
      (relay.publishAll producer envelope targets).2.sessions = relay.sessions ∧
      (relay.publishAll producer envelope targets).2.chats = relay.chats := by
  induction targets generalizing relay with
  | nil => exact ⟨rfl, rfl, rfl⟩
  | cons target targets ih => exact ih (relay.publish producer envelope target).2

/-- A push is a delivery and the publication of the receipt that is due, if any. -/
theorem push_eq_route (relay : Relay) (router : Router) (envelope : Envelope) :
    relay.push router envelope =
      match Envelope.receipt? (relay.deliver envelope).1 envelope with
      | some receipt => (relay.deliver envelope).2.route router receipt
      | none => ([], (relay.deliver envelope).2) := by
  unfold push
  rcases relay.deliver envelope with ⟨outcome, pushed⟩
  cases outcome <;> cases envelope <;> rfl

end Relay

theorem Router.targets_eq (router : Router) (table : PartitionTable) (envelope : Envelope) :
    router.targets table envelope =
      (router.destinations envelope).flatMap fun destination =>
        (router.target? table destination).toList := by
  have targets : router.targets table envelope =
      (router.destinations envelope).filterMap (router.target? table) := rfl
  rw [targets, List.filterMap_eq_flatMap_toList]

namespace Exchange

variable {exchange : Exchange} {member site : Nat} {envelope : Envelope} {relay : Relay} {router : Router}

/-- The reports that receivers were given for what they published. -/
def reports (exchange : Exchange) : List DeliveryReport :=
  exchange.postings.flatMap fun posting =>
    match posting with
    | .acknowledged _ _ report => report.toList
    | .pushed .. => []

/-- A site and a relay have the same partitions and sessions, and share broker and chats. -/
structure Matches (exchange : Exchange) (site : Nat) (relay : Relay) : Prop where
  broker : exchange.crew.cluster.broker = relay.broker
  table : (exchange.siteAt site).table = relay.table
  sessions : (exchange.siteAt site).sessions = relay.sessions
  chats : exchange.store = relay.chats

/-- A publication is one of the relay's, or none where no partition is known. -/
theorem Matches.publish (same : exchange.Matches site relay) (router : Router) (envelope : Envelope)
    (destination : Nat) :
    let targets := ((router.destinations envelope)[destination]?.bind (router.target? relay.table)).toList
    (exchange.publish site router envelope destination).2.Matches site
        (relay.publishAll router.producer envelope targets).2 ∧
      (exchange.publish site router envelope destination).1.toList =
        (relay.publishAll router.producer envelope targets).1 := by
  rw [← same.table]
  cases known : (router.destinations envelope)[destination]?.bind
      (router.target? (exchange.siteAt site).table) with
  | none =>
    unfold Exchange.publish
    rw [known]
    exact ⟨same, rfl⟩
  | some target =>
    obtain ⟨report, broker⟩ := publish_known known
    rw [report, same.broker]
    rw [same.broker] at broker
    rw [publish_eq]
    exact ⟨⟨broker, same.table, same.sessions, same.chats⟩, rfl⟩

/-- Routing a message is to make its two publications, the receiver's before the sender's. -/
theorem route_stretch (same : exchange.Matches site relay) (outlet : Outlet) (message : Message) :
    (exchange.run [.route site outlet message 0, .route site outlet message 1]).Matches site
      (relay.route outlet.router (.message message)).2 := by
  have first := (same.publish outlet.router (.message message) 0).1
  have second := (first.publish outlet.router (.message message) 1).1
  rw [(relay.publishAll_frame ..).1, ← Relay.publishAll_append] at second
  have both : outlet.router.targets relay.table (.message message) =
      (outlet.router.target? relay.table (outlet.router.messagesTopic, message.receiver)).toList ++
        (outlet.router.target? relay.table (outlet.router.senderTopic, message.sender)).toList := by
    simp [outlet.router.targets_eq, Router.destinations]
  rw [Relay.route, both]
  exact second

/-- A push does to the sessions what the relay's delivery does. -/
theorem Matches.push (same : exchange.Matches site relay) (member : Nat) (envelope : Envelope) :
    (exchange.push member site envelope).Matches site (relay.deliver envelope).2 := by
  have place := exchange.siteAt_push member site envelope
  refine ⟨(congrArg Cluster.broker (Mailing.cluster_process ..)).trans same.broker, ?_, ?_, same.chats⟩
  · rw [place]
    exact same.table
  · rw [place, same.sessions]
    rfl

theorem reports_push (exchange : Exchange) (member site : Nat) (envelope : Envelope) :
    (exchange.push member site envelope).reports = exchange.reports := by
  rw [reports, postings_push]
  simp [reports]

theorem Matches.owed_push (same : exchange.Matches site relay) (free : exchange.owed[member]? = none)
    (envelope : Envelope) :
    (exchange.push member site envelope).owed[member]? =
      Envelope.receipt? (relay.deliver envelope).1 envelope := by
  have outcome : ((exchange.siteAt site).sessions.deliver envelope.recipient envelope).1 =
      (relay.deliver envelope).1 := by
    rw [same.sessions]
    rfl
  rw [Exchange.owed_push, outcome]
  cases Envelope.receipt? (relay.deliver envelope).1 envelope with
  | none => exact free
  | some receipt => exact Std.ExtTreeMap.getElem?_insert_self

/-- Publishing a receipt that is due is to route it: it has one destination. -/
theorem Matches.acknowledge (same : exchange.Matches site relay) (router : Router)
    (due : Envelope.receipt? outcome envelope = some receipt) (member : Nat) :
    let reached := exchange.acknowledge member site router receipt
    reached.Matches site (relay.route router receipt).2 ∧
      reached.reports = exchange.reports ++ (relay.route router receipt).1 := by
  obtain ⟨published, reported⟩ := same.publish router receipt 0
  obtain ⟨destination, only⟩ := List.length_eq_one_iff.mp (router.destinations_receipt due)
  have target : router.targets relay.table receipt =
      ((router.destinations receipt)[0]?.bind (router.target? relay.table)).toList := by
    simp [router.targets_eq, only]
  dsimp only
  rw [Relay.route, target]
  refine ⟨⟨published.broker, published.table, published.sessions, published.chats⟩, ?_⟩
  rw [← reported, acknowledge_eq]
  simp [reports]

/-- The processor of receivers, given an envelope in one go, pushes it and then acknowledges. -/
theorem process_stretch (same : exchange.Matches site relay) (pushing : exchange.Pushing member site envelope)
    (duty : exchange.duties[member]? = some (.receivers site outlet)) :
    let processing := (Processor.receivers outlet.router).process envelope relay
    let reached := exchange.run [.push member, .acknowledge member]
    reached.Matches site processing.relay ∧ processing.result = .ok () ∧
      reached.reports = exchange.reports ++ processing.reports := by
  have run : exchange.run [.push member, .acknowledge member] =
      (exchange.push member site envelope).step (.acknowledge member) := by
    rw [Exchange.run, List.foldl_cons, step_push pushing, List.foldl_cons, List.foldl_nil]
  have pushed := same.push member envelope
  have kept : (exchange.push member site envelope).duties[member]? = some (.receivers site outlet) := duty
  have owed := same.owed_push pushing.free envelope
  have processing : (Processor.receivers outlet.router).process envelope relay =
      ⟨.ok (), (relay.push outlet.router envelope).1, .receivers outlet.router,
        (relay.push outlet.router envelope).2⟩ := rfl
  dsimp only
  rw [run, processing, relay.push_eq_route, ← exchange.reports_push member site envelope]
  cases due : Envelope.receipt? (relay.deliver envelope).1 envelope with
  | none =>
    have idle : (exchange.push member site envelope).step (.acknowledge member) =
        exchange.push member site envelope := by
      simp only [step, kept, owed, due]
    rw [idle]
    exact ⟨pushed, rfl, (List.append_nil _).symm⟩
  | some receipt =>
    have acknowledges : (exchange.push member site envelope).step (.acknowledge member) =
        (exchange.push member site envelope).acknowledge member site outlet.router receipt := by
      simp only [step, kept, owed, due]
    obtain ⟨reached, reported⟩ := pushed.acknowledge outlet.router due member
    rw [acknowledges]
    exact ⟨reached, rfl, reported⟩

end Exchange
end ChatRelay
