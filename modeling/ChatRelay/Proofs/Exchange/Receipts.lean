import ChatRelay.Proofs.Chat.Merging
import ChatRelay.Proofs.Chat.Naming
import ChatRelay.Proofs.Consumer.Backlog
import ChatRelay.Proofs.Exchange.Backing

/-! Receipts are true, each is published once, and the chat store says no more than they do. Whatever is merged
was read, whatever is read was published, and receipts are published for pushes that reached a session. -/
namespace ChatRelay

/-- Some envelope in the logs says this about a chat. -/
def Topics.Tells (topics : Topics) (update : ChatUpdate) : Prop :=
  ∃ envelope, topics.Carries envelope ∧ ∃ source : ChatSource, update ∈ source.updates envelope

theorem Topics.Tells.mono {earlier later : Topics} (tells : earlier.Tells update)
    (within : earlier.Within later) : later.Tells update := by
  obtain ⟨envelope, carries, source, among⟩ := tells
  exact ⟨envelope, carries.mono within, source, among⟩

/-- Only a receipt tells a chat that a message was delivered, in the row of its sender about its receiver. -/
theorem ChatSource.receipt_of_delivered {source : ChatSource} (among : update ∈ source.updates envelope)
    (field : update.field = .otherUserDelivered) :
    ∃ ack, envelope = .ack ack ∧ update.key = .forPair ack.sender ack.receiver ∧ update.id = ack.id := by
  cases envelope with
  | message message =>
    have others : update.field = .newestMessage ∨ update.field = .processed := by
      cases source <;> simp only [updates, List.mem_cons, List.not_mem_nil, or_false] at among
      · rcases among with rfl | rfl
        · exact .inl rfl
        · exact .inr rfl
      · rw [among]
        exact .inl rfl
    rw [field] at others
    simp at others
  | ack ack =>
    refine ⟨ack, rfl, ?_⟩
    simp only [updates, List.mem_cons, List.not_mem_nil, or_false] at among
    rcases among with rfl | rfl <;> exact ⟨rfl, rfl⟩

private theorem getElem?_of_erase {entries : Std.ExtTreeMap Nat (List ChatUpdate)} {member other : Nat}
    (present : (entries.erase member)[other]? = some rest) : entries[other]? = some rest := by
  rw [Std.ExtTreeMap.getElem?_erase] at present
  split at present
  · cases present
  · exact present

namespace Exchange

variable {exchange : Exchange} {moves : List Move} {move : Move} {member site : Nat} {envelope : Envelope}

/-- What was merged, and what is left to merge, is in the logs. -/
structure Informed (exchange : Exchange) : Prop where
  unmerged : ∀ (member : Nat) rest, exchange.unmerged[member]? = some rest →
    ∀ update ∈ rest, exchange.topics.Tells update
  store : exchange.store.Told exchange.topics.Tells

theorem Informed.mono {next : Exchange} (informed : exchange.Informed)
    (within : exchange.topics.Within next.topics) (rows : next.store.rows = exchange.store.rows)
    (left : ∀ (member : Nat) rest, next.unmerged[member]? = some rest →
      exchange.unmerged[member]? = some rest) :
    next.Informed where
  unmerged member rest present update among :=
    (informed.unmerged member rest (left member rest present) update among).mono within
  store := (informed.store.of_rows rows).mono fun _ tells => tells.mono within

/-- A merge adds what an envelope says that was read. -/
theorem Informed.gather (informed : exchange.Informed)
    (within : exchange.topics.Within (exchange.gather member updates).topics)
    (tells : ∀ update ∈ updates, exchange.topics.Tells update) :
    (exchange.gather member updates).Informed := by
  have left : ∀ update ∈ exchange.unmerged.getD member updates, exchange.topics.Tells update := by
    rw [Std.ExtTreeMap.getD_eq_getD_getElem?]
    cases present : exchange.unmerged[member]? with
    | none => exact tells
    | some rest => exact informed.unmerged member rest present
  unfold Exchange.gather Gathering.merge at within ⊢
  cases pending : exchange.unmerged.getD member updates with
  | nil =>
    rw [pending] at within
    exact informed.mono within rfl fun _ _ => getElem?_of_erase
  | cons update rest =>
    rw [pending] at within left
    dsimp only at within ⊢
    cases merged : exchange.store.merge update with
    | mk answer store =>
      rw [merged] at within
      cases answer with
      | ok state =>
        refine ⟨?_, informed.store.merge (left update List.mem_cons_self) merged⟩
        intro other remaining present
        rw [Std.ExtTreeMap.getElem?_insert] at present
        split at present
        · cases present
          exact fun update among => left update (.tail _ among)
        · exact informed.unmerged other remaining present
      | error failure =>
        exact informed.mono within (ChatStore.merge_error merged).1 fun _ _ => getElem?_of_erase

theorem Informed.step (informed : exchange.Informed) (sound : exchange.crew.Sound) (move : Move) :
    (exchange.step move).Informed := by
  have within := exchange.within_step move
  have leads := exchange.leads_step move
  generalize exchange.step move = next at leads within
  cases leads with
  | idle | ensured | attended | armed | pushed => exact informed.mono within rfl fun _ _ => id
  | @engaged duty =>
    cases duty <;> exact informed.mono within rfl fun _ _ => id
  | routed =>
    rw [publish_eq] at within ⊢
    exact informed.mono within rfl fun _ _ => id
  | acknowledged =>
    rw [acknowledge_eq] at within ⊢
    exact informed.mono within rfl fun _ _ => id
  | merged duty facing =>
    exact informed.gather within fun update among => ⟨_, sound.carries facing, _, among⟩
  | @acted made =>
    refine informed.mono within rfl ?_
    intro other rest present
    cases made with
    | leave member => exact getElem?_of_erase present
    | createTopic | failPublishes | append | join | synchronise | take => exact present

theorem informed_after (moves : List Move) : (after moves).Informed := by
  induction moves using List.reverseRecOn with
  | nil =>
    refine ⟨fun member rest present => ?_, fun key present => ?_, fun key field => .inl ?_⟩
    · simp [after, run] at present
    · simp [after, run] at present
    · cases field <;> rfl
  | append_singleton moves move ih =>
    rw [after_concat]
    exact ih.step (sound_after moves) move

end Exchange

/-- The receipt that a posting tells a member to have published. -/
def Posting.published? (member : Nat) : Posting → Option Envelope
  | .acknowledged other receipt (some _) => if other = member then some receipt else none
  | .acknowledged _ _ none | .pushed .. => none

/-- The receipt that is due for what a member pushed. -/
def Posting.due? (member : Nat) : Posting → Option Envelope
  | .pushed other envelope outcome => if other = member then Envelope.receipt? outcome envelope else none
  | .acknowledged .. => none

namespace Exchange

variable {exchange : Exchange} {moves : List Move} {move : Move} {member site : Nat} {envelope : Envelope}

/-- Each receipt that is due was published, once and in its turn, or is owed. -/
def Settled (exchange : Exchange) : Prop :=
  ∀ member : Nat, exchange.postings.filterMap (·.published? member) ++ exchange.owed[member]?.toList =
    exchange.postings.filterMap (·.due? member)

theorem Settled.push (settled : exchange.Settled) (pushing : exchange.Pushing member site envelope) :
    (exchange.push member site envelope).Settled := by
  intro other
  rw [postings_push, owed_push, List.filterMap_append, List.filterMap_append, ← settled other]
  generalize ((exchange.siteAt site).sessions.deliver envelope.recipient envelope).1 = outcome
  cases due : Envelope.receipt? outcome envelope with
  | none => simp [Posting.published?, Posting.due?, due]
  | some receipt =>
    by_cases same : member = other
    · subst same
      simp [Posting.published?, Posting.due?, due, pushing.free]
    · simp [Posting.published?, Posting.due?, same, Std.ExtTreeMap.getElem?_insert]

theorem Settled.acknowledge (settled : exchange.Settled) (due : exchange.owed[member]? = some receipt)
    (reported : (exchange.publish site router receipt 0).1 = some report) :
    (exchange.acknowledge member site router receipt).Settled := by
  intro other
  rw [acknowledge_eq, reported]
  dsimp only
  rw [List.filterMap_append, List.filterMap_append, ← settled other]
  by_cases same : member = other
  · subst same
    simp [Posting.published?, Posting.due?, due]
  · simp [Posting.published?, Posting.due?, same, Std.ExtTreeMap.getElem?_erase]

/-- A receipt has one destination, which the router of the receivers knows. -/
theorem Served.known (served : exchange.Served)
    (duty : exchange.duties[member]? = some (.receivers site outlet)) (message : Message) :
    ∃ target, (outlet.router.destinations (.ack (.ofMessage message .delivered)))[0]?.bind
      (outlet.router.target? (exchange.siteAt site).table) = some target :=
  served member site outlet duty message.sender

/-- An offset that is reported is where the record is. -/
theorem publish_lands (reported : (exchange.publish site router envelope destination).1 = some report)
    (accepted : report.result = .ok offset) :
    ∃ data, envelope.encode = .ok data ∧
      (exchange.publish site router envelope destination).2.topics.record? report.partition offset =
        some data := by
  cases known : (router.destinations envelope)[destination]?.bind
      (router.target? (exchange.siteAt site).table) with
  | none =>
    unfold publish at reported
    rw [known] at reported
    cases reported
  | some target =>
    obtain ⟨gives, broker⟩ := publish_known known
    cases gives.symm.trans reported
    have outcome := exchange.crew.cluster.broker.publish_reported router.producer envelope target
    obtain ⟨data, log, written, _, rfl, grown⟩ := (outcome.grown _).mp accepted
    refine ⟨data, written, ?_⟩
    have there := grown target
    rw [if_pos rfl] at there
    rw [topics, broker, Broker.partition_publish, Topics.record?, (Broker.log?_eq_some_iff.mp there).2]
    simp

theorem Settled.step (settled : exchange.Settled) (served : exchange.Served)
    (owed : ∀ (member : Nat) receipt, exchange.owed[member]? = some receipt →
      ∃ message, receipt = .ack (.ofMessage message .delivered)) (move : Move) :
    (exchange.step move).Settled := by
  have leads := exchange.leads_step move
  generalize exchange.step move = next at leads
  cases leads with
  | idle | ensured | attended | armed | merged | acted => exact settled
  | @engaged duty => cases duty <;> exact settled
  | routed =>
    rw [publish_eq]
    exact settled
  | pushed pushing => exact settled.push pushing
  | acknowledged duty due =>
    obtain ⟨message, rfl⟩ := owed _ _ due
    obtain ⟨target, known⟩ := served.known duty message
    exact settled.acknowledge due (publish_known known).1

theorem settled_after (moves : List Move) : (after moves).Settled := by
  induction moves using List.reverseRecOn with
  | nil =>
    intro member
    simp [after, run]
  | append_singleton moves move ih =>
    rw [after_concat]
    refine ih.step (served_after moves) (fun member receipt due => ?_) move
    obtain ⟨message, _, _, same, _⟩ := (backed_after moves).owed member receipt due
    exact ⟨message, same⟩

/-- Receipts that the broker accepted are where it says. -/
def Landed (exchange : Exchange) : Prop :=
  ∀ member receipt report offset, .acknowledged member receipt (some report) ∈ exchange.postings →
    report.result = .ok offset →
      ∃ data, exchange.topics.record? report.partition offset = some data ∧
        Envelope.decode data = .ok receipt

theorem Landed.mono {next : Exchange} (landed : exchange.Landed)
    (within : exchange.topics.Within next.topics)
    (postings : ∀ member receipt report, .acknowledged member receipt report ∈ next.postings →
      .acknowledged member receipt report ∈ exchange.postings) : next.Landed := by
  intro member receipt report offset posted accepted
  obtain ⟨data, present, read⟩ := landed member receipt report offset (postings _ _ _ posted) accepted
  exact ⟨data, within present, read⟩

theorem Landed.step (landed : exchange.Landed)
    (readable : ∀ (member : Nat) receipt data, exchange.owed[member]? = some receipt →
      receipt.encode = .ok data → Envelope.decode data = .ok receipt) (move : Move) :
    (exchange.step move).Landed := by
  have within := exchange.within_step move
  have leads := exchange.leads_step move
  generalize exchange.step move = next at leads within
  cases leads with
  | idle | ensured | attended | armed | merged | acted => exact landed.mono within fun _ _ _ => id
  | @engaged duty => cases duty <;> exact landed.mono within fun _ _ _ => id
  | routed =>
    rw [publish_eq] at within ⊢
    exact landed.mono within fun _ _ _ => id
  | pushed =>
    refine landed.mono within fun other receipt report posted => ?_
    rw [postings_push] at posted
    simpa using posted
  | @acknowledged member receipt site outlet duty due =>
    intro other posted report offset among accepted
    rw [acknowledge_eq] at among within ⊢
    rcases List.mem_append.mp among with earlier | last
    · obtain ⟨data, present, read⟩ := landed other posted report offset earlier accepted
      exact ⟨data, within present, read⟩
    · obtain ⟨rfl, rfl, reported⟩ := Posting.acknowledged.inj (List.mem_singleton.mp last)
      obtain ⟨data, written, present⟩ := publish_lands reported.symm accepted
      exact ⟨data, present, readable _ _ _ due written⟩

/-- The message of a receipt was read, so that the receipt can be read. -/
theorem Reaches.readable (reaches : Reaches moves member message)
    (written : (Envelope.ack (.ofMessage message .delivered)).encode = .ok data) :
    Envelope.decode data = .ok (.ack (.ofMessage message .delivered)) := by
  obtain ⟨site, session, pushing, _⟩ := reaches.pushed
  obtain ⟨_, _, _, _, _, read⟩ := (sound_after moves).carries pushing.facing
  have named := (Envelope.decode_eq_ok_iff.mp read).1
  obtain ⟨limit, rfl⟩ := Envelope.encode_eq_ok_iff.mp written
  exact Envelope.decode_wire _ named limit

theorem landed_after (moves : List Move) : (after moves).Landed := by
  induction moves using List.reverseRecOn with
  | nil =>
    intro member receipt report offset posted
    simp [after, run] at posted
  | append_singleton moves move ih =>
    rw [after_concat]
    refine ih.step (fun member receipt data due written => ?_) move
    obtain ⟨message, _, _, rfl, _, reaches⟩ := (backed_after moves).owed member receipt due
    exact reaches.readable written

/-- What is true of receipts after these moves. -/
structure Truthful (moves : List Move) : Prop where
  /-- What a log says to have been delivered was routed, and pushed to a session of its receiver before the
  log said so; and no log says anything else of a message. -/
  receipts : ∀ topic (slot offset : Nat) data ack,
    (after moves).topics.record? ⟨topic, slot⟩ offset = some data → Envelope.decode data = .ok (.ack ack) →
      ∃ message earlier member, ack = .ofMessage message .delivered ∧
        earlier ++ [.push member] <+: moves ∧ Reaches earlier member message ∧
        (after (earlier ++ [.push member])).topics.record? ⟨topic, slot⟩ offset = none
  /-- The next push is delivered if and only if the recipient has a session then. -/
  outcomes : ∀ member site envelope, (after moves).Pushing member site envelope → ∃ outcome,
    (after (moves ++ [.push member])).postings =
      (after moves).postings ++ [.pushed member envelope outcome] ∧
    (outcome = .delivered ↔
      ∃ session, ((after moves).siteAt site).sessions.Listens envelope.recipient session)
  published : (after moves).Settled
  accepted : (after moves).Landed
  /-- The row of `owner` knows of no delivery, or of a message to the other user that reached him. -/
  chats : ∀ owner other, (after moves).store.value (.forPair owner other) .otherUserDelivered = 0 ∨
    ∃ message earlier member,
      (after moves).store.value (.forPair owner other) .otherUserDelivered = message.id.value.toInt ∧
      message.sender = owner ∧ message.receiver = other ∧
      earlier ++ [.push member] <+: moves ∧ Reaches earlier member message

/-- No receipt is false. Whatever was done in whatever order, an acknowledgement in a log says of a message
that was routed that it was delivered, and it had been pushed to a session of its receiver before. For each
push of a message that reaches a session its member publishes one receipt, in turn, and for no other push any.
And what the chat store says to have been delivered was. -/
theorem no_false_receipts (moves : List Move) : Truthful moves where
  receipts := (backed_after moves).acks
  outcomes member site envelope pushing := by
    refine ⟨_, ?_, (orderly_after moves site).delivered_iff envelope⟩
    rw [after_concat, step_push pushing]
    rfl
  published := settled_after moves
  accepted := landed_after moves
  chats owner other := by
    rcases (informed_after moves).store.values (.forPair owner other) .otherUserDelivered with
      zero | ⟨update, ⟨envelope, carries, source, among⟩, ⟨row, field⟩, value⟩
    · exact .inl zero
    · obtain ⟨ack, rfl, key, id⟩ := ChatSource.receipt_of_delivered among field
      obtain ⟨topic, slot, offset, data, present, read⟩ := carries
      obtain ⟨message, earlier, member, rfl, part, reaches, _⟩ :=
        (backed_after moves).acks topic slot offset data ack present read
      obtain ⟨rfl, rfl⟩ := ChatKey.forPair_inj (row.symm.trans key)
      exact .inr ⟨message, earlier, member, by rw [value, id]; rfl, rfl, rfl, part, reaches⟩

def post : Outlet := ⟨⟨"p", "messages", "sender", 2⟩, by decide, by decide⟩

/-- The receiver misses the first message. He gets the second, and is gone before its receipt is published. -/
def correspondence : List Move :=
  [.other (.createTopic "messages" 2), .engage (.receivers 0 post) "a" "receivers" 10 ["messages"],
    .engage (.chats .messagesTopic) "b" "state" 10 ["messages"],
    .route 0 post ⟨⟨4⟩, ⟨1⟩, ⟨2⟩, []⟩ 0, .other (.synchronise 1), .other (.take 1 .poll), .push 1,
    .other (.take 1 .commit), .attend 0 (.connect ⟨2⟩), .route 0 post ⟨⟨5⟩, ⟨1⟩, ⟨2⟩, [104, 105]⟩ 0,
    .other (.take 1 .poll), .push 1, .attend 0 (.disconnect ⟨2⟩ 1), .acknowledge 1,
    .other (.synchronise 2), .other (.take 2 .poll), .merge 2, .merge 2, .merge 2, .merge 2, .merge 2,
    .merge 2]

theorem correspondence_told :
    (after correspondence).store.value (.forPair ⟨1⟩ ⟨2⟩) .otherUserDelivered = 5 ∧
      ∃ message earlier member, message.id.value.toInt = 5 ∧ message.sender = ⟨1⟩ ∧ message.receiver = ⟨2⟩ ∧
        earlier ++ [.push member] <+: correspondence ∧ Reaches earlier member message := by
  have told : (after correspondence).store.value (.forPair ⟨1⟩ ⟨2⟩) .otherUserDelivered = 5 := by
    decide +kernel
  refine ⟨told, ?_⟩
  rcases (no_false_receipts correspondence).chats ⟨1⟩ ⟨2⟩ with
    zero | ⟨message, earlier, member, value, reached⟩
  · rw [told] at zero
    cases zero
  · exact ⟨message, earlier, member, value.symm.trans told, reached⟩

end Exchange
end ChatRelay
