import ChatRelay.Proofs.Crew.Solo
import ChatRelay.Proofs.Envelope.Verdict
import ChatRelay.Proofs.Mailing
import ChatRelay.Proofs.Partition.Known

/-! What a session is sent, if one loop alone pushes to sessions. The router files each envelope at the place of
its recipient, the loop gets past the records there one after the other, and each envelope that it gets past
goes to the sessions of its recipient at that moment. -/
namespace ChatRelay

namespace Receivers

variable {receivers : Receivers} {topics : Topics}

/-- What can be read of the topic lies at the place of its recipient. -/
def Filed (receivers : Receivers) (topics : Topics) : Prop :=
  ∀ (slot offset : Nat) data envelope, topics.record? ⟨receivers.topic, slot⟩ offset = some data →
    Envelope.decode data = .ok envelope → receivers.place envelope.recipient = ⟨receivers.topic, slot⟩

theorem filed_empty (receivers : Receivers) : receivers.Filed ∅ := by
  intro slot offset data envelope found
  simp [Topics.record?, Topics.log?] at found

theorem Filed.of_mem (filed : receivers.Filed topics) {slot : Nat}
    (among : record ∈ topics.records ⟨receivers.topic, slot⟩) (body : record.body = .ok envelope) :
    receivers.place envelope.recipient = ⟨receivers.topic, slot⟩ := by
  obtain ⟨offset, found⟩ := List.mem_iff_getElem?.mp among
  rw [Topics.getElem?_records, Option.map_eq_some_iff] at found
  obtain ⟨data, present, rfl⟩ := found
  exact filed slot offset data envelope present body

end Receivers

namespace Mailing

variable {receivers : Receivers} {mailing : Mailing} {move : Move} {moves : List Move} {made : Crew.Move}
variable {user : UserId} {session : Nat}

/-- The router files what it publishes. -/
theorem Sends.filed {table : PartitionTable} (sends : Sends receivers table target data)
    (inOrder : table.InOrder) (apart : receivers.router.messagesTopic ≠ receivers.router.senderTopic)
    (here : target.topic = receivers.topic) (read : Envelope.decode data = .ok envelope) :
    receivers.place envelope.recipient = target := by
  obtain ⟨sent, ⟨topic, user⟩, among, known, written⟩ := sends
  cases Envelope.eq_of_decode written read
  have placed : target = ⟨topic, Placement.index user receivers.router.partitions⟩ :=
    inOrder.eq_of_get? known
  subst placed
  cases here
  rw [← receivers.router.eq_recipient apart among]
  rfl

/-- The topic that the receivers read is written by the router alone and stays within the signed range, and one
loop at most is ever set up for the receivers. -/
structure Proper (receivers : Receivers) (moves : List Move) : Prop where
  routed : ∀ partition data, .other (.append partition data) ∈ moves → partition.topic ≠ receivers.topic
  bounded : ∀ partitions, .other (.createTopic receivers.topic partitions) ∈ moves → partitions ≤ 0x7fffffff
  sole : moves.countP (· matches .join ..) ≤ 1

theorem Proper.of_append (proper : Proper receivers (moves ++ more)) : Proper receivers moves where
  routed partition data among := proper.routed partition data (List.mem_append_left _ among)
  bounded partitions among := proper.bounded partitions (List.mem_append_left _ among)
  sole := by
    have sole := proper.sole
    rw [List.countP_append] at sole
    omega

theorem cluster_after (receivers : Receivers) (moves : List Move) :
    ∃ acts, (after receivers moves).crew.cluster = Cluster.after acts ∧
      ∀ topic partitions, .createTopic topic partitions ∈ acts →
        .other (.createTopic topic partitions) ∈ moves := by
  obtain ⟨made, same, among⟩ := crew_after receivers moves
  obtain ⟨acts, reached, asked⟩ := Crew.acts_run {} made
  refine ⟨acts, ?_, fun topic partitions created => among topic partitions (asked topic partitions created)⟩
  rw [same]
  exact reached

theorem cluster_sound_after (receivers : Receivers) (moves : List Move) :
    (after receivers moves).crew.cluster.Sound := by
  obtain ⟨acts, same, _⟩ := cluster_after receivers moves
  rw [same]
  exact Cluster.sound_after acts

theorem staffed_after (receivers : Receivers) (moves : List Move) :
    (after receivers moves).crew.cluster.Staffed := by
  obtain ⟨acts, same, _⟩ := cluster_after receivers moves
  rw [same]
  exact Cluster.staffed_after acts

theorem sharedOut_after (receivers : Receivers) (moves : List Move) (group : String) :
    ((after receivers moves).crew.cluster.broker.group group).SharedOut
      (after receivers moves).crew.cluster.broker.topics := by
  obtain ⟨acts, same, _⟩ := cluster_after receivers moves
  rw [same]
  exact Cluster.sharedOut_after acts group

theorem Proper.partitionCount_le (proper : Proper receivers moves) :
    (after receivers moves).crew.cluster.broker.topics.partitionCount receivers.topic ≤ 0x7fffffff := by
  obtain ⟨acts, same, among⟩ := cluster_after receivers moves
  rw [same]
  exact Cluster.partitionCount_after fun partitions asked =>
    proper.bounded partitions (among receivers.topic partitions asked)

theorem inOrder_after (receivers : Receivers) (moves : List Move) : (after receivers moves).table.InOrder := by
  induction moves using List.reverseRecOn with
  | nil => exact PartitionTable.inOrder_empty
  | append_singleton moves move ih =>
    rw [after_concat, table_step]
    split
    · exact ih.ensure _ _
    · exact ih

theorem numbered_after (receivers : Receivers) (moves : List Move) :
    (after receivers moves).sessions.Numbered := by
  induction moves using List.reverseRecOn with
  | nil => exact SessionRegistry.numbered_empty
  | append_singleton moves move ih =>
    rw [after_concat, sessions_step]
    split
    · exact ih.connect _
    · exact ih.disconnect _ _
    · exact ih.dropInbox _
    · exact ih.receive _
    · split
      · exact ih
      · exact ih.deliver _ _
    · exact ih

theorem lastId_step (receivers : Receivers) (mailing : Mailing) (move : Move) :
    mailing.sessions.lastId ≤ (mailing.step receivers move).sessions.lastId := by
  rw [sessions_step]
  split
  · exact Nat.le_succ _
  · exact Nat.le_refl _
  · exact Nat.le_refl _
  · exact Nat.le_of_eq (SessionRegistry.lastId_receive ..).symm
  · split
    · exact Nat.le_refl _
    · exact Nat.le_of_eq (SessionRegistry.lastId_deliver ..).symm
  · exact Nat.le_refl _

/-- Nothing was received at a session that has yet to connect. -/
theorem taken_after (receivers : Receivers) (moves : List Move)
    (fresh : (after receivers moves).sessions.lastId < session) :
    (after receivers moves).taken.getD session [] = [] := by
  induction moves using List.reverseRecOn with
  | nil => simp [after, run]
  | append_singleton moves move ih =>
    rw [after_concat] at fresh ⊢
    have earlier := Nat.lt_of_le_of_lt (lastId_step receivers (after receivers moves) move) fresh
    have none := ih earlier
    rw [taken_step]
    split
    · rename_i other
      rw [Std.ExtTreeMap.getD_insert]
      split
      · rename_i same
        rw [Std.LawfulEqCmp.eq_of_compare same, received, none,
          (numbered_after receivers moves).waiting_eq_nil earlier]
        rfl
      · exact none
    · exact none

theorem Makes.of_join {id : String}
    (makes : Makes receivers mailing move (.join id receivers.group maxRecords topics)) :
    move = .join id maxRecords ∧ topics = [receivers.topic] := by
  cases makes with
  | join => exact ⟨rfl, rfl⟩
  | other allowed => simp [allows] at allowed

theorem Makes.accepted {failure : Failure}
    (makes : Makes receivers mailing move (.take member (.process (.error failure)))) :
    mailing.crew.cluster.groupOf? member ≠ some receivers.group := by
  cases makes with
  | other allowed => simpa [allows] using allowed

theorem unused_after (receivers : Receivers) (moves : List Move)
    (unjoined : moves.countP (· matches .join ..) = 0) :
    (after receivers moves).crew.Unused receivers.group := by
  induction moves using List.reverseRecOn with
  | nil => exact Crew.unused_empty _
  | append_singleton moves move ih =>
    rw [List.countP_append, Nat.add_eq_zero_iff] at unjoined
    have unused := ih unjoined.1
    rw [after_concat]
    rcases crew_step receivers (after receivers moves) move with kept | ⟨made, makes, stepped⟩
    · rw [kept]
      exact unused
    · rw [stepped]
      refine unused.step (cluster_sound_after receivers moves) ?_
      rintro id maxRecords topics rfl
      obtain ⟨rfl, _⟩ := makes.of_join
      simp at unjoined

/-- What the pushes rest on: the loop reads no other topic, and gets past the records one after the other, and
they lie where their recipients are looked for. -/
structure Arranged (receivers : Receivers) (crew : Crew) : Prop where
  confined : crew.cluster.Confined receivers.group receivers.topic
  filed : receivers.Filed crew.cluster.broker.topics
  solo : crew.Solo receivers.group receivers.topic

theorem Makes.confined (makes : Makes receivers mailing move made) (sound : mailing.crew.cluster.Sound)
    (confined : mailing.crew.cluster.Confined receivers.group receivers.topic) :
    (mailing.crew.step made).cluster.Confined receivers.group receivers.topic := by
  rcases mailing.crew.cluster_step made with same | ⟨act, cluster, unsubscribed, joined⟩
  · rw [same]
    exact confined
  · rw [cluster]
    refine confined.step sound ?_
    cases act with
    | join id group maxRecords topics =>
      rintro rfl
      cases joined _ _ _ _ rfl
      exact makes.of_join.2
    | operate member operation =>
      cases operation with
      | subscribe topics => exact unsubscribed member topics rfl
      | synchronise | fetch | commit | rewind => exact trivial
    | createTopic | failPublishes | append | leave => exact trivial

theorem Makes.filed (makes : Makes receivers mailing move made) (inOrder : mailing.table.InOrder)
    (apart : receivers.router.messagesTopic ≠ receivers.router.senderTopic)
    (routed : ∀ partition data, move = .other (.append partition data) → partition.topic ≠ receivers.topic)
    (filed : receivers.Filed mailing.crew.cluster.broker.topics) :
    receivers.Filed (mailing.crew.step made).cluster.broker.topics := by
  intro slot offset data envelope found read
  rcases mailing.crew.record?_step made (Int.natCast_nonneg slot) found with there | rfl
  · exact filed slot offset data envelope there read
  · cases makes with
    | publish _ _ sends | acknowledge _ sends => exact sends.filed inOrder apart rfl read
    | other => exact absurd rfl (routed _ _ rfl)

theorem arranged_after (apart : receivers.router.messagesTopic ≠ receivers.router.senderTopic)
    (proper : Proper receivers moves) : Arranged receivers (after receivers moves).crew := by
  induction moves using List.reverseRecOn with
  | nil =>
    refine ⟨⟨fun _ found => ?_, fun _ _ found => ?_⟩, receivers.filed_empty,
      (Crew.unused_empty receivers.group).solo receivers.topic⟩
    · simp [after, run] at found
    · simp [after, run] at found
  | append_singleton moves move ih =>
    obtain ⟨confined, filed, solo⟩ := ih proper.of_append
    have sound := cluster_sound_after receivers moves
    rw [after_concat]
    rcases crew_step receivers (after receivers moves) move with kept | ⟨made, makes, stepped⟩
    · rw [kept]
      exact ⟨confined, filed, solo⟩
    · rw [stepped]
      refine ⟨makes.confined sound confined, makes.filed (inOrder_after receivers moves) apart ?_ filed, ?_⟩
      · rintro partition data rfl
        exact proper.routed partition data (by simp)
      · -- before the only loop is set up nobody read for the group, and after that nobody else joins
        by_cases joins : ∃ id maxRecords topics, made = .join id receivers.group maxRecords topics
        · obtain ⟨id, maxRecords, topics, rfl⟩ := joins
          obtain ⟨rfl, rfl⟩ := makes.of_join
          have unjoined : moves.countP (· matches .join ..) = 0 := by
            simpa [List.countP_append] using proper.sole
          exact (unused_after receivers moves unjoined).join sound id maxRecords receivers.topic
        · simp only [not_exists] at joins
          refine solo.step sound (staffed_after receivers moves) (sharedOut_after receivers moves _)
            proper.of_append.partitionCount_le confined.broker joins ?_
          rintro member failure rfl
          exact makes.accepted

/-- Only pushes get the receivers past envelopes. -/
theorem envelopes_step (receivers : Receivers) (sound : mailing.crew.cluster.Sound)
    (quiet : ∀ member, move ≠ .deliver member) (partition : Partition) :
    (mailing.step receivers move).crew.envelopes receivers.group partition =
      mailing.crew.envelopes receivers.group partition := by
  rcases crew_step receivers mailing move with kept | ⟨made, makes, stepped⟩
  · rw [kept]
  · rw [stepped]
    apply Crew.envelopes_step sound
    rintro member answer rfl
    cases makes with
    | deliver => exact absurd rfl (quiet _)
    | other allowed => simpa [allows] using allowed

/-- But for pushes, a session that is neither ended nor dropped is sent nothing. -/
theorem heard_step (receivers : Receivers) (listens : mailing.sessions.Listens user session)
    (quiet : ∀ member, move ≠ .deliver member) (stays : move ≠ .disconnect user session)
    (kept : move ≠ .dropInbox session) :
    (mailing.step receivers move).sessions.Listens user session ∧
      (mailing.step receivers move).received session = mailing.received session := by
  unfold received
  rw [sessions_step, taken_step]
  cases move with
  | connect other =>
    obtain ⟨heard, waiting⟩ := listens.connect other
    exact ⟨heard, congrArg _ waiting⟩
  | disconnect other ended =>
    refine ⟨listens.disconnect ?_, rfl⟩
    by_contra both
    simp only [ne_eq, not_or, Decidable.not_not] at both
    exact stays (by rw [both.1, both.2])
  | dropInbox ended =>
    have other : ended ≠ session := fun same => kept (by rw [same])
    obtain ⟨heard, waiting⟩ := listens.dropInbox other
    exact ⟨heard, congrArg _ waiting⟩
  | receive other =>
    obtain ⟨heard, waiting⟩ := listens.receive other
    refine ⟨heard, ?_⟩
    dsimp only
    rw [waiting, Std.ExtTreeMap.getD_insert]
    by_cases same : other = session
    · subst same
      simp [received]
    · simp [same]
  | deliver member => exact absurd rfl (quiet member)
  | ensure | publish | join | acknowledge | other => exact ⟨listens, rfl⟩

/-- A session has been sent what was got past of its user's envelopes, and will be sent what comes next. -/
structure Follows (receivers : Receivers) (mailing : Mailing) (user : UserId) (session : Nat) : Prop where
  listens : mailing.sessions.Listens user session
  sent : mailing.received session =
    (mailing.crew.envelopes receivers.group (receivers.place user)).filter (·.recipient = user)

/-- A push goes to a session of the recipient, and to no other user's. -/
theorem Follows.deliver (follows : Follows receivers mailing user session)
    (arranged : Arranged receivers mailing.crew) (facing : mailing.facing? receivers member = some envelope) :
    Follows receivers (mailing.deliver member envelope) user session := by
  obtain ⟨_, task, worker, batch, record, rest, is, found, handling, own, body⟩ :=
    facing?_eq_some_iff.mp facing
  obtain ⟨listens, waiting⟩ := follows.listens.deliver envelope.recipient envelope
  have steady := arranged.solo.steady member worker task found own is
  have pending : record ∈ task.phase.pending := by simp [handling, ConsumeLoop.Phase.pending]
  obtain ⟨slot, there, among⟩ := steady.of_pending pending
  have place : receivers.place envelope.recipient = record.partition := by
    rw [there] at among ⊢
    exact arranged.filed.of_mem among body
  have sent : (mailing.deliver member envelope).received session =
      mailing.received session ++ if envelope.recipient = user then [envelope] else [] := by
    unfold received
    rw [List.append_assoc, ← waiting]
    rfl
  refine ⟨listens, ?_⟩
  rw [sent, follows.sent]
  have past := Crew.envelopes_process is found own handling body (receivers.place user)
  have crew : (mailing.deliver member envelope).crew =
      mailing.crew.step (.take member (.process (.ok ()))) := rfl
  rw [crew, past, List.filter_append, ← place]
  by_cases for_ : envelope.recipient = user
  · simp [for_]
  · rw [if_neg for_]
    split <;> simp [for_]

theorem Follows.step (follows : Follows receivers mailing user session)
    (sound : mailing.crew.cluster.Sound) (arranged : Arranged receivers mailing.crew)
    (stays : move ≠ .disconnect user session) (kept : move ≠ .dropInbox session) :
    Follows receivers (mailing.step receivers move) user session := by
  by_cases pushes : ∃ member, move = .deliver member
  · obtain ⟨member, rfl⟩ := pushes
    simp only [Mailing.step]
    split
    · exact follows
    · rename_i facing
      exact follows.deliver arranged facing
  · have quiet : ∀ member, move ≠ .deliver member := fun member same => pushes ⟨member, same⟩
    obtain ⟨listens, same⟩ := heard_step receivers follows.listens quiet stays kept
    exact ⟨listens, by rw [same, envelopes_step receivers sound quiet, follows.sent]⟩

/-- Who connects before the receivers were given anything has missed nothing. -/
theorem follows_connect (receivers : Receivers) (moves : List Move) (user : UserId)
    (early : ∀ work batch, .polled work batch ∈ (after receivers moves).crew.history →
      work.group ≠ receivers.group) :
    Follows receivers (after receivers (moves ++ [.connect user])) user
      ((after receivers moves).sessions.connect user).1 := by
  obtain ⟨listens, waiting⟩ := (numbered_after receivers moves).listens_connect user
  rw [after_concat]
  refine ⟨listens, ?_⟩
  have nothing : (after receivers moves).crew.passed receivers.group (receivers.place user) = [] := by
    apply List.eq_nil_iff_forall_not_mem.mpr
    intro record among
    obtain ⟨deed, done, past⟩ := List.mem_filterMap.mp (List.mem_filter.mp among).1
    obtain ⟨made, same, _⟩ := crew_after receivers moves
    rw [same] at done early
    obtain ⟨work, batch, own, polled⟩ := Crew.polled_of_passed made done past
    exact early work batch polled own
  have unsent := taken_after receivers moves (Nat.lt_succ_self _)
  have envelopes : ((after receivers moves).step receivers (.connect user)).crew.envelopes receivers.group
      (receivers.place user) = [] := by
    rw [step, Crew.envelopes, nothing]
    rfl
  rw [envelopes, received]
  exact List.append_eq_nil_iff.mpr ⟨unsent, waiting⟩

/-- With one loop alone to push, a session that its user connected before the loop's first poll, and that was
neither ended nor dropped, was sent of the records at its user's place the envelopes to the user, out of those
that the loop got past: all of them, each once, in order. And the loop got past the records there from the first
on, in the order of the log. -/
theorem pushed_once_in_order (apart : receivers.router.messagesTopic ≠ receivers.router.senderTopic)
    (before later : List Move) (proper : Proper receivers (before ++ .connect user :: later))
    (connected : ((after receivers before).sessions.connect user).1 = session)
    (early : ∀ work batch, .polled work batch ∈ (after receivers before).crew.history →
      work.group ≠ receivers.group)
    (stays : .disconnect user session ∉ later) (kept : .dropInbox session ∉ later) :
    let reached := after receivers (before ++ .connect user :: later)
    reached.received session =
        (reached.crew.envelopes receivers.group (receivers.place user)).filter (·.recipient = user) ∧
      reached.crew.passed receivers.group (receivers.place user) <+:
        reached.crew.cluster.broker.topics.records (receivers.place user) := by
  refine ⟨Follows.sent ?_, (arranged_after apart proper).solo.passed _⟩
  induction later using List.reverseRecOn with
  | nil => exact connected ▸ follows_connect receivers before user early
  | append_singleton later move ih =>
    rw [← List.cons_append, ← List.append_assoc] at proper ⊢
    simp only [List.mem_append, List.mem_singleton, not_or] at stays kept
    have follows := ih proper.of_append stays.1 kept.1
    rw [after_concat]
    exact follows.step (cluster_sound_after receivers _) (arranged_after apart proper.of_append)
      (Ne.symm stays.2) (Ne.symm kept.2)

def post : Receivers := ⟨⟨"p", "messages", "sender", 2⟩, "receivers"⟩

def opening : List Move :=
  [.other (.createTopic "messages" 1), .ensure "messages" 2, .join "a" 10]

/-- A user writes to himself, so that the acknowledgements go where the loop is reading. -/
def selfTalk : List Move :=
  [.publish (.message ⟨⟨1⟩, ⟨1⟩, ⟨1⟩, [104]⟩) 0, .other (.createTopic "messages" 2),
    .other (.failPublishes 1), .publish (.message ⟨⟨2⟩, ⟨1⟩, ⟨1⟩, []⟩) 0,
    .publish (.message ⟨⟨3⟩, ⟨1⟩, ⟨2⟩, []⟩) 0, .publish (.message ⟨⟨4⟩, ⟨1⟩, ⟨1⟩, []⟩) 0,
    .other (.synchronise 1), .other (.take 1 .poll), .deliver 1, .acknowledge 1, .receive 1, .deliver 1,
    .acknowledge 1, .deliver 1, .other (.take 1 .commit), .other (.take 1 .poll), .deliver 1, .deliver 1]

theorem selfTalk_pushed :
    let reached := after post (opening ++ .connect ⟨1⟩ :: selfTalk)
    reached.received 1 =
        (reached.crew.envelopes "receivers" (post.place ⟨1⟩)).filter (·.recipient = ⟨1⟩) ∧
      (reached.received 1).map (fun envelope => (envelope.id.value, envelope.kindName)) =
        [(1, "message"), (4, "message"), (1, "delivered"), (4, "delivered")] := by
  have proper : Proper post (opening ++ .connect ⟨1⟩ :: selfTalk) := by
    refine ⟨by simp [opening, selfTalk], fun partitions asked => ?_, by decide⟩
    simp [opening, selfTalk] at asked
    omega
  have connected : ((after post opening).sessions.connect ⟨1⟩).1 = 1 := by decide +kernel
  have unread : (after post opening).crew.history.isEmpty = true := by decide +kernel
  have early : ∀ work batch, .polled work batch ∈ (after post opening).crew.history →
      work.group ≠ post.group := by
    rw [List.isEmpty_iff.mp unread]
    exact fun _ _ among => nomatch among
  have pushed := pushed_once_in_order (by decide) opening selfTalk proper connected early
    (by simp [selfTalk]) (by simp [selfTalk])
  exact ⟨pushed.1, by decide +kernel⟩

end Mailing
end ChatRelay
