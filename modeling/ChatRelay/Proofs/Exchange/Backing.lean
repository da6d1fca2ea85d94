import ChatRelay.Proofs.Envelope.Verdict
import ChatRelay.Proofs.Exchange.Sites

namespace ChatRelay

/-- An envelope can be read from some log. -/
def Topics.Carries (topics : Topics) (envelope : Envelope) : Prop :=
  ∃ topic, ∃ slot offset : Nat, ∃ data, topics.record? ⟨topic, slot⟩ offset = some data ∧
    Envelope.decode data = .ok envelope

theorem Topics.Carries.mono {earlier later : Topics} (carries : earlier.Carries envelope)
    (within : earlier.Within later) : later.Carries envelope := by
  obtain ⟨topic, slot, offset, data, present, read⟩ := carries
  exact ⟨topic, slot, offset, data, within present, read⟩

/-- A receipt is for a message that was delivered. -/
theorem Envelope.receipt?_eq_some (due : receipt? outcome envelope = some receipt) :
    ∃ message, envelope = .message message ∧ outcome = .delivered ∧
      receipt = .ack (.ofMessage message .delivered) := by
  cases outcome with
  | noSession => cases due
  | delivered =>
    cases envelope with
    | message message =>
      cases due
      exact ⟨message, rfl, rfl, rfl⟩
    | ack => cases due

theorem Crew.Sound.carries {crew : Crew} (sound : crew.Sound) {member : Nat}
    (facing : crew.facing? member = some envelope) : crew.cluster.broker.topics.Carries envelope := by
  obtain ⟨task, worker, batch, record, rest, is, found, handling, body⟩ :=
    Crew.facing?_eq_some_iff.mp facing
  have standing := sound.standing member worker task found is
  rw [Crew.Standing, handling] at standing
  obtain ⟨done, start, split, _, reads, _⟩ := standing.through
  obtain ⟨data, present, decoded⟩ := reads.record_eq (by simp [split] : record ∈ batch)
  exact ⟨record.partition.topic, record.partition.slot, record.offset, data, present, by rw [← decoded, body]⟩

namespace Exchange

variable {exchange : Exchange} {moves : List Move} {member site : Nat} {envelope : Envelope}

/-- A receipt comes to be owed by a push. -/
theorem owed_step (exchange : Exchange) (move : Move)
    (found : (exchange.step move).owed[member]? = some receipt) :
    exchange.owed[member]? = some receipt ∨
      ∃ site envelope, move = .push member ∧ exchange.Pushing member site envelope ∧
        Envelope.receipt? ((exchange.siteAt site).sessions.deliver envelope.recipient envelope).1 envelope =
          some receipt := by
  have leads := exchange.leads_step move
  generalize exchange.step move = next at leads found
  cases leads with
  | idle | ensured | attended | armed | merged | acted => exact .inl found
  | routed =>
    rw [publish_eq] at found
    exact .inl found
  | @engaged duty => cases duty <;> exact .inl found
  | @pushed other site envelope pushing =>
    rw [owed_push] at found
    split at found
    · rename_i due
      rw [Std.ExtTreeMap.getElem?_insert] at found
      split at found
      · rename_i same
        cases Std.LawfulEqCmp.eq_of_compare same
        cases found
        exact .inr ⟨site, envelope, rfl, pushing, due⟩
      · exact .inl found
    · exact .inl found
  | acknowledged =>
    rw [acknowledge_eq] at found
    dsimp only at found
    rw [Std.ExtTreeMap.getElem?_erase] at found
    split at found
    · cases found
    · exact .inl found

/-- A record that is new was published. -/
theorem record?_step (exchange : Exchange) (move : Move) {slot : Nat}
    (fresh : exchange.topics.record? ⟨topic, slot⟩ offset = none)
    (found : (exchange.step move).topics.record? ⟨topic, slot⟩ offset = some data) :
    ∃ envelope, exchange.Publishes move envelope ∧ envelope.encode = .ok data := by
  rcases exchange.crew_step move with same | ⟨made, stepped, publishes⟩
  · rw [topics, same, ← topics, fresh] at found
    cases found
  · rw [topics, stepped] at found
    rcases exchange.crew.record?_step made (Int.natCast_nonneg slot) found with there | rfl
    · rw [← topics, fresh] at there
      cases there
    · exact publishes _ _ rfl

/-- After these moves, a member's push puts a message, which was routed, into the inbox of a session of its
receiver. -/
structure Reaches (moves : List Move) (member : Nat) (message : Message) : Prop where
  routed : ∃ site outlet destination, .route site outlet message destination ∈ moves
  pushed : ∃ site session, (after moves).Pushing member site (.message message) ∧
    ((after moves).siteAt site).sessions.Listens message.receiver session ∧
    ((after (moves ++ [.push member])).siteAt site).sessions.waiting session =
      ((after moves).siteAt site).sessions.waiting session ++ [.message message]

/-- Messages in the logs were routed; what is acknowledged, or is to be, was pushed to a session before. -/
structure Backed (moves : List Move) : Prop where
  messages : ∀ message, (after moves).topics.Carries (.message message) →
    ∃ site outlet destination, .route site outlet message destination ∈ moves
  acks : ∀ topic (slot offset : Nat) data ack,
    (after moves).topics.record? ⟨topic, slot⟩ offset = some data → Envelope.decode data = .ok (.ack ack) →
      ∃ message earlier member, ack = .ofMessage message .delivered ∧
        earlier ++ [.push member] <+: moves ∧ Reaches earlier member message ∧
        (after (earlier ++ [.push member])).topics.record? ⟨topic, slot⟩ offset = none
  owed : ∀ (member : Nat) receipt, (after moves).owed[member]? = some receipt →
    ∃ message earlier pusher, receipt = .ack (.ofMessage message .delivered) ∧
      earlier ++ [.push pusher] <+: moves ∧ Reaches earlier pusher message

namespace Backed

variable {message : Message}

theorem reaches (backed : Backed moves) (pushing : (after moves).Pushing member site (.message message))
    (delivered : (((after moves).siteAt site).sessions.deliver message.receiver (.message message)).1 =
      .delivered) : Reaches moves member message := by
  obtain ⟨session, listens⟩ := ((orderly_after moves site).delivered_iff _).mp delivered
  refine ⟨backed.messages message ((sound_after moves).carries pushing.facing), site, session, pushing,
    listens, ?_⟩
  have waiting := (listens.deliver message.receiver (.message message)).2
  rw [if_pos rfl] at waiting
  rw [after_concat, step_push pushing, siteAt_push]
  exact waiting

theorem step (backed : Backed moves) (move : Move) : Backed (moves ++ [move]) := by
  have grown : moves <+: moves ++ [move] := List.prefix_append moves [move]
  refine ⟨?_, ?_, ?_⟩
  · intro message carries
    rw [after_concat] at carries
    obtain ⟨topic, slot, offset, data, found, read⟩ := carries
    cases before : (after moves).topics.record? ⟨topic, slot⟩ offset with
    | some earlier =>
      cases ((after moves).within_step move before).symm.trans found
      obtain ⟨site, outlet, destination, among⟩ :=
        backed.messages message ⟨topic, slot, offset, data, before, read⟩
      exact ⟨site, outlet, destination, grown.subset among⟩
    | none =>
      obtain ⟨envelope, publishes, written⟩ := record?_step _ move before found
      cases Envelope.eq_of_decode written read
      cases publishes with
      | route => exact ⟨_, _, _, List.mem_concat_self⟩
      | acknowledge due =>
        obtain ⟨_, _, _, receipt, _⟩ := backed.owed _ _ due
        cases receipt
  · intro topic slot offset data ack found read
    rw [after_concat] at found
    cases before : (after moves).topics.record? ⟨topic, slot⟩ offset with
    | some earlier =>
      cases ((after moves).within_step move before).symm.trans found
      obtain ⟨message, earlier, member, same, part, reaches, fresh⟩ :=
        backed.acks topic slot offset data ack before read
      exact ⟨message, earlier, member, same, part.trans grown, reaches, fresh⟩
    | none =>
      obtain ⟨envelope, publishes, written⟩ := record?_step _ move before found
      cases Envelope.eq_of_decode written read
      cases publishes with
      | acknowledge due =>
        obtain ⟨message, earlier, member, receipt, part, reaches⟩ := backed.owed _ _ due
        refine ⟨message, earlier, member, Envelope.ack.inj receipt, part.trans grown, reaches, ?_⟩
        apply Option.eq_none_iff_forall_ne_some.mpr
        intro data present
        cases before.symm.trans (within_after part present)
  · intro member receipt due
    rw [after_concat] at due
    rcases owed_step _ move due with before | ⟨site, envelope, rfl, pushing, due⟩
    · obtain ⟨message, earlier, pusher, same, part, reaches⟩ := backed.owed member receipt before
      exact ⟨message, earlier, pusher, same, part.trans grown, reaches⟩
    · obtain ⟨message, rfl, delivered, rfl⟩ := Envelope.receipt?_eq_some due
      exact ⟨message, moves, member, rfl, List.prefix_refl _, backed.reaches pushing delivered⟩

end Backed

theorem backed_after (moves : List Move) : Backed moves := by
  induction moves using List.reverseRecOn with
  | nil =>
    refine ⟨fun message carries => ?_, fun topic slot offset data ack found => ?_,
      fun member receipt due => ?_⟩
    · obtain ⟨topic, slot, offset, data, found, _⟩ := carries
      simp [after, run, topics, Topics.record?, Topics.log?] at found
    · simp [after, run, topics, Topics.record?, Topics.log?] at found
    · simp [after, run] at due
  | append_singleton moves move ih => exact ih.step move

end Exchange
end ChatRelay
