import Mathlib.Algebra.Ring.Nat
import ChatRelay.Proofs.Broker.Logs
import ChatRelay.Publishing

namespace ChatRelay

def Broker.size (broker : Broker) (topic : String) : Nat :=
  ((broker.topics.getD topic []).map List.length).sum

namespace Broker

/-- An append is failed on demand, or its partition is unknown, or `append_eq` tells what it does. -/
theorem append_cases (broker : Broker) (partition : Partition) (data : Bytes) :
    (∃ failing, broker.failingPublishes = failing + 1 ∧ broker.append partition data =
      (.error (.broker .injectedPublishFailure), { broker with failingPublishes := failing })) ∨
    (broker.failingPublishes = 0 ∧ broker.log? partition = none ∧
      broker.append partition data = (.error (.broker (.unknownPartition partition)), broker)) ∨
    (∃ log, broker.failingPublishes = 0 ∧ broker.log? partition = some log) := by
  cases armed : broker.failingPublishes with
  | succ failing => exact .inl ⟨failing, rfl, by simp [append, armed]⟩
  | zero =>
    cases found : broker.log? partition with
    | none => exact .inr (.inl ⟨rfl, rfl, by simp [append, armed, found]⟩)
    | some log => exact .inr (.inr ⟨log, rfl, rfl⟩)

theorem injected_append (broker : Broker) (partition : Partition) (data : Bytes) :
    (broker.append partition data).1 = .error (.broker .injectedPublishFailure) ↔
      0 < broker.failingPublishes := by
  rcases append_cases broker partition data with ⟨failing, due, fate⟩ | ⟨calm, -, fate⟩ | ⟨log, calm, found⟩
  · simp [fate, due]
  · simp [fate, calm]
  · simp [append_eq calm found, calm]

theorem failing_append (broker : Broker) (partition : Partition) (data : Bytes) :
    (broker.append partition data).2.failingPublishes = broker.failingPublishes - 1 := by
  rcases append_cases broker partition data with ⟨failing, due, fate⟩ | ⟨calm, -, fate⟩ | ⟨log, calm, found⟩
  · simp [fate, due]
  · simp [fate, calm]
  · simp [append_eq calm found, calm]

theorem publish_of_fault {failure : Failure} (broker : Broker) (producer : String) (partition : Partition)
    (encoded : envelope.encode = .error failure) :
    broker.publish producer envelope partition =
      (⟨producer, partition, envelope.id, .error failure⟩, broker) := by
  simp [publish, encoded]

theorem publish_of_wire (broker : Broker) (producer : String) (partition : Partition)
    (encoded : envelope.encode = .ok data) :
    broker.publish producer envelope partition =
      (⟨producer, partition, envelope.id, (broker.append partition data).1⟩,
        (broker.append partition data).2) := by
  simp [publish, encoded]

/-- Every log is still there, perhaps with more records at its end. -/
def Extends (before after : Broker) : Prop :=
  ∀ ⦃partition log⦄, before.log? partition = some log →
    ∃ added, after.log? partition = some (log ++ added)

theorem Extends.of_topics {before after : Broker} (same : after.topics = before.topics) :
    before.Extends after := by
  intro partition log found
  refine ⟨[], ?_⟩
  unfold log? at found ⊢
  rw [same, List.append_nil]
  exact found

theorem Extends.refl (broker : Broker) : broker.Extends broker := .of_topics rfl

theorem Extends.trans {first second third : Broker} (lower : first.Extends second)
    (upper : second.Extends third) : first.Extends third := by
  intro partition log found
  obtain ⟨added, found⟩ := lower found
  obtain ⟨more, found⟩ := upper found
  exact ⟨added ++ more, by rw [found, List.append_assoc]⟩

theorem extends_createTopic (broker : Broker) (topic : String) (partitions : Nat) :
    broker.Extends (broker.createTopic topic partitions) := by
  intro partition log found
  refine ⟨[], ?_⟩
  unfold log? at found ⊢
  split at found
  · rename_i natural
    rw [if_pos natural, topics_createTopic, List.append_nil]
    unfold Topics.log? at found ⊢
    by_cases same : topic = partition.topic
    · subst same
      rw [Std.ExtTreeMap.getD_insert_self]
      obtain ⟨bound, -⟩ := List.getElem?_eq_some_iff.mp found
      rw [List.getElem?_append_left bound]
      exact found
    · rw [Std.ExtTreeMap.getD_insert, if_neg (by simpa using same)]
      exact found
  · cases found

theorem extends_append (broker : Broker) (partition : Partition) (data : Bytes) :
    broker.Extends (broker.append partition data).2 := by
  rcases append_cases broker partition data with ⟨failing, -, fate⟩ | ⟨-, -, fate⟩ | ⟨log, calm, found⟩
  · exact .of_topics (by rw [fate])
  · exact .of_topics (by rw [fate])
  · intro other log present
    have grown := log?_append calm found data other
    rw [present] at grown
    exact ⟨_, grown⟩

private theorem sum_length_modify (logs : List Log) (slot : Nat) (data : Bytes)
    (bound : slot < logs.length) :
    ((logs.modify slot (· ++ [data])).map List.length).sum = (logs.map List.length).sum + 1 := by
  induction logs generalizing slot with
  | nil => cases bound
  | cons log logs ih =>
    cases slot with
    | zero => simp; omega
    | succ slot =>
      have grown := ih slot (by simpa using bound)
      simp only [List.modify_succ_cons, List.map_cons, List.sum_cons, grown]
      omega

theorem size_append {broker : Broker} {partition : Partition} {log : Log}
    (calm : broker.failingPublishes = 0) (found : broker.log? partition = some log) (data : Bytes)
    (topic : String) :
    (broker.append partition data).2.size topic =
      broker.size topic + if topic = partition.topic then 1 else 0 := by
  rw [append_eq calm found]
  unfold size
  dsimp only
  rw [Std.ExtTreeMap.getD_modify]
  by_cases same : topic = partition.topic
  · subst same
    unfold log? Topics.log? at found
    split at found
    · obtain ⟨bound, -⟩ := List.getElem?_eq_some_iff.mp found
      cases known : broker.topics[partition.topic]? with
      | none => simp [Std.ExtTreeMap.getD_eq_getD_getElem?, known] at bound
      | some logs =>
        rw [Std.ExtTreeMap.getD_eq_getD_getElem?, known, Option.getD_some] at bound
        simp [Std.ExtTreeMap.getD_eq_getD_getElem?, known, sum_length_modify logs _ data bound]
    · cases found
  · simp [same, Ne.symm same]

theorem partition_publish (broker : Broker) (producer : String) (envelope : Envelope)
    (partition : Partition) :
    (broker.publish producer envelope partition).1.partition = partition := by
  cases encoded : envelope.encode with
  | error failure => rw [publish_of_fault _ _ _ encoded]
  | ok data => rw [publish_of_wire _ _ _ encoded]

theorem size_publish (broker : Broker) (producer : String) (envelope : Envelope) (partition : Partition)
    (topic : String) :
    (broker.publish producer envelope partition).2.size topic = broker.size topic +
      if topic = partition.topic ∧ (broker.publish producer envelope partition).1.failed = false
      then 1 else 0 := by
  cases encoded : envelope.encode with
  | error failure => simp [publish_of_fault _ _ _ encoded, DeliveryReport.failed]
  | ok data =>
    rw [publish_of_wire _ _ _ encoded]
    rcases append_cases broker partition data with ⟨failing, -, fate⟩ | ⟨-, -, fate⟩ | ⟨log, calm, found⟩
    · simp [fate, DeliveryReport.failed, size]
    · simp [fate, DeliveryReport.failed]
    · rw [size_append calm found, append_eq calm found]
      simp [DeliveryReport.failed]

/-- What one publication comes to: a record at the end of its partition and nowhere else, at the offset
reported, or a failure that leaves all logs as they were. -/
structure Reported (before after : Broker) (envelope : Envelope) (partition : Partition)
    (result : Except Failure Nat) : Prop where
  grown : ∀ offset, result = .ok offset ↔
    ∃ data log, envelope.encode = .ok data ∧ before.log? partition = some log ∧ offset = log.length ∧
      ∀ other, after.log? other = if other = partition then some (log ++ [data]) else before.log? other
  refused : (∃ failure, result = .error failure) ↔
    (∃ failure, envelope.encode = .error failure) ∨ 0 < before.failingPublishes ∨
      before.log? partition = none
  unchanged : (∃ failure, result = .error failure) → after.topics = before.topics

theorem Reported.of_failure {before after : Broker} (same : after.topics = before.topics)
    (cause : (∃ failure, envelope.encode = .error failure) ∨ 0 < before.failingPublishes ∨
      before.log? partition = none) (failure : Failure) :
    Reported before after envelope partition (.error failure) where
  grown offset := by
    refine ⟨fun succeeded => (by cases succeeded), ?_⟩
    rintro ⟨data, log, -, found, -, grown⟩
    have here := grown partition
    rw [if_pos rfl, log?, same, ← log?, found] at here
    simp at here
  refused := ⟨fun _ => cause, fun _ => ⟨failure, rfl⟩⟩
  unchanged _ := same

theorem Reported.of_record {broker : Broker} {log : Log} (encoded : envelope.encode = .ok data)
    (calm : broker.failingPublishes = 0) (found : broker.log? partition = some log)
    (succeeded : result = .ok log.length) :
    Reported broker (broker.append partition data).2 envelope partition result where
  grown offset := by
    subst succeeded
    constructor
    · intro same
      obtain rfl := Except.ok.inj same
      refine ⟨data, log, encoded, found, rfl, fun other => ?_⟩
      rw [log?_append calm found]
      split
      · rename_i here
        rw [here, found, Option.map_some]
      · simp
    · rintro ⟨-, other, -, present, rfl, -⟩
      obtain rfl := Option.some.inj (found.symm.trans present)
      rfl
  refused := by simp [succeeded, encoded, calm, found]
  unchanged := by simp [succeeded]

theorem publish_reported (broker : Broker) (producer : String) (envelope : Envelope)
    (partition : Partition) :
    Reported broker (broker.publish producer envelope partition).2 envelope partition
      (broker.publish producer envelope partition).1.result := by
  cases encoded : envelope.encode with
  | error failure =>
    rw [publish_of_fault broker producer partition encoded]
    exact .of_failure rfl (.inl ⟨failure, encoded⟩) failure
  | ok data =>
    rw [publish_of_wire broker producer partition encoded]
    rcases append_cases broker partition data with ⟨failing, due, fate⟩ | ⟨-, missing, fate⟩ |
      ⟨log, calm, found⟩
    · have armed : 0 < broker.failingPublishes := by rw [due]; exact Nat.succ_pos failing
      rw [fate]
      refine .of_failure ?_ (.inr (.inl armed)) _
      rfl
    · rw [fate]
      exact .of_failure rfl (.inr (.inr missing)) _
    · exact .of_record encoded calm found (by rw [append_eq calm found])

end Broker

end ChatRelay
