import ChatRelay.Proofs.Broker.Appending
import ChatRelay.Relay

namespace ChatRelay

/-- What changes the logs of a broker, or how it answers those who write to them. -/
inductive Writing where
  | createTopic (topic : String) (partitions : Nat)
  | failPublishes (count : Nat)
  /-- Bytes that do not come from a producer. -/
  | append (partition : Partition) (data : Bytes)
  | publish (producer : String) (envelope : Envelope) (partition : Partition)

namespace Writing

inductive Answer where
  | done
  | appended (result : Except Failure Nat)
  | reported (report : DeliveryReport)

def Answer.report? : Answer → Option DeliveryReport
  | .reported report => some report
  | .done | .appended _ => none

def Answer.result? : Answer → Option (Except Failure Nat)
  | .appended result => some result
  | .reported report => some report.result
  | .done => none

/-- What the report of a publication is about. -/
def subject? : Writing → Option (String × Partition × MessageId)
  | .publish producer envelope partition => some (producer, partition, envelope.id)
  | .createTopic .. | .failPublishes _ | .append .. => none

def topic? : Writing → Option String
  | .publish _ _ partition => some partition.topic
  | .createTopic .. | .failPublishes _ | .append .. => none

/-- Whether the broker is asked to append a record. An envelope without wire form does not get that far. -/
def attempts : Writing → Bool
  | .append .. => true
  | .publish _ envelope _ => envelope.encode.isOk
  | .createTopic .. | .failPublishes _ => false

def arms : Writing → Bool
  | .failPublishes _ => true
  | .createTopic .. | .append .. | .publish .. => false

end Writing

def DeliveryReport.subject (report : DeliveryReport) : String × Partition × MessageId :=
  (report.producer, report.partition, report.message)

namespace Relay

def write (relay : Relay) : Writing → Writing.Answer × Relay
  | .createTopic topic partitions =>
    (.done, { relay with broker := relay.broker.createTopic topic partitions })
  | .failPublishes count => (.done, { relay with broker := relay.broker.failPublishes count })
  | .append partition data =>
    let (result, broker) := relay.broker.append partition data
    (.appended result, { relay with broker })
  | .publish producer envelope partition =>
    let (report, relay) := relay.publish producer envelope partition
    (.reported report, relay)

/-- The answers are in the order of the writings. -/
def writeAll (relay : Relay) : List Writing → List Writing.Answer × Relay
  | [] => ([], relay)
  | writing :: rest =>
    let (answer, relay) := relay.write writing
    let (answers, relay) := relay.writeAll rest
    (answer :: answers, relay)

end Relay

/-- How many records producers have added to the topics that count. -/
def Relay.produced (counts : String → Bool) (relay : Relay) : List Writing → Nat
  | [] => 0
  | writing :: rest =>
    let now := (relay.write writing).2
    (match writing.topic? with
      | none => 0
      | some topic => if counts topic then now.broker.size topic - relay.broker.size topic else 0) +
      now.produced counts rest

namespace Relay

theorem broker_write_publish (relay : Relay) (producer : String) (envelope : Envelope)
    (partition : Partition) : (relay.write (.publish producer envelope partition)).2.broker =
      (relay.broker.publish producer envelope partition).2 := rfl

theorem answer_write_publish (relay : Relay) (producer : String) (envelope : Envelope)
    (partition : Partition) : (relay.write (.publish producer envelope partition)).1 =
      .reported (relay.broker.publish producer envelope partition).1 := rfl

theorem extends_write (relay : Relay) (writing : Writing) :
    relay.broker.Extends (relay.write writing).2.broker := by
  cases writing with
  | createTopic topic partitions => exact Broker.extends_createTopic _ topic partitions
  | failPublishes count => exact .of_topics rfl
  | append partition data => exact Broker.extends_append _ partition data
  | publish producer envelope partition =>
    rw [broker_write_publish]
    cases encoded : envelope.encode with
    | error failure => rw [Broker.publish_of_fault _ _ _ encoded]; exact .refl _
    | ok data => rw [Broker.publish_of_wire _ _ _ encoded]; exact Broker.extends_append _ partition data

theorem injected_write (relay : Relay) (writing : Writing) (attempts : writing.attempts) :
    (relay.write writing).1.result? = some (.error (.broker .injectedPublishFailure)) ↔
      0 < relay.broker.failingPublishes := by
  cases writing with
  | createTopic | failPublishes => cases attempts
  | append partition data =>
    rw [← Broker.injected_append relay.broker partition data]
    exact Option.some_inj
  | publish producer envelope partition =>
    rw [answer_write_publish]
    cases encoded : envelope.encode with
    | error failure => simp [Writing.attempts, encoded, Except.isOk, Except.toBool] at attempts
    | ok data =>
      rw [Broker.publish_of_wire _ _ _ encoded, ← Broker.injected_append relay.broker partition data]
      exact Option.some_inj

theorem failing_write (relay : Relay) (writing : Writing) (unarmed : writing.arms = false) :
    (relay.write writing).2.broker.failingPublishes =
      relay.broker.failingPublishes - if writing.attempts then 1 else 0 := by
  cases writing with
  | createTopic topic partitions =>
    change (relay.broker.createTopic topic partitions).failingPublishes = _
    unfold Broker.createTopic
    dsimp only
    split <;> rfl
  | failPublishes => cases unarmed
  | append partition data => exact Broker.failing_append _ partition data
  | publish producer envelope partition =>
    rw [broker_write_publish]
    cases encoded : envelope.encode with
    | error failure =>
      rw [Broker.publish_of_fault _ _ _ encoded]
      simp [Writing.attempts, encoded, Except.isOk, Except.toBool]
    | ok data =>
      rw [Broker.publish_of_wire _ _ _ encoded, Broker.failing_append]
      simp [Writing.attempts, encoded, Except.isOk, Except.toBool]

theorem writeAll_append (relay : Relay) (earlier later : List Writing) :
    relay.writeAll (earlier ++ later) =
      ((relay.writeAll earlier).1 ++ ((relay.writeAll earlier).2.writeAll later).1,
        ((relay.writeAll earlier).2.writeAll later).2) := by
  induction earlier generalizing relay with
  | nil => rfl
  | cons writing earlier ih => simp [writeAll, ih]

theorem extends_writeAll (relay : Relay) (writings : List Writing) :
    relay.broker.Extends (relay.writeAll writings).2.broker := by
  induction writings generalizing relay with
  | nil => exact .refl relay.broker
  | cons writing rest ih => exact (extends_write relay writing).trans (ih _)

/-- What is left of the failures to come when some attempts were made. -/
theorem failing_writeAll (relay : Relay) (writings : List Writing)
    (unarmed : ∀ writing ∈ writings, writing.arms = false) :
    (relay.writeAll writings).2.broker.failingPublishes =
      relay.broker.failingPublishes - (writings.filter Writing.attempts).length := by
  induction writings generalizing relay with
  | nil => rfl
  | cons writing rest ih =>
    have now := failing_write relay writing (unarmed writing List.mem_cons_self)
    have later := ih (relay.write writing).2 fun other member => unarmed other (List.mem_cons_of_mem _ member)
    change ((relay.write writing).2.writeAll rest).2.broker.failingPublishes = _
    rw [later, now, List.filter_cons]
    split
    · rw [List.length_cons, Nat.sub_sub, Nat.add_comm 1]
    · rw [Nat.sub_zero]

theorem report?_write (relay : Relay) (writing : Writing) :
    (relay.write writing).1.report?.map DeliveryReport.subject = writing.subject? := by
  cases writing with
  | createTopic | failPublishes | append => rfl
  | publish producer envelope partition =>
    rw [answer_write_publish]
    cases encoded : envelope.encode with
    | error failure => rw [Broker.publish_of_fault _ _ _ encoded]; rfl
    | ok data => rw [Broker.publish_of_wire _ _ _ encoded]; rfl

theorem reports_writeAll (relay : Relay) (writings : List Writing) :
    ((relay.writeAll writings).1.filterMap Writing.Answer.report?).map DeliveryReport.subject =
      writings.filterMap Writing.subject? := by
  induction writings generalizing relay with
  | nil => rfl
  | cons writing rest ih =>
    have now := report?_write relay writing
    have later := ih (relay.write writing).2
    rw [List.map_filterMap] at later ⊢
    change List.filterMap _ ((relay.write writing).1 :: ((relay.write writing).2.writeAll rest).1) = _
    rw [List.filterMap_cons, List.filterMap_cons, now, later]

end Relay

theorem Children.get?_of_fingerprint (children : Children α) {values other : List String}
    (same : fingerprint values = fingerprint other) : children.get? values = children.get? other := by
  unfold get?
  rw [same]

namespace Relay

def published (relay : Relay) (topic : String) : Nat := (relay.metrics.published.get? [topic]).getD 0

def unpublished (relay : Relay) (topic : String) : Nat :=
  (relay.metrics.deliveryFailures.get? [topic]).getD 0

/-- A publication is counted for all topics that share the fingerprint of its own. -/
theorem published_record (relay : Relay) (report : DeliveryReport) (topic : String) :
    (relay.record report.measurements).published topic = relay.published topic +
      if Children.fingerprint [report.partition.topic] = Children.fingerprint [topic] then 1 else 0 := by
  unfold DeliveryReport.measurements published record Metrics.recordAll
  cases report.failed
  all_goals
    simp only [Bool.false_eq_true, if_true, if_false, List.foldl_cons, List.foldl_nil, Metrics.record,
      Children.add, Children.get?_update]
    split
    · rename_i same
      rw [Option.getD_some, Children.get?_of_fingerprint _ same]
    · rfl

theorem unpublished_record (relay : Relay) (report : DeliveryReport) (topic : String) :
    (relay.record report.measurements).unpublished topic = relay.unpublished topic +
      if Children.fingerprint [report.partition.topic] = Children.fingerprint [topic] ∧ report.failed
      then 1 else 0 := by
  unfold DeliveryReport.measurements unpublished record Metrics.recordAll
  cases report.failed
  · simp [Metrics.record]
  · simp only [if_true, List.foldl_cons, List.foldl_nil, Metrics.record, and_true,
      Children.add, Children.get?_update]
    split
    · rename_i same
      rw [Option.getD_some, Children.get?_of_fingerprint _ same]
    · rfl

theorem published_write (relay : Relay) (producer : String) (envelope : Envelope) (partition : Partition)
    (topic : String) : (relay.write (.publish producer envelope partition)).2.published topic =
      (relay.record (relay.broker.publish producer envelope partition).1.measurements).published topic := rfl

theorem unpublished_write (relay : Relay) (producer : String) (envelope : Envelope) (partition : Partition)
    (topic : String) : (relay.write (.publish producer envelope partition)).2.unpublished topic =
      (relay.record (relay.broker.publish producer envelope partition).1.measurements).unpublished topic :=
  rfl

def sharesCount (topic other : String) : Bool := Children.fingerprint [other] = Children.fingerprint [topic]

/-- The count of a topic goes with the records of all topics that share it. -/
theorem balance_publish (relay : Relay) (producer : String) (envelope : Envelope) (partition : Partition)
    (topic : String) :
    (relay.write (.publish producer envelope partition)).2.published topic + relay.unpublished topic =
      relay.published topic + (relay.write (.publish producer envelope partition)).2.unpublished topic +
        if sharesCount topic partition.topic then
          (relay.write (.publish producer envelope partition)).2.broker.size partition.topic -
            relay.broker.size partition.topic
        else 0 := by
  have target := Broker.partition_publish relay.broker producer envelope partition
  have counted := published_record relay (relay.broker.publish producer envelope partition).1 topic
  have failures := unpublished_record relay (relay.broker.publish producer envelope partition).1 topic
  rw [target, ← published_write] at counted
  rw [target, ← unpublished_write] at failures
  rw [counted, failures, broker_write_publish, Broker.size_publish]
  by_cases same : Children.fingerprint [partition.topic] = Children.fingerprint [topic]
  · cases (relay.broker.publish producer envelope partition).1.failed <;> simp [sharesCount, same] <;> omega
  · simp [sharesCount, same]

/-- Writings that are no publications leave the counts alone. -/
theorem counts_write (relay : Relay) (writing : Writing) (other : writing.topic? = none) :
    (relay.write writing).2.metrics = relay.metrics := by
  cases writing with
  | createTopic | failPublishes | append => rfl
  | publish => cases other

theorem balance_writeAll (relay : Relay) (topic : String) (writings : List Writing) :
    (relay.writeAll writings).2.published topic + relay.unpublished topic =
      relay.published topic + (relay.writeAll writings).2.unpublished topic +
        relay.produced (sharesCount topic) writings := by
  induction writings generalizing relay with
  | nil => rfl
  | cons writing rest ih =>
    have later := ih (relay.write writing).2
    change ((relay.write writing).2.writeAll rest).2.published topic + _ =
      _ + ((relay.write writing).2.writeAll rest).2.unpublished topic + (_ + _)
    cases written : writing.topic? with
    | none =>
      have same := counts_write relay writing written
      unfold published unpublished at later ⊢
      rw [same] at later
      simpa using later
    | some target =>
      cases writing with
      | createTopic | failPublishes | append => cases written
      | publish producer envelope partition =>
        obtain rfl := Option.some.inj written
        have now := balance_publish relay producer envelope partition topic
        dsimp only
        omega

/-- No topic that producers write to shares its count with `topic`, but for `topic` itself. -/
def Apart (topic : String) (writings : List Writing) : Prop :=
  ∀ writing ∈ writings, ∀ other, writing.topic? = some other → sharesCount topic other → other = topic

theorem produced_of_apart (relay : Relay) (topic : String) (writings : List Writing)
    (apart : Apart topic writings) :
    relay.produced (sharesCount topic) writings = relay.produced (· = topic) writings := by
  induction writings generalizing relay with
  | nil => rfl
  | cons writing rest ih =>
    have later := ih (relay.write writing).2 fun other member => apart other (List.mem_cons_of_mem _ member)
    unfold produced
    dsimp only
    rw [later]
    cases written : writing.topic? with
    | none => rfl
    | some target =>
      have same : sharesCount topic target = decide (target = topic) := by
        rw [Bool.eq_iff_iff, decide_eq_true_iff]
        constructor
        · exact apart writing List.mem_cons_self target written
        · rintro rfl
          simp [sharesCount]
      dsimp only
      rw [same]

theorem length_writeAll (relay : Relay) (writings : List Writing) :
    (relay.writeAll writings).1.length = writings.length := by
  induction writings generalizing relay with
  | nil => rfl
  | cons writing rest ih => simp [writeAll, ih]

theorem answer_writeAll (relay : Relay) (earlier : List Writing) (writing : Writing) (later : List Writing) :
    (relay.writeAll (earlier ++ writing :: later)).1[earlier.length]? =
      some ((relay.writeAll earlier).2.write writing).1 := by
  rw [writeAll_append, ← length_writeAll relay earlier, List.getElem?_append_right (Nat.le_refl _),
    Nat.sub_self]
  rfl

def writtenTo (writings : List Writing) : Relay := (writeAll {} writings).2

/-- The account of everything that is written to a broker: answers, logs and counts. -/
structure Accounted (writings : List Writing) : Prop where
  /-- Every publication has one report, and the reports come in the order of the publications. -/
  reports : ((writeAll {} writings).1.filterMap Writing.Answer.report?).map DeliveryReport.subject =
    writings.filterMap Writing.subject?
  publications : ∀ earlier producer envelope partition later,
    writings = earlier ++ .publish producer envelope partition :: later →
    ∃ report, (writeAll {} writings).1[earlier.length]? = some (.reported report) ∧
      report.subject = (producer, partition, envelope.id) ∧
      Broker.Reported (writtenTo earlier).broker
        (writtenTo (earlier ++ [.publish producer envelope partition])).broker envelope partition
        report.result
  /-- As many attempts fail on demand as were asked for last, and no more. -/
  failures : ∀ earlier count between writing later,
    writings = (earlier ++ .failPublishes count :: between) ++ writing :: later →
    (∀ other ∈ between, other.arms = false) → writing.attempts →
    ∃ answer, (writeAll {} writings).1[(earlier ++ .failPublishes count :: between).length]? = some answer ∧
      (answer.result? = some (.error (.broker .injectedPublishFailure)) ↔
        (between.filter Writing.attempts).length < count)
  kept : ∀ earlier later, writings = earlier ++ later →
    (writtenTo earlier).broker.Extends (writtenTo writings).broker
  /-- What was published and did not fail are the records of the topics that share the count. -/
  counted : ∀ topic, (writtenTo writings).published topic =
    (writtenTo writings).unpublished topic + produced (sharesCount topic) {} writings
  /-- They are the records of the topic itself, if it shares its count with no other. -/
  countedApart : ∀ topic, Apart topic writings → (writtenTo writings).published topic =
    (writtenTo writings).unpublished topic + produced (· = topic) {} writings

theorem published_eq (writings : List Writing) (topic : String) :
    (writtenTo writings).published topic =
      (writtenTo writings).unpublished topic + produced (sharesCount topic) {} writings := by
  have balance := balance_writeAll {} topic writings
  have unpublished_start : unpublished {} topic = 0 := rfl
  have published_start : published {} topic = 0 := rfl
  unfold writtenTo
  omega

theorem writings_accounted (writings : List Writing) : Accounted writings where
  reports := reports_writeAll {} writings
  publications := by
    rintro earlier producer envelope partition later rfl
    refine ⟨_, answer_writeAll {} earlier _ later, ?_, ?_⟩
    · have subject := report?_write (writtenTo earlier) (.publish producer envelope partition)
      exact Option.some_inj.mp subject
    · unfold writtenTo
      rw [writeAll_append]
      exact Broker.publish_reported _ producer envelope partition
  failures := by
    rintro earlier count between writing later rfl unarmed attempts
    refine ⟨_, answer_writeAll {} _ writing later, ?_⟩
    rw [injected_write _ _ attempts, writeAll_append]
    let armed := ((writtenTo earlier).write (.failPublishes count)).2
    change 0 < (armed.writeAll between).2.broker.failingPublishes ↔ _
    rw [failing_writeAll armed between unarmed]
    exact Nat.sub_pos_iff_lt
  kept := by
    rintro earlier later rfl
    unfold writtenTo
    rw [writeAll_append]
    exact extends_writeAll _ later
  counted := published_eq writings
  countedApart topic apart := by
    rw [published_eq, produced_of_apart {} topic writings apart]

/-- Two topics whose names have the same fingerprint, and one publication to each. -/
def sharedCount : List Writing :=
  [.createTopic "7mohtcOFVz" 1, .createTopic "c1E51sSEyx" 1,
   .publish "producer" (.message ⟨⟨1⟩, ⟨1⟩, ⟨2⟩, []⟩) ⟨"7mohtcOFVz", 0⟩,
   .publish "producer" (.message ⟨⟨2⟩, ⟨1⟩, ⟨2⟩, []⟩) ⟨"c1E51sSEyx", 0⟩]

/-- No publication fails and one record goes to the topic, but two are counted. -/
theorem sharedCount_unbalanced :
    (writtenTo sharedCount).published "7mohtcOFVz" ≠
      (writtenTo sharedCount).unpublished "7mohtcOFVz" + produced (· = "7mohtcOFVz") {} sharedCount := by
  decide +kernel

end Relay
end ChatRelay
