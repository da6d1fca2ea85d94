import Mathlib.Data.List.Nodup
import ChatRelay.Proofs.Text.Pieces
import ChatRelay.Settings.Validation

namespace ChatRelay

/-- What is asked of settings, each for itself. -/
inductive Condition where
  | servers
  | somePartition
  | partitionRange
  | topicNames
  | topicsApart
  | groupId (role : ConsumerRole)
  | pollTimeout (role : ConsumerRole)
  | pollRecords (role : ConsumerRole)
  | ownGroup (role : ConsumerRole)
  | messageTimeout
  | flushTimeout
  | controlThreads
deriving DecidableEq

def ConsumerRole.earlier : ConsumerRole → List ConsumerRole
  | receivers => []
  | stateSender => [receivers]
  | stateReceiver => [receivers, stateSender]

theorem ConsumerRole.ne_of_mem_earlier {role other : ConsumerRole} (before : other ∈ role.earlier) :
    role ≠ other := by
  rintro rfl
  cases role <;> simp [earlier] at before

theorem ConsumerRole.mem_earlier_or {role other : ConsumerRole} (different : role ≠ other) :
    other ∈ role.earlier ∨ role ∈ other.earlier := by
  cases role <;> cases other <;> simp_all [earlier]

def Condition.ofRole (role : ConsumerRole) : List Condition := [groupId role, pollTimeout role, pollRecords role]

def Condition.all : List Condition :=
  [servers, somePartition, partitionRange, topicNames, topicsApart] ++ Settings.roles.flatMap ofRole ++
    Settings.roles.map ownGroup ++ [messageTimeout, flushTimeout, controlThreads]

theorem Condition.mem_all (condition : Condition) : condition ∈ all := by
  cases condition with
  | groupId role | pollTimeout role | pollRecords role | ownGroup role => cases role <;> decide
  | _ => decide

theorem Condition.nodup_all : all.Nodup := by decide

theorem mem_roles (role : ConsumerRole) : role ∈ Settings.roles := by
  cases role <;> decide

def Violation.condition : Violation → Condition
  | blankServers => .servers
  | noPartitions => .somePartition
  | tooManyPartitions _ => .partitionRange
  | emptyTopicName => .topicNames
  | sameTopicNames _ => .topicsApart
  | emptyGroupId role => .groupId role
  | zeroPollTimeout role => .pollTimeout role
  | zeroPollRecords role => .pollRecords role
  | sharedGroupId _ later _ => .ownGroup later
  | zeroMessageTimeout => .messageTimeout
  | zeroFlushTimeout => .flushTimeout
  | noControlThreads => .controlThreads

/-- What a message for the condition begins with, whatever it names. -/
def Condition.headings : Condition → List String
  | servers => [Violation.blankServers.message]
  | somePartition => [Violation.noPartitions.message]
  | partitionRange => ["partition_count ("]
  | topicNames => [Violation.emptyTopicName.message]
  | topicsApart => ["messages topic and sender topic must differ (both '"]
  | groupId role => [(Violation.emptyGroupId role).message]
  | pollTimeout role => [(Violation.zeroPollTimeout role).message]
  | pollRecords role => [(Violation.zeroPollRecords role).message]
  | ownGroup role => Settings.roles.map fun other => other.name ++ " and " ++ role.name
  | messageTimeout => [Violation.zeroMessageTimeout.message]
  | flushTimeout => [Violation.zeroFlushTimeout.message]
  | controlThreads => [Violation.noControlThreads.message]

theorem Condition.headings_apart {condition other : Condition} {heading beginning : String}
    (among : heading ∈ condition.headings) (amongToo : beginning ∈ other.headings)
    (begins : Text.Begins beginning heading) : condition = other := by
  have apart : ∀ condition ∈ all, ∀ other ∈ all, ∀ heading ∈ condition.headings, ∀ beginning ∈ other.headings,
      Text.Begins beginning heading → condition = other := by decide +kernel
  exact apart condition condition.mem_all other other.mem_all heading among beginning amongToo begins

theorem Violation.exists_heading (violation : Violation) :
    ∃ heading ∈ violation.condition.headings, Text.Begins violation.message heading := by
  cases violation with
  | tooManyPartitions count | sameTopicNames name =>
    exact ⟨_, List.mem_singleton_self _, ((Text.Begins.refl _).append _).append _⟩
  | sharedGroupId other role groupId =>
    exact ⟨_, List.mem_map.mpr ⟨other, mem_roles other, rfl⟩,
      (((Text.Begins.refl _).append _).append _).append _⟩
  | _ => exact ⟨_, List.mem_singleton_self _, .refl _⟩

/-- No message is told for two conditions. -/
theorem Violation.condition_eq_of_message_eq {violation other : Violation}
    (same : violation.message = other.message) : violation.condition = other.condition := by
  obtain ⟨heading, among, begins⟩ := violation.exists_heading
  obtain ⟨beginning, amongToo, beginsToo⟩ := other.exists_heading
  rw [same] at begins
  rcases begins.comparable beginsToo with first | second
  · exact (Condition.headings_apart amongToo among first).symm
  · exact Condition.headings_apart among amongToo second

namespace Settings

variable {settings : Settings} {role : ConsumerRole}

def Shares (settings : Settings) (role other : ConsumerRole) : Prop :=
  (settings.consumer other).groupId ≠ "" ∧ (settings.consumer other).groupId = (settings.consumer role).groupId

def Meets (settings : Settings) : Condition → Prop
  | .servers => settings.bootstrapServers ≠ [] ∧ ∀ server ∈ settings.bootstrapServers, ¬ Text.Blank server.toList
  | .somePartition => 1 ≤ settings.partitionCount
  | .partitionRange => settings.partitionCount ≤ 0x7fffffff
  | .topicNames => settings.topics.messages ≠ "" ∧ settings.topics.sender ≠ ""
  | .topicsApart => settings.topics.messages ≠ settings.topics.sender
  | .groupId role => (settings.consumer role).groupId ≠ ""
  | .pollTimeout role => (settings.consumer role).pollTimeout ≠ 0
  | .pollRecords role => (settings.consumer role).maxPollRecords ≠ 0
  | .ownGroup role => ∀ other ∈ role.earlier, ¬ settings.Shares role other
  | .messageTimeout => settings.producer.messageTimeout ≠ 0
  | .flushTimeout => settings.flushTimeout ≠ 0
  | .controlThreads => settings.controlThreads ≠ 0

instance (settings : Settings) : DecidablePred (settings.Shares role) := fun _ =>
  inferInstanceAs (Decidable (_ ∧ _))

instance (settings : Settings) : DecidablePred settings.Meets
  | .servers | .topicNames => inferInstanceAs (Decidable (_ ∧ _))
  | .somePartition | .partitionRange => inferInstanceAs (Decidable (_ ≤ _))
  | .topicsApart | .groupId _ | .pollTimeout _ | .pollRecords _ | .messageTimeout | .flushTimeout | .controlThreads =>
    inferInstanceAs (Decidable (_ ≠ _))
  | .ownGroup role => inferInstanceAs (Decidable (∀ other ∈ role.earlier, ¬ settings.Shares role other))

/-- The other is the first of the earlier roles that shares its group id with the role. -/
def SharesFirst (settings : Settings) (role other : ConsumerRole) : Prop :=
  settings.Shares role other ∧
    ∃ before after, role.earlier = before ++ other :: after ∧ ∀ third ∈ before, ¬ settings.Shares role third

/-- What a violation names is what the settings have. -/
def Tells (settings : Settings) : Violation → Prop
  | .tooManyPartitions count => count = settings.partitionCount
  | .sameTopicNames name => name = settings.topics.messages ∧ name = settings.topics.sender
  | .sharedGroupId other role groupId => groupId = (settings.consumer role).groupId ∧ settings.SharesFirst role other
  | _ => True

/-- The violations are those of the conditions that are not met, in their order. -/
structure Covers (settings : Settings) (violations : List Violation) (conditions : List Condition) : Prop where
  each : violations.map Violation.condition = conditions.filter fun condition => ¬ settings.Meets condition
  told : ∀ violation ∈ violations, settings.Tells violation

namespace Covers

variable {violations others : List Violation} {conditions more : List Condition}

theorem append (first : settings.Covers violations conditions) (second : settings.Covers others more) :
    settings.Covers (violations ++ others) (conditions ++ more) where
  each := by rw [List.map_append, List.filter_append, first.each, second.each]
  told := List.forall_mem_append.mpr ⟨first.told, second.told⟩

theorem flatMap {roles : List ConsumerRole} {violations : ConsumerRole → List Violation}
    {conditions : ConsumerRole → List Condition}
    (every : ∀ role, settings.Covers (violations role) (conditions role)) :
    settings.Covers (roles.flatMap violations) (roles.flatMap conditions) := by
  induction roles with
  | nil => exact ⟨rfl, by simp⟩
  | cons role roles ih => exact (every role).append ih

theorem when {violated : Bool} {violation : Violation} {condition : Condition}
    (kind : violation.condition = condition) (fails : violated = true ↔ ¬ settings.Meets condition)
    (tells : violated = true → settings.Tells violation) :
    settings.Covers (when violated violation) [condition] := by
  cases violated with
  | false =>
    have met : settings.Meets condition := by simpa using fails
    exact ⟨by simp [Settings.when, met], by simp [Settings.when]⟩
  | true =>
    have unmet : ¬ settings.Meets condition := by simpa using fails
    exact ⟨by simp [Settings.when, unmet, kind], by simpa [Settings.when] using tells⟩

end Covers

theorem covers_consumer (role : ConsumerRole) :
    settings.Covers (settings.consumerViolations role) (Condition.ofRole role) := by
  have split : Condition.ofRole role =
      [Condition.groupId role] ++ [Condition.pollTimeout role] ++ [Condition.pollRecords role] := rfl
  rw [split, consumerViolations]
  refine .append (.append ?_ ?_) ?_
  · exact .when rfl (by simp [Meets]) fun _ => trivial
  · exact .when rfl (by simp [Meets]) fun _ => trivial
  · exact .when rfl (by simp [Meets]) fun _ => trivial

theorem shares_iff {other : ConsumerRole} :
    ((settings.consumer other).groupId != "" &&
      (settings.consumer other).groupId == (settings.consumer role).groupId) ↔ settings.Shares role other := by
  simp [Shares]

/-- A role that shares its group id is told against the first that has it. -/
theorem covers_sharing (role : ConsumerRole) :
    settings.Covers (settings.sharingViolations role.earlier role) [.ownGroup role] := by
  simp only [sharingViolations]
  split
  · rename_i other found
    obtain ⟨shares, before, after, split, others⟩ := List.find?_eq_some_iff_append.mp found
    have first : settings.SharesFirst role other := by
      refine ⟨shares_iff.mp shares, before, after, split, fun third among shared => ?_⟩
      simpa [shares_iff.mpr shared] using others third among
    have shared : ¬ settings.Meets (.ownGroup role) := fun own => own other (by simp [split]) first.1
    exact ⟨by simp [shared, Violation.condition], by simpa [Tells] using first⟩
  · rename_i absent
    have own : settings.Meets (.ownGroup role) := fun other among shared =>
      List.find?_eq_none.mp absent other among (shares_iff.mpr shared)
    exact ⟨by simp [own], by simp⟩

theorem violates_servers : (settings.bootstrapServers.isEmpty ||
    settings.bootstrapServers.any fun server => (Text.trimBlanks server.toList).isEmpty) ↔
      ¬ settings.Meets .servers := by
  simp [Meets, ← Text.trimBlanks_eq_nil_iff, or_iff_not_imp_left]

theorem covers_violations (settings : Settings) : settings.Covers settings.violations Condition.all := by
  have split : Condition.all = [Condition.servers] ++ [Condition.somePartition] ++ [Condition.partitionRange] ++
      [Condition.topicNames] ++ [Condition.topicsApart] ++ roles.flatMap Condition.ofRole ++
      roles.flatMap (fun role => [Condition.ownGroup role]) ++ [Condition.messageTimeout] ++
      [Condition.flushTimeout] ++ [Condition.controlThreads] := rfl
  rw [split, violations]
  refine .append (.append (.append (.append (.append ?upToTopics ?_) ?_) ?_) ?_) ?_
  case upToTopics =>
    refine .append (.append (.append (.append ?_ ?_) ?_) ?_) ?_
    · exact .when rfl violates_servers fun _ => trivial
    · exact .when rfl (by simp [Meets]) fun _ => trivial
    · exact .when rfl (by simp [Meets]; omega) fun _ => rfl
    · exact .when rfl (by simp [Meets, or_iff_not_imp_left]) fun _ => trivial
    · exact .when rfl (by simp [Meets]) fun same => ⟨rfl, of_decide_eq_true same⟩
  · exact .flatMap covers_consumer
  · -- the roles before a role's place are those that come earlier
    show settings.Covers (roles.flatMap fun role => settings.sharingViolations role.earlier role) _
    exact .flatMap covers_sharing
  · exact .when rfl (by simp [Meets]) fun _ => trivial
  · exact .when rfl (by simp [Meets]) fun _ => trivial
  · exact .when rfl (by simp [Meets]) fun _ => trivial

/-- What an instance needs of its settings. -/
structure Usable (settings : Settings) : Prop where
  listed : settings.bootstrapServers ≠ []
  written : ∀ server ∈ settings.bootstrapServers, ∃ c ∈ server.toList, ¬ Text.isBlank c
  partitions : 1 ≤ settings.partitionCount ∧ settings.partitionCount ≤ 0x7fffffff
  topics : settings.topics.messages ≠ "" ∧ settings.topics.sender ≠ ""
  topicsApart : settings.topics.messages ≠ settings.topics.sender
  consumers : ∀ role, (settings.consumer role).groupId ≠ "" ∧ (settings.consumer role).pollTimeout ≠ 0 ∧
    (settings.consumer role).maxPollRecords ≠ 0
  groupsApart : ∀ role other, role ≠ other → (settings.consumer role).groupId ≠ (settings.consumer other).groupId
  messageTimeout : settings.producer.messageTimeout ≠ 0
  flushTimeout : settings.flushTimeout ≠ 0
  controlThreads : settings.controlThreads ≠ 0

theorem usable_iff : settings.Usable ↔ ∀ condition, settings.Meets condition := by
  constructor
  · intro usable condition
    cases condition with
    | servers =>
      refine ⟨usable.listed, fun server among blank => ?_⟩
      obtain ⟨c, present, written⟩ := usable.written server among
      exact written (blank c present)
    | somePartition => exact usable.partitions.1
    | partitionRange => exact usable.partitions.2
    | topicNames => exact usable.topics
    | topicsApart => exact usable.topicsApart
    | groupId role => exact (usable.consumers role).1
    | pollTimeout role => exact (usable.consumers role).2.1
    | pollRecords role => exact (usable.consumers role).2.2
    | ownGroup role =>
      exact fun other before shared => usable.groupsApart role other (role.ne_of_mem_earlier before) shared.2.symm
    | messageTimeout => exact usable.messageTimeout
    | flushTimeout => exact usable.flushTimeout
    | controlThreads => exact usable.controlThreads
  · intro meets
    have apart {role other : ConsumerRole} (before : other ∈ role.earlier) :
        (settings.consumer other).groupId ≠ (settings.consumer role).groupId := fun same =>
      meets (.ownGroup role) other before ⟨meets (.groupId other), same⟩
    exact {
      listed := (meets .servers).1
      written server among := by simpa [Text.Blank] using (meets .servers).2 server among
      partitions := ⟨meets .somePartition, meets .partitionRange⟩
      topics := meets .topicNames
      topicsApart := meets .topicsApart
      consumers role := ⟨meets (.groupId role), meets (.pollTimeout role), meets (.pollRecords role)⟩
      groupsApart role other different := by
        rcases role.mem_earlier_or different with before | after
        · exact (apart before).symm
        · exact apart after
      messageTimeout := meets .messageTimeout
      flushTimeout := meets .flushTimeout
      controlThreads := meets .controlThreads }

theorem violations_eq_nil_iff : settings.violations = [] ↔ settings.Usable := by
  rw [usable_iff, ← List.map_eq_nil_iff (f := Violation.condition), (covers_violations settings).each,
    List.filter_eq_nil_iff]
  simp [Condition.mem_all]

/-- What validation says of settings. -/
structure Validated (settings : Settings) : Prop where
  usable : settings.violations = [] ↔ settings.Usable
  /-- One violation for each condition that is not met, in a fixed order. -/
  each : settings.violations.map Violation.condition =
    Condition.all.filter fun condition => ¬ settings.Meets condition
  once : ∀ condition, (settings.violations.map Violation.condition).count condition =
    if settings.Meets condition then 0 else 1
  told : ∀ violation ∈ settings.violations, settings.Tells violation
  /-- Nor are two of the messages the same. -/
  apart : (settings.violations.map Violation.message).Nodup
  refused : settings.refusal? = none ↔ settings.Usable

theorem count_condition (settings : Settings) (condition : Condition) :
    (settings.violations.map Violation.condition).count condition = if settings.Meets condition then 0 else 1 := by
  rw [(covers_violations settings).each]
  split
  · rename_i met
    simp [List.count_eq_zero, met]
  · rename_i unmet
    rw [List.count_filter (by simpa using unmet)]
    exact List.count_eq_one_of_mem Condition.nodup_all condition.mem_all

theorem nodup_messages (settings : Settings) : (settings.violations.map Violation.message).Nodup := by
  have conditions : (settings.violations.map Violation.condition).Nodup := by
    rw [(covers_violations settings).each]
    exact Condition.nodup_all.filter _
  refine (List.nodup_map_iff_inj_on conditions.of_map).mpr fun violation among other amongToo same => ?_
  exact List.inj_on_of_nodup_map conditions among amongToo (Violation.condition_eq_of_message_eq same)

theorem refusal_eq_none_iff : settings.refusal? = none ↔ settings.Usable := by
  rw [← violations_eq_nil_iff, refusal?]
  cases settings.violations <;> simp

theorem settings_validated (settings : Settings) : settings.Validated where
  usable := violations_eq_nil_iff
  each := (covers_violations settings).each
  once := count_condition settings
  told := (covers_violations settings).told
  apart := nodup_messages settings
  refused := refusal_eq_none_iff

/-- The defaults can be used as they are. -/
example : ({} : Settings).violations = [] := by decide +kernel

end Settings
end ChatRelay
