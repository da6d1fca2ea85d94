import Mathlib.Data.List.Nodup
import Mathlib.Logic.Function.Basic
import ChatRelay.Proofs.Decimal.Numerals
import ChatRelay.Settings.Reading

namespace ChatRelay

def Acknowledgements.names : Acknowledgements → List String
  | all => ["all", "-1"]
  | leader => ["leader", "1"]
  | none => ["none", "0"]

theorem Acknowledgements.read?_eq_some_iff {value : String} {mode : Acknowledgements} :
    read? value = some mode ↔ value.toLower ∈ mode.names := by
  unfold read?
  generalize value.toLower = word
  by_cases all : word = "all" ∨ word = "-1"
  · rcases all with rfl | rfl <;> cases mode <;> simp [names]
  · by_cases leader : word = "leader" ∨ word = "1"
    · rcases leader with rfl | rfl <;> cases mode <;> simp [names]
    · by_cases none : word = "none" ∨ word = "0"
      · rcases none with rfl | rfl <;> cases mode <;> simp [names]
      · cases mode <;> simp_all [names]

namespace Settings

inductive Kind where
  | servers
  | text
  | number (limit : Nat)
  | acknowledgements

@[reducible]
def Kind.Content : Kind → Type
  | servers => List String
  | text => String
  | number _ => Nat
  | acknowledgements => Acknowledgements

/-- What a value stands for. -/
def Kind.Means : (kind : Kind) → String → kind.Content → Prop
  | servers, value, list => list = readServers value
  | text, value, word => word = value
  | number limit, value, amount => Decimal.Numeral (Text.trimBlanks value.toList) amount ∧ amount ≤ limit
  | acknowledgements, value, mode => value.toLower ∈ mode.names

/-- Why a value that was looked up under a name cannot be read. -/
def Kind.Refuses : Kind → (name value : String) → SettingsFault → Prop
  | number limit, name, value, fault =>
    ∃ reason, Decimal.Faulty limit (Text.trimBlanks value.toList) reason ∧ fault = .numeral name reason
  | acknowledgements, _, value, fault =>
    (∀ mode : Acknowledgements, value.toLower ∉ mode.names) ∧ fault = .acknowledgements value
  | _, _, _, _ => False

/-- A setting is what is said of it, or the default if nothing is. -/
def Said {α : Type} (default : α) (means : String → α → Prop) : Option String → α → Prop
  | none, content => content = default
  | some value, content => means value content

def Kind.take : (kind : Kind) → Lookup → String → kind.Content → Except Failure kind.Content
  | servers, lookup, name, default => .ok (((lookup name).map readServers).getD default)
  | text, lookup, name, default => .ok ((lookup name).getD default)
  | number limit, lookup, name, default => readNumber lookup limit name default
  | acknowledgements, lookup, _, default => readAcknowledgements lookup default

inductive Entry where
  | servers
  | partitions
  | messagesTopic
  | senderTopic
  | idContext
  | acknowledgements
  | linger
  | messageTimeout
  | retries
  | pollTimeout
  | pollRecords
  | receiversGroup
  | stateSenderGroup
  | stateReceiverGroup
  | flushTimeout
  | healthPort
  | controlThreads
deriving DecidableEq

namespace Entry

def name : Entry → String
  | servers => "BACKPLANE_BOOTSTRAP_SERVERS"
  | partitions => "BACKPLANE_PARTITIONS"
  | messagesTopic => "BACKPLANE_MESSAGES_TOPIC"
  | senderTopic => "BACKPLANE_SENDER_TOPIC"
  | idContext => "PRODUCER_ID_CONTEXT"
  | acknowledgements => "PRODUCER_ACKS"
  | linger => "PRODUCER_LINGER_MS"
  | messageTimeout => "PRODUCER_MESSAGE_TIMEOUT_MS"
  | retries => "PRODUCER_MAX_RETRIES"
  | pollTimeout => "CONSUMER_POLL_TIMEOUT_MS"
  | pollRecords => "CONSUMER_MAX_POLL_RECORDS"
  | receiversGroup => "RECEIVERS_GROUP_ID"
  | stateSenderGroup => "STATE_SENDER_GROUP_ID"
  | stateReceiverGroup => "STATE_RECEIVER_GROUP_ID"
  | flushTimeout => "FLUSH_TIMEOUT_MS"
  | healthPort => "HEALTH_PORT"
  | controlThreads => "CONTROL_THREADS"

def kind : Entry → Kind
  | servers => .servers
  | messagesTopic | senderTopic | idContext | receiversGroup | stateSenderGroup | stateReceiverGroup => .text
  | acknowledgements => .acknowledgements
  | partitions | retries => .number limit32
  | linger | messageTimeout | pollTimeout | pollRecords | flushTimeout | controlThreads => .number limit64
  | healthPort => .number limit16

/-- What settings say of an entry. The consumers are polled alike, so one of them is enough. -/
def field : (entry : Entry) → Settings → entry.kind.Content
  | servers, settings => settings.bootstrapServers
  | partitions, settings => settings.partitionCount
  | messagesTopic, settings => settings.topics.messages
  | senderTopic, settings => settings.topics.sender
  | idContext, settings => settings.producer.idContext
  | acknowledgements, settings => settings.producer.acknowledgements
  | linger, settings => settings.producer.linger
  | messageTimeout, settings => settings.producer.messageTimeout
  | retries, settings => settings.producer.maxSendRetries
  | pollTimeout, settings => settings.receivers.pollTimeout
  | pollRecords, settings => settings.receivers.maxPollRecords
  | receiversGroup, settings => settings.receivers.groupId
  | stateSenderGroup, settings => settings.stateSender.groupId
  | stateReceiverGroup, settings => settings.stateReceiver.groupId
  | flushTimeout, settings => settings.flushTimeout
  | healthPort, settings => settings.healthPort
  | controlThreads, settings => settings.controlThreads

/-- The entries that not every value can be read for, in the order in which they are read. -/
def checked : List Entry :=
  [partitions, acknowledgements, linger, messageTimeout, retries, pollTimeout, pollRecords, flushTimeout,
    healthPort, controlThreads]

def Holds (entry : Entry) (lookup : Lookup) (settings : Settings) : Prop :=
  Said (entry.field {}) entry.kind.Means (lookup entry.name) (entry.field settings)

def Accepts (entry : Entry) (value : String) : Prop := ∃ content, entry.kind.Means value content

def Refused (entry : Entry) (lookup : Lookup) : Prop :=
  ∃ value, lookup entry.name = some value ∧ ¬ entry.Accepts value

def take (entry : Entry) (lookup : Lookup) : Except Failure entry.kind.Content :=
  entry.kind.take lookup entry.name (entry.field {})

end Entry

variable {lookup : Lookup} {settings : Settings} {failure : Failure}

theorem readNumber_eq_ok_iff {limit default number : Nat} {name : String} :
    readNumber lookup limit name default = .ok number ↔
      Said default (Kind.number limit).Means (lookup name) number := by
  unfold readNumber
  cases lookup name with
  | none => simp [Said, eq_comm]
  | some value =>
    simp only [Said, Kind.Means, ← Decimal.readNumeral_eq_ok_iff]
    cases Decimal.readNumeral limit (Text.trimBlanks value.toList) <;> simp

theorem readNumber_eq_error_iff {limit default : Nat} {name : String} :
    readNumber lookup limit name default = .error failure ↔
      ∃ value fault, lookup name = some value ∧ (Kind.number limit).Refuses name value fault ∧
        failure = .settings fault := by
  unfold readNumber
  cases lookup name with
  | none => simp
  | some value =>
    simp only [Kind.Refuses, Option.some.injEq, exists_and_left, exists_eq_left',
      ← Decimal.readNumeral_eq_error_iff]
    cases Decimal.readNumeral limit (Text.trimBlanks value.toList) <;> simp [eq_comm]

theorem readAcknowledgements_eq_ok_iff {default mode : Acknowledgements} :
    readAcknowledgements lookup default = .ok mode ↔
      Said default Kind.acknowledgements.Means (lookup "PRODUCER_ACKS") mode := by
  unfold readAcknowledgements
  cases lookup "PRODUCER_ACKS" with
  | none => simp [Said, eq_comm]
  | some value =>
    simp only [Said, Kind.Means, ← Acknowledgements.read?_eq_some_iff]
    cases Acknowledgements.read? value <;> simp

theorem readAcknowledgements_eq_error_iff {default : Acknowledgements} {name : String} :
    readAcknowledgements lookup default = .error failure ↔
      ∃ value fault, lookup "PRODUCER_ACKS" = some value ∧
        Kind.acknowledgements.Refuses name value fault ∧ failure = .settings fault := by
  unfold readAcknowledgements
  cases lookup "PRODUCER_ACKS" with
  | none => simp
  | some value =>
    simp only [Kind.Refuses, Option.some.injEq, exists_and_left, exists_eq_left',
      ← Acknowledgements.read?_eq_some_iff]
    cases Acknowledgements.read? value <;> simp [eq_comm]

namespace Kind

variable {kind : Kind} {name : String}

theorem take_eq_ok_iff {default content : kind.Content}
    (named : kind = .acknowledgements → name = "PRODUCER_ACKS") :
    kind.take lookup name default = .ok content ↔ Said default kind.Means (lookup name) content := by
  cases kind with
  | servers => cases said : lookup name <;> simp [take, Said, said, Means, eq_comm]
  | text => cases said : lookup name <;> simp [take, Said, said, Means, eq_comm]
  | number limit => exact readNumber_eq_ok_iff
  | acknowledgements =>
    rw [named rfl]
    exact readAcknowledgements_eq_ok_iff

theorem take_eq_error_iff {default : kind.Content}
    (named : kind = .acknowledgements → name = "PRODUCER_ACKS") :
    kind.take lookup name default = .error failure ↔
      ∃ value fault, lookup name = some value ∧ kind.Refuses name value fault ∧ failure = .settings fault := by
  cases kind with
  | servers | text => simp [take, Refuses]
  | number limit => exact readNumber_eq_error_iff
  | acknowledgements =>
    rw [named rfl]
    exact readAcknowledgements_eq_error_iff

end Kind

namespace Entry

variable {entry other : Entry}

theorem named (entry : Entry) (kind : entry.kind = .acknowledgements) : entry.name = "PRODUCER_ACKS" := by
  cases entry <;> simp [Entry.kind] at kind
  rfl

theorem take_eq_ok_iff {content : entry.kind.Content} :
    entry.take lookup = .ok content ↔ Said (entry.field {}) entry.kind.Means (lookup entry.name) content :=
  Kind.take_eq_ok_iff entry.named

theorem take_eq_error_iff :
    entry.take lookup = .error failure ↔
      ∃ value fault, lookup entry.name = some value ∧ entry.kind.Refuses entry.name value fault ∧
        failure = .settings fault :=
  Kind.take_eq_error_iff entry.named

theorem refused_iff : entry.Refused lookup ↔ ∃ failure, entry.take lookup = .error failure := by
  constructor
  · rintro ⟨value, said, unreadable⟩
    cases taken : entry.take lookup with
    | ok content =>
      have means := take_eq_ok_iff.mp taken
      rw [said] at means
      exact absurd ⟨content, means⟩ unreadable
    | error failure => exact ⟨failure, rfl⟩
  · rintro ⟨failure, taken⟩
    obtain ⟨value, fault, said, _, _⟩ := take_eq_error_iff.mp taken
    refine ⟨value, said, ?_⟩
    rintro ⟨content, means⟩
    have readable : entry.take lookup = .ok content := take_eq_ok_iff.mpr (said ▸ means)
    cases taken.symm.trans readable

theorem said_unique {said : Option String} {content another : entry.kind.Content}
    (first : Said (entry.field {}) entry.kind.Means said content)
    (second : Said (entry.field {}) entry.kind.Means said another) : content = another := by
  have taken : entry.take (fun _ => said) = .ok content := take_eq_ok_iff.mpr first
  have takenToo : entry.take (fun _ => said) = .ok another := take_eq_ok_iff.mpr second
  exact Except.ok.inj (taken.symm.trans takenToo)

theorem message_of_refuses {value : String} {fault : SettingsFault}
    (refuses : entry.kind.Refuses entry.name value fault) :
    ∃ reason : String, fault.message = s!"Invalid {entry.name}: {reason}" := by
  cases kind : entry.kind with
  | servers | text =>
    rw [kind] at refuses
    exact refuses.elim
  | number limit =>
    rw [kind] at refuses
    obtain ⟨reason, _, rfl⟩ := refuses
    exact ⟨reason.message, rfl⟩
  | acknowledgements =>
    rw [kind] at refuses
    obtain ⟨_, rfl⟩ := refuses
    rw [entry.named kind]
    exact ⟨unknownAcknowledgements value, rfl⟩

def all : List Entry :=
  [servers, partitions, messagesTopic, senderTopic, idContext, acknowledgements, linger, messageTimeout, retries,
    pollTimeout, pollRecords, receiversGroup, stateSenderGroup, stateReceiverGroup, flushTimeout, healthPort,
    controlThreads]

theorem mem_all (entry : Entry) : entry ∈ all := by
  cases entry <;> decide

theorem name_inj (same : entry.name = other.name) : entry = other :=
  List.inj_on_of_nodup_map (f := name) (by decide : (all.map name).Nodup) (mem_all entry) (mem_all other) same

end Entry

/-- The failure of the first of some entries that are refused. -/
def FirstRefusal (lookup : Lookup) (failure : Failure) : List Entry → Prop
  | [] => False
  | entry :: later =>
    entry.take lookup = .error failure ∨ ¬ entry.Refused lookup ∧ FirstRefusal lookup failure later

theorem firstRefusal_iff {entries : List Entry} :
    FirstRefusal lookup failure entries ↔ ∃ earlier entry later, entries = earlier ++ entry :: later ∧
      (∀ other ∈ earlier, ¬ other.Refused lookup) ∧ entry.take lookup = .error failure := by
  induction entries with
  | nil => simp [FirstRefusal]
  | cons entry entries ih =>
    rw [FirstRefusal, ih]
    constructor
    · rintro (refused | ⟨fine, earlier, first, later, rfl, before, refused⟩)
      · exact ⟨[], entry, entries, rfl, by simp, refused⟩
      · exact ⟨entry :: earlier, first, later, rfl, List.forall_mem_cons.mpr ⟨fine, before⟩, refused⟩
    · rintro ⟨earlier, first, later, split, before, refused⟩
      cases earlier with
      | nil =>
        obtain ⟨rfl, rfl⟩ := List.cons.inj split
        exact .inl refused
      | cons head earlier =>
        obtain ⟨rfl, rfl⟩ := List.cons.inj split
        obtain ⟨fine, before⟩ := List.forall_mem_cons.mp before
        exact .inr ⟨fine, earlier, first, later, rfl, before, refused⟩

/-- Reading goes on after an entry that can be read, whatever it is. -/
theorem bind_take_eq_error_iff (entry : Entry) {rest : entry.kind.Content → Except Failure Settings}
    {others : List Entry} (later : ∀ content, rest content = .error failure ↔ FirstRefusal lookup failure others) :
    (entry.take lookup >>= rest) = .error failure ↔ FirstRefusal lookup failure (entry :: others) := by
  rw [FirstRefusal, Entry.refused_iff]
  cases entry.take lookup with
  | ok content => simpa [bind, Except.bind] using later content
  | error first => simp [bind, Except.bind]

theorem read_eq_error_iff : read lookup = .error failure ↔ FirstRefusal lookup failure Entry.checked := by
  unfold read
  refine bind_take_eq_error_iff .partitions fun _ => ?_
  refine bind_take_eq_error_iff .acknowledgements fun _ => ?_
  refine bind_take_eq_error_iff .linger fun _ => ?_
  refine bind_take_eq_error_iff .messageTimeout fun _ => ?_
  refine bind_take_eq_error_iff .retries fun _ => ?_
  refine bind_take_eq_error_iff .pollTimeout fun _ => ?_
  refine bind_take_eq_error_iff .pollRecords fun _ => ?_
  refine bind_take_eq_error_iff .flushTimeout fun _ => ?_
  refine bind_take_eq_error_iff .healthPort fun _ => ?_
  refine bind_take_eq_error_iff .controlThreads fun _ => ?_
  simp [FirstRefusal, pure, Except.pure]

def PolledAlike (settings : Settings) : Prop :=
  ∀ role, (settings.consumer role).pollTimeout = settings.receivers.pollTimeout ∧
    (settings.consumer role).maxPollRecords = settings.receivers.maxPollRecords

theorem eq_of_fields {others : Settings} (alike : settings.PolledAlike) (alikeToo : others.PolledAlike)
    (same : ∀ entry : Entry, entry.field settings = entry.field others) : settings = others := by
  have sender := alike .stateSender
  have receiver := alike .stateReceiver
  have otherSender := alikeToo .stateSender
  have otherReceiver := alikeToo .stateReceiver
  obtain ⟨_, _, ⟨_, _⟩, ⟨_, _, _, _, _⟩, ⟨_, _, _⟩, ⟨_, _, _⟩, ⟨_, _, _⟩, _, _, _⟩ := settings
  obtain ⟨_, _, ⟨_, _⟩, ⟨_, _, _, _, _⟩, ⟨_, _, _⟩, ⟨_, _, _⟩, ⟨_, _, _⟩, _, _, _⟩ := others
  cases same .servers
  cases same .partitions
  cases same .messagesTopic
  cases same .senderTopic
  cases same .idContext
  cases same .acknowledgements
  cases same .linger
  cases same .messageTimeout
  cases same .retries
  cases same .pollTimeout
  cases same .pollRecords
  cases same .receiversGroup
  cases same .stateSenderGroup
  cases same .stateReceiverGroup
  cases same .flushTimeout
  cases same .healthPort
  cases same .controlThreads
  simp_all [consumer]

theorem bind_eq_ok_iff {α : Type} {step : Except Failure α} {rest : α → Except Failure Settings} :
    (step >>= rest) = .ok settings ↔ ∃ content, step = .ok content ∧ rest content = .ok settings := by
  cases step <;> simp [bind, Except.bind]

/-- What has been read has what is said of each entry. -/
theorem holds_of_read (reads : read lookup = .ok settings) (entry : Entry) : entry.Holds lookup settings := by
  simp only [read, bind_eq_ok_iff] at reads
  obtain ⟨partitions, readPartitions, acknowledgements, readAcknowledgements, linger, readLinger,
    messageTimeout, readMessageTimeout, retries, readRetries, pollTimeout, readPollTimeout,
    pollRecords, readPollRecords, flushTimeout, readFlushTimeout, healthPort, readHealthPort,
    controlThreads, readControlThreads, built⟩ := reads
  cases built
  rw [Entry.Holds, ← Entry.take_eq_ok_iff]
  cases entry <;> first | rfl | assumption

theorem polledAlike_of_read (reads : read lookup = .ok settings) : settings.PolledAlike := by
  simp only [read, bind_eq_ok_iff] at reads
  obtain ⟨_, _, _, _, _, _, _, _, _, _, _, _, _, _, _, _, _, _, _, _, built⟩ := reads
  cases built
  intro role
  cases role <;> exact ⟨rfl, rfl⟩

theorem read_eq_ok_iff :
    read lookup = .ok settings ↔ (∀ entry : Entry, entry.Holds lookup settings) ∧ settings.PolledAlike := by
  refine ⟨fun reads => ⟨holds_of_read reads, polledAlike_of_read reads⟩, ?_⟩
  rintro ⟨holds, alike⟩
  cases reads : read lookup with
  | ok others =>
    have same (entry : Entry) : entry.field others = entry.field settings :=
      Entry.said_unique (holds_of_read reads entry) (holds entry)
    rw [eq_of_fields (polledAlike_of_read reads) alike same]
  | error failure =>
    obtain ⟨_, entry, _, _, _, refused⟩ := firstRefusal_iff.mp (read_eq_error_iff.mp reads)
    cases refused.symm.trans (Entry.take_eq_ok_iff.mpr (holds entry))

/-- Reading fails exactly if an entry is refused. -/
theorem exists_error_iff :
    (∃ failure, read lookup = .error failure) ↔ ∃ entry ∈ Entry.checked, entry.Refused lookup := by
  constructor
  · rintro ⟨failure, reads⟩
    obtain ⟨earlier, entry, later, split, _, refused⟩ := firstRefusal_iff.mp (read_eq_error_iff.mp reads)
    exact ⟨entry, by simp [split], Entry.refused_iff.mpr ⟨failure, refused⟩⟩
  · rintro ⟨entry, _, refused⟩
    obtain ⟨failure, refuses⟩ := Entry.refused_iff.mp refused
    cases reads : read lookup with
    | ok settings => cases refuses.symm.trans (Entry.take_eq_ok_iff.mpr (holds_of_read reads entry))
    | error failure => exact ⟨failure, rfl⟩

/-- An entry does not hear what is said of others. -/
theorem field_eq_of_read {other : Lookup} {others : Settings} (reads : read lookup = .ok settings)
    (readsToo : read other = .ok others) {entry : Entry} (same : lookup entry.name = other entry.name) :
    entry.field settings = entry.field others :=
  Entry.said_unique (holds_of_read reads entry) (same ▸ holds_of_read readsToo entry)

/-- Where something else is said of one entry that it can be read from, no other entry changes. -/
theorem exists_read_update (reads : read lookup = .ok settings) (entry : Entry) {said : Option String}
    (acceptable : ∀ value ∈ said, entry.Accepts value) :
    ∃ changed, read (Function.update lookup entry.name said) = .ok changed ∧
      ∀ other, other ≠ entry → Entry.field other changed = other.field settings := by
  have kept {other : Entry} (different : other ≠ entry) :
      Function.update lookup entry.name said other.name = lookup other.name :=
    Function.update_of_ne (mt Entry.name_inj different) _ _
  cases readsAgain : read (Function.update lookup entry.name said) with
  | ok changed => exact ⟨changed, rfl, fun other different => field_eq_of_read readsAgain reads (kept different)⟩
  | error failure =>
    obtain ⟨other, among, value, there, unreadable⟩ := exists_error_iff.mp ⟨failure, readsAgain⟩
    by_cases same : other = entry
    · subst same
      rw [Function.update_self] at there
      exact absurd (acceptable value there) unreadable
    · rw [kept same] at there
      obtain ⟨failure, fails⟩ := exists_error_iff.mpr ⟨other, among, value, there, unreadable⟩
      cases reads.symm.trans fails

theorem message_settings {fault : SettingsFault} {told : String} (message : fault.message = told) :
    (Failure.settings fault).message = "Configuration error: " ++ told := by
  subst message
  rfl

/-- How settings are read from named values. -/
structure ReadByField (lookup : Lookup) : Prop where
  fails : (∃ failure, read lookup = .error failure) ↔ ∃ entry ∈ Entry.checked, entry.Refused lookup
  /-- The failure is that of the first entry that is refused, and tells its name. -/
  named : ∀ failure, read lookup = .error failure → ∃ earlier entry later,
    Entry.checked = earlier ++ entry :: later ∧ (∀ other ∈ earlier, ¬ other.Refused lookup) ∧
      ∃ value fault, lookup entry.name = some value ∧ ¬ entry.Accepts value ∧
        entry.kind.Refuses entry.name value fault ∧ failure = .settings fault ∧
          ∃ reason : String, failure.message = "Configuration error: " ++ s!"Invalid {entry.name}: {reason}"
  /-- Each field is what is said of it or its default, and there is nothing more to say. -/
  reads : ∀ settings, read lookup = .ok settings ↔
    (∀ entry : Entry, entry.Holds lookup settings) ∧ settings.PolledAlike
  alone : ∀ other settings others, read lookup = .ok settings → read other = .ok others →
    ∀ entry : Entry, lookup entry.name = other entry.name → entry.field settings = entry.field others
  others : ∀ settings, read lookup = .ok settings → ∀ (entry : Entry) (said : Option String),
    (∀ value ∈ said, entry.Accepts value) →
      ∃ changed, read (Function.update lookup entry.name said) = .ok changed ∧
        ∀ other, other ≠ entry → Entry.field other changed = other.field settings

theorem settings_read_by_field (lookup : Lookup) : ReadByField lookup where
  fails := exists_error_iff
  named failure reads := by
    obtain ⟨earlier, entry, later, split, before, refused⟩ := firstRefusal_iff.mp (read_eq_error_iff.mp reads)
    obtain ⟨value, fault, said, refuses, rfl⟩ := Entry.take_eq_error_iff.mp refused
    obtain ⟨_, saidToo, unreadable⟩ := Entry.refused_iff.mpr ⟨_, refused⟩
    obtain rfl := Option.some.inj (saidToo.symm.trans said)
    obtain ⟨reason, message⟩ := Entry.message_of_refuses refuses
    exact ⟨earlier, entry, later, split, before, _, fault, said, unreadable, refuses, rfl, reason,
      message_settings message⟩
  reads settings := read_eq_ok_iff
  alone other settings others reads readsToo entry same := field_eq_of_read reads readsToo same
  others settings reads entry said acceptable := exists_read_update reads entry acceptable

end Settings
end ChatRelay
