import ChatRelay.Settings
import ChatRelay.Text.Blank

namespace ChatRelay

inductive Violation where
  | blankServers
  | noPartitions
  | tooManyPartitions (count : Nat)
  | emptyTopicName
  | sameTopicNames (name : String)
  | emptyGroupId (role : ConsumerRole)
  | zeroPollTimeout (role : ConsumerRole)
  | zeroPollRecords (role : ConsumerRole)
  | sharedGroupId (earlier later : ConsumerRole) (groupId : String)
  | zeroMessageTimeout
  | zeroFlushTimeout
  | noControlThreads
deriving DecidableEq, Repr

def Violation.message : Violation → String
  | blankServers => "bootstrap_servers must list at least one non-empty address"
  | noPartitions => "partition_count must be at least 1"
  | tooManyPartitions count => s!"partition_count ({count}) exceeds the broker partition index range"
  | emptyTopicName => "topic names must not be empty"
  | sameTopicNames name => s!"messages topic and sender topic must differ (both '{name}')"
  | emptyGroupId role => s!"{role.name} group_id must not be empty"
  | zeroPollTimeout role => s!"{role.name} poll_timeout must be greater than zero"
  | zeroPollRecords role => s!"{role.name} max_poll_records must be at least 1"
  | sharedGroupId earlier later groupId =>
    s!"{earlier.name} and {later.name} group_id must differ (both '{groupId}')"
  | zeroMessageTimeout => "producer message_timeout must be greater than zero"
  | zeroFlushTimeout => "flush_timeout must be greater than zero"
  | noControlThreads => "control_threads must be at least 1"

namespace Settings

def when (condition : Bool) (violation : Violation) : List Violation :=
  if condition then [violation] else []

def roles : List ConsumerRole := [.receivers, .stateSender, .stateReceiver]

def consumerViolations (settings : Settings) (role : ConsumerRole) : List Violation :=
  let consumer := settings.consumer role
  when (consumer.groupId = "") (.emptyGroupId role) ++
  when (consumer.pollTimeout = 0) (.zeroPollTimeout role) ++
  when (consumer.maxPollRecords = 0) (.zeroPollRecords role)

/-- Reports a consumer against the first of the earlier ones whose group id, not being empty, is the same. -/
def sharingViolations (settings : Settings) (earlier : List ConsumerRole) (role : ConsumerRole) :
    List Violation :=
  let groupId := (settings.consumer role).groupId
  match earlier.find? fun other =>
      (settings.consumer other).groupId != "" && (settings.consumer other).groupId == groupId with
  | some other => [.sharedGroupId other role groupId]
  | none => []

def violations (settings : Settings) : List Violation :=
  when (settings.bootstrapServers.isEmpty ||
    settings.bootstrapServers.any fun server => (Text.trimBlanks server.toList).isEmpty) .blankServers ++
  when (settings.partitionCount = 0) .noPartitions ++
  when (0x80000000 ≤ settings.partitionCount) (.tooManyPartitions settings.partitionCount) ++
  when (settings.topics.messages = "" || settings.topics.sender = "") .emptyTopicName ++
  when (settings.topics.messages = settings.topics.sender) (.sameTopicNames settings.topics.messages) ++
  roles.flatMap settings.consumerViolations ++
  roles.zipIdx.flatMap (fun (role, place) => settings.sharingViolations (roles.take place) role) ++
  when (settings.producer.messageTimeout = 0) .zeroMessageTimeout ++
  when (settings.flushTimeout = 0) .zeroFlushTimeout ++
  when (settings.controlThreads = 0) .noControlThreads

/-- What is said of settings that an instance refuses to start with. -/
def refusal? (settings : Settings) : Option String :=
  match settings.violations.length with
  | 0 => none
  | count => some s!"Invalid configuration - {count} error(s) found"

end Settings
end ChatRelay
