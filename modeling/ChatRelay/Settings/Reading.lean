import ChatRelay.Decimal.Numeral
import ChatRelay.Settings
import ChatRelay.Text.Blank

/-! Reads the settings from named values such as those of an environment. A value that is absent leaves the
default; the first value that cannot be read ends the reading. -/
namespace ChatRelay.Settings

abbrev Lookup := String → Option String

/-- The servers of a list with commas, without blanks around them; blank pieces are left out. -/
def readServers (list : String) : List String :=
  (((Text.pieces ',' list.toList).map Text.trimBlanks).filter (!·.isEmpty)).map String.ofList

/-- Reads a number up to `limit`; blanks around it do not matter. -/
def readNumber (lookup : Lookup) (limit : Nat) (name : String) (default : Nat) : Except Failure Nat :=
  match lookup name with
  | none => .ok default
  | some value =>
    match Decimal.readNumeral limit (Text.trimBlanks value.toList) with
    | .ok number => .ok number
    | .error fault => .error (.settings (.numeral name fault))

def readAcknowledgements (lookup : Lookup) (default : Acknowledgements) :
    Except Failure Acknowledgements :=
  match lookup "PRODUCER_ACKS" with
  | none => .ok default
  | some value =>
    match Acknowledgements.read? value with
    | some mode => .ok mode
    | none => .error (.settings (.acknowledgements value))

/-- The largest numbers of 16, 32 and 64 bits. -/
def limit16 : Nat := 0xffff
def limit32 : Nat := 0xffffffff
def limit64 : Nat := 0xffffffffffffffff

/-- Reads all settings. All consumers share the poll timeout and the bound on records. -/
def read (lookup : Lookup) : Except Failure Settings := do
  let defaults : Settings := {}
  let text (name default : String) : String := (lookup name).getD default
  let bootstrapServers :=
    ((lookup "BACKPLANE_BOOTSTRAP_SERVERS").map readServers).getD defaults.bootstrapServers
  let partitionCount ← readNumber lookup limit32 "BACKPLANE_PARTITIONS" defaults.partitionCount
  let acknowledgements ← readAcknowledgements lookup defaults.producer.acknowledgements
  let linger ← readNumber lookup limit64 "PRODUCER_LINGER_MS" defaults.producer.linger
  let messageTimeout ←
    readNumber lookup limit64 "PRODUCER_MESSAGE_TIMEOUT_MS" defaults.producer.messageTimeout
  let maxSendRetries ← readNumber lookup limit32 "PRODUCER_MAX_RETRIES" defaults.producer.maxSendRetries
  let pollTimeout ← readNumber lookup limit64 "CONSUMER_POLL_TIMEOUT_MS" defaults.receivers.pollTimeout
  let maxPollRecords ←
    readNumber lookup limit64 "CONSUMER_MAX_POLL_RECORDS" defaults.receivers.maxPollRecords
  let flushTimeout ← readNumber lookup limit64 "FLUSH_TIMEOUT_MS" defaults.flushTimeout
  let healthPort ← readNumber lookup limit16 "HEALTH_PORT" defaults.healthPort
  let controlThreads ← readNumber lookup limit64 "CONTROL_THREADS" defaults.controlThreads
  return {
    bootstrapServers, partitionCount, flushTimeout, healthPort, controlThreads
    topics :=
      { messages := text "BACKPLANE_MESSAGES_TOPIC" defaults.topics.messages
        sender := text "BACKPLANE_SENDER_TOPIC" defaults.topics.sender }
    producer :=
      { idContext := text "PRODUCER_ID_CONTEXT" defaults.producer.idContext
        acknowledgements, linger, messageTimeout, maxSendRetries }
    receivers :=
      { groupId := text "RECEIVERS_GROUP_ID" defaults.receivers.groupId, pollTimeout, maxPollRecords }
    stateSender :=
      { groupId := text "STATE_SENDER_GROUP_ID" defaults.stateSender.groupId, pollTimeout, maxPollRecords }
    stateReceiver :=
      { groupId := text "STATE_RECEIVER_GROUP_ID" defaults.stateReceiver.groupId
        pollTimeout, maxPollRecords } }

end ChatRelay.Settings
