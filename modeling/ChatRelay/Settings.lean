/-! The settings of an instance, and what each is when nothing was said about it. Durations are whole
milliseconds: what is read is never finer, and of a duration that was made otherwise validation would ask only
whether it is zero. -/
namespace ChatRelay

/-- How many brokers confirm a publication. -/
inductive Acknowledgements where
  | all
  | leader
  | none
deriving DecidableEq, Repr, Inhabited

namespace Acknowledgements

def clientValue : Acknowledgements → String
  | all => "all"
  | leader => "1"
  | none => "0"

/-- Reads a mode by name or number, in either case. No letter of a name is the lower case of a character
outside ASCII, so it is enough to lower ASCII letters. -/
def read? (value : String) : Option Acknowledgements :=
  let lowered := value.toLower
  if lowered = "all" ∨ lowered = "-1" then some all
  else if lowered = "leader" ∨ lowered = "1" then some leader
  else if lowered = "none" ∨ lowered = "0" then some none
  else Option.none

end Acknowledgements

inductive LogFormat where
  | pretty
  | json
deriving DecidableEq, Repr, Inhabited

namespace LogFormat

def ofName (name : String) : LogFormat :=
  if name.toLower = "json" then json else pretty

def ofSetting (value : Option String) : LogFormat :=
  (value.map ofName).getD pretty

end LogFormat

structure TopicSettings where
  messages : String := "messages-by-receiver"
  sender : String := "messages-by-sender"
deriving DecidableEq, Repr, Inhabited

structure ProducerSettings where
  idContext : String := "backplane"
  acknowledgements : Acknowledgements := .all
  linger : Nat := 5
  messageTimeout : Nat := 30000
  maxSendRetries : Nat := 3
deriving DecidableEq, Repr, Inhabited

structure ConsumerSettings where
  groupId : String
  pollTimeout : Nat := 1000
  maxPollRecords : Nat := 500
deriving DecidableEq, Repr, Inhabited

inductive ConsumerRole where
  | receivers
  | stateSender
  | stateReceiver
deriving DecidableEq, Repr, Inhabited

def ConsumerRole.name : ConsumerRole → String
  | receivers => "receivers"
  | stateSender => "state_sender"
  | stateReceiver => "state_receiver"

structure Settings where
  bootstrapServers : List String := ["127.0.0.1:9092"]
  partitionCount : Nat := 12
  topics : TopicSettings := {}
  producer : ProducerSettings := {}
  receivers : ConsumerSettings := { groupId := "backplane-receivers" }
  stateSender : ConsumerSettings := { groupId := "backplane-state-sender" }
  stateReceiver : ConsumerSettings := { groupId := "backplane-state-receiver" }
  flushTimeout : Nat := 10000
  healthPort : Nat := 8080
  controlThreads : Nat := 1
deriving DecidableEq, Repr, Inhabited

namespace Settings

def joinedServers (settings : Settings) : String :=
  ",".intercalate settings.bootstrapServers

def consumer (settings : Settings) : ConsumerRole → ConsumerSettings
  | .receivers => settings.receivers
  | .stateSender => settings.stateSender
  | .stateReceiver => settings.stateReceiver

end Settings
end ChatRelay
