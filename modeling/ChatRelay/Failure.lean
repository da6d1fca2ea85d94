import ChatRelay.Chat.Key
import ChatRelay.Partition

/-! What can go wrong. A failure names its cause; the wording is in `Failure.message` alone. In each cause
`described` is a fault told in words by whoever met it. -/
namespace ChatRelay

/-- Why bytes are no envelope, or an envelope has no bytes. -/
inductive CodecFault where
  | payloadTooLong (length : Nat)
  | malformed
  | trailingBytes
  | unsupportedVersion (version : UInt8)
  | idNotPositive (id : Int64)
  | unknownKind (kind : UInt8)
  | described (reason : String)
deriving DecidableEq, Repr

inductive BrokerFault where
  | injectedPublishFailure
  | unknownPartition (partition : Partition)
  | notSubscribed (consumer : String)
  | unknownGroup (group : String)
  | described (reason : String)
deriving DecidableEq, Repr

inductive StorageFault where
  | injectedWriteFailure (key : ChatKey)
  | described (reason : String)
deriving DecidableEq, Repr

inductive NumeralFault where
  | empty
  | invalidDigit
  | tooLarge
deriving DecidableEq, Repr

inductive SettingsFault where
  | numeral (name : String) (fault : NumeralFault)
  | acknowledgements (value : String)
  | described (reason : String)
deriving DecidableEq, Repr

inductive InputOutputFault where
  | notFound
  | permissionDenied
  | connectionRefused
  | connectionReset
  | networkUnreachable
  | addrInUse
  | brokenPipe
  | invalidInput
  | timedOut
  | unexpectedEof
  | other
deriving DecidableEq, Repr

inductive Failure where
  /-- The offending bytes go with the fault. -/
  | codec (fault : CodecFault) (data : Bytes)
  | broker (fault : BrokerFault)
  | storage (fault : StorageFault)
  | settings (fault : SettingsFault)
  | inputOutput (fault : InputOutputFault)
  | cancelled
deriving DecidableEq, Repr

def CodecFault.message : CodecFault → String
  | payloadTooLong length => s!"payload of {length} bytes exceeds limit"
  | malformed => "malformed envelope"
  | trailingBytes => "trailing bytes after envelope"
  | unsupportedVersion version => s!"unsupported envelope version {version.toNat}"
  | idNotPositive id => s!"message id {id.toInt} is not positive"
  | unknownKind kind => s!"unknown envelope kind {kind.toNat}"
  | described reason => reason

def BrokerFault.message : BrokerFault → String
  | injectedPublishFailure => "injected publish failure"
  | unknownPartition partition => s!"unknown topic or partition {partition}"
  | notSubscribed consumer => s!"consumer {consumer} is not subscribed"
  | unknownGroup group => s!"unknown group {group}"
  | described reason => reason

def StorageFault.message : StorageFault → String
  | injectedWriteFailure key => s!"injected write failure for {key.owner} {key.chat}"
  | described reason => reason

def NumeralFault.message : NumeralFault → String
  | empty => "cannot parse integer from empty string"
  | invalidDigit => "invalid digit found in string"
  | tooLarge => "number too large to fit in target type"

/-- How an unknown acknowledgement mode is refused. -/
def unknownAcknowledgements (value : String) : String :=
  s!"Unknown acks mode '{value}'. Valid modes: all, leader, none"

def SettingsFault.message : SettingsFault → String
  | numeral name fault => s!"Invalid {name}: {fault.message}"
  | acknowledgements value => s!"Invalid PRODUCER_ACKS: {unknownAcknowledgements value}"
  | described reason => reason

def InputOutputFault.name : InputOutputFault → String
  | notFound => "NotFound"
  | permissionDenied => "PermissionDenied"
  | connectionRefused => "ConnectionRefused"
  | connectionReset => "ConnectionReset"
  | networkUnreachable => "NetworkUnreachable"
  | addrInUse => "AddrInUse"
  | brokenPipe => "BrokenPipe"
  | invalidInput => "InvalidInput"
  | timedOut => "TimedOut"
  | unexpectedEof => "UnexpectedEof"
  | other => "Other"

namespace Failure

def message : Failure → String
  | codec fault data => s!"Codec error: {fault.message} ({data.length} bytes)"
  | broker fault => s!"Broker error: {fault.message}"
  | storage fault => s!"Storage error: {fault.message}"
  | settings fault => s!"Configuration error: {fault.message}"
  | inputOutput fault => s!"IO error: {fault.name}"
  | cancelled => "Cancelled"

/-- A batch that met a storage failure is worth reading again; any other failure ends its loop. -/
def isRetriable : Failure → Bool
  | storage _ => true
  | _ => false

end Failure
end ChatRelay
