import ChatRelay.Identity

namespace ChatRelay

/-- How far a message has come, as reported back to its sender. -/
inductive Status where
  | processed
  | delivered
  | seen
deriving DecidableEq, Repr, Inhabited

def Status.name : Status → String
  | .processed => "processed"
  | .delivered => "delivered"
  | .seen => "seen"

/-- A message in plain text; the text is carried as bytes. -/
structure Message where
  id : MessageId
  sender : UserId
  receiver : UserId
  payload : Bytes
deriving DecidableEq, Repr, Inhabited

/-- An acknowledgement repeats number, sender and receiver of its message. -/
structure Ack where
  id : MessageId
  sender : UserId
  receiver : UserId
  status : Status
deriving DecidableEq, Repr, Inhabited

def Ack.ofMessage (message : Message) (status : Status) : Ack :=
  ⟨message.id, message.sender, message.receiver, status⟩

inductive Envelope where
  | message (message : Message)
  | ack (ack : Ack)
deriving DecidableEq, Repr, Inhabited

namespace Envelope

def id : Envelope → MessageId
  | message m => m.id
  | ack a => a.id

def sender : Envelope → UserId
  | message m => m.sender
  | ack a => a.sender

def receiver : Envelope → UserId
  | message m => m.receiver
  | ack a => a.receiver

/-- Whose sessions the envelope is for: a message's receiver, but the sender of an acknowledged message. -/
def recipient : Envelope → UserId
  | message m => m.receiver
  | ack a => a.sender

def kindName : Envelope → String
  | message _ => "message"
  | ack a => a.status.name

def payload : Envelope → Bytes
  | message m => m.payload
  | ack _ => []

end Envelope
end ChatRelay
