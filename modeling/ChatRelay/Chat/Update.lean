import ChatRelay.Chat.Store

namespace ChatRelay

/-- The two topics that chat state is gathered from. -/
inductive ChatSource where
  | senderTopic
  | messagesTopic
deriving DecidableEq, Repr, Inhabited

def ChatSource.name : ChatSource → String
  | senderTopic => "state-sender"
  | messagesTopic => "state-receiver"

/-- A message is processed for its sender where senders' copies are read, and is news to its receiver
elsewhere. An acknowledgement is always about the row of the message's sender. -/
def ChatSource.updates (source : ChatSource) : Envelope → List ChatUpdate
  | .message m => match source with
    | .senderTopic =>
      let key := ChatKey.forPair m.sender m.receiver
      [⟨key, .newestMessage, m.id⟩, ⟨key, .processed, m.id⟩]
    | .messagesTopic => [⟨.forPair m.receiver m.sender, .newestMessage, m.id⟩]
  | .ack a =>
    let key := ChatKey.forPair a.sender a.receiver
    [⟨key, a.status.field, a.id⟩, ⟨key, .newestMessage, a.id⟩]

end ChatRelay
