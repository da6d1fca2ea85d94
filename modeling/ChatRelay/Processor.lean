import ChatRelay.Relay

namespace ChatRelay

inductive Processor where
  /-- Pushes to the recipient's sessions, and acknowledges messages that reached one. -/
  | receivers (router : Router)
  /-- Merges into the chats' rows what the envelope says. -/
  | chatState (source : ChatSource)
  /-- Accepts `left` envelopes, then fails. -/
  | failing (left : Nat) (failure : Failure)

/-- What came of processing one envelope. -/
structure Processing where
  result : Except Failure Unit
  reports : List DeliveryReport := []
  processor : Processor
  relay : Relay

namespace Relay

/-- Delivers an envelope to its recipient and counts the outcome. -/
def deliver (relay : Relay) (envelope : Envelope) : DeliveryOutcome × Relay :=
  let (outcome, sessions) := relay.sessions.deliver envelope.recipient envelope
  (outcome, { relay with sessions }.record [.sessionDelivery outcome.name])

/-- Pushes an envelope, and routes back that a message reached a session. -/
def push (relay : Relay) (router : Router) (envelope : Envelope) : List DeliveryReport × Relay :=
  match relay.deliver envelope, envelope with
  | (.delivered, relay), .message message => relay.route router (.ack (.ofMessage message .delivered))
  | (_, relay), _ => ([], relay)

/-- Merges what an envelope says about chats, and counts what was merged. -/
def mergeChats (relay : Relay) (source : ChatSource) (envelope : Envelope) : Except Failure Unit × Relay :=
  let (merged, result, chats) := relay.chats.mergeAll (source.updates envelope)
  (result, { relay with chats }.record (merged.map fun (update : ChatUpdate) =>
    .stateMerged update.field.name))

end Relay

def Processor.process (processor : Processor) (envelope : Envelope) (relay : Relay) : Processing :=
  match processor with
  | .receivers router =>
    let (reports, relay) := relay.push router envelope
    { result := .ok (), reports, processor, relay }
  | .chatState source =>
    let (result, relay) := relay.mergeChats source envelope
    { result, processor, relay }
  | .failing (left + 1) failure => { result := .ok (), processor := .failing left failure, relay }
  | .failing 0 failure => { result := .error failure, processor, relay }

end ChatRelay
