import Std.Data.ExtTreeMap
import ChatRelay.Envelope

/-! The sessions connected to an instance. A user may have several; each has a receiving end of its own,
which keeps what was delivered until it is received. -/
namespace ChatRelay

inductive DeliveryOutcome where
  | delivered
  | noSession
deriving DecidableEq, Repr, Inhabited

def DeliveryOutcome.name : DeliveryOutcome → String
  | .delivered => "delivered"
  | .noSession => "no_session"

structure Inbox where
  user : UserId
  waiting : List Envelope := []
deriving DecidableEq, Repr

structure SessionRegistry where
  /-- The sessions that deliveries to a user go to. -/
  sessions : Std.ExtTreeMap UserId (List Nat) := ∅
  /-- The receiving ends that still exist. -/
  inboxes : Std.ExtTreeMap Nat Inbox := ∅
  /-- Sessions are numbered from one and no number comes twice. Kept in 64 bits it would come round after
  `2 ^ 64` connects and not before, `lastId_after_lt`. -/
  lastId : Nat := 0

namespace SessionRegistry

def sessionsOf (registry : SessionRegistry) (user : UserId) : List Nat :=
  registry.sessions.getD user []

def sessionCount (registry : SessionRegistry) (user : UserId) : Nat :=
  (registry.sessionsOf user).length

def connect (registry : SessionRegistry) (user : UserId) : Nat × SessionRegistry :=
  let id := registry.lastId + 1
  (id,
   { sessions := registry.sessions.insert user (registry.sessionsOf user ++ [id])
     inboxes := registry.inboxes.insert id { user := user }
     lastId := id })

/-- Ends a session of a user; a user without sessions is forgotten. -/
def disconnect (registry : SessionRegistry) (user : UserId) (session : Nat) : SessionRegistry :=
  { registry with
    sessions := registry.sessions.alter user fun sessions =>
      match (sessions.getD []).erase session with
      | [] => none
      | left => some left }

/-- The receiving end vanishes without a word; tells whether it existed. -/
def dropInbox (registry : SessionRegistry) (session : Nat) : Bool × SessionRegistry :=
  (registry.inboxes.contains session, { registry with inboxes := registry.inboxes.erase session })

def put (envelope : Envelope) (inboxes : Std.ExtTreeMap Nat Inbox) (session : Nat) :
    Std.ExtTreeMap Nat Inbox :=
  inboxes.modify session fun inbox => { inbox with waiting := inbox.waiting ++ [envelope] }

/-- Delivers to every session of a user, and drops those whose receiving end has vanished. -/
def deliver (registry : SessionRegistry) (user : UserId) (envelope : Envelope) :
    DeliveryOutcome × SessionRegistry :=
  match registry.sessions[user]? with
  | none => (.noSession, registry)
  | some sessions =>
    let left := sessions.filter registry.inboxes.contains
    (if left.isEmpty then .noSession else .delivered,
     { registry with
       sessions := registry.sessions.insert user left
       inboxes := left.foldl (put envelope) registry.inboxes })

/-- Takes all that waits in an inbox, and tells whether more can come. -/
def receive (registry : SessionRegistry) (session : Nat) :
    Option (List Envelope × Bool) × SessionRegistry :=
  match registry.inboxes[session]? with
  | none => (none, registry)
  | some inbox =>
    (some (inbox.waiting, !(registry.sessionsOf inbox.user).contains session),
     { registry with inboxes := registry.inboxes.insert session { inbox with waiting := [] } })

end SessionRegistry
end ChatRelay
