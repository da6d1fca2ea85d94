import ChatRelay.Envelope

namespace ChatRelay

inductive ChatField where
  | newestMessage
  | processed
  | otherUserDelivered
  | otherUserSeen
deriving DecidableEq, Repr, Inhabited

def ChatField.name : ChatField → String
  | newestMessage => "newest_message"
  | processed => "processed"
  | otherUserDelivered => "other_user_delivered"
  | otherUserSeen => "other_user_seen"

/-- The field that acknowledgements of a status advance. -/
def Status.field : Status → ChatField
  | processed => .processed
  | delivered => .otherUserDelivered
  | seen => .otherUserSeen

structure ChatState where
  newestMessage : MessageId := .none
  processed : MessageId := .none
  otherUserDelivered : MessageId := .none
  otherUserSeen : MessageId := .none
deriving DecidableEq, Repr, Inhabited

namespace ChatState

def get (state : ChatState) : ChatField → MessageId
  | .newestMessage => state.newestMessage
  | .processed => state.processed
  | .otherUserDelivered => state.otherUserDelivered
  | .otherUserSeen => state.otherUserSeen

def set (state : ChatState) (field : ChatField) (id : MessageId) : ChatState :=
  match field with
  | .newestMessage => { state with newestMessage := id }
  | .processed => { state with processed := id }
  | .otherUserDelivered => { state with otherUserDelivered := id }
  | .otherUserSeen => { state with otherUserSeen := id }

def advances (state : ChatState) (field : ChatField) (id : MessageId) : Bool :=
  (state.get field).value < id.value

/-- Fields only advance. -/
def merge (state : ChatState) (field : ChatField) (id : MessageId) : ChatState :=
  if state.advances field id then state.set field id else state

@[simp] theorem get_set (state : ChatState) (field other : ChatField) (id : MessageId) :
    (state.set field id).get other = if field = other then id else state.get other := by
  cases field <;> cases other <;> rfl

theorem get_merge (state : ChatState) (field other : ChatField) (id : MessageId) :
    ((state.merge field id).get other).value.toInt =
      if field = other then max (state.get other).value.toInt id.value.toInt
      else (state.get other).value.toInt := by
  unfold merge advances
  by_cases same : field = other
  · subst same
    simp only [decide_eq_true_eq, Int64.lt_iff_toInt_lt]
    split
    · simp; omega
    · simp; omega
  · split <;> simp [same]

end ChatState
end ChatRelay
