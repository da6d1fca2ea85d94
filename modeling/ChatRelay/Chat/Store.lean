import Std.Data.ExtTreeMap
import ChatRelay.Chat.State
import ChatRelay.Failure

namespace ChatRelay

structure ChatStore where
  rows : Std.ExtTreeMap ChatKey ChatState := ∅
  /-- How many of the next writes are to fail. -/
  failingWrites : Nat := 0

/-- A message to be merged into a field of a row. -/
structure ChatUpdate where
  key : ChatKey
  field : ChatField
  id : MessageId
deriving DecidableEq, Repr, Inhabited

namespace ChatStore

def failWrites (store : ChatStore) (count : Nat) : ChatStore :=
  { store with failingWrites := count }

def load? (store : ChatStore) (key : ChatKey) : Option ChatState :=
  store.rows[key]?

/-- Merges one update, and gives the row that results. -/
def merge (store : ChatStore) (update : ChatUpdate) : Except Failure ChatState × ChatStore :=
  match store.failingWrites with
  | failing + 1 =>
    (.error (.storage (.injectedWriteFailure update.key)), { store with failingWrites := failing })
  | 0 =>
    let state := (store.rows.getD update.key {}).merge update.field update.id
    (.ok state, { store with rows := store.rows.insert update.key state })

/-- Merges updates up to the first that fails. Gives those that were merged. -/
def mergeAll (store : ChatStore) :
    List ChatUpdate → List ChatUpdate × Except Failure Unit × ChatStore
  | [] => ([], .ok (), store)
  | update :: rest =>
    match store.merge update with
    | (.error failure, store) => ([], .error failure, store)
    | (.ok _, store) =>
      let (merged, result, store) := store.mergeAll rest
      (update :: merged, result, store)

/-- The rows of a user with a message later than the first number of the millisecond `time`, latest first.
Equally late chats come in name order. -/
def newerThan (store : ChatStore) (user : UserId) (time : Int) : List (ChatKey × ChatState) :=
  (store.rows.toList.filter fun (key, state) =>
    key.owner = user && (MessageId.floorAt time).value < state.newestMessage.value).mergeSort
    fun (_, first) (_, second) => second.newestMessage.value ≤ first.newestMessage.value

end ChatStore
end ChatRelay
