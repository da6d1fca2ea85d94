import ChatRelay.Proofs.Chat.Maxima
import ChatRelay.Proofs.Identity.Dating

/-! The chats newer than a millisecond are told by message numbers. That agrees with the times at which their
newest messages were created, but for messages of that very millisecond: they count as newer unless they have
its first number. -/
namespace ChatRelay

namespace MessageId

/-- The number names a message, and the message was created after a millisecond. -/
def CreatedAfter (id : MessageId) (time : Int) : Prop :=
  id.isNone = false ∧ time < id.timestamp

instance (id : MessageId) (time : Int) : Decidable (id.CreatedAfter time) :=
  inferInstanceAs (Decidable (_ ∧ _))

/-- The number names a message of the millisecond, but not its first. -/
def Trails (id : MessageId) (time : Int) : Prop :=
  id.isNone = false ∧ id.timestamp = time ∧ id ≠ floorAt time

variable {id : MessageId} {time : Int}

theorem isNone_eq_false_iff : id.isNone = false ↔ 0 < id.value.toInt := by
  rw [isNone, decide_eq_false_iff_not, Int64.le_iff_toInt_le, Int64.toInt_zero, Int.not_le]

/-- Above the first number of a millisecond are all messages created later, and those that trail it. -/
theorem floorAt_lt_iff : (floorAt time).value < id.value ↔ id.CreatedAfter time ∨ id.Trails time := by
  have bound := id.value.toInt_le
  rw [CreatedAfter, Trails, isNone_eq_false_iff, Ne, eq_iff_toInt_eq, Int64.lt_iff_toInt_lt, toInt_floorAt]
  simp only [timestamp, epoch, perMillisecond, toInt_maxValue] at bound ⊢
  omega

theorem not_createdAfter_of_timestamp_eq (same : id.timestamp = time) : ¬ id.CreatedAfter time :=
  fun after => absurd same (Int.ne_of_gt after.2)

theorem not_trails_of_timestamp_ne (different : id.timestamp ≠ time) : ¬ id.Trails time :=
  fun trails => different trails.2.1

/-- Of the messages of a millisecond all but the first trail it. -/
theorem trails_iff (named : id.isNone = false) (same : id.timestamp = time) :
    id.Trails time ↔ id ≠ floorAt time :=
  ⟨fun trails => trails.2.2, fun behind => ⟨named, same, behind⟩⟩

end MessageId

namespace ChatStore

variable {store : ChatStore} {user : UserId} {time : Int}

def HasRow (store : ChatStore) (user : UserId) (row : ChatKey × ChatState) : Prop :=
  store.load? row.1 = some row.2 ∧ row.1.owner = user

instance (store : ChatStore) (user : UserId) (row : ChatKey × ChatState) : Decidable (store.HasRow user row) :=
  inferInstanceAs (Decidable (_ ∧ _))

theorem mem_newerThan_iff (row : ChatKey × ChatState) :
    row ∈ store.newerThan user time ↔ store.HasRow user row ∧
      (row.2.newestMessage.CreatedAfter time ∨ row.2.newestMessage.Trails time) := by
  rw [(store.newerThan_lists user time).mem_iff, MessageId.floorAt_lt_iff, HasRow, and_assoc]

/-- How the answer to which chats are newer than a millisecond compares with the times at which their newest
messages were created. -/
structure Recalls (store : ChatStore) (user : UserId) (time : Int) : Prop where
  mem_iff : ∀ row, row ∈ store.newerThan user time ↔ store.HasRow user row ∧
    (row.2.newestMessage.CreatedAfter time ∨ row.2.newestMessage.Trails time)
  /-- The answer is by creation time exactly if no newest message trails the millisecond. -/
  by_creation : (∀ row, store.HasRow user row →
      (row ∈ store.newerThan user time ↔ row.2.newestMessage.CreatedAfter time)) ↔
    ∀ row, store.HasRow user row → ¬ row.2.newestMessage.Trails time
  /-- Chats whose newest messages were created in one millisecond are told apart exactly if it is the one that
  is asked for, and one message of the two is its first. -/
  together : ∀ row other, store.HasRow user row → store.HasRow user other →
    row.2.newestMessage.isNone = false → other.2.newestMessage.isNone = false →
      row.2.newestMessage.timestamp = other.2.newestMessage.timestamp →
        ((row ∈ store.newerThan user time ↔ other ∈ store.newerThan user time) ↔
          (row.2.newestMessage.timestamp = time →
            (row.2.newestMessage = .floorAt time ↔ other.2.newestMessage = .floorAt time)))

theorem newerThan_by_number (store : ChatStore) (user : UserId) (time : Int) :
    store.Recalls user time where
  mem_iff := mem_newerThan_iff
  by_creation := by
    constructor
    · intro agrees row has trails
      have newer := (agrees row has).mp ((mem_newerThan_iff row).mpr ⟨has, .inr trails⟩)
      exact MessageId.not_createdAfter_of_timestamp_eq trails.2.1 newer
    · intro apart row has
      rw [mem_newerThan_iff, or_iff_left (apart row has)]
      exact and_iff_right has
  together row other has owns named called same := by
    simp only [mem_newerThan_iff, has, owns, true_and]
    by_cases here : row.2.newestMessage.timestamp = time
    · have there := same.symm.trans here
      simp only [MessageId.not_createdAfter_of_timestamp_eq here,
        MessageId.not_createdAfter_of_timestamp_eq there, MessageId.trails_iff named here,
        MessageId.trails_iff called there, here, false_or, forall_const, not_iff_not, Ne]
    · have elsewhere : other.2.newestMessage.timestamp ≠ time := same ▸ here
      simp only [MessageId.not_trails_of_timestamp_ne here, MessageId.not_trails_of_timestamp_ne elsewhere,
        MessageId.CreatedAfter, named, called, same, true_and, or_false, elsewhere, false_implies]

/-- Two chats of one user, whose newest messages are the first and the second of a millisecond. -/
def twoChats : ChatStore :=
  writtenTo [.merge ⟨.forPair ⟨1⟩ ⟨2⟩, .newestMessage, ⟨4194304⟩⟩,
    .merge ⟨.forPair ⟨1⟩ ⟨3⟩, .newestMessage, ⟨4194305⟩⟩]

/-- The second of them counts as newer than its own millisecond, the first does not. -/
theorem twoChats_divided :
    let first := (ChatKey.forPair ⟨1⟩ ⟨2⟩, { newestMessage := ⟨4194304⟩ : ChatState })
    let second := (ChatKey.forPair ⟨1⟩ ⟨3⟩, { newestMessage := ⟨4194305⟩ : ChatState })
    (twoChats.HasRow ⟨1⟩ first ∧ twoChats.HasRow ⟨1⟩ second) ∧
      (first.2.newestMessage.timestamp = 1609459200001 ∧ second.2.newestMessage.timestamp = 1609459200001) ∧
      ¬ (first ∈ twoChats.newerThan ⟨1⟩ 1609459200001 ↔ second ∈ twoChats.newerThan ⟨1⟩ 1609459200001) ∧
      ¬ (second ∈ twoChats.newerThan ⟨1⟩ 1609459200001 ↔
          second.2.newestMessage.CreatedAfter 1609459200001) := by
  decide +kernel

end ChatStore
end ChatRelay
