import Mathlib.Algebra.Group.Nat.Defs
import Mathlib.Data.Finset.Card
import Mathlib.Data.List.Induction
import ChatRelay.Proofs.History
import ChatRelay.Proofs.Sessions.Reaching

/-! Sessions are subscriptions. Whatever happens in whatever order, a session is sent the deliveries to its user
from its connection up to its end, and a delivery succeeds if and only if the user has a session that has not
ended. -/
namespace ChatRelay.SessionRegistry

inductive Event where
  | change (change : Change)
  | deliver (user : UserId) (envelope : Envelope)

namespace Event

def connects : Event → Bool
  | .change (.connect _) => true
  | _ => false

/-- A session of a user ends when it is disconnected in the user's name or its receiving end vanishes. -/
def ends (user : UserId) (session : Nat) : Event → Bool
  | .change (.disconnect other ended) => other = user ∧ ended = session
  | .change (.dropInbox ended) => ended = session
  | _ => false

def delivery? (user : UserId) : Event → Option Envelope
  | .deliver other envelope => if other = user then some envelope else none
  | _ => none

end Event

def handle (registry : SessionRegistry) : Event → SessionRegistry
  | .change change => registry.change change
  | .deliver user envelope => (registry.deliver user envelope).2

def after (events : List Event) : SessionRegistry := events.foldl handle {}

/-- What a receiving end is handed by an event. -/
def handed (registry : SessionRegistry) (session : Nat) : Event → List Envelope
  | .change (.receive taken) =>
    if taken = session then ((registry.receive session).1.map (·.1)).getD [] else []
  | _ => []

def received (registry : SessionRegistry) (session : Nat) : List Event → List Envelope
  | [] => []
  | event :: rest => registry.handed session event ++ (registry.handle event).received session rest

def connected (events : List Event) : Nat := events.countP (·.connects)

/-- The user connected the session, and it has not ended. -/
def Subscribed (events : List Event) (user : UserId) (session : Nat) : Prop :=
  ∃ earlier later, events = earlier ++ .change (.connect user) :: later ∧
    connected earlier + 1 = session ∧ ∀ event ∈ later, event.ends user session = false

/-- The deliveries to a user up to the end of a session. -/
def due (user : UserId) (session : Nat) (events : List Event) : List Envelope :=
  (events.takeWhile fun event => !event.ends user session).filterMap (·.delivery? user)

variable {registry : SessionRegistry} {user : UserId} {session : Nat} {events : List Event} {event : Event}

@[simp] theorem handed_deliver (registry : SessionRegistry) (session : Nat) (user : UserId)
    (envelope : Envelope) : registry.handed session (.deliver user envelope) = [] := rfl

@[simp] theorem after_concat (events : List Event) (event : Event) :
    after (events ++ [event]) = (after events).handle event := by
  simp [after]

theorem received_concat (registry : SessionRegistry) (session : Nat) (events : List Event) (event : Event) :
    registry.received session (events ++ [event]) =
      registry.received session events ++ (events.foldl handle registry).handed session event := by
  induction events generalizing registry with
  | nil => simp [received]
  | cons first rest ih => simp [received, ih]

theorem connected_concat (events : List Event) (event : Event) :
    connected (events ++ [event]) = connected events + if event.connects then 1 else 0 := by
  simp [connected, List.countP_append, List.countP_singleton]

theorem subscribed_concat :
    Subscribed (events ++ [event]) user session ↔
      (Subscribed events user session ∧ event.ends user session = false) ∨
        event = .change (.connect user) ∧ connected events + 1 = session :=
  exists_split_concat

theorem Event.delivery?_of_ends (ending : event.ends user session = true) : event.delivery? user = none := by
  cases event with
  | change => rfl
  | deliver => cases ending

theorem due_concat :
    due user session (events ++ [event]) = due user session events ++
      if ∀ earlier ∈ events, earlier.ends user session = false then (event.delivery? user).toList else [] := by
  unfold due
  induction events with
  | nil =>
    cases ending : event.ends user session with
    | true => simp [ending, Event.delivery?_of_ends ending]
    | false => cases delivered : event.delivery? user <;> simp [ending, delivered]
  | cons first rest ih =>
    cases ending : first.ends user session with
    | true => simp [ending]
    | false =>
      simp only [List.cons_append, List.takeWhile_cons, ending, Bool.not_false, if_true, List.filterMap_cons,
        List.forall_mem_cons, true_and]
      split
      · exact ih
      · rw [ih, List.cons_append]

theorem mem_inboxes_connect (registry : SessionRegistry) (user : UserId) :
    session ∈ (registry.connect user).2.inboxes ↔ registry.lastId + 1 = session ∨ session ∈ registry.inboxes := by
  rw [connect, Std.ExtTreeMap.mem_insert, Std.LawfulEqCmp.compare_eq_iff_eq]

theorem mem_inboxes_dropInbox (registry : SessionRegistry) (ended : Nat) :
    session ∈ (registry.dropInbox ended).2.inboxes ↔ ended ≠ session ∧ session ∈ registry.inboxes := by
  rw [dropInbox, Std.ExtTreeMap.mem_erase, Ne, Std.LawfulEqCmp.compare_eq_iff_eq]

theorem sessionsOf_receive (registry : SessionRegistry) (taken : Nat) (user : UserId) :
    (registry.receive taken).2.sessionsOf user = registry.sessionsOf user := by
  unfold receive
  split <;> rfl

namespace Orderly

variable (orderly : registry.Orderly)
include orderly

theorem nodup (user : UserId) : (registry.sessionsOf user).Nodup := by
  apply List.nodup_iff_count_le_one.mpr
  intro session
  by_cases listed : session ∈ registry.sessionsOf user
  · rw [orderly.once user session listed, if_pos rfl]
  · rw [List.count_eq_zero.mpr listed]
    exact Nat.zero_le 1

theorem handle (event : Event) : (registry.handle event).Orderly := by
  cases event with
  | change change => exact orderly.change change
  | deliver user envelope => exact orderly.deliver user envelope

/-- Who listens after an event: whoever did and was not ended by it, and whoever it connects. -/
theorem listens_handle (event : Event) :
    (registry.handle event).Listens user session ↔
      (registry.Listens user session ∧ event.ends user session = false) ∨
        event = .change (.connect user) ∧ registry.lastId + 1 = session := by
  rw [(orderly.handle event).listens_iff, orderly.listens_iff]
  rcases event with (other | ⟨other, ended⟩ | ended | taken) | ⟨other, envelope⟩
  case change.connect =>
    have fresh : registry.lastId + 1 ∉ registry.sessionsOf user := fun listed =>
      absurd (orderly.numbered.sessions user _ listed) (Nat.not_succ_le_self _)
    simp only [SessionRegistry.handle, SessionRegistry.change, sessionsOf_connect, mem_inboxes_connect,
      List.mem_append, List.mem_ite_nil_right, List.mem_singleton, Event.ends, Event.change.injEq,
      Change.connect.injEq, and_true]
    constructor
    · rintro ⟨listed | ⟨same, new⟩, opened⟩
      · rcases opened with rfl | open_
        · exact absurd listed fresh
        · exact .inl ⟨listed, open_⟩
      · exact .inr ⟨same, new.symm⟩
    · rintro (⟨listed, open_⟩ | ⟨same, new⟩)
      · exact ⟨.inl listed, .inr open_⟩
      · exact ⟨.inr ⟨same, new.symm⟩, .inl new⟩
  case change.disconnect =>
    have inboxes : (registry.disconnect other ended).inboxes = registry.inboxes := rfl
    simp only [SessionRegistry.handle, SessionRegistry.change, sessionsOf_disconnect, inboxes, Event.ends]
    by_cases own : other = user
    · simp [own, (orderly.nodup user).mem_erase_iff, eq_comm, and_comm, and_left_comm]
    · simp [own]
  case change.dropInbox =>
    have sessions : (registry.dropInbox ended).2.sessionsOf user = registry.sessionsOf user := rfl
    simp [SessionRegistry.handle, SessionRegistry.change, mem_inboxes_dropInbox, sessions, Event.ends, and_comm,
      and_assoc]
  case change.receive =>
    simp [SessionRegistry.handle, SessionRegistry.change, sessionsOf_receive, mem_inboxes_receive, Event.ends]
  case deliver =>
    simp only [SessionRegistry.handle, sessionsOf_deliver, mem_inboxes_deliver, Event.ends]
    by_cases own : other = user
    · simp [own, List.mem_filter]
    · simp [own]

end Orderly

theorem lastId_handle (registry : SessionRegistry) (event : Event) :
    (registry.handle event).lastId = registry.lastId + if event.connects then 1 else 0 := by
  rcases event with (other | ⟨other, ended⟩ | ended | taken) | ⟨other, envelope⟩
  case change.receive => exact lastId_receive registry taken
  case deliver => exact lastId_deliver registry other envelope
  all_goals rfl

theorem orderly_after (events : List Event) : (after events).Orderly := by
  induction events using List.reverseRecOn with
  | nil => exact orderly_empty
  | append_singleton events event ih =>
    rw [after_concat]
    exact ih.handle event

theorem lastId_after (events : List Event) : (after events).lastId = connected events := by
  induction events using List.reverseRecOn with
  | nil => rfl
  | append_singleton events event ih => rw [after_concat, lastId_handle, ih, connected_concat]

/-- Up to `2 ^ 64` events the numbers of sessions do not leave 64 bits. -/
theorem lastId_after_lt (few : events.length < 2 ^ 64) : (after events).lastId < 2 ^ 64 := by
  rw [lastId_after]
  exact Nat.lt_of_le_of_lt List.countP_le_length few

theorem listens_after : (after events).Listens user session ↔ Subscribed events user session := by
  induction events using List.reverseRecOn with
  | nil =>
    constructor
    · exact fun listens => absurd listens.open_ (by simp [after])
    · rintro ⟨earlier, later, split, -⟩
      simp at split
  | append_singleton events event ih =>
    rw [after_concat, (orderly_after events).listens_handle, subscribed_concat, ih, lastId_after]

/-- Who listens at a session is who connected it, as long as it has not ended. -/
theorem listens_after_connect (earlier : List Event) (user other : UserId) (later : List Event) :
    (after (earlier ++ .change (.connect user) :: later)).Listens other (connected earlier + 1) ↔
      other = user ∧ ∀ event ∈ later, event.ends user (connected earlier + 1) = false := by
  induction later using List.reverseRecOn with
  | nil =>
    have fresh : ¬ (after earlier).Listens other (connected earlier + 1) := fun listens => by
      have given := listens.given
      rw [lastId_after] at given
      exact absurd given (Nat.not_succ_le_self _)
    rw [after_concat, (orderly_after earlier).listens_handle, lastId_after]
    constructor
    · rintro (⟨listens, -⟩ | ⟨same, -⟩)
      · exact absurd listens fresh
      · cases same
        exact ⟨rfl, by simp⟩
    · rintro ⟨rfl, -⟩
      exact .inr ⟨rfl, rfl⟩
  | append_singleton later event ih =>
    have counted : connected earlier + 1 ≤ connected (earlier ++ .change (.connect user) :: later) := by
      simp [connected, Event.connects]
    rw [← List.cons_append, ← List.append_assoc, after_concat, (orderly_after _).listens_handle, ih, lastId_after]
    constructor
    · rintro (⟨⟨rfl, lasts⟩, still⟩ | ⟨_, number⟩)
      · exact ⟨rfl, List.forall_mem_append.mpr ⟨lasts, by simpa using still⟩⟩
      · omega
    · rintro ⟨rfl, lasts⟩
      obtain ⟨lasts, still⟩ := List.forall_mem_append.mp lasts
      exact .inl ⟨⟨rfl, lasts⟩, by simpa using still⟩

theorem mem_inboxes_handle (old : session ≤ registry.lastId) :
    session ∈ (registry.handle event).inboxes ↔
      session ∈ registry.inboxes ∧ event ≠ .change (.dropInbox session) := by
  rcases event with (other | ⟨other, ended⟩ | ended | taken) | ⟨other, envelope⟩
  case change.connect =>
    have different : registry.lastId + 1 ≠ session := Nat.ne_of_gt (Nat.lt_succ_of_le old)
    simp [handle, change, mem_inboxes_connect, different]
  case change.disconnect => simp [handle, change, disconnect]
  case change.dropInbox => simp [handle, change, mem_inboxes_dropInbox, and_comm]
  case change.receive => simp [handle, change, mem_inboxes_receive]
  case deliver => simp [handle, mem_inboxes_deliver]

/-- What waits is handed out or goes on waiting. -/
theorem handed_append_waiting_change (old : session ≤ registry.lastId) (change : Change)
    (open_ : session ∈ (registry.change change).inboxes) :
    registry.handed session (.change change) ++ (registry.change change).waiting session =
      registry.waiting session := by
  cases change with
  | connect user =>
    have different : registry.lastId + 1 ≠ session := Nat.ne_of_gt (Nat.lt_succ_of_le old)
    simp [handed, SessionRegistry.change, waiting, connect, Std.ExtTreeMap.getElem?_insert, different]
  | disconnect user ended => rfl
  | dropInbox ended =>
    have different : ended ≠ session := ((mem_inboxes_dropInbox registry ended).mp open_).1
    simp [handed, SessionRegistry.change, waiting, dropInbox, Std.ExtTreeMap.getElem?_erase, different]
  | receive taken =>
    obtain ⟨inbox, found⟩ := Option.isSome_iff_exists.mp
      (Std.ExtTreeMap.mem_iff_isSome_getElem?.mp ((registry.mem_inboxes_receive taken).mp open_))
    by_cases same : taken = session
    · subst same
      simp [handed, SessionRegistry.change, receive, waiting, found]
    · rw [handed, if_neg same, List.nil_append, SessionRegistry.change, receive]
      split
      · rfl
      · simp [waiting, Std.ExtTreeMap.getElem?_insert, same]

theorem waiting_deliver_of_notMem (absent : session ∉ registry.sessionsOf user) (envelope : Envelope) :
    (registry.deliver user envelope).2.waiting session = registry.waiting session := by
  unfold deliver
  split
  · rfl
  · rename_i sessions found
    rw [sessionsOf, Std.ExtTreeMap.getD_eq_getD_getElem?, found, Option.getD_some] at absent
    have unlisted : (sessions.filter registry.inboxes.contains).count session = 0 :=
      List.count_eq_zero.mpr fun among => absent (List.mem_filter.mp among).1
    cases inbox : registry.inboxes[session]? <;> simp [waiting, inbox?_fold_put, unlisted, inbox]

/-- The receiving end of a session exists until it is dropped, and then never again. -/
theorem mem_inboxes_after_connect (earlier : List Event) (user : UserId) (later : List Event) :
    connected earlier + 1 ∈ (after (earlier ++ .change (.connect user) :: later)).inboxes ↔
      .change (.dropInbox (connected earlier + 1)) ∉ later := by
  induction later using List.reverseRecOn with
  | nil =>
    rw [after_concat, handle, change, mem_inboxes_connect, lastId_after]
    simp
  | append_singleton later event ih =>
    rw [← List.cons_append, ← List.append_assoc, after_concat, mem_inboxes_handle, ih]
    · simp [eq_comm]
    · simp [lastId_after, connected, Event.connects]

/-- To one who listens, an event adds a delivery to them and nothing else. -/
theorem Listens.handed_append_waiting (listens : registry.Listens user session) (event : Event)
    (open_ : session ∈ (registry.handle event).inboxes) :
    registry.handed session event ++ (registry.handle event).waiting session =
      registry.waiting session ++ (event.delivery? user).toList := by
  cases event with
  | change change =>
    rw [SessionRegistry.handle, handed_append_waiting_change listens.given change open_]
    exact (List.append_nil _).symm
  | deliver other envelope =>
    rw [handed_deliver, List.nil_append, SessionRegistry.handle, (listens.deliver other envelope).2, Event.delivery?]
    split <;> rfl

/-- Where nobody listens, nothing is added. -/
theorem Orderly.handed_append_waiting (orderly : registry.Orderly) (old : session ≤ registry.lastId)
    (nobody : ∀ other, ¬ registry.Listens other session) (event : Event)
    (open_ : session ∈ (registry.handle event).inboxes) :
    registry.handed session event ++ (registry.handle event).waiting session = registry.waiting session := by
  cases event with
  | change change => exact handed_append_waiting_change old change open_
  | deliver other envelope =>
    have unlisted : session ∉ registry.sessionsOf other := fun among =>
      nobody other (orderly.listens among ((registry.mem_inboxes_deliver other envelope).mp open_))
    rw [handed_deliver, List.nil_append, SessionRegistry.handle, waiting_deliver_of_notMem unlisted]

/-- What a session was handed and what waits for it are the deliveries to its user up to its end. -/
theorem received_append_waiting (earlier : List Event) (user : UserId) (later : List Event)
    (open_ : connected earlier + 1 ∈ (after (earlier ++ .change (.connect user) :: later)).inboxes) :
    (after (earlier ++ [.change (.connect user)])).received (connected earlier + 1) later ++
        (after (earlier ++ .change (.connect user) :: later)).waiting (connected earlier + 1) =
      due user (connected earlier + 1) later := by
  induction later using List.reverseRecOn with
  | nil =>
    have nothing := ((orderly_after earlier).numbered.listens_connect user).2
    rw [lastId_after] at nothing
    simpa [received, due, handle, change] using nothing
  | append_singleton later event ih =>
    have old : connected earlier + 1 ≤ (after (earlier ++ .change (.connect user) :: later)).lastId := by
      simp [lastId_after, connected, Event.connects]
    have before : later.foldl handle (after (earlier ++ [.change (.connect user)])) =
        after (earlier ++ .change (.connect user) :: later) := by simp [after]
    rw [← List.cons_append, ← List.append_assoc, after_concat _ event] at open_ ⊢
    have ih := ih ((mem_inboxes_handle old).mp open_).1
    rw [received_concat, before, due_concat, ← ih, List.append_assoc, List.append_assoc]
    congr 1
    -- the user listens until the session ends, and after that nobody does
    by_cases lasts : ∀ event ∈ later, event.ends user (connected earlier + 1) = false
    · have listens := (listens_after_connect earlier user user later).mpr ⟨rfl, lasts⟩
      rw [if_pos lasts, listens.handed_append_waiting event open_]
    · have nobody (other : UserId) := mt (listens_after_connect earlier user other later).mp fun listens =>
        lasts listens.2
      rw [if_neg lasts, (orderly_after _).handed_append_waiting old nobody event open_, List.append_nil]

/-- What sessions see of events is what subscriptions promise. -/
structure ServesSubscriptions (events : List Event) : Prop where
  numbered : ∀ user, ((after events).connect user).1 = connected events + 1
  /-- No number is given out twice. -/
  fresh : ∀ earlier user later other, events = earlier ++ .change (.connect user) :: later →
    ((after earlier).connect user).1 ≠ ((after events).connect other).1
  /-- A session can be sent to until its receiving end vanishes, and never again after that. -/
  opened : ∀ earlier user later, events = earlier ++ .change (.connect user) :: later →
    (connected earlier + 1 ∈ (after events).inboxes ↔
      .change (.dropInbox (connected earlier + 1)) ∉ later)
  /-- Up to then it was sent, in order and once each, the deliveries to its user up to its end. -/
  sent : ∀ earlier user later, events = earlier ++ .change (.connect user) :: later →
    connected earlier + 1 ∈ (after events).inboxes →
      (after (earlier ++ [.change (.connect user)])).received (connected earlier + 1) later ++
          (after events).waiting (connected earlier + 1) =
        due user (connected earlier + 1) later
  delivered : ∀ user envelope, ((after events).deliver user envelope).1 = .delivered ↔
    ∃ session, Subscribed events user session
  /-- After a delivery only sessions that have not ended are counted. -/
  counted : ∀ user envelope, ∃ sessions : Finset Nat,
    (∀ session, session ∈ sessions ↔ Subscribed events user session) ∧
      ((after events).deliver user envelope).2.sessionCount user = sessions.card

theorem sessions_serve_subscriptions (events : List Event) : ServesSubscriptions events where
  numbered user := by rw [connect, lastId_after]
  fresh earlier user later other split := by
    rw [connect, connect, lastId_after, lastId_after, split]
    simp [connected, Event.connects]
  opened earlier user later split := by
    rw [split]
    exact mem_inboxes_after_connect earlier user later
  sent earlier user later split open_ := by
    rw [split] at open_ ⊢
    exact received_append_waiting earlier user later open_
  delivered user envelope := by
    simp only [(orderly_after events).delivered_iff, listens_after]
  counted user envelope := by
    have orderly := (orderly_after events).deliver user envelope
    refine ⟨(((after events).deliver user envelope).2.sessionsOf user).toFinset, fun session => ?_, ?_⟩
    · rw [List.mem_toFinset, sessionsOf_deliver, if_pos rfl, List.mem_filter, ← listens_after,
        (orderly_after events).listens_iff, Std.ExtTreeMap.contains_iff_mem]
    · rw [List.toFinset_card_of_nodup (orderly.nodup user), sessionCount]

/-- Nobody ends the session of another user, and what is delivered after its end is not sent to it. -/
example :
    let letter := Envelope.message ⟨⟨7⟩, ⟨2⟩, ⟨1⟩, []⟩
    let events := [.change (.connect ⟨1⟩), .change (.disconnect ⟨2⟩ 1), .deliver ⟨1⟩ letter,
      .change (.disconnect ⟨1⟩ 1), .deliver ⟨1⟩ letter]
    (after events).waiting 1 = [letter] ∧ ((after events).deliver ⟨1⟩ letter).1 = .noSession := by
  decide +kernel

end ChatRelay.SessionRegistry
