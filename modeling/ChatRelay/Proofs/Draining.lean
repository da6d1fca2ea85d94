import ChatRelay.Proofs.ConsumeLoop.Progress
import ChatRelay.Proofs.Draining.Alone

/-! The receivers' loop comes to rest. It publishes on the topic it reads, but only receipts, and receipts
are not answered: left to itself, the loop reads and commits all there is. -/
namespace ChatRelay.Scenario.LoopState

open ConsumeLoop

variable {plan : LoopPlan} {interlude : Interlude} {watch : Nat} {state : LoopState} {router : Router}

/-- What a poll of the loop leaves, while nobody else acts. -/
structure Polls (before : LoopState) (rest : List (List Step)) (records : List Record) (after : LoopState) :
    Prop where
  fetched : (records, after.consumer) =
    (before.consumer.catchUp before.world.relay.broker).2.fetch before.world.relay.broker.topics
  processor : after.processor = before.processor
  cancelled : after.cancelled = (before.cancelled || rest.isEmpty)
  polls : after.polls = rest
  onChange : after.onChange = []
  broker : after.world.relay.broker = before.world.relay.broker

theorem poll_quiet (watch : Nat) (untroubled : plan.injections = [])
    (quiet : ∀ world, interlude [] world = world)
    (unscripted : state.onChange = []) (polls : state.polls = [] :: rest) :
    ∃ records after, (host plan interlude watch).poll state = (.ok records, after) ∧
      Polls state rest records after := by
  let world := state.world.emit (.beforePoll (state.world.owned watch)
    (state.world.watchedHealth watch).isReady (state.world.watchedHealth watch).rebalancing)
  let done := World.pollListening interlude (some watch) [] state.consumer world
  have polled : (host plan interlude watch).poll state = (.ok done.records,
      { state with
        consumer := done.consumer
        world := done.world.emit (.polled done.records)
        cancelled := state.cancelled || rest.isEmpty
        polls := rest
        onChange := done.onChange
        calls := fun other => if other = .poll then state.calls .poll + 1 else state.calls other }) := by
    unfold host poll call prepare
    simp only [untroubled, List.find?_nil, polls, quiet, unscripted]
    rfl
  obtain ⟨fetched, onChange, broker⟩ := Consumer.pollListening_quiet interlude (some watch) state.consumer world
  exact ⟨_, _, polled, ⟨fetched, rfl, rfl, rfl, onChange, broker⟩⟩

theorem pollCompleted_quiet (plan : LoopPlan) (interlude : Interlude) (watch : Nat) (state : LoopState) :
    Kept state ((host plan interlude watch).pollCompleted state) ∧
      ((host plan interlude watch).pollCompleted state).world.relay.broker = state.world.relay.broker := by
  refine ⟨⟨rfl, rfl, rfl, rfl, rfl⟩, ?_⟩
  unfold host World.pollCompleted
  dsimp only
  split
  · rfl
  · exact Relay.broker_withHealth ..

theorem commit_quiet (interlude : Interlude) (watch : Nat) (untroubled : plan.injections = [])
    (records : List Record) (state : LoopState) :
    ∃ after, (host plan interlude watch).commit records state =
        ((state.consumer.commit (records.map Record.mark) state.world.relay.broker).1, after) ∧
      Kept state after ∧ after.world.relay.broker =
        (state.consumer.commit (records.map Record.mark) state.world.relay.broker).2 := by
  unfold host commit call
  simp only [untroubled, List.find?_nil]
  exact ⟨_, rfl, ⟨rfl, rfl, rfl, rfl, rfl⟩, rfl⟩

/-- A batch is processed and committed, unless the broker refuses to commit. -/
theorem settle_quiet (interlude : Interlude) (watch : Nat) (untroubled : plan.injections = [])
    (receives : state.processor = .receivers router) (records : List Record)
    (accepts : ∀ broker, Broker.Answered (Record.letters records) state.world.relay.broker broker →
      (state.consumer.commit (records.map Record.mark) broker).1 = .ok ()) :
    let now := settle (host plan interlude watch) records state
    now.outcome = .ok () ∧ Kept state now.state ∧
      ∃ broker, Broker.Answered (Record.letters records) state.world.relay.broker broker ∧
        now.state.world.relay.broker = (state.consumer.commit (records.map Record.mark) broker).2 := by
  have passes := processBatch_passes plan interlude watch receives records
  obtain ⟨processed, outcome⟩ := passes.outcome
  obtain ⟨after, answer, kept, committed⟩ := commit_quiet interlude watch untroubled records
    (processBatch (host plan interlude watch) records state).state
  rw [passes.kept.consumer] at answer committed
  rw [accepts _ passes.answered] at answer
  unfold settle finish
  dsimp only
  rw [outcome]
  dsimp only
  rw [answer]
  dsimp only
  have counted := kept_count plan interlude watch after
  exact ⟨rfl, (passes.kept.trans kept).trans (counted _), _, passes.answered, committed⟩

/-- A loop with the receivers' processor, about to poll, that is left to itself. -/
structure Ready (router : Router) (state : LoopState) : Prop where
  receives : state.processor = .receivers router
  unscripted : state.onChange = []
  alone : state.consumer.Alone state.world.relay.broker router.messagesTopic

def next (state : LoopState) : Partition → Nat := state.world.relay.broker.next state.consumer.group

def unread (router : Router) (state : LoopState) : Nat :=
  state.world.relay.broker.topics.unread router.messagesTopic state.next

def unreadLetters (router : Router) (state : LoopState) : Nat :=
  state.world.relay.broker.topics.unreadLetters router.messagesTopic state.next

/-- Every partition is read and committed to its end. -/
def Drained (router : Router) (state : LoopState) : Prop :=
  ∀ partition, state.world.relay.broker.topics.Holds router.messagesTopic partition →
    state.next partition = (state.world.relay.broker.topics.records partition).length ∧
      state.consumer.positions[partition]? =
        some (state.world.relay.broker.topics.records partition).length

/-- What the records added on the way are made up for by: each comes from a message that is unread no more. -/
structure Pays (router : Router) (before after : LoopState) : Prop where
  size : ∀ topics : Finset String,
    ∑ topic ∈ topics, after.world.relay.broker.size topic + after.unreadLetters router ≤
      ∑ topic ∈ topics, before.world.relay.broker.size topic + before.unreadLetters router
  kept : before.world.relay.broker.Extends after.world.relay.broker

theorem Pays.trans {before middle after : LoopState} (first : Pays router before middle)
    (second : Pays router middle after) : Pays router before after where
  size topics := Nat.le_trans (second.size topics) (first.size topics)
  kept := first.kept.trans second.kept

variable {rest : List (List Step)} {records : List Record} {idle : LoopState}

theorem turn_polls (interlude : Interlude) (watch : Nat) (untroubled : plan.injections = [])
    (quiet : ∀ world, interlude [] world = world)
    (unscripted : state.onChange = []) (polls : state.polls = [] :: rest) :
    ∃ records idle, Polls state rest records idle ∧ turn (host plan interlude watch) state =
      let ending := if records.isEmpty then ⟨[], .ok (), idle⟩
        else settle (host plan interlude watch) records idle
      { ending with calls := .poll (.ok records) :: ending.calls } := by
  obtain ⟨records, polled, answer, after⟩ := poll_quiet watch untroubled quiet unscripted polls
  obtain ⟨completed, same⟩ := pollCompleted_quiet plan interlude watch polled
  refine ⟨records, _, ⟨?_, completed.processor.trans after.processor,
    completed.cancelled.trans after.cancelled, completed.polls.trans after.polls,
    completed.onChange.trans after.onChange, same.trans after.broker⟩, ?_⟩
  · rw [completed.consumer]
    exact after.fetched
  · unfold turn
    rw [answer]

theorem Polls.group (polls : Polls state rest records idle) :
    idle.consumer.group = state.consumer.group := by
  obtain ⟨_, _, reader, -⟩ := Consumer.fetch_eq polls.fetched.symm
  rw [reader]
  exact (state.consumer.group_catchUp state.world.relay.broker).1

/-- A poll without records finds the topic drained. -/
theorem Polls.drained (ready : Ready router state) (polls : Polls state rest [] idle) :
    Ready router idle ∧ Pays router state idle ∧ idle.Drained router := by
  obtain ⟨caught, held⟩ := ready.alone.catchUp
  obtain ⟨alone, drained⟩ := caught.rest held polls.fetched.symm
  rw [← polls.broker] at alone drained
  have stays : Pays router state idle := by
    refine ⟨fun topics => ?_, .of_topics (by rw [polls.broker])⟩
    unfold unreadLetters next
    rw [polls.broker, polls.group]
  exact ⟨⟨polls.processor.trans ready.receives, polls.onChange, alone⟩, stays, drained⟩

/-- A batch is taken off what is left to do, and its messages pay for the records that are added. -/
theorem Polls.settles (interlude : Interlude) (watch : Nat) (untroubled : plan.injections = [])
    (ready : Ready router state) (polls : Polls state rest records idle) (batch : 0 < records.length) :
    let now := settle (host plan interlude watch) records idle
    now.outcome = .ok () ∧ Kept idle now.state ∧ Ready router now.state ∧ Pays router state now.state ∧
      now.state.unread router + now.state.unreadLetters router <
        state.unread router + state.unreadLetters router := by
  obtain ⟨caught, held⟩ := ready.alone.catchUp
  obtain ⟨group, -⟩ := state.consumer.group_catchUp state.world.relay.broker
  have receives := polls.processor.trans ready.receives
  have round {later : Broker} (answered : Broker.Answered _ state.world.relay.broker later) :=
    caught.round held polls.fetched.symm answered
  obtain ⟨outcome, kept, later, answered, committed⟩ :=
    settle_quiet interlude watch untroubled receives records
      fun later answered => (round (polls.broker ▸ answered)).1
  rw [polls.broker] at answered
  obtain ⟨-, topics, alone, unread_le, letters_le⟩ := round answered
  rw [← committed, ← kept.consumer] at alone
  rw [← committed] at topics unread_le letters_le
  rw [group] at unread_le letters_le
  dsimp only
  generalize settle (host plan interlude watch) records idle = stretch at *
  have next_eq : stretch.state.next = stretch.state.world.relay.broker.next idle.consumer.group := by
    rw [next, kept.consumer]
  have less : stretch.state.unread router + records.length ≤
      state.unread router + Record.letters records := by
    unfold unread
    rw [next_eq]
    exact unread_le
  have fewer : stretch.state.unreadLetters router + Record.letters records ≤
      state.unreadLetters router := by
    unfold unreadLetters
    rw [next_eq]
    exact letters_le
  have size : stretch.state.world.relay.broker.size = later.size := by
    funext topic
    rw [Broker.size, topics, Broker.size]
  have pays : Pays router state stretch.state := by
    refine ⟨fun names => ?_, answered.kept.trans (.of_topics topics)⟩
    have gained := answered.size names
    rw [size]
    omega
  exact ⟨outcome, kept, ⟨kept.processor.trans receives, kept.onChange.trans polls.onChange, alone⟩,
    pays, by omega⟩

/-- A turn finds the topic drained, or makes what is left to do smaller. -/
theorem turn_quiet (interlude : Interlude) (watch : Nat) (untroubled : plan.injections = [])
    (quiet : ∀ world, interlude [] world = world)
    (ready : Ready router state) (polls : state.polls = [] :: rest) :
    let now := turn (host plan interlude watch) state
    now.outcome = .ok () ∧ Ready router now.state ∧ now.state.polls = rest ∧
      now.state.cancelled = (state.cancelled || rest.isEmpty) ∧ Pays router state now.state ∧
      (now.calls = [.poll (.ok [])] ∧ now.state.Drained router ∨
        .poll (.ok []) ∉ now.calls ∧ now.state.unread router + now.state.unreadLetters router <
          state.unread router + state.unreadLetters router) := by
  obtain ⟨records, idle, after, turned⟩ :=
    turn_polls interlude watch untroubled quiet ready.unscripted polls
  rw [turned]
  cases records with
  | nil =>
    obtain ⟨again, pays, drained⟩ := after.drained ready
    exact ⟨rfl, again, after.polls, after.cancelled, pays, .inl ⟨rfl, drained⟩⟩
  | cons record others =>
    obtain ⟨outcome, kept, again, pays, less⟩ :=
      after.settles interlude watch untroubled ready (Nat.succ_pos _)
    refine ⟨outcome, again, kept.polls.trans after.polls, kept.cancelled.trans after.cancelled, pays,
      .inr ⟨?_, less⟩⟩
    intro member
    rcases List.mem_cons.mp member with same | member
    · cases same
    · cases settle_unpolled _ _ _ _ member

/-- The end of a run that found nothing more to read. -/
structure Rests (router : Router) (before : LoopState) (ending : Stretch LoopState Unit) : Prop where
  outcome : ending.outcome = .ok ()
  /-- The first poll without records is the last call. -/
  calls : ∃ earlier, ending.calls = earlier ++ [.poll (.ok [])] ∧ .poll (.ok []) ∉ earlier
  pays : Pays router before ending.state
  drained : Drained router ending.state
  ready : Ready router ending.state

theorem Rests.of_turn (running : state.cancelled = false)
    (outcome : (turn (host plan interlude watch) state).outcome = .ok ())
    (silent : .poll (.ok []) ∉ (turn (host plan interlude watch) state).calls)
    (pays : Pays router state (turn (host plan interlude watch) state).state)
    (later : Rests router (turn (host plan interlude watch) state).state
      (ConsumeLoop.run (host plan interlude watch) turns (turn (host plan interlude watch) state).state)) :
    Rests router state (ConsumeLoop.run (host plan interlude watch) (turns + 1) state) := by
  obtain ⟨earlier, calls, before⟩ := later.calls
  rw [run_succ (host plan interlude watch) running outcome]
  refine ⟨later.outcome, ⟨(turn (host plan interlude watch) state).calls ++ earlier, ?_, ?_⟩,
    pays.trans later.pays, later.drained, later.ready⟩
  · dsimp only
    rw [calls, List.append_assoc]
  · simpa using ⟨silent, before⟩

/-- The loop comes to rest within as many turns as there are records and messages to read, and one more. -/
theorem run_rests (untroubled : plan.injections = []) (quiet : ∀ world, interlude [] world = world)
    (ready : Ready router state) (running : state.cancelled = false)
    (silent : ∀ script ∈ state.polls, script = []) (budget : Nat)
    (enough : state.unread router + state.unreadLetters router ≤ budget)
    (planned : budget < state.polls.length) :
    ∃ turns ≤ budget + 1, Rests router state (ConsumeLoop.run (host plan interlude watch) turns state) := by
  induction budget using Nat.strongRecOn generalizing state with
  | ind budget ih =>
    cases scripts : state.polls with
    | nil => simp [scripts] at planned
    | cons script rest =>
      obtain rfl : script = [] := silent script (by simp [scripts])
      obtain ⟨outcome, again, left, cancelled, pays, ending⟩ :=
        turn_quiet interlude watch untroubled quiet ready scripts
      rcases ending with ⟨calls, drained⟩ | ⟨polled, less⟩
      · refine ⟨1, Nat.le_add_left 1 budget, ?_⟩
        rw [run_succ (host plan interlude watch) running outcome]
        exact ⟨rfl, ⟨[], by simp [calls, ConsumeLoop.run], by simp⟩, pays, drained, again⟩
      · rw [scripts, List.length_cons] at planned
        have more : rest ≠ [] := by
          rintro rfl
          simp only [List.length_nil] at planned
          omega
        have runs : (turn (host plan interlude watch) state).state.cancelled = false := by
          rw [cancelled, running, Bool.false_or, List.isEmpty_eq_false_iff]
          exact more
        obtain ⟨turns, bound, rests⟩ := ih (budget - 1) (by omega) again runs
          (fun script member => silent script (by rw [scripts]; exact List.mem_cons_of_mem _ (left ▸ member)))
          (by omega) (by rw [left]; omega)
        exact ⟨turns + 1, by omega, .of_turn running outcome polled pays rests⟩

/-- Left to itself, the receivers' loop reads and commits all there is on its topic, whatever that is, whoever
is connected and however much it polls at a time. It comes to an empty poll after a bounded number of turns,
with at most one record added for each message that was unread. -/
theorem receivers_loop_drains (plan : LoopPlan) (interlude : Interlude) (watch : Nat)
    (untroubled : plan.injections = []) (quiet : ∀ world, interlude [] world = world)
    (ready : Ready router state) (running : state.cancelled = false)
    (silent : ∀ script ∈ state.polls, script = [])
    (planned : state.unread router + state.unreadLetters router < state.polls.length) :
    ∃ turns ≤ state.unread router + state.unreadLetters router + 1,
      let ending := ConsumeLoop.run (host plan interlude watch) turns state
      Rests router state ending ∧ ∀ topics : Finset String,
        ∑ topic ∈ topics, ending.state.world.relay.broker.size topic ≤
          ∑ topic ∈ topics, state.world.relay.broker.size topic + state.unreadLetters router := by
  obtain ⟨turns, bound, rests⟩ := run_rests untroubled quiet ready running silent _ (Nat.le_refl _) planned
  refine ⟨turns, bound, rests, fun topics => ?_⟩
  have size := rests.pays.size topics
  omega

/-- A topic with a message, an acknowledgement and bytes that are neither, and a session of the message's
receiver. -/
def mailroom : LoopState :=
  let router : Router := ⟨"p", "messages", "sender", 1⟩
  let message : Message := ⟨⟨1⟩, ⟨1⟩, ⟨2⟩, [104]⟩
  let broker := ({} : Broker).createTopic "messages" 1
  let broker := (broker.append ⟨"messages", 0⟩ (Envelope.message message).wire).2
  let broker := (broker.append ⟨"messages", 0⟩ (Envelope.ack (.ofMessage message .seen)).wire).2
  let broker := (broker.append ⟨"messages", 0⟩ [0]).2
  let joined := (Consumer.create "loop" "receivers" 0).subscribe ["messages"] broker
  let relay : Relay :=
    { broker := joined.2, table := router.prepare {}, sessions := (({} : SessionRegistry).connect ⟨2⟩).2 }
  { world := { network := .reachable, relay }
    consumer := joined.1
    processor := .receivers router
    cancelled := false
    polls := List.replicate 5 []
    onChange := [] }

theorem mailroom_drains :
    let plan : LoopPlan := ⟨"loop", "receivers", 0, ["messages"], "loop", .receivers "r", [], false⟩
    let router : Router := ⟨"p", "messages", "sender", 1⟩
    ∃ turns ≤ 5,
      let ending := ConsumeLoop.run (host plan (fun _ world => world) 0) turns mailroom
      Rests router mailroom ending ∧ ∀ topics : Finset String,
        ∑ topic ∈ topics, ending.state.world.relay.broker.size topic ≤
          ∑ topic ∈ topics, mailroom.world.relay.broker.size topic + 1 := by
  intro plan router
  have unread : mailroom.unread router = 3 := by decide +kernel
  have letters : mailroom.unreadLetters router = 1 := by decide +kernel
  have alone : mailroom.consumer.Alone mailroom.world.relay.broker router.messagesTopic :=
    Consumer.alone_subscribe "loop" "receivers" 0 _ "messages" (by decide +kernel) (by decide +kernel)
      fun partition _ => Nat.zero_le _
  have drains := receivers_loop_drains plan (fun _ world => world) 0 rfl (fun _ => rfl) ⟨rfl, rfl, alone⟩ rfl
    (fun script member => List.eq_of_mem_replicate member) (by rw [unread, letters]; decide)
  rw [unread, letters] at drains
  exact drains

end ChatRelay.Scenario.LoopState
