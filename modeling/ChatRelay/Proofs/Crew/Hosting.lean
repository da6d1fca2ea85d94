import ChatRelay.Proofs.Crew.Delivery

/-! A consume loop that a member of a crew runs. Its host lets the loop use the member's consumer on the shared
broker, and lets the others move before it answers. Whatever they do, all that the loop does is moves of the
crew. -/
namespace ChatRelay.Crew

open ConsumeLoop (Phase Event)

structure Surroundings where
  /-- What the others do before a call is answered. -/
  others : Crew → List Move
  /-- What happens while a poll waits. The consumer may catch up any number of times. -/
  meanwhile : Crew → List Move
  answer : Envelope → Crew → Except Failure Unit
  cancelled : Crew → Bool

/-- Nobody else moves the member. -/
structure Surroundings.Apart (surroundings : Surroundings) (member : Nat) : Prop where
  others : ∀ crew, ∀ move ∈ surroundings.others crew, move.member? ≠ some member
  meanwhile : ∀ crew, ∀ move ∈ surroundings.meanwhile crew,
    move.member? ≠ some member ∨ move = .synchronise member

def put (crew : Crew) (member : Nat) (worker : Worker) (broker : Broker) : Crew :=
  { crew with cluster := { broker, workers := crew.cluster.workers.insert member worker } }

/-- What a loop calls that a member runs. -/
def host (surroundings : Surroundings) (member : Nat) (name : String) : Host Crew where
  consumer := name
  cancelled := surroundings.cancelled
  poll crew :=
    let crew := (crew.run (surroundings.meanwhile crew)).step (.synchronise member)
    match crew.cluster.workers[member]? with
    | none => (.error (.broker (.notSubscribed name)), crew)
    | some worker =>
      let (batch, consumer) := worker.consumer.fetch crew.cluster.broker.topics
      (.ok batch, crew.put member { consumer, batch } crew.cluster.broker)
  pollCompleted crew := crew
  process envelope crew :=
    let crew := crew.run (surroundings.others crew)
    (surroundings.answer envelope crew, crew)
  commit records crew :=
    let crew := crew.run (surroundings.others crew)
    match crew.cluster.workers[member]? with
    | none => (.error (.broker (.notSubscribed name)), crew)
    | some worker =>
      let (answer, broker) := worker.consumer.commit (records.map Record.mark) crew.cluster.broker
      (answer, crew.put member worker broker)
  rewind crew :=
    let crew := crew.run (surroundings.others crew)
    match crew.cluster.workers[member]? with
    | none => (.error (.broker (.notSubscribed name)), crew)
    | some worker =>
      (.ok (), crew.put member { consumer := worker.consumer.rewind crew.cluster.broker } crew.cluster.broker)
  elapsed _ := 0
  count _ crew := crew

variable {member : Nat} {phase next : Phase} {seen crew : Crew} {batch rest : List Record} {worker : Worker}
variable {event : Event} {act : Act} {move : Move} {moves : List Move}

/-- The crew that a loop has come to is the one its host shows, with the loop itself in its phase. -/
structure Hosted (member : Nat) (phase : Phase) (seen crew : Crew) : Prop where
  cluster : seen.cluster = crew.cluster
  others : ∀ other, other ≠ member → seen.tasks[other]? = crew.tasks[other]?
  shown : ∃ task, seen.tasks[member]? = some task ∧ task.phase = .polling
  sound : crew.cluster.Sound
  stands : ∃ worker task, crew.cluster.workers[member]? = some worker ∧ crew.tasks[member]? = some task ∧
    task.phase = phase ∧ ∀ batch rest, phase = .handling batch rest → worker.batch = batch

theorem step_alike (cluster : seen.cluster = crew.cluster)
    (others : ∀ other, other ≠ member → seen.tasks[other]? = crew.tasks[other]?)
    (apart : move.member? ≠ some member) :
    (seen.step move).cluster = (crew.step move).cluster ∧
      ∀ other, other ≠ member → (seen.step move).tasks[other]? = (crew.step move).tasks[other]? := by
  obtain ⟨_, tasks, history⟩ := seen
  dsimp only at cluster
  subst cluster
  cases move with
  | createTopic | failPublishes | append => exact ⟨rfl, others⟩
  | join id group maxRecords topics =>
    refine ⟨rfl, ?_⟩
    intro other different
    simp [step, Std.ExtTreeMap.getElem?_insert, others other different]
  | leave leaving =>
    refine ⟨rfl, ?_⟩
    intro other different
    simp [step, Std.ExtTreeMap.getElem?_erase, others other different]
  | synchronise acting =>
    have same := others acting fun same => apart (by rw [same]; rfl)
    simp only [step]
    rw [same]
    split <;> exact ⟨rfl, others⟩
  | take acting act =>
    have same := others acting fun same => apart (by rw [same]; rfl)
    simp only [step, take?]
    rw [same]
    cases crew.tasks[acting]? with
    | none => exact ⟨rfl, others⟩
    | some task =>
      cases crew.cluster.workers[acting]? with
      | none => exact ⟨rfl, others⟩
      | some worker =>
        cases answered : act.event? worker crew.cluster.broker with
        | none => simpa [answered] using others
        | some event =>
          cases allowed : task.phase.after event with
          | none => simpa [answered, allowed] using others
          | some phase =>
            simp only [answered, allowed, bind, Option.bind_some, Option.getD_some, true_and]
            intro other different
            simp [Std.ExtTreeMap.getElem?_insert, others other different]

namespace Hosted

theorem step (hosted : Hosted member phase seen crew) (apart : move.member? ≠ some member) :
    Hosted member phase (seen.step move) (crew.step move) := by
  obtain ⟨task, shown, polling⟩ := hosted.shown
  obtain ⟨worker, own, found, is, stands⟩ := hosted.stands
  have sound := hosted.sound
  obtain ⟨cluster, others⟩ := step_alike hosted.cluster hosted.others apart
  have seenSound : seen.cluster.Sound := hosted.cluster ▸ sound
  have seenFound : seen.cluster.workers[member]? = some worker := hosted.cluster ▸ found
  obtain ⟨found, is⟩ := step_other sound found is move apart
  exact ⟨cluster, others, ⟨task, (step_other seenSound seenFound shown move apart).2, polling⟩,
    cluster_sound_step sound move, worker, own, found, is, stands⟩

/-- The others move on while the loop waits for an answer. -/
theorem run (hosted : Hosted member phase seen crew) (moves : List Move)
    (apart : ∀ move ∈ moves, move.member? ≠ some member) :
    Hosted member phase (seen.run moves) (crew.run moves) := by
  induction moves generalizing seen crew with
  | nil => exact hosted
  | cons move moves ih =>
    have first := hosted.step (apart move List.mem_cons_self)
    exact ih first fun other member => apart other (List.mem_cons_of_mem _ member)

theorem synchronise (hosted : Hosted member .polling seen crew) :
    Hosted member .polling (seen.step (.synchronise member)) (crew.step (.synchronise member)) := by
  obtain ⟨task, shown, polling⟩ := hosted.shown
  obtain ⟨worker, own, found, is, polls, _⟩ := hosted.stands
  have moved := hosted.sound.worker?_step found (.operate member .synchronise)
  have seenStep : seen.step (.synchronise member) =
      { seen with cluster := seen.cluster.step (.operate member .synchronise) } := by
    simp [Crew.step, shown, polling]
  have crewStep : crew.step (.synchronise member) =
      { crew with cluster := crew.cluster.step (.operate member .synchronise) } := by
    simp [Crew.step, is, polls]
  rw [seenStep, crewStep, hosted.cluster]
  exact ⟨rfl, hosted.others, hosted.shown, hosted.sound.step _, _, own, by simpa using moved, is, polls,
    by simp⟩

theorem wait (hosted : Hosted member .polling seen crew) (moves : List Move)
    (apart : ∀ move ∈ moves, move.member? ≠ some member ∨ move = .synchronise member) :
    Hosted member .polling (seen.run moves) (crew.run moves) := by
  induction moves generalizing seen crew with
  | nil => exact hosted
  | cons move moves ih =>
    have later := fun other member => apart other (List.mem_cons_of_mem move member)
    rcases apart move List.mem_cons_self with other | rfl
    · exact ih (hosted.step other) later
    · exact ih hosted.synchronise later

theorem take (hosted : Hosted member phase seen crew)
    (found : seen.cluster.workers[member]? = some worker)
    (answered : act.event? worker seen.cluster.broker = some event) (leads : phase.Leads event next)
    (now : seen'.cluster = (match act.operation? with
      | none => seen.cluster
      | some operation => seen.cluster.step (.operate member operation)))
    (tasks : seen'.tasks = seen.tasks)
    (carries : ∀ batch rest worker, next = .handling batch rest →
      seen'.cluster.workers[member]? = some worker → worker.batch = batch) :
    Hosted member next seen' (crew.step (.take member act)) := by
  obtain ⟨worker, own, again, is, stands, _⟩ := hosted.stands
  have same := hosted.cluster
  rw [same] at found answered now
  cases found.symm.trans again
  have allowed := Phase.after_eq_some_iff.mpr leads
  rw [← stands] at allowed
  obtain ⟨after, taken⟩ : ∃ after, crew.take? member act = some after := by
    simp [take?, is, found, answered, allowed]
  have stepped : crew.step (.take member act) = after := by simp [Crew.step, taken]
  obtain ⟨_, _, _, _, is', found', answered', allowed', cluster, others, _⟩ := take?_eq_some taken
  cases is.symm.trans is'
  cases found.symm.trans found'
  cases answered.symm.trans answered'
  cases allowed.symm.trans allowed'
  have alike : seen'.cluster = after.cluster := now.trans cluster.symm
  have there : ∃ worker, after.cluster.workers[member]? = some worker := by
    rw [cluster]
    split
    · exact ⟨worker, found⟩
    · rename_i operation _
      exact ⟨_, by simpa using hosted.sound.worker?_step found (.operate member operation)⟩
  obtain ⟨moved, present⟩ := there
  rw [stepped]
  refine ⟨alike, ?_, tasks ▸ hosted.shown, ?_, moved, own.next event next, present, ?_, ?_, ?_⟩
  · intro other different
    rw [tasks, others, hosted.others other different]
    simp [Std.ExtTreeMap.getElem?_insert, Ne.symm different]
  · have sound := cluster_sound_step hosted.sound (.take member act)
    rwa [stepped] at sound
  · simp [others]
  · simp
  · intro batch rest handling
    exact carries batch rest moved handling (alike ▸ present)

theorem operate (hosted : Hosted member phase seen crew)
    (found : seen.cluster.workers[member]? = some worker) (operates : act.operation? = some operation)
    (performed : worker.perform seen.cluster.broker operation = (moved, broker))
    (answered : act.event? worker seen.cluster.broker = some event) (leads : phase.Leads event next)
    (carries : ∀ batch rest, next = .handling batch rest → moved.batch = batch) :
    Hosted member next (seen.put member moved broker) (crew.step (.take member act)) := by
  have now : (seen.put member moved broker).cluster = seen.cluster.step (.operate member operation) := by
    simp [put, Cluster.step, found, performed]
  refine hosted.take found answered leads (by simpa [operates] using now) rfl ?_
  intro batch rest worker handling present
  simp only [put, Std.ExtTreeMap.getElem?_insert_self, Option.some.injEq] at present
  exact present ▸ carries batch rest handling

theorem pass (hosted : Hosted member phase seen crew) (idle : act.operation? = none)
    (answered : ∀ worker broker, act.event? worker broker = some event) (leads : phase.Leads event next)
    (carries : ∀ batch rest, next = .handling batch rest → ∃ before, phase = .handling batch before) :
    Hosted member next seen (crew.step (.take member act)) := by
  obtain ⟨worker, _, found, _, _, stands⟩ := hosted.stands
  rw [← hosted.cluster] at found
  refine hosted.take found (answered _ _) leads (by rw [idle]) rfl ?_
  intro batch rest other handling present
  cases found.symm.trans present
  obtain ⟨before, was⟩ := carries batch rest handling
  exact stands batch before was

/-- A poll that has caught up with the group fetches at once. -/
theorem caughtUp (hosted : Hosted member .polling seen crew) :
    ∃ worker, (seen.step (.synchronise member)).cluster.workers[member]? = some worker ∧
      worker.consumer.synchronise (seen.step (.synchronise member)).cluster.broker = none := by
  obtain ⟨worker, _, found, _⟩ := hosted.stands
  obtain ⟨task, shown, polling⟩ := hosted.shown
  have stepped : seen.step (.synchronise member) =
      { seen with cluster := seen.cluster.step (.operate member .synchronise) } := by
    simp [Crew.step, shown, polling]
  rw [stepped]
  exact Cluster.current_synchronise (hosted.cluster ▸ found)

end Hosted

theorem run_append (moves more : List Move) : crew.run (moves ++ more) = (crew.run moves).run more := by
  simp [run]

/-- A member's loop gets from a crew, by moves of the crew, to where its host shows another. -/
def Reaches (crew : Crew) (member : Nat) (phase : Phase) (seen : Crew) : Prop :=
  ∃ moves, Hosted member phase seen (crew.run moves)

section Runs

variable {surroundings : Surroundings} {envelope : Envelope} {record : Record} (name : String)

theorem Reaches.trans (first : crew.Reaches member phase seen)
    (second : ∀ next, Hosted member phase seen next → next.Reaches member last shown) :
    crew.Reaches member last shown := by
  obtain ⟨moves, hosted⟩ := first
  obtain ⟨more, hosted⟩ := second _ hosted
  exact ⟨moves ++ more, by rwa [run_append]⟩

/-- A poll waits, whatever happens meanwhile, and returns a batch. -/
theorem poll_reaches (apart : surroundings.Apart member) (hosted : Hosted member .polling seen crew) :
    ∃ batch after, (host surroundings member name).poll seen = (.ok batch, after) ∧
      ∀ next, Phase.Leads .polling (.polled (.ok batch)) next → crew.Reaches member next after := by
  have waited := hosted.wait (surroundings.meanwhile seen) (apart.meanwhile seen)
  have ready := waited.synchronise
  obtain ⟨worker, found, current⟩ := waited.caughtUp
  generalize before : (seen.run (surroundings.meanwhile seen)).step (.synchronise member) = now
    at ready found current
  cases read : worker.consumer.fetch now.cluster.broker.topics with
  | mk batch consumer =>
    refine ⟨batch, now.put member { consumer, batch } now.cluster.broker, ?_, fun next leads => ?_⟩
    · simp [host, before, found, read]
    · have answered : Act.event? worker now.cluster.broker .poll = some (.polled (.ok batch)) := by
        simp [Act.event?, current, read]
      have performed : worker.perform now.cluster.broker .fetch =
          ({ consumer, batch }, now.cluster.broker) := by
        simp [Worker.perform, current, read]
      refine ⟨surroundings.meanwhile seen ++ [.synchronise member, .take member .poll], ?_⟩
      rw [run_append]
      refine ready.operate found rfl performed answered leads ?_
      intro other rest handling
      subst handling
      cases leads
      rfl

theorem process_reaches (apart : surroundings.Apart member)
    (hosted : Hosted member (.handling batch (record :: rest)) seen crew) (body : record.body = .ok envelope) :
    crew.Reaches member
      (match ((host surroundings member name).process envelope seen).1 with
        | .ok () => .handling batch rest
        | .error failure => .giveUp failure)
      ((host surroundings member name).process envelope seen).2 := by
  have later := hosted.run (surroundings.others seen) (apart.others seen)
  refine ⟨surroundings.others seen ++ [.take member (.process
    ((host surroundings member name).process envelope seen).1)], ?_⟩
  rw [run_append]
  cases answer : ((host surroundings member name).process envelope seen).1 with
  | ok =>
    refine later.pass rfl (fun _ _ => rfl) (.processed body) ?_
    rintro _ _ ⟨⟩
    exact ⟨_, rfl⟩
  | error failure =>
    refine later.pass rfl (fun _ _ => rfl) (.refused body) ?_
    intro batch rest handling
    simp only [Phase.giveUp] at handling
    split at handling <;> cases handling

theorem commit_reaches (apart : surroundings.Apart member)
    (hosted : Hosted member (.handling batch []) seen crew) :
    crew.Reaches member (.proceed ((host surroundings member name).commit batch seen).1)
      ((host surroundings member name).commit batch seen).2 := by
  have later := hosted.run (surroundings.others seen) (apart.others seen)
  refine ⟨surroundings.others seen ++ [.take member .commit], ?_⟩
  rw [run_append]
  obtain ⟨worker, _, found, _, _, stands⟩ := later.stands
  cases stands batch [] rfl
  rw [← later.cluster] at found
  simp only [host, found]
  refine later.operate found rfl rfl rfl .committed ?_
  intro batch rest handling
  simp only [Phase.proceed] at handling
  split at handling <;> cases handling

theorem rewind_reaches (apart : surroundings.Apart member) (hosted : Hosted member .failed seen crew) :
    crew.Reaches member (.proceed ((host surroundings member name).rewind seen).1)
      ((host surroundings member name).rewind seen).2 := by
  have later := hosted.run (surroundings.others seen) (apart.others seen)
  refine ⟨surroundings.others seen ++ [.take member .rewind], ?_⟩
  rw [run_append]
  obtain ⟨worker, _, found, _⟩ := later.stands
  rw [← later.cluster] at found
  simp only [host, found]
  refine later.operate found rfl rfl rfl .rewound ?_
  intro batch rest handling
  cases handling

open ConsumeLoop

theorem processBatch_reaches (apart : surroundings.Apart member)
    (hosted : Hosted member (.handling batch rest) seen crew) :
    crew.Reaches member
      (match (processBatch (host surroundings member name) rest seen).outcome with
        | .ok _ => .handling batch []
        | .error failure => .giveUp failure)
      (processBatch (host surroundings member name) rest seen).state := by
  induction rest generalizing seen crew with
  | nil => exact ⟨[], hosted⟩
  | cons record rest ih =>
    unfold processBatch
    cases body : record.body with
    | error fault =>
      have skipped : Hosted member (.handling batch rest) seen (crew.step (.take member .skip)) := by
        refine hosted.pass rfl (fun _ _ => rfl) (.skipped body) ?_
        rintro _ _ ⟨⟩
        exact ⟨_, rfl⟩
      exact Reaches.trans ⟨[.take member .skip], skipped⟩ fun _ hosted => ih hosted
    | ok envelope =>
      have first := process_reaches name apart hosted body
      dsimp only
      cases reply : (host surroundings member name).process envelope seen with
      | mk answer state =>
        rw [reply] at first
        cases answer with
        | error failure => exact first
        | ok =>
          have later := first.trans fun _ hosted => ih hosted
          dsimp only
          cases outcome : (processBatch (host surroundings member name) rest state).outcome <;>
            simpa [outcome, Except.map] using later

theorem finish_reaches (apart : surroundings.Apart member)
    (hosted : Hosted member (.handling batch []) seen crew) (processed : Nat) :
    crew.Reaches member (.proceed (finish (host surroundings member name) batch processed seen).outcome)
      (finish (host surroundings member name) batch processed seen).state := by
  have committed := commit_reaches name apart hosted
  unfold finish
  split
  · rename_i answer
    rw [answer] at committed
    exact committed
  · rename_i answer
    rw [answer] at committed
    exact committed

theorem settle_reaches (apart : surroundings.Apart member)
    (hosted : Hosted member (.handling batch batch) seen crew) :
    crew.Reaches member (.proceed (settle (host surroundings member name) batch seen).outcome)
      (settle (host surroundings member name) batch seen).state := by
  have processed := processBatch_reaches name apart hosted
  unfold settle
  dsimp only
  cases outcome : (processBatch (host surroundings member name) batch seen).outcome with
  | ok count =>
    rw [outcome] at processed
    exact processed.trans fun _ hosted => finish_reaches name apart hosted count
  | error failure =>
    rw [outcome] at processed
    dsimp only [Phase.giveUp] at processed ⊢
    split
    · rename_i retriable
      rw [if_pos retriable] at processed
      exact processed.trans fun _ hosted => rewind_reaches name apart hosted
    · rename_i final
      rwa [if_neg final] at processed

theorem turn_reaches (apart : surroundings.Apart member) (hosted : Hosted member .polling seen crew) :
    crew.Reaches member (.proceed (turn (host surroundings member name) seen).outcome)
      (turn (host surroundings member name) seen).state := by
  obtain ⟨batch, after, polled, reaches⟩ := poll_reaches name apart hosted
  unfold turn
  rw [polled]
  cases batch with
  | nil => exact reaches .polling .idle
  | cons record rest =>
    have begun := reaches (.handling (record :: rest) (record :: rest)) (.polled (List.cons_ne_nil _ _))
    exact begun.trans fun _ hosted => settle_reaches name apart hosted

/-- A loop run by its host is one of the loops of a crew. It has ended or is about to poll again. -/
theorem run_reaches (apart : surroundings.Apart member) (hosted : Hosted member .polling seen crew)
    (turns : Nat) :
    ∃ last, crew.Reaches member last (ConsumeLoop.run (host surroundings member name) turns seen).state ∧
      (last = .ended (ConsumeLoop.run (host surroundings member name) turns seen).outcome ∨
        last = .polling ∧
          (ConsumeLoop.run (host surroundings member name) turns seen).outcome = .ok ()) := by
  induction turns generalizing seen crew with
  | zero => exact ⟨.polling, ⟨[], hosted⟩, .inr ⟨rfl, rfl⟩⟩
  | succ turns ih =>
    unfold ConsumeLoop.run
    split
    · have ended : Hosted member (.ended (.ok ())) seen (crew.step (.take member .cancel)) :=
        hosted.pass rfl (fun _ _ => rfl) .cancelled (by simp)
      exact ⟨_, ⟨[.take member .cancel], ended⟩, .inl rfl⟩
    · have now := turn_reaches name apart hosted
      dsimp only
      split
      · rename_i failure outcome
        rw [outcome] at now
        exact ⟨_, now, .inl (by rw [outcome]; rfl)⟩
      · rename_i outcome
        rw [outcome] at now
        obtain ⟨moves, hosted⟩ := now
        obtain ⟨last, ⟨more, later⟩, reached⟩ := ih hosted
        exact ⟨last, ⟨moves ++ more, by rwa [run_append]⟩, reached⟩

/-- Nothing is lost by a loop that its host runs, whoever else is at work: what lies below a committed offset
has been settled. -/
theorem settled_run {moves : List Move} {task : Task} {group : String} {partition : Partition} {offset : Nat}
    (apart : surroundings.Apart member) (found : (after moves).cluster.workers[member]? = some worker)
    (is : (after moves).tasks[member]? = some task) (polling : task.phase = .polling) (turns : Nat)
    (below : offset < (ConsumeLoop.run (host surroundings member name) turns
      (after moves)).state.cluster.committed group partition) :
    ∃ more, (after (moves ++ more)).Settled group partition offset := by
  have hosted : Hosted member .polling (after moves) (after moves) :=
    ⟨rfl, fun _ _ => rfl, ⟨task, is, polling⟩, (sound_after moves).cluster, worker, task, found, is, polling,
      by simp⟩
  obtain ⟨last, ⟨more, reached⟩, _⟩ := run_reaches name apart hosted turns
  refine ⟨more, (sound_after (moves ++ more)).committed group partition offset ?_⟩
  have come : after (moves ++ more) = (after moves).run more := run_append moves more
  rw [come, ← reached.cluster]
  exact below

end Runs
end ChatRelay.Crew
