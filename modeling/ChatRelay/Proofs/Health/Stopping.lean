import Mathlib.Data.List.Induction
import ChatRelay.Health.Endpoint
import ChatRelay.Proofs.History
import ChatRelay.Proofs.Text.Pieces

/-! What it comes to that a loop stops. A loop that has started and stopped is dead, and an instance with a dead
loop is not live. Only a start brings a dead loop back, but every start does. -/
namespace ChatRelay.HealthRegistry

inductive Call where
  | register (name : String)
  | markStarted (loop : Nat)
  | markStopped (loop : Nat)
  | setRebalancing (loop : Nat) (rebalancing : Bool)

namespace Call

def registers : Call → Bool
  | .register _ => true
  | _ => false

def applyTo (loop : Nat) (health : LoopHealth) : Call → LoopHealth
  | .register _ => health
  | .markStarted other => if other = loop then health.markStarted else health
  | .markStopped other => if other = loop then health.markStopped else health
  | .setRebalancing other rebalancing => if other = loop then health.setRebalancing rebalancing else health

theorem started_applyTo (loop : Nat) (health : LoopHealth) (call : Call) :
    (call.applyTo loop health).started ↔ health.started ∨ call = .markStarted loop := by
  cases call with
  | register name => simp [applyTo]
  | markStarted other | markStopped other | setRebalancing other rebalancing =>
    by_cases same : other = loop <;>
      simp [applyTo, LoopHealth.markStarted, LoopHealth.markStopped, LoopHealth.setRebalancing, same]

theorem healthy_applyTo (loop : Nat) (health : LoopHealth) (call : Call) :
    (call.applyTo loop health).healthy ↔
      (health.healthy ∧ call ≠ .markStopped loop) ∨ call = .markStarted loop := by
  cases call with
  | register name => simp [applyTo]
  | markStarted other | markStopped other | setRebalancing other rebalancing =>
    by_cases same : other = loop <;>
      simp [applyTo, LoopHealth.markStarted, LoopHealth.markStopped, LoopHealth.setRebalancing, same]

end Call

def handle (registry : HealthRegistry) : Call → HealthRegistry
  | .register name => (registry.register name).2
  | .markStarted loop => registry.modify loop .markStarted
  | .markStopped loop => registry.modify loop .markStopped
  | .setRebalancing loop rebalancing => registry.modify loop (·.setRebalancing rebalancing)

def after (calls : List Call) : HealthRegistry := calls.foldl handle {}

def registered (calls : List Call) : Nat := calls.countP (·.registers)

def Started (calls : List Call) (loop : Nat) : Prop :=
  ∃ earlier later, calls = earlier ++ .markStarted loop :: later ∧ loop < registered earlier

/-- A registered loop was started, and has not been stopped since. -/
def Running (calls : List Call) (loop : Nat) : Prop :=
  ∃ earlier later, calls = earlier ++ .markStarted loop :: later ∧ loop < registered earlier ∧
    .markStopped loop ∉ later

/-- A loop that had started was stopped, and has not been started since. -/
def Dead (calls : List Call) (loop : Nat) : Prop :=
  ∃ earlier later, calls = earlier ++ .markStopped loop :: later ∧ Started earlier loop ∧
    .markStarted loop ∉ later

variable {registry : HealthRegistry} {health : LoopHealth} {calls : List Call} {call : Call} {loop : Nat}

theorem after_concat (calls : List Call) (call : Call) : after (calls ++ [call]) = (after calls).handle call := by
  simp [after]

theorem registered_concat (calls : List Call) (call : Call) :
    registered (calls ++ [call]) = registered calls + if call.registers then 1 else 0 := by
  simp [registered, List.countP_append, List.countP_singleton]

theorem started_concat :
    Started (calls ++ [call]) loop ↔
      Started calls loop ∨ call = .markStarted loop ∧ loop < registered calls := by
  have split := @exists_split_concat Call calls call (.markStarted loop) (loop < registered ·) fun _ => True
  simpa [Started] using split

theorem running_concat :
    Running (calls ++ [call]) loop ↔ (Running calls loop ∧ call ≠ .markStopped loop) ∨
      call = .markStarted loop ∧ loop < registered calls := by
  simp only [Running, ← List.forall_mem_ne']
  exact exists_split_concat

theorem dead_concat :
    Dead (calls ++ [call]) loop ↔ (Dead calls loop ∧ call ≠ .markStarted loop) ∨
      call = .markStopped loop ∧ Started calls loop := by
  simp only [Dead, ← List.forall_mem_ne']
  exact exists_split_concat

theorem Started.registered (started : Started calls loop) : loop < registered calls := by
  obtain ⟨earlier, later, rfl, known⟩ := started
  rw [HealthRegistry.registered, List.countP_append]
  exact Nat.lt_add_right _ known

theorem Running.started (running : Running calls loop) : Started calls loop := by
  obtain ⟨earlier, later, rfl, known, _⟩ := running
  exact ⟨earlier, later, rfl, known⟩

theorem Dead.started (dead : Dead calls loop) : Started calls loop := by
  obtain ⟨earlier, later, rfl, ⟨before, between, rfl, known⟩, _⟩ := dead
  exact ⟨before, between ++ .markStopped loop :: later, by simp, known⟩

theorem length_handle (registry : HealthRegistry) (call : Call) :
    (registry.handle call).loops.length = registry.loops.length + if call.registers then 1 else 0 := by
  cases call <;> simp [handle, register, modify, Call.registers]

theorem getElem?_handle (known : loop < registry.loops.length) (call : Call) :
    (registry.handle call).loops[loop]? = registry.loops[loop]?.map (call.applyTo loop) := by
  cases call with
  | register name => simp [handle, register, Call.applyTo, List.getElem?_append_left known]
  | markStarted other | markStopped other | setRebalancing other rebalancing =>
    rw [handle, modify, List.getElem?_modify, List.getElem?_eq_getElem known]
    by_cases same : other = loop <;> simp [same, Call.applyTo]

theorem length_after (calls : List Call) : (after calls).loops.length = registered calls := by
  induction calls using List.reverseRecOn with
  | nil => rfl
  | append_singleton calls call ih => rw [after_concat, length_handle, registered_concat, ih]

/-- Of the loops that were started, those that do not run are dead. -/
theorem dead_iff : Dead calls loop ↔ Started calls loop ∧ ¬ Running calls loop := by
  induction calls using List.reverseRecOn with
  | nil => simp [Dead, Started]
  | append_singleton calls call ih =>
    rw [dead_concat, started_concat, running_concat, ih]
    by_cases starts : call = .markStarted loop
    · have known : Started calls loop → loop < registered calls := Started.registered
      subst starts
      simp +contextual [or_iff_right_of_imp known]
    · by_cases stops : call = .markStopped loop <;> simp +contextual [starts, stops]

/-- The flags of a loop are those that the calls tell. -/
structure Follows (calls : List Call) (loop : Nat) (health : LoopHealth) : Prop where
  started : health.started ↔ Started calls loop
  healthy : health.healthy ↔ Running calls loop

namespace Follows

theorem register (calls : List Call) (name : String) :
    Follows (calls ++ [.register name]) (registered calls) { name := name } where
  started := by
    have unknown : ¬ Started calls (registered calls) := fun started => Nat.lt_irrefl _ started.registered
    simp [started_concat, unknown]
  healthy := by
    have unknown : ¬ Running calls (registered calls) := fun running =>
      Nat.lt_irrefl _ running.started.registered
    simp [running_concat, unknown]

theorem handle (follows : Follows calls loop health) (known : loop < registered calls) (call : Call) :
    Follows (calls ++ [call]) loop (call.applyTo loop health) where
  started := by
    rw [Call.started_applyTo, started_concat, follows.started, and_iff_left known]
  healthy := by
    rw [Call.healthy_applyTo, running_concat, follows.healthy, and_iff_left known]

theorem isDead_iff (follows : Follows calls loop health) : health.isDead ↔ Dead calls loop := by
  rw [dead_iff, ← follows.started, ← follows.healthy, LoopHealth.isDead, Bool.and_eq_true,
    Bool.not_eq_true', Bool.not_eq_true]

end Follows

theorem follows_after (there : (after calls).loops[loop]? = some health) : Follows calls loop health := by
  induction calls using List.reverseRecOn generalizing health with
  | nil => simp [after] at there
  | append_singleton calls call ih =>
    rw [after_concat] at there
    rcases Nat.lt_or_ge loop (registered calls) with known | new
    · have before := List.getElem?_eq_getElem ((length_after calls).symm ▸ known)
      rw [getElem?_handle ((length_after calls).symm ▸ known), before, Option.map_some, Option.some_inj] at there
      subst there
      exact (ih before).handle known call
    · have inRange := (List.getElem?_eq_some_iff.mp there).1
      rw [length_handle, length_after] at inRange
      cases call with
      | register name =>
        obtain rfl : loop = registered calls := Nat.le_antisymm (Nat.le_of_lt_succ inRange) new
        rw [handle, HealthRegistry.register, ← length_after, List.getElem?_concat_length, Option.some_inj] at there
        subst there
        exact Follows.register calls name
      | markStarted | markStopped | setRebalancing => exact absurd inRange (Nat.not_lt.mpr new)

theorem Started.exists_getElem? (started : Started calls loop) :
    ∃ health, (after calls).loops[loop]? = some health :=
  ⟨_, List.getElem?_eq_getElem ((length_after calls).symm ▸ started.registered)⟩

theorem isLive_after : (after calls).isLive ↔ ∀ loop, ¬ Dead calls loop := by
  rw [isLive, List.all_eq_true]
  constructor
  · intro alive loop dead
    obtain ⟨health, there⟩ := dead.started.exists_getElem?
    have isDead := (follows_after there).isDead_iff.mpr dead
    simpa [isDead] using alive health (List.mem_of_getElem? there)
  · intro none health among
    obtain ⟨loop, there⟩ := List.mem_iff_getElem?.mp among
    have alive := mt (follows_after there).isDead_iff.mp (none loop)
    simpa using alive

theorem respond_live {request : List Char} (asked : Endpoint.path request ∈ ["/live", "/livez", "/live/"])
    (registry : HealthRegistry) (metrics : String) :
    Endpoint.respond request registry metrics = Endpoint.livePage registry := by
  simp only [List.mem_cons, List.not_mem_nil, or_false] at asked
  rcases asked with same | same | same <;> simp [Endpoint.respond, same]

theorem begins_plain (code : Nat) (reason body : String) :
    Text.Begins (Endpoint.plain code reason body) ("HTTP/1.1 " ++ toString code) :=
  ((((((Text.Begins.refl _).append _).append _).append _).append _).append _).append _

theorem plain_unavailable_ne (body text : String) :
    Endpoint.plain 503 "Service Unavailable" body ≠ Endpoint.plain 200 "OK" text := by
  intro same
  have unavailable := begins_plain 503 "Service Unavailable" body
  rw [same] at unavailable
  rcases unavailable.comparable (begins_plain 200 "OK" text) with begins | begins
  · exact absurd begins (by decide +kernel)
  · exact absurd begins (by decide +kernel)

/-- A loop that does not run, and what is told of it: it is not ready, the instance is not live, and the endpoint
says so. -/
structure Down (registry : HealthRegistry) (loop : Nat) : Prop where
  stopped : ∃ health, registry.loops[loop]? = some health ∧ health.healthy = false ∧ health.isReady = false
  notLive : registry.isLive = false
  notReady : registry.isReady = false
  told : ∀ request metrics, Endpoint.path request ∈ ["/live", "/livez", "/live/"] →
    ∃ body, Endpoint.respond request registry metrics = Endpoint.plain 503 "Service Unavailable" body

theorem Dead.down (dead : Dead calls loop) : Down (after calls) loop := by
  obtain ⟨health, there⟩ := dead.started.exists_getElem?
  have stopped := (follows_after there).isDead_iff.mpr dead
  rw [LoopHealth.isDead, Bool.and_eq_true, Bool.not_eq_true'] at stopped
  have notReady : health.isReady = false := by simp [LoopHealth.isReady, stopped.2]
  have notLive : (after calls).isLive = false := by
    rw [← Bool.not_eq_true, isLive_after]
    exact fun none => none loop dead
  refine ⟨⟨health, there, stopped.2, notReady⟩, notLive, ?_, ?_⟩
  · rw [isReady, Bool.and_eq_false_iff, List.all_eq_false]
    exact .inr ⟨health, List.mem_of_getElem? there, by simp [notReady]⟩
  · intro request metrics asked
    rw [respond_live asked, Endpoint.livePage, notLive]
    exact ⟨_, rfl⟩

theorem Running.not_down (running : Running calls loop) : ¬ Down (after calls) loop := by
  intro down
  obtain ⟨health, there, stopped, _⟩ := down.stopped
  have healthy := (follows_after there).healthy.mpr running
  rw [stopped] at healthy
  cases healthy

/-- A loop that had started and was stopped is down from then on if and only if nobody starts it again. -/
theorem forever_down_iff {earlier later : List Call} (started : Started earlier loop) :
    (∀ soon, soon <+: later → Down (after (earlier ++ .markStopped loop :: soon)) loop) ↔
      .markStarted loop ∉ later := by
  constructor
  · intro forever restarted
    obtain ⟨between, rest, rfl⟩ := List.append_of_mem restarted
    have running : Running (earlier ++ .markStopped loop :: (between ++ [.markStarted loop])) loop := by
      rw [← List.cons_append, ← List.append_assoc, running_concat, registered, List.countP_append]
      exact .inr ⟨rfl, Nat.lt_add_right _ started.registered⟩
    exact running.not_down (forever _ ⟨rest, by simp⟩)
  · intro never soon among
    have dead : Dead (earlier ++ .markStopped loop :: soon) loop :=
      ⟨earlier, soon, rfl, started, fun restarted => never (among.subset restarted)⟩
    exact dead.down

/-- What the calls make of the flags of the loops, of liveness and of the page about it. -/
structure Marked (calls : List Call) : Prop where
  healthy : ∀ loop health, (after calls).loops[loop]? = some health → (health.healthy ↔ Running calls loop)
  dead : ∀ loop health, (after calls).loops[loop]? = some health → (health.isDead ↔ Dead calls loop)
  live : (after calls).isLive ↔ ∀ loop, ¬ Dead calls loop
  /-- The endpoint says alive exactly as long as no loop is dead. -/
  page : ∀ request metrics, Endpoint.path request ∈ ["/live", "/livez", "/live/"] →
    (Endpoint.respond request (after calls) metrics = Endpoint.plain 200 "OK" "status: alive\n" ↔
      ∀ loop, ¬ Dead calls loop)
  /-- A loop that had started stays stopped in every later state unless it is started again. -/
  forever : ∀ earlier loop later, calls = earlier ++ .markStopped loop :: later → Started earlier loop →
    ((∀ soon, soon <+: later → Down (after (earlier ++ .markStopped loop :: soon)) loop) ↔
      .markStarted loop ∉ later)

theorem marks_decide_liveness (calls : List Call) : Marked calls where
  healthy loop health there := (follows_after there).healthy
  dead loop health there := (follows_after there).isDead_iff
  live := isLive_after
  page request metrics asked := by
    rw [← isLive_after, respond_live asked, Endpoint.livePage]
    cases (after calls).isLive with
    | true => simp
    | false => simpa using plain_unavailable_ne _ _
  forever earlier loop later _ started := forever_down_iff started

/-- A loop that is started, stopped and started again. -/
def restarted : List Call := [.register "receivers", .markStarted 0, .markStopped 0, .markStarted 0]

/-- It is as healthy and ready as before, and the instance is live and ready again. -/
theorem restarted_is_live_again :
    (¬ ∀ earlier loop later, Started earlier loop → Down (after (earlier ++ .markStopped loop :: later)) loop) ∧
      (after restarted).loops = [{ name := "receivers", started := true, healthy := true }] ∧
      (after restarted).isReady ∧ (after restarted).isLive := by
  refine ⟨fun forever => ?_, by decide, by decide, by decide⟩
  have started : Started [.register "receivers", .markStarted 0] 0 := ⟨[.register "receivers"], [], rfl, by decide⟩
  have down : Down (after restarted) 0 := forever _ 0 [.markStarted 0] started
  exact absurd down.notLive (by decide)

end ChatRelay.HealthRegistry
