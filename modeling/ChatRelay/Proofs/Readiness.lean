import Mathlib.Data.List.Basic
import ChatRelay.Proofs.History
import ChatRelay.Proofs.Ownership.Settling
import ChatRelay.Scenario.World

namespace ChatRelay.Readiness

open Ownership (Told Settled Follows ownedAfter)
open Scenario (World)

inductive Event where
  | registers (name : String)
  | starts (loop : Nat)
  | stops (loop : Nat)
  /-- A consumer is about to join a group, in a loop. -/
  | joins (loop : Nat) (consumer : String)
  /-- The ownership of a consumer is told something. -/
  | tells (watch : Nat) (told : Told)
deriving DecidableEq

def step (world : World) : Event → World
  | .registers name =>
    { world with relay := { world.relay with health := (world.relay.health.register name).2 } }
  | .starts loop => { world with relay := world.relay.markStarted loop }
  | .stops loop => { world with relay := world.relay.markStopped loop }
  | .joins loop consumer => (world.addWatch consumer loop).2
  | .tells watch (.changed change) => world.reassign watch change
  | .tells watch .pollCompleted => world.pollCompleted watch

/-- Loops and watches are there before something happens to them, and no two watches share a loop. -/
def Possible (world : World) : Event → Prop
  | .registers _ => True
  | .starts loop | .stops loop => loop < world.relay.health.loops.length
  | .joins loop _ => loop < world.relay.health.loops.length ∧ loop ∉ world.watches.map (·.loop)
  | .tells watch _ => watch < world.watches.length

instance (world : World) (event : Event) : Decidable (Possible world event) :=
  match event with
  | .registers _ => inferInstanceAs (Decidable True)
  | .starts _ | .stops _ => inferInstanceAs (Decidable (_ < _))
  | .joins _ _ => inferInstanceAs (Decidable (_ ∧ _))
  | .tells _ _ => inferInstanceAs (Decidable (_ < _))

/-- Each event is possible in the world that those before it made. -/
def Allowed (world : World) : List Event → Prop
  | [] => True
  | event :: later => Possible world event ∧ Allowed (step world event) later

instance decidableAllowed (world : World) : (events : List Event) → Decidable (Allowed world events)
  | [] => inferInstanceAs (Decidable True)
  | event :: later =>
    have := decidableAllowed (step world event) later
    inferInstanceAs (Decidable (_ ∧ _))

def after (network : Endpoint.Network) (events : List Event) : World := events.foldl step { network }

def registered (events : List Event) : List String :=
  events.filterMap fun event => match event with
    | .registers name => some name
    | _ => none

def joined (events : List Event) : List Nat :=
  events.filterMap fun event => match event with
    | .joins loop _ => some loop
    | _ => none

def told (events : List Event) (watch : Nat) : List Told :=
  events.filterMap fun event => match event with
    | .tells other told => if other = watch then some told else none
    | _ => none

/-- A loop has started, and has not stopped since. -/
def Runs (events : List Event) (loop : Nat) : Prop :=
  ∃ before since, events = before ++ .starts loop :: since ∧ .stops loop ∉ since

/-- A loop runs, and if there is a consumer in it, its partitions are settled. -/
def Ready (events : List Event) (loop : Nat) : Prop :=
  Runs events loop ∧ ∀ watch, (joined events)[watch]? = some loop → Settled (told events watch)

/-- All flags and all partitions owned are as the events say. -/
structure Exact (events : List Event) (world : World) : Prop where
  rebalancing : ∀ watch < world.watches.length,
    ((world.watchedHealth watch).rebalancing = false ↔ Settled (told events watch))
  owned : ∀ watch < world.watches.length, ∀ partition,
    partition ∈ world.owned watch ↔ partition ∈ ownedAfter (told events watch)
  ready : ∀ loop health, world.relay.health.loops[loop]? = some health →
    (health.isReady ↔ Ready events loop)
  /-- A loop that is ready has started, and has never stopped if it was never started again. -/
  unstopped : ∀ loop health, world.relay.health.loops[loop]? = some health → health.isReady →
    .starts loop ∈ events ∧
      ((∀ before since, events = before ++ .stops loop :: since → .starts loop ∉ since) →
        .stops loop ∉ events)
  names : world.relay.health.loops.map (·.name) = registered events
  registry : world.relay.health.isReady ↔
    registered events ≠ [] ∧ ∀ loop < (registered events).length, Ready events loop

variable {events : List Event} {event : Event} {world : World} {loop : Nat}

theorem registered_concat (events : List Event) (event : Event) :
    registered (events ++ [event]) = registered events ++ registered [event] := List.filterMap_append

theorem joined_concat (events : List Event) (event : Event) :
    joined (events ++ [event]) = joined events ++ joined [event] := List.filterMap_append

theorem told_concat (events : List Event) (event : Event) (watch : Nat) :
    told (events ++ [event]) watch = told events watch ++ told [event] watch := List.filterMap_append

theorem runs_concat :
    Runs (events ++ [event]) loop ↔ event = .starts loop ∨ Runs events loop ∧ event ≠ .stops loop := by
  have split := @exists_split_concat Event events event (.starts loop) (fun _ => True) (· ≠ .stops loop)
  simpa [Runs, List.forall_mem_ne', or_comm] using split

/-- What a change of one entry leaves as it was. -/
theorem map_set_of_eq {α β : Type} {entries : List α} {entry later : α} {place : Nat} {part : α → β}
    (there : entries[place]? = some entry) (same : part later = part entry) :
    (entries.set place later).map part = entries.map part := by
  obtain ⟨inRange, rfl⟩ := List.getElem?_eq_some_iff.mp there
  apply List.ext_getElem? fun other => ?_
  by_cases here : place = other
  · simp [← here, inRange, same]
  · simp [List.getElem?_set_ne here]

/-- The names of the loops are those registered, and a place for each says whether it runs. -/
structure Running (events : List Event) (names : List String) (running : List Bool) : Prop where
  named : names = registered events
  length : running.length = names.length
  runs : ∀ loop, running[loop]? = some true ↔ Runs events loop

section Running

variable {names : List String} {running : List Bool}

theorem Running.registers (sound : Running events names running) (name : String) :
    Running (events ++ [.registers name]) (names ++ [name]) (running ++ [false]) where
  named := by simpa [registered] using sound.named
  length := by simp [sound.length]
  runs loop := by
    rw [runs_concat, ← sound.runs]
    rcases Nat.lt_trichotomy loop running.length with less | rfl | more
    · simp [List.getElem?_append_left less]
    · simp
    · have beyond : (running ++ [false])[loop]? = none :=
        List.getElem?_eq_none (by simpa using Nat.succ_le_of_lt more)
      simp [beyond, List.getElem?_eq_none more.le]

theorem Running.turns (sound : Running events names running) (there : loop < running.length) (on : Bool) :
    Running (events ++ [if on then .starts loop else .stops loop]) names (running.set loop on) where
  named := by cases on <;> simpa [registered] using sound.named
  length := by simp [sound.length]
  runs other := by
    rw [runs_concat, ← sound.runs, List.getElem?_set]
    by_cases same : loop = other
    · cases on <;> simp [← same, there]
    · cases on <;> simp [same]

/-- A consumer that joins makes no loop start or stop, and nor does what its ownership is told. -/
theorem Running.keeps (sound : Running events names running) (unregistered : registered [event] = [])
    (unturned : ∀ loop, event ≠ .starts loop ∧ event ≠ .stops loop) :
    Running (events ++ [event]) names running where
  named := by rw [registered_concat, unregistered, List.append_nil, sound.named]
  length := sound.length
  runs other := by simp [runs_concat, sound.runs, unturned]

end Running

/-- Each watch follows what it was told, and the loops without a watch are not rebalancing. -/
structure Watching (events : List Event) (rebalancing : List Bool) (watches : List Scenario.Watch) : Prop where
  loops : watches.map (·.loop) = joined events
  alone : (watches.map (·.loop)).Nodup
  follows : ∀ place watch, watches[place]? = some watch → ∃ flag, rebalancing[watch.loop]? = some flag ∧
    Follows (told events place) watch.ownership flag
  unwatched : ∀ loop flag, rebalancing[loop]? = some flag → loop ∉ watches.map (·.loop) → flag = false
  untold : ∀ place, watches.length ≤ place → told events place = []

section Watching

variable {rebalancing : List Bool} {watches : List Scenario.Watch}

theorem Watching.registers (sound : Watching events rebalancing watches) (name : String) :
    Watching (events ++ [.registers name]) (rebalancing ++ [false]) watches where
  loops := by simpa [joined] using sound.loops
  alone := sound.alone
  follows place watch there := by
    obtain ⟨flag, flagged, follows⟩ := sound.follows place watch there
    have known := (List.getElem?_eq_some_iff.mp flagged).1
    exact ⟨flag, by rw [List.getElem?_append_left known, flagged], by simpa [told] using follows⟩
  unwatched loop flag flagged free := by
    rcases Nat.lt_or_ge loop rebalancing.length with known | new
    · rw [List.getElem?_append_left known] at flagged
      exact sound.unwatched loop flag flagged free
    · rw [List.getElem?_append_right new] at flagged
      simpa using List.mem_of_getElem? flagged
  untold place beyond := by simpa [told] using sound.untold place beyond

theorem Watching.keeps (sound : Watching events rebalancing watches) (unjoined : joined [event] = [])
    (nothing : ∀ place, told [event] place = []) : Watching (events ++ [event]) rebalancing watches where
  loops := by rw [joined_concat, unjoined, List.append_nil, sound.loops]
  alone := sound.alone
  follows place watch there := by
    rw [told_concat, nothing, List.append_nil]
    exact sound.follows place watch there
  unwatched := sound.unwatched
  untold place beyond := by rw [told_concat, nothing, List.append_nil, sound.untold place beyond]

theorem Watching.joins (sound : Watching events rebalancing watches) (there : loop < rebalancing.length)
    (free : loop ∉ watches.map (·.loop)) (consumer : String) (health : LoopHealth) :
    Watching (events ++ [.joins loop consumer]) (rebalancing.set loop true)
      (watches ++ [⟨loop, (Ownership.watch consumer health).1⟩]) where
  loops := by simpa [joined] using sound.loops
  alone := by
    rw [List.map_append]
    refine List.nodup_append.mpr ⟨sound.alone, by simp, ?_⟩
    intro other known last among same
    rw [same, List.mem_singleton.mp among] at known
    exact free known
  follows place watch known := by
    rcases Nat.lt_trichotomy place watches.length with earlier | rfl | beyond
    · rw [List.getElem?_append_left earlier] at known
      obtain ⟨flag, flagged, follows⟩ := sound.follows place watch known
      have other : loop ≠ watch.loop := fun same =>
        free (same ▸ List.mem_map_of_mem (List.mem_of_getElem? known))
      exact ⟨flag, by rw [List.getElem?_set_ne other, flagged], by simpa [told] using follows⟩
    · rw [List.getElem?_concat_length, Option.some_inj] at known
      subst known
      refine ⟨true, by simp [there], ?_⟩
      have nothing := sound.untold watches.length (Nat.le_refl _)
      have same : told (events ++ [.joins loop consumer]) watches.length = [] := by
        simpa [told] using nothing
      rw [same]
      exact Ownership.follows_watch consumer health
    · rw [List.getElem?_eq_none (by simpa using Nat.succ_le_of_lt beyond)] at known
      cases known
  unwatched other flag flagged notWatched := by
    simp only [List.map_append, List.map_singleton, List.mem_append, List.mem_singleton, not_or] at notWatched
    rw [List.getElem?_set_ne (Ne.symm notWatched.2)] at flagged
    exact sound.unwatched other flag flagged notWatched.1
  untold place beyond := by
    rw [List.length_append] at beyond
    simpa [told] using sound.untold place (Nat.le_of_add_right_le beyond)

theorem loops_set {place : Nat} {watch : Scenario.Watch} (there : watches[place]? = some watch)
    (ownership : Ownership) :
    (watches.set place { watch with ownership }).map (·.loop) = watches.map (·.loop) :=
  map_set_of_eq there rfl

/-- What an ownership is told changes the flag of its loop, and no other watch. -/
theorem Watching.tells (sound : Watching events rebalancing watches) {place : Nat} {watch : Scenario.Watch}
    (there : watches[place]? = some watch) {health : LoopHealth}
    (flagged : rebalancing[watch.loop]? = some health.rebalancing) (next : Told) :
    Watching (events ++ [.tells place next])
      (rebalancing.set watch.loop (watch.ownership.hear health next).2.rebalancing)
      (watches.set place { watch with ownership := (watch.ownership.hear health next).1 }) where
  loops := by
    rw [loops_set there]
    simpa [joined] using sound.loops
  alone := by
    rw [loops_set there]
    exact sound.alone
  follows other observer known := by
    by_cases same : place = other
    · subst same
      have inRange := (List.getElem?_eq_some_iff.mp there).1
      rw [List.getElem?_set_self inRange, Option.some_inj] at known
      subst known
      obtain ⟨flag, flagged', follows⟩ := sound.follows place watch there
      cases Option.some_inj.mp (flagged.symm.trans flagged')
      have known := (List.getElem?_eq_some_iff.mp flagged).1
      refine ⟨_, List.getElem?_set_self known, ?_⟩
      simpa [told] using follows.hear next
    · rw [List.getElem?_set_ne same] at known
      obtain ⟨flag, flagged, follows⟩ := sound.follows other observer known
      have apart : watch.loop ≠ observer.loop := by
        intro shared
        have inRange := (List.getElem?_eq_some_iff.mp there).1
        refine same ((List.getElem?_inj (by simpa using inRange) sound.alone).mp ?_)
        rw [List.getElem?_map, List.getElem?_map, there, known, Option.map_some, Option.map_some, shared]
      exact ⟨flag, by rw [List.getElem?_set_ne apart, flagged], by simpa [told, same] using follows⟩
  unwatched loop flag flagged free := by
    rw [loops_set there] at free
    have other : watch.loop ≠ loop := fun same =>
      free (same ▸ List.mem_map_of_mem (List.mem_of_getElem? there))
    rw [List.getElem?_set_ne other] at flagged
    exact sound.unwatched loop flag flagged free
  untold other beyond := by
    rw [List.length_set] at beyond
    have apart : place ≠ other := by
      have := (List.getElem?_eq_some_iff.mp there).1
      omega
    simpa [told, apart] using sound.untold other beyond

end Watching

structure Sound (events : List Event) (world : World) : Prop where
  running : Running events (world.relay.health.loops.map (·.name))
    (world.relay.health.loops.map fun health => health.started && health.healthy)
  watching : Watching events (world.relay.health.loops.map (·.rebalancing)) world.watches

section Sound

variable {health : LoopHealth} {loops : List LoopHealth}

theorem modify_eq_set (there : loops[loop]? = some health) (change : LoopHealth → LoopHealth) :
    loops.modify loop change = loops.set loop (change health) := by
  simp [List.modify_eq_set_getElem?, there]

theorem Sound.begin (network : Endpoint.Network) : Sound [] { network } where
  running := ⟨rfl, rfl, fun loop => by simp [Runs]⟩
  watching := ⟨rfl, List.nodup_nil, by simp, by simp, fun _ _ => rfl⟩

theorem Sound.registers (sound : Sound events world) (name : String) :
    Sound (events ++ [.registers name]) (step world (.registers name)) where
  running := by
    have registered := sound.running.registers name
    simpa [step, HealthRegistry.register] using registered
  watching := by
    have registered := sound.watching.registers name
    simpa [step, HealthRegistry.register] using registered

theorem Sound.starts (sound : Sound events world) (known : loop < world.relay.health.loops.length) :
    Sound (events ++ [.starts loop]) (step world (.starts loop)) := by
  have there := List.getElem?_eq_getElem known
  have after : (step world (.starts loop)).relay.health.loops =
      world.relay.health.loops.set loop world.relay.health.loops[loop].markStarted :=
    modify_eq_set there LoopHealth.markStarted
  constructor
  · rw [after, map_set_of_eq there, List.map_set]
    · exact sound.running.turns (by simpa using known) true
    · rfl
  · rw [after, map_set_of_eq there]
    · exact sound.watching.keeps rfl fun _ => rfl
    · rfl

theorem Sound.stops (sound : Sound events world) (known : loop < world.relay.health.loops.length) :
    Sound (events ++ [.stops loop]) (step world (.stops loop)) := by
  have there := List.getElem?_eq_getElem known
  have after : (step world (.stops loop)).relay.health.loops =
      world.relay.health.loops.set loop world.relay.health.loops[loop].markStopped :=
    modify_eq_set there LoopHealth.markStopped
  constructor
  · rw [after, map_set_of_eq there, List.map_set]
    · simpa [LoopHealth.markStopped] using sound.running.turns (by simpa using known) false
    · rfl
  · rw [after, map_set_of_eq there]
    · exact sound.watching.keeps rfl fun _ => rfl
    · rfl

theorem Sound.joins (sound : Sound events world) (known : loop < world.relay.health.loops.length)
    (free : loop ∉ world.watches.map (·.loop)) (consumer : String) :
    Sound (events ++ [.joins loop consumer]) (step world (.joins loop consumer)) := by
  have there := List.getElem?_eq_getElem known
  have after : (step world (.joins loop consumer)).relay.health.loops =
      world.relay.health.loops.set loop (world.relay.health.loops[loop].setRebalancing true) := by
    simp only [step, World.addWatch, Relay.withHealth_of_getElem? _ _ _ _ there]
    exact modify_eq_set there _
  have watches : (step world (.joins loop consumer)).watches =
      world.watches ++ [⟨loop, (Ownership.watch consumer world.relay.health.loops[loop]).1⟩] := by
    simp only [step, World.addWatch, Relay.withHealth_of_getElem? _ _ _ _ there]
  constructor
  · rw [after, map_set_of_eq there, map_set_of_eq there]
    · exact sound.running.keeps rfl (by simp)
    · rfl
    · rfl
  · rw [after, List.map_set, watches]
    exact sound.watching.joins (by simpa using known) free consumer _

theorem step_tells {place : Nat} {watch : Scenario.Watch} (there : world.watches[place]? = some watch)
    (known : world.relay.health.loops[watch.loop]? = some health) (next : Told) :
    (step world (.tells place next)).watches =
        world.watches.set place { watch with ownership := (watch.ownership.hear health next).1 } ∧
      (step world (.tells place next)).relay.health.loops =
        world.relay.health.loops.set watch.loop (watch.ownership.hear health next).2 := by
  cases next with
  | changed change =>
    cases heeded : watch.ownership.heeds change with
    | true =>
      simp only [step, World.reassign, there, Relay.reassign, heeded, if_true,
        Relay.withHealth_of_getElem? _ _ _ _ known]
      exact ⟨rfl, modify_eq_set known _⟩
    | false =>
      -- neither the ownership nor the health of its loop changes, so both are put back where they were
      simp only [step, World.reassign, there, Relay.reassign_of_unheeded heeded, Ownership.hear,
        Ownership.reassign, heeded, Bool.false_eq_true, if_false, true_and]
      obtain ⟨inRange, rfl⟩ := List.getElem?_eq_some_iff.mp known
      exact (List.set_getElem_self inRange).symm
  | pollCompleted =>
    simp only [step, World.pollCompleted, there, Relay.withHealth_of_getElem? _ _ _ _ known]
    exact ⟨rfl, modify_eq_set known _⟩

theorem Sound.tells (sound : Sound events world) {place : Nat} (known : place < world.watches.length)
    (next : Told) : Sound (events ++ [.tells place next]) (step world (.tells place next)) := by
  have there := List.getElem?_eq_getElem known
  obtain ⟨flag, flagged, _⟩ := sound.watching.follows place _ there
  rw [List.getElem?_map, Option.map_eq_some_iff] at flagged
  obtain ⟨health, loop, rfl⟩ := flagged
  obtain ⟨watches, loops⟩ := step_tells there loop next
  have kept := Ownership.hear_snd world.watches[place].ownership health next
  constructor
  · rw [loops, map_set_of_eq loop, map_set_of_eq loop]
    · exact sound.running.keeps rfl (by simp)
    · rw [kept]
      rfl
    · rw [kept]
      rfl
  · rw [loops, watches, List.map_set]
    refine sound.watching.tells there ?_ next
    rw [List.getElem?_map, loop, Option.map_some]

theorem Sound.step (sound : Sound events world) (possible : Possible world event) :
    Sound (events ++ [event]) (step world event) := by
  cases event with
  | registers name => exact sound.registers name
  | starts loop => exact sound.starts possible
  | stops loop => exact sound.stops possible
  | joins loop consumer => exact sound.joins possible.1 possible.2 consumer
  | tells watch told => exact sound.tells possible told

theorem Sound.run (sound : Sound events world) {later : List Event} (allowed : Allowed world later) :
    Sound (events ++ later) (later.foldl Readiness.step world) := by
  induction later generalizing events world with
  | nil => simpa using sound
  | cons event later ih =>
    have rest := ih (sound.step allowed.1) allowed.2
    rwa [List.append_assoc, List.singleton_append] at rest

theorem sound_after {network : Endpoint.Network} (allowed : Allowed { network } events) :
    Sound events (after network events) :=
  (Sound.begin network).run allowed

/-- A watch and its loop follow what the watch was told. -/
theorem Sound.follows (sound : Sound events world) {watch : Nat} (known : watch < world.watches.length) :
    Follows (told events watch) world.watches[watch].ownership (world.watchedHealth watch).rebalancing := by
  have there := List.getElem?_eq_getElem known
  obtain ⟨flag, flagged, follows⟩ := sound.watching.follows watch _ there
  rw [List.getElem?_map, Option.map_eq_some_iff] at flagged
  obtain ⟨health, loop, rfl⟩ := flagged
  simpa [World.watchedHealth, there, loop] using follows

theorem Sound.ready_iff (sound : Sound events world) (there : world.relay.health.loops[loop]? = some health) :
    health.isReady ↔ Ready events loop := by
  have runs : (health.started && health.healthy) = true ↔ Runs events loop := by
    rw [← sound.running.runs, List.getElem?_map, there, Option.map_some, Option.some_inj]
  have settled : health.rebalancing = false ↔
      ∀ watch, (joined events)[watch]? = some loop → Settled (told events watch) := by
    have follows (watch : Nat) (joins : (joined events)[watch]? = some loop) :
        health.rebalancing = false ↔ Settled (told events watch) := by
      rw [← sound.watching.loops, List.getElem?_map, Option.map_eq_some_iff] at joins
      obtain ⟨_, found, rfl⟩ := joins
      obtain ⟨known, rfl⟩ := List.getElem?_eq_some_iff.mp found
      have same : world.watchedHealth watch = health := by simp [World.watchedHealth, known, there]
      rw [← same]
      exact (sound.follows known).rebalancing_iff
    constructor
    · intro calm watch joins
      exact (follows watch joins).mp calm
    · intro settled
      by_cases watched : loop ∈ joined events
      · obtain ⟨watch, joins⟩ := List.mem_iff_getElem?.mp watched
        exact (follows watch joins).mpr (settled watch joins)
      · rw [← sound.watching.loops] at watched
        exact sound.watching.unwatched loop _ (by rw [List.getElem?_map, there, Option.map_some]) watched
  rw [Ready, ← runs, ← settled, LoopHealth.isReady, Bool.and_eq_true, Bool.not_eq_true']

end Sound

/-- Whatever happens to the loops of an instance, it is ready exactly if the events say so. -/
theorem readiness_exact {network : Endpoint.Network} (allowed : Allowed { network } events) :
    Exact events (after network events) where
  rebalancing watch known := ((sound_after allowed).follows known).rebalancing_iff
  owned watch known partition := by
    rw [← ((sound_after allowed).follows known).mem_owned]
    simp [World.owned, known]
  ready loop health there := (sound_after allowed).ready_iff there
  unstopped loop health there ready := by
    obtain ⟨⟨before, since, rfl, running⟩, _⟩ := ((sound_after allowed).ready_iff there).mp ready
    refine ⟨by simp, fun never stopped => ?_⟩
    rcases List.mem_append.mp stopped with earlier | later
    · obtain ⟨start, between, rfl⟩ := List.append_of_mem earlier
      exact never start (between ++ .starts loop :: since) (by simp) (by simp)
    · rw [List.mem_cons] at later
      rcases later with started | later
      · cases started
      · exact running later
  names := (sound_after allowed).running.named
  registry := by
    have sound := sound_after allowed
    have named := sound.running.named
    have ready : (∀ health ∈ (after network events).relay.health.loops, health.isReady) ↔
        ∀ loop < (registered events).length, Ready events loop := by
      rw [List.forall_mem_iff_forall_getElem, ← named, List.length_map]
      exact forall₂_congr fun loop known => sound.ready_iff (List.getElem?_eq_getElem known)
    rw [← ready, ← named, HealthRegistry.isReady, Bool.and_eq_true, List.all_eq_true]
    simp

/-- A consumer polls before it has joined, joins without partitions, has its assignment changed twice in a poll,
and completes one more poll. Its loop has stopped and was started again. -/
def joining : List Event :=
  [.registers "chat-state", .starts 0, .stops 0, .joins 0 "reader", .tells 0 .pollCompleted,
   .tells 0 (.changed {}), .tells 0 (.changed { assigned := [⟨"chats", 0⟩, ⟨"chats", 1⟩] }),
   .tells 0 (.changed { revoked := [⟨"chats", 1⟩] }), .tells 0 .pollCompleted, .starts 0,
   .tells 0 (.changed {}), .tells 0 .pollCompleted]

theorem joining_exact :
    Allowed { network := .reachable } joining ∧ Exact joining (after .reachable joining) ∧
      (after .reachable joining).relay.health.isReady :=
  have allowed : Allowed { network := .reachable } joining := by decide
  ⟨allowed, readiness_exact allowed, by decide +kernel⟩

end ChatRelay.Readiness
