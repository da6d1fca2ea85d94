import ChatRelay.ConsumeLoop

/-! The consume loop, one event at a time. What a loop does next depends on its phase only, whoever answers its
calls, so that loops that share a broker may take turns after each event. -/
namespace ChatRelay.ConsumeLoop

inductive Phase where
  | polling
  /-- The records of `rest` are still to be processed; with none left the batch is to be committed. -/
  | handling (batch rest : List Record)
  /-- A retriable failure was met. -/
  | failed
  | ended (outcome : Except Failure Unit)

inductive Event where
  | cancelled
  | polled (answer : Except Failure (List Record))
  | skipped
  | processed (answer : Except Failure Unit)
  | committed (answer : Except Failure Unit)
  | rewound (answer : Except Failure Unit)

namespace Phase

/-- From a call that the broker answered the loop goes on polling, or it ends. -/
def proceed : Except Failure Unit → Phase
  | .ok () => .polling
  | .error failure => .ended (.error failure)

def giveUp (failure : Failure) : Phase :=
  if failure.isRetriable then .failed else .ended (.error failure)

/-- The phase after an event, for the events that a phase allows. -/
def after : Phase → Event → Option Phase
  | .polling, .cancelled => some (.ended (.ok ()))
  | .polling, .polled (.error failure) => some (.ended (.error failure))
  | .polling, .polled (.ok []) => some .polling
  | .polling, .polled (.ok batch) => some (.handling batch batch)
  | .handling batch (record :: rest), event =>
    match record.body, event with
    | .error _, .skipped => some (.handling batch rest)
    | .ok _, .processed (.ok ()) => some (.handling batch rest)
    | .ok _, .processed (.error failure) => some (giveUp failure)
    | _, _ => none
  | .handling _ [], .committed answer => some (proceed answer)
  | .failed, .rewound answer => some (proceed answer)
  | _, _ => none

def call? : Phase → Event → Option Call
  | _, .polled answer => some (.poll answer)
  | .handling _ (record :: _), .processed answer =>
    record.body.toOption.map fun envelope => .process envelope answer
  | .handling batch _, .committed answer => some (.commit batch answer)
  | _, .rewound answer => some (.rewind answer)
  | _, _ => none

/-- An event takes a loop from one phase to another. -/
inductive Leads : Phase → Event → Phase → Prop where
  | cancelled : Leads .polling .cancelled (.ended (.ok ()))
  | unanswered {failure : Failure} : Leads .polling (.polled (.error failure)) (.ended (.error failure))
  | idle : Leads .polling (.polled (.ok [])) .polling
  | polled (nonempty : batch ≠ []) : Leads .polling (.polled (.ok batch)) (.handling batch batch)
  | skipped (body : record.body = .error fault) :
      Leads (.handling batch (record :: rest)) .skipped (.handling batch rest)
  | processed (body : record.body = .ok envelope) :
      Leads (.handling batch (record :: rest)) (.processed (.ok ())) (.handling batch rest)
  | refused {failure : Failure} (body : record.body = .ok envelope) :
      Leads (.handling batch (record :: rest)) (.processed (.error failure)) (.giveUp failure)
  | committed : Leads (.handling batch []) (.committed answer) (.proceed answer)
  | rewound : Leads .failed (.rewound answer) (.proceed answer)

theorem after_eq_some_iff {phase next : Phase} {event : Event} :
    phase.after event = some next ↔ phase.Leads event next := by
  constructor
  · intro allowed
    cases phase with
    | polling =>
      cases event with
      | cancelled => cases allowed; exact .cancelled
      | polled answer =>
        cases answer with
        | error failure => cases allowed; exact .unanswered
        | ok batch =>
          cases batch with
          | nil => cases allowed; exact .idle
          | cons record rest => cases allowed; exact .polled (List.cons_ne_nil _ _)
      | skipped | processed | committed | rewound => cases allowed
    | handling batch rest =>
      cases rest with
      | nil =>
        cases event with
        | committed answer => cases allowed; exact .committed
        | cancelled | polled | skipped | processed | rewound => cases allowed
      | cons record rest =>
        cases body : record.body with
        | error fault =>
          cases event with
          | skipped =>
            simp only [after, body, Option.some.injEq] at allowed
            exact allowed ▸ .skipped body
          | cancelled | polled | processed | committed | rewound => simp [after, body] at allowed
        | ok envelope =>
          cases event with
          | processed answer =>
            cases answer with
            | ok =>
              simp only [after, body, Option.some.injEq] at allowed
              exact allowed ▸ .processed body
            | error failure =>
              simp only [after, body, Option.some.injEq] at allowed
              exact allowed ▸ .refused body
          | cancelled | polled | skipped | committed | rewound => simp [after, body] at allowed
    | failed =>
      cases event with
      | rewound answer => cases allowed; exact .rewound
      | cancelled | polled | skipped | processed | committed => cases allowed
    | ended => cases allowed
  · intro leads
    cases leads with
    | @polled batch nonempty =>
      cases batch with
      | nil => contradiction
      | cons => rfl
    | skipped body | processed body | refused body => simp [after, body]
    | cancelled | unanswered | idle | committed | rewound => rfl

end Phase

/-- The calls made from one phase to another. -/
inductive Trace : Phase → List Call → Phase → Prop where
  | done : Trace phase [] phase
  | step (allowed : phase.after event = some next) (rest : Trace next calls last) :
      Trace phase ((phase.call? event).toList ++ calls) last

namespace Trace

theorem append (first : Trace start calls middle) (second : Trace middle more last) :
    Trace start (calls ++ more) last := by
  induction first with
  | done => exact second
  | step allowed _ ih =>
    rw [List.append_assoc]
    exact .step allowed (ih second)

theorem single (allowed : phase.after event = some next) :
    Trace phase (phase.call? event).toList next := by
  simpa using Trace.step allowed .done

end Trace

section Runs

variable {σ : Type} (host : Host σ) (batch : List Record) (state : σ)

theorem processBatch_trace (rest : List Record) :
    Trace (.handling batch rest) (processBatch host rest state).calls
      (match (processBatch host rest state).outcome with
        | .ok _ => .handling batch []
        | .error failure => .giveUp failure) := by
  induction rest generalizing state with
  | nil => exact .done
  | cons record rest ih =>
    unfold processBatch
    cases body : record.body with
    | error fault =>
      have skips : Phase.after (.handling batch (record :: rest)) .skipped =
          some (.handling batch rest) := by simp [Phase.after, body]
      exact (Trace.single skips).append (ih _)
    | ok envelope =>
      dsimp only
      split
      · rename_i failure _ _
        have fails : Phase.after (.handling batch (record :: rest)) (.processed (.error failure)) =
            some (.giveUp failure) := by simp [Phase.after, body]
        simpa [Phase.call?, body, Except.toOption] using Trace.single fails
      · rename_i state _
        have goes : Phase.after (.handling batch (record :: rest)) (.processed (.ok ())) =
            some (.handling batch rest) := by simp [Phase.after, body]
        have later := (Trace.single goes).append (ih state)
        cases outcome : (processBatch host rest state).outcome <;>
          simpa [Phase.call?, body, outcome, Except.toOption, Except.map] using later

theorem finish_trace (processed : Nat) :
    Trace (.handling batch []) (finish host batch processed state).calls
      (.proceed (finish host batch processed state).outcome) := by
  unfold finish
  split
  · rename_i failure _ _
    have fails : Phase.after (.handling batch []) (.committed (.error failure)) =
        some (.ended (.error failure)) := rfl
    exact Trace.single fails
  · have commits : Phase.after (.handling batch []) (.committed (.ok ())) = some .polling := rfl
    exact Trace.single commits

theorem retry_trace :
    Trace .failed (retry host state).calls (.proceed (retry host state).outcome) := by
  have rewinds : Phase.after .failed (.rewound (retry host state).outcome) =
      some (.proceed (retry host state).outcome) := rfl
  exact Trace.single rewinds

theorem settle_trace :
    Trace (.handling batch batch) (settle host batch state).calls
      (.proceed (settle host batch state).outcome) := by
  have processed := processBatch_trace host batch state batch
  unfold settle
  dsimp only
  cases outcome : (processBatch host batch state).outcome with
  | ok count =>
    rw [outcome] at processed
    exact processed.append (finish_trace host batch _ count)
  | error failure =>
    rw [outcome] at processed
    dsimp only [Phase.giveUp] at processed ⊢
    split
    · rename_i retriable
      rw [if_pos retriable] at processed
      exact processed.append (retry_trace host _)
    · rename_i final
      rw [if_neg final] at processed
      simpa [Phase.proceed] using processed

theorem turn_trace :
    Trace .polling (turn host state).calls (.proceed (turn host state).outcome) := by
  unfold turn
  split
  · rename_i failure _ _
    have fails : Phase.after .polling (.polled (.error failure)) = some (.ended (.error failure)) := rfl
    exact Trace.single fails
  · rename_i records state _
    cases records with
    | nil =>
      have idles : Phase.after .polling (.polled (.ok [])) = some .polling := rfl
      exact Trace.single idles
    | cons record rest =>
      have begins : Phase.after .polling (.polled (.ok (record :: rest))) =
          some (.handling (record :: rest) (record :: rest)) := rfl
      exact (Trace.single begins).append (settle_trace host (record :: rest) _)

/-- Whatever its host, a loop goes from phase to phase as they allow, and returns when it has come to its end
or is about to poll again. -/
theorem run_trace (turns : Nat) :
    ∃ last, Trace .polling (run host turns state).calls last ∧
      (last = .ended (run host turns state).outcome ∨
        last = .polling ∧ (run host turns state).outcome = .ok ()) := by
  induction turns generalizing state with
  | zero => exact ⟨.polling, .done, .inr ⟨rfl, rfl⟩⟩
  | succ turns ih =>
    unfold run
    split
    · have ends : Phase.after .polling .cancelled = some (.ended (.ok ())) := rfl
      exact ⟨_, Trace.single ends, .inl rfl⟩
    · have now := turn_trace host state
      dsimp only
      split
      · rename_i failure outcome
        rw [outcome] at now
        exact ⟨_, now, .inl (by rw [outcome]; rfl)⟩
      · rename_i outcome
        rw [outcome] at now
        obtain ⟨last, later, reached⟩ := ih (turn host state).state
        exact ⟨last, now.append later, reached⟩

end Runs
end ChatRelay.ConsumeLoop
