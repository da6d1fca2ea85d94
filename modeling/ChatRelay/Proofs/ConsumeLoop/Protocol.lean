import ChatRelay.Proofs.ConsumeLoop.Phase

namespace ChatRelay

namespace Call

def polled? : Call → Option (Except Failure (List Record))
  | .poll answer => some answer
  | .process .. | .commit .. | .rewind .. => none

/-- The failure that ends a loop at this call. A processor's retriable failure does not. -/
def failure? : Call → Option Failure
  | .poll (.error failure) | .commit _ (.error failure) | .rewind (.error failure) => some failure
  | .process _ (.error failure) => if failure.isRetriable then none else some failure
  | .poll (.ok _) | .process _ (.ok _) | .commit _ (.ok _) | .rewind (.ok _) => none

end Call

namespace ConsumeLoop

/-- The calls that process records that all go through. -/
def accepted (records : List Record) : List Call :=
  records.filterMap fun record =>
    record.body.toOption.map fun envelope => .process envelope (.ok ())

@[simp] theorem accepted_append (records more : List Record) :
    accepted (records ++ more) = accepted records ++ accepted more :=
  List.filterMap_append

theorem accepted_skipped {record : Record} (body : record.body = .error fault) : accepted [record] = [] := by
  simp [accepted, body, Except.toOption]

theorem accepted_processed {record : Record} (body : record.body = .ok envelope) :
    accepted [record] = [.process envelope (.ok ())] := by
  simp [accepted, body, Except.toOption]

/-- The calls of a batch up to the retriable failure that stopped it. -/
def Stopped (batch : List Record) (calls : List Call) : Prop :=
  ∃ done record rest envelope failure, batch = done ++ record :: rest ∧ record.body = .ok envelope ∧
    failure.isRetriable ∧ calls = .poll (.ok batch) :: accepted done ++ [.process envelope (.error failure)]

/-- How the calls on a batch that was polled may end before the next poll. -/
def Closes (batch : List Record) (calls : List Call) : Prop :=
  ∃ earlier, calls = earlier ++ [.commit batch (.ok ())] ∨ calls = earlier ++ [.rewind (.ok ())]

/-- The discipline of a loop: its calls, and what it returns after them. -/
structure Protocol (calls : List Call) (outcome : Except Failure Unit) : Prop where
  /-- A commit is of the batch polled last, all of whose envelopes went through, each once and in order. -/
  commit : ∀ before records answer after, calls = before ++ .commit records answer :: after →
    ∃ earlier, before = earlier ++ .poll (.ok records) :: accepted records
  /-- A rewind is from a batch that met a retriable failure, the first of its envelopes not to go through. -/
  rewind : ∀ before answer after, calls = before ++ .rewind answer :: after →
    ∃ earlier batch stopped, Stopped batch stopped ∧ before = earlier ++ stopped
  /-- Nothing but a poll follows a rewind, so that its batch is not committed in that turn. -/
  rewound : ∀ before answer call after, calls = before ++ .rewind answer :: call :: after →
    call.polled?.isSome
  /-- The loop polls again only when it has committed the batch or gone back. -/
  poll : ∀ before batch between answer after,
    calls = before ++ .poll (.ok batch) :: between ++ .poll answer :: after → batch ≠ [] →
    (∀ call ∈ between, call.polled? = none) → Closes batch between
  /-- The loop fails exactly by a call that failed. -/
  fails : ∀ failure, outcome = .error failure ↔ ∃ call ∈ calls, call.failure? = some failure
  /-- A failing call is the last one. -/
  last : ∀ before call after, calls = before ++ call :: after → call.failure?.isSome → after = []

section Phases

variable {phase next start last : Phase} {event : Event} {calls earlier before after : List Call}
  {call : Call} {failure : Failure}

namespace Phase

def failure? : Phase → Option Failure
  | .ended (.error failure) => some failure
  | .polling | .handling .. | .failed | .ended (.ok ()) => none

theorem failure?_eq_some_iff : phase.failure? = some failure ↔ phase = .ended (.error failure) := by
  cases phase with
  | ended outcome => cases outcome <;> simp [failure?]
  | polling | handling | failed => simp [failure?]

/-- A call fails exactly when the loop ends by it. -/
theorem Leads.failure? (leads : phase.Leads event next) :
    (phase.call? event).bind Call.failure? = next.failure? := by
  cases leads with
  | cancelled | unanswered | idle | polled => rfl
  | skipped body => simp [call?, Phase.failure?]
  | processed body => simp [call?, body, Except.toOption, Call.failure?, Phase.failure?]
  | @refused _ _ _ _ failure body =>
    cases retriable : failure.isRetriable <;>
      simp [call?, body, Except.toOption, Call.failure?, giveUp, retriable, Phase.failure?]
  | @committed _ answer | @rewound answer => cases answer <;> rfl

def Makes (phase next : Phase) : Call → Prop
  | .poll answer =>
    phase = .polling ∧ ∀ batch, answer = .ok batch → batch ≠ [] → next = .handling batch batch
  | .process .. => True
  | .commit records _ => phase = .handling records []
  | .rewind answer => phase = .failed ∧ next = proceed answer

theorem Leads.makes (leads : phase.Leads event next) (called : phase.call? event = some call) :
    phase.Makes next call := by
  cases leads with
  | cancelled => cases called
  | unanswered | idle | polled => cases called; simp [Makes]
  | skipped body => cases called
  | processed body | refused body =>
    simp only [call?, body, Except.toOption, Option.map_some, Option.some.injEq] at called
    subst called
    trivial
  | committed | rewound => cases called; simp [Makes]

/-- What the calls made so far must have been, for a loop that has come to a phase. -/
def Stands (calls : List Call) : Phase → Prop
  | .handling batch rest =>
    ∃ earlier done, batch = done ++ rest ∧ calls = earlier ++ .poll (.ok batch) :: accepted done
  | .failed => ∃ earlier batch stopped, Stopped batch stopped ∧ calls = earlier ++ stopped
  | .polling | .ended _ => True

theorem Stands.step (stands : phase.Stands calls) (leads : phase.Leads event next) :
    next.Stands (calls ++ (phase.call? event).toList) := by
  cases leads with
  | cancelled | unanswered | idle => trivial
  | polled => exact ⟨calls, [], rfl, rfl⟩
  | @skipped _ record _ _ body =>
    obtain ⟨earlier, done, rfl, rfl⟩ := stands
    refine ⟨earlier, done ++ [record], by simp, ?_⟩
    rw [accepted_append, accepted_skipped body]
    simp [call?]
  | @processed _ record _ _ body =>
    obtain ⟨earlier, done, rfl, rfl⟩ := stands
    refine ⟨earlier, done ++ [record], by simp, ?_⟩
    rw [accepted_append, accepted_processed body]
    simp [call?, body, Except.toOption]
  | @refused _ record rest envelope failure body =>
    obtain ⟨earlier, done, rfl, rfl⟩ := stands
    unfold giveUp
    split
    · rename_i retriable
      exact ⟨earlier, _, _, ⟨done, record, rest, envelope, failure, rfl, body, retriable, rfl⟩,
        by simp [call?, body, Except.toOption]⟩
    · trivial
  | @committed _ answer | @rewound answer => cases answer <;> trivial

/-- Since its last poll a loop has been on the batch of that poll, or it has closed it. -/
def Since (batch : List Record) (calls : List Call) : Phase → Prop
  | .polling => Closes batch calls
  | .handling current _ => current = batch
  | .failed | .ended _ => True

theorem Since.step (since : phase.Since batch calls) (leads : phase.Leads event next)
    (unpolled : ∀ call, phase.call? event = some call → call.polled? = none) :
    next.Since batch (calls ++ (phase.call? event).toList) := by
  cases leads with
  | cancelled => trivial
  | unanswered | idle | polled => simpa [Call.polled?] using unpolled _ rfl
  | skipped | processed => exact since
  | refused => unfold giveUp; split <;> trivial
  | @committed _ answer =>
    obtain rfl : _ = batch := since
    cases answer with
    | ok => exact ⟨calls, .inl rfl⟩
    | error => trivial
  | @rewound answer =>
    cases answer with
    | ok => exact ⟨calls, .inr rfl⟩
    | error => trivial

end Phase

namespace Trace

/-- A trace that makes a call is in some phase at that call, and goes on from the event that answers it. -/
theorem at_call (trace : Trace start calls last) (split : calls = before ++ call :: after) :
    ∃ phase event next, Trace start before phase ∧ phase.Leads event next ∧
      phase.call? event = some call ∧ Trace next after last := by
  induction trace generalizing before with
  | done => simp at split
  | @step next calls last start event allowed rest ih =>
    have first := Trace.single allowed
    cases made : start.call? event with
    | none =>
      rw [made, Option.toList_none, List.nil_append] at split
      obtain ⟨phase, later, reached, earlier, leads, answered, remaining⟩ := ih split
      rw [made] at first
      exact ⟨phase, later, reached, first.append earlier, leads, answered, remaining⟩
    | some head =>
      rw [made] at first
      rw [made, Option.toList_some, List.singleton_append] at split
      cases before with
      | nil =>
        obtain ⟨rfl, rfl⟩ := List.cons.inj split
        exact ⟨start, event, next, .done, Phase.after_eq_some_iff.mp allowed, made, rest⟩
      | cons other before =>
        obtain ⟨rfl, tail⟩ := List.cons.inj split
        obtain ⟨phase, later, reached, earlier, leads, answered, remaining⟩ := ih tail
        exact ⟨phase, later, reached, first.append earlier, leads, answered, remaining⟩

theorem stands (trace : Trace start calls last) (begins : start.Stands earlier) :
    last.Stands (earlier ++ calls) := by
  induction trace generalizing earlier with
  | done => simpa using begins
  | step allowed _ ih =>
    rw [← List.append_assoc]
    exact ih (begins.step (Phase.after_eq_some_iff.mp allowed))

theorem since (trace : Trace start calls last) (begins : start.Since batch earlier)
    (unpolled : ∀ call ∈ calls, call.polled? = none) : last.Since batch (earlier ++ calls) := by
  induction trace generalizing earlier with
  | done => simpa using begins
  | step allowed _ ih =>
    rw [← List.append_assoc]
    refine ih (begins.step (Phase.after_eq_some_iff.mp allowed) ?_) ?_
    · intro call called
      exact unpolled call (by simp [called])
    · intro call member
      exact unpolled call (List.mem_append_right _ member)

theorem of_ended (trace : Trace (.ended outcome) calls last) : calls = [] ∧ last = .ended outcome := by
  cases trace with
  | done => exact ⟨rfl, rfl⟩
  | step allowed _ => cases allowed

theorem polled_head (trace : Trace .polling (call :: after) last) : call.polled?.isSome := by
  generalize made : call :: after = calls at trace
  cases trace with
  | done => cases made
  | step allowed rest =>
    cases Phase.after_eq_some_iff.mp allowed with
    | cancelled =>
      obtain ⟨rfl, -⟩ := rest.of_ended
      cases made
    | unanswered | idle | polled =>
      obtain ⟨rfl, -⟩ := List.cons.inj made
      rfl

/-- A loop has failed exactly by a call of its trace. -/
theorem failure?_iff (trace : Trace start calls last) (running : start.failure? = none) :
    last.failure? = some failure ↔ ∃ call ∈ calls, call.failure? = some failure := by
  induction trace with
  | done => simp [running]
  | @step next calls last start event allowed rest ih =>
    have made := (Phase.after_eq_some_iff.mp allowed).failure?
    cases failed : next.failure? with
    | none =>
      rw [ih failed]
      cases called : start.call? event with
      | none => simp
      | some call =>
        rw [called, failed, Option.bind_some] at made
        simp [made]
    | some fault =>
      obtain ⟨call, called, fails⟩ := Option.bind_eq_some_iff.mp (made.trans failed)
      obtain rfl := Phase.failure?_eq_some_iff.mp failed
      obtain ⟨rfl, rfl⟩ := rest.of_ended
      simp [called, fails, failed]

end Trace
end Phases

/-- Whatever its consumer and its processor answer, and whenever it is cancelled, a loop keeps to the
protocol. That it goes on making calls while it is not cancelled is `run_completes`. -/
theorem run_protocol {σ : Type} (host : Host σ) (turns : Nat) (state : σ) :
    Protocol (run host turns state).calls (run host turns state).outcome := by
  obtain ⟨last, trace, reached⟩ := run_trace host state turns
  have begins : Phase.Stands [] .polling := trivial
  constructor
  case commit =>
    intro before records answer after split
    obtain ⟨phase, event, next, first, leads, called, -⟩ := trace.at_call split
    obtain rfl : phase = .handling records [] := leads.makes called
    obtain ⟨earlier, done, rfl, calls⟩ := first.stands begins
    exact ⟨earlier, by simpa using calls⟩
  case rewind =>
    intro before answer after split
    obtain ⟨phase, event, next, first, leads, called, -⟩ := trace.at_call split
    obtain ⟨rfl, -⟩ := leads.makes called
    exact first.stands begins
  case rewound =>
    intro before answer call after split
    obtain ⟨phase, event, next, -, leads, called, later⟩ := trace.at_call split
    obtain ⟨-, rfl⟩ := leads.makes called
    cases answer with
    | ok => exact later.polled_head
    | error failure => exact absurd later.of_ended.1 (List.cons_ne_nil _ _)
  case poll =>
    -- Forward from the first of the two polls, as its batch need not be told apart from an equal one before.
    intro before batch between answer after split nonempty unpolled
    rw [List.append_assoc, List.cons_append] at split
    obtain ⟨phase, event, next, -, leads, called, later⟩ := trace.at_call split
    obtain ⟨-, leadsTo⟩ := leads.makes called
    obtain rfl := leadsTo batch rfl nonempty
    obtain ⟨phase, event, next, meanwhile, leads, called, -⟩ := later.at_call rfl
    obtain ⟨rfl, -⟩ := leads.makes called
    have opened : Phase.Since batch [] (.handling batch batch) := rfl
    exact meanwhile.since opened unpolled
  case fails =>
    intro failure
    rw [← trace.failure?_iff rfl, Phase.failure?_eq_some_iff]
    rcases reached with rfl | ⟨rfl, returned⟩
    · simp
    · simp [returned]
  case last =>
    intro before call after split failing
    obtain ⟨phase, event, next, -, leads, called, later⟩ := trace.at_call split
    obtain ⟨failure, fails⟩ := Option.isSome_iff_exists.mp failing
    have ended : next.failure? = some failure := by simpa [called, fails] using leads.failure?.symm
    obtain rfl := Phase.failure?_eq_some_iff.mp ended
    exact later.of_ended.1

end ConsumeLoop
end ChatRelay
