import ChatRelay.Proofs.ConsumeLoop.Protocol

namespace ChatRelay.ConsumeLoop

variable {σ : Type} {host : Host σ} {state : σ} {batch : List Record} {failure : Failure}

theorem processBatch_unpolled (host : Host σ) (records : List Record) (state : σ) :
    ∀ call ∈ (processBatch host records state).calls, call.polled? = none := by
  induction records generalizing state with
  | nil => simp [processBatch]
  | cons record rest ih =>
    unfold processBatch
    split
    · exact ih _
    · split
      · simp [Call.polled?]
      · exact List.forall_mem_cons.mpr ⟨rfl, ih _⟩

theorem settle_unpolled (host : Host σ) (records : List Record) (state : σ) :
    ∀ call ∈ (settle host records state).calls, call.polled? = none := by
  refine List.forall_mem_append.mpr ⟨processBatch_unpolled host records state, ?_⟩
  split
  · unfold finish
    split <;> simp [Call.polled?]
  · split <;> simp [retry, Call.polled?]

theorem settle_closes (goes : (settle host batch state).outcome = .ok ()) :
    Closes batch (settle host batch state).calls := by
  have opened : Phase.Since batch [] (.handling batch batch) := rfl
  have closed := (settle_trace host batch state).since opened (settle_unpolled host batch state)
  rwa [goes] at closed

/-- The calls of a turn that went through: it settled what it polled. -/
def Completed (calls : List Call) : Prop :=
  ∃ batch later, calls = .poll (.ok batch) :: later ∧ (∀ call ∈ later, call.polled? = none) ∧
    (batch = [] → later = []) ∧ (batch ≠ [] → Closes batch later)

/-- Every turn polls, once and before all else. -/
theorem turn_calls (host : Host σ) (state : σ) :
    ∃ later, (turn host state).calls = .poll (host.poll state).1 :: later ∧
      ∀ call ∈ later, call.polled? = none := by
  unfold turn
  split
  · rename_i answer
    exact ⟨[], by rw [answer], by simp⟩
  · rename_i records state answer
    rw [answer]
    cases records with
    | nil => exact ⟨[], rfl, by simp⟩
    | cons record rest => exact ⟨_, rfl, settle_unpolled host (record :: rest) _⟩

theorem turn_completed (goes : (turn host state).outcome = .ok ()) : Completed (turn host state).calls := by
  unfold turn at goes ⊢
  split
  · rename_i answer
    simp [answer] at goes
  · rename_i records state answer
    rw [answer] at goes
    cases records with
    | nil => exact ⟨[], [], rfl, by simp, fun _ => rfl, by simp⟩
    | cons record rest =>
      exact ⟨record :: rest, _, rfl, settle_unpolled host (record :: rest) _, by simp,
        fun _ => settle_closes goes⟩

theorem run_of_cancelled (cancelled : host.cancelled state = true) (turns : Nat) :
    run host turns state = ⟨[], .ok (), state⟩ := by
  cases turns with
  | zero => rfl
  | succ turns => rw [run, if_pos cancelled]

theorem run_of_failed (live : host.cancelled state = false)
    (fails : (turn host state).outcome = .error failure) (turns : Nat) :
    run host (turns + 1) state = turn host state := by
  rw [run, if_neg (by simp [live])]
  dsimp only
  rw [fails]

theorem run_succ (host : Host σ) (live : host.cancelled state = false)
    (goes : (turn host state).outcome = .ok ()) (turns : Nat) :
    run host (turns + 1) state =
      let later := run host turns (turn host state).state
      { later with calls := (turn host state).calls ++ later.calls } := by
  rw [run, if_neg (by simp [live])]
  dsimp only
  rw [goes]

theorem run_polls (live : host.cancelled state = false) (turns : Nat) :
    ∃ later, (run host (turns + 1) state).calls = .poll (host.poll state).1 :: later := by
  obtain ⟨later, calls, -⟩ := turn_calls host state
  cases outcome : (turn host state).outcome with
  | error failure => exact ⟨later, by rw [run_of_failed live outcome, calls]⟩
  | ok => exact ⟨later ++ _, by rw [run_succ host live outcome, calls]; rfl⟩

/-- A run is made of completed turns, and of one more if it fails. It returns before it has made all its turns
only when it is cancelled. -/
theorem run_completes (host : Host σ) (turns : Nat) (state : σ) :
    ∃ made : List (List Call), (∀ calls ∈ made, Completed calls) ∧
      match (run host turns state).outcome with
      | .ok () =>
        (run host turns state).calls = made.flatten ∧ made.length ≤ turns ∧
          (made.length < turns → host.cancelled (run host turns state).state = true)
      | .error _ =>
        made.length < turns ∧ ∃ answer later,
          (run host turns state).calls = made.flatten ++ .poll answer :: later ∧
            ∀ call ∈ later, call.polled? = none := by
  induction turns generalizing state with
  | zero => exact ⟨[], by simp, rfl, Nat.le_refl 0, by simp⟩
  | succ turns ih =>
    cases live : host.cancelled state with
    | true =>
      rw [run_of_cancelled live]
      exact ⟨[], by simp, rfl, Nat.zero_le _, fun _ => live⟩
    | false =>
      cases outcome : (turn host state).outcome with
      | error failure =>
        obtain ⟨later, calls, unpolled⟩ := turn_calls host state
        rw [run_of_failed live outcome, outcome]
        exact ⟨[], by simp, Nat.succ_pos turns, _, later, calls, unpolled⟩
      | ok =>
        obtain ⟨made, completed, ending⟩ := ih (turn host state).state
        rw [run_succ host live outcome]
        refine ⟨(turn host state).calls :: made,
          List.forall_mem_cons.mpr ⟨turn_completed outcome, completed⟩, ?_⟩
        dsimp only
        split <;> rename_i returned <;> rw [returned] at ending
        · obtain ⟨calls, bound, short⟩ := ending
          refine ⟨by rw [calls, List.flatten_cons], Nat.succ_le_succ bound, fun fewer => short ?_⟩
          exact Nat.lt_of_succ_lt_succ fewer
        · obtain ⟨bound, answer, later, calls, unpolled⟩ := ending
          refine ⟨Nat.succ_lt_succ bound, answer, later, ?_, unpolled⟩
          rw [calls, List.flatten_cons, List.append_assoc]

end ChatRelay.ConsumeLoop
