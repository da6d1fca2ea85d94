import ChatRelay.Broker.Consumer
import ChatRelay.Metrics

/-! The loop that reads batches, processes them record by record, and commits each batch that went through.
A batch with a retriable failure is read again from where the group would resume; any other failure ends the
loop. The loop knows its consumer, its processor and its surroundings only through a `Host` on some state,
and tells all calls it made. -/
namespace ChatRelay

/-- The calls that a loop makes on a state `σ`. -/
structure Host (σ : Type) where
  /-- The name under which the loop is counted. -/
  consumer : String
  cancelled : σ → Bool
  poll : σ → Except Failure (List Record) × σ
  /-- A poll has succeeded. -/
  pollCompleted : σ → σ
  process : Envelope → σ → Except Failure Unit × σ
  commit : List Record → σ → Except Failure Unit × σ
  rewind : σ → Except Failure Unit × σ
  /-- How long the current batch has taken, in seconds. -/
  elapsed : σ → Float
  count : Measurement → σ → σ

/-- A call that a loop made, with its answer. -/
inductive Call where
  | poll (answer : Except Failure (List Record))
  | process (envelope : Envelope) (answer : Except Failure Unit)
  | commit (records : List Record) (answer : Except Failure Unit)
  | rewind (answer : Except Failure Unit)

/-- What a stretch of a loop's run came to: the calls, their outcome and the state after them. -/
structure Stretch (σ α : Type) where
  calls : List Call
  outcome : Except Failure α
  state : σ

namespace ConsumeLoop

/-- Processes the records of a batch in order, up to the first failure. Records that were not decoded are
skipped. Gives the number of envelopes processed. -/
def processBatch (host : Host σ) : List Record → σ → Stretch σ Nat
  | [], state => ⟨[], .ok 0, state⟩
  | record :: rest, state =>
    match record.body with
    | .error _ => processBatch host rest (host.count (.skipped host.consumer) state)
    | .ok envelope =>
      match host.process envelope state with
      | (.error failure, state) => ⟨[.process envelope (.error failure)], .error failure, state⟩
      | (.ok (), state) =>
        let later := processBatch host rest state
        { later with
          calls := .process envelope (.ok ()) :: later.calls
          outcome := later.outcome.map (· + 1) }

def finish (host : Host σ) (records : List Record) (processed : Nat) (state : σ) : Stretch σ Unit :=
  match host.commit records state with
  | (.error failure, state) => ⟨[.commit records (.error failure)], .error failure, state⟩
  | (.ok (), state) =>
    ⟨[.commit records (.ok ())], .ok (),
      host.count (.batch host.consumer processed (host.elapsed state)) state⟩

def retry (host : Host σ) (state : σ) : Stretch σ Unit :=
  let (answer, state) := host.rewind (host.count (.batchRetried host.consumer) state)
  ⟨[.rewind answer], answer, state⟩

/-- Processes a batch, then commits it or goes back. -/
def settle (host : Host σ) (records : List Record) (state : σ) : Stretch σ Unit :=
  let batch := processBatch host records state
  let ending := match batch.outcome with
    | .ok processed => finish host records processed batch.state
    | .error failure =>
      if failure.isRetriable then retry host batch.state else ⟨[], .error failure, batch.state⟩
  { ending with calls := batch.calls ++ ending.calls }

/-- One turn of the loop: a poll, and what follows from the records it brought. -/
def turn (host : Host σ) (state : σ) : Stretch σ Unit :=
  match host.poll state with
  | (.error failure, state) => ⟨[.poll (.error failure)], .error failure, state⟩
  | (.ok records, state) =>
    let state := host.pollCompleted state
    let ending := if records.isEmpty then ⟨[], .ok (), state⟩ else settle host records state
    { ending with calls := .poll (.ok records) :: ending.calls }

/-- Runs up to `turns` turns, as long as the loop is not cancelled and nothing fails. -/
def run (host : Host σ) : (turns : Nat) → σ → Stretch σ Unit
  | 0, state => ⟨[], .ok (), state⟩
  | turns + 1, state =>
    if host.cancelled state then ⟨[], .ok (), state⟩
    else
      let now := turn host state
      match now.outcome with
      | .error _ => now
      | .ok () =>
        let later := run host turns now.state
        { later with calls := now.calls ++ later.calls }

end ConsumeLoop
end ChatRelay
