import ChatRelay.Metrics.Children

namespace ChatRelay

inductive Measurement where
  | published (topic : String)
  | deliveryFailed (topic : String)
  | producerCreated
  /-- A batch of which `count` envelopes were processed, and how long it took. -/
  | batch (consumer : String) (count : Nat) (seconds : Float)
  | skipped (consumer : String)
  | batchRetried (consumer : String)
  | stateMerged (field : String)
  | rebalanced (consumer kind : String)
  | ownedPartitions (consumer : String) (count : Nat)
  | loopHealthy (loop : String) (healthy : Bool)
  | sessionDelivery (outcome : String)

/-- A histogram of durations: for each bound the number of durations that do not exceed it. -/
structure Durations where
  within : List Nat
  count : Nat
  total : Float

namespace Durations

/-- The bounds in seconds. -/
def bounds : List Float := [0.0005, 0.001, 0.005, 0.01, 0.05, 0.1, 0.5, 1, 5]

def none : Durations := ⟨bounds.map fun _ => 0, 0, 0⟩

def observe (durations : Durations) (seconds : Float) : Durations :=
  { within := List.zipWith (fun bound n => if seconds ≤ bound then n + 1 else n) bounds durations.within
    count := durations.count + 1
    total := durations.total + seconds }

end Durations

/-- Counts and gauges by label values. A combination has a child once it was measured, be it with zero. -/
structure Metrics where
  published : Children Nat := {}
  deliveryFailures : Children Nat := {}
  producersCreated : Nat := 0
  consumed : Children Nat := {}
  skipped : Children Nat := {}
  batchesRetried : Children Nat := {}
  durations : Children Durations := {}
  stateMerges : Children Nat := {}
  /-- By consumer and kind. -/
  rebalances : Children Nat := {}
  ownedPartitions : Children Nat := {}
  loopHealthy : Children Bool := {}
  sessionDeliveries : Children Nat := {}

namespace Metrics

def record (metrics : Metrics) : Measurement → Metrics
  | .published topic => { metrics with published := metrics.published.add [topic] 1 }
  | .deliveryFailed topic => { metrics with deliveryFailures := metrics.deliveryFailures.add [topic] 1 }
  | .producerCreated => { metrics with producersCreated := metrics.producersCreated + 1 }
  | .batch consumer count seconds =>
    { metrics with
      consumed := metrics.consumed.add [consumer] count
      durations := metrics.durations.update [consumer] .none (·.observe seconds) }
  | .skipped consumer => { metrics with skipped := metrics.skipped.add [consumer] 1 }
  | .batchRetried consumer => { metrics with batchesRetried := metrics.batchesRetried.add [consumer] 1 }
  | .stateMerged field => { metrics with stateMerges := metrics.stateMerges.add [field] 1 }
  | .rebalanced consumer kind => { metrics with rebalances := metrics.rebalances.add [consumer, kind] 1 }
  | .ownedPartitions consumer count =>
    { metrics with ownedPartitions := metrics.ownedPartitions.set [consumer] count }
  | .loopHealthy loop healthy => { metrics with loopHealthy := metrics.loopHealthy.set [loop] healthy }
  | .sessionDelivery outcome =>
    { metrics with sessionDeliveries := metrics.sessionDeliveries.add [outcome] 1 }

def recordAll (metrics : Metrics) (measurements : List Measurement) : Metrics :=
  measurements.foldl record metrics

end Metrics
end ChatRelay
