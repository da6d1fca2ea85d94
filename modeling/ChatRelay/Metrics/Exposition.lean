import ChatRelay.Decimal.Shortest
import ChatRelay.Metrics

namespace ChatRelay.Exposition

inductive FamilyKind where
  | counter
  | gauge
  | histogram
deriving DecidableEq, Repr

def FamilyKind.name : FamilyKind → String
  | counter => "counter"
  | gauge => "gauge"
  | histogram => "histogram"

inductive Reading where
  | number (value : Float)
  | durations (durations : Durations)

structure Family where
  name : String
  help : String
  kind : FamilyKind
  labels : List String
  /-- Label values and readings, in the order of the values. -/
  children : List (List String × Reading)

/-- Counters hold 64 bits. -/
def counted (n : Nat) : Reading := .number (UInt64.ofNat n).toFloat

/-- Gauges hold 64 bits with a sign. -/
def gauged (n : Nat) : Reading := .number (Int64.ofNat n).toFloat

def readings (children : Children α) (reading : α → Reading) : List (List String × Reading) :=
  children.toList.map fun (values, held) => (values, reading held)

def counterFamily (name help label : String) (counts : Children Nat) : Family :=
  ⟨name, help, .counter, [label], readings counts counted⟩

def durationsName : String := "backplane_batch_duration_seconds"

/-- All families in the order of their names. -/
def allFamilies (metrics : Metrics) : List Family :=
  [⟨durationsName, "Time to process and commit one polled batch", .histogram,
      ["consumer"], readings metrics.durations .durations⟩,
   counterFamily "backplane_batches_retried_total"
      "Total number of batches rewound for redelivery after a storage failure" "consumer"
      metrics.batchesRetried,
   counterFamily "backplane_delivery_failures_total"
      "Total number of envelopes the broker client failed to deliver" "topic" metrics.deliveryFailures,
   counterFamily "backplane_envelopes_consumed_total"
      "Total number of envelopes processed by a consumer loop" "consumer" metrics.consumed,
   counterFamily "backplane_envelopes_published_total"
      "Total number of envelopes handed to the producer" "topic" metrics.published,
   counterFamily "backplane_envelopes_skipped_total"
      "Total number of undecodable records skipped by a consumer loop" "consumer" metrics.skipped,
   ⟨"backplane_loop_healthy", "Whether a dedicated consumer loop is running (1) or has stopped (0)", .gauge,
      ["loop"], readings metrics.loopHealthy (gauged ·.toNat)⟩,
   ⟨"backplane_owned_partitions", "Number of partitions currently assigned to a consumer", .gauge,
      ["consumer"], readings metrics.ownedPartitions gauged⟩,
   ⟨"backplane_producers_created_total", "Total number of producer instances created", .counter, [],
      [([], counted metrics.producersCreated)]⟩,
   ⟨"backplane_rebalances_total", "Total number of partition assignment changes", .counter,
      ["consumer", "kind"], readings metrics.rebalances counted⟩,
   counterFamily "backplane_sessions_delivered_total"
      "Outcome of forwarding an envelope to a live session" "outcome" metrics.sessionDeliveries,
   counterFamily "backplane_state_merges_total" "Total number of chat state merges applied" "field"
      metrics.stateMerges]

def families (metrics : Metrics) : List Family :=
  (allFamilies metrics).filter fun family => !family.children.isEmpty

/-- Writes a label value; backslashes, quotes and line feeds are escaped. -/
def escape (value : String) : String :=
  String.join (value.toList.map fun c =>
    if c = '\\' then "\\\\" else if c = '"' then "\\\"" else if c = '\n' then "\\n" else c.toString)

/-- One line: a name, its labels in braces if there are any, and a number. -/
def line (name : String) (labels : List (String × String)) (value : String) : String :=
  let written := labels.map fun (label, value) => label ++ "=\"" ++ escape value ++ "\""
  let braced := if labels.isEmpty then "" else "\x7b" ++ ",".intercalate written ++ "\x7d"
  name ++ braced ++ " " ++ value ++ "\n"

/-- The lines of one child. A histogram shows its cumulative counts, its total and its count. -/
def childLines (family : Family) : List String × Reading → List String
  | (values, .number value) => [line family.name (family.labels.zip values) (Decimal.ofFloat value)]
  | (values, .durations durations) =>
    let labels := family.labels.zip values
    let bucket (bound : String) (n : Nat) : String :=
      line (family.name ++ "_bucket") (labels ++ [("le", bound)]) (Decimal.ofFloat (UInt64.ofNat n).toFloat)
    List.zipWith (fun bound n => bucket (Decimal.ofFloat bound) n) Durations.bounds durations.within ++
      [bucket "+Inf" durations.count,
       line (family.name ++ "_sum") labels (Decimal.ofFloat durations.total),
       line (family.name ++ "_count") labels (Decimal.ofFloat (UInt64.ofNat durations.count).toFloat)]

def familyLines (family : Family) : List String :=
  ("# HELP " ++ family.name ++ " " ++ family.help ++ "\n") ::
  ("# TYPE " ++ family.name ++ " " ++ family.kind.name ++ "\n") ::
  family.children.flatMap (childLines family)

def text (metrics : Metrics) : String :=
  String.join ((families metrics).flatMap familyLines)

def mentions (line name : String) : Bool := 1 < (line.splitOn name).length

/-- The exposition without the lines that mention durations, which hang on the clock. -/
def timelessText (metrics : Metrics) : String :=
  String.join (((families metrics).flatMap familyLines).filter (!mentions · durationsName))

end ChatRelay.Exposition
