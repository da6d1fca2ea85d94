import ChatRelay.Processor
import ChatRelay.Broker.Consumer

namespace ChatRelay.Scenario

/-- A processor, with its router by name. -/
inductive ProcessorName where
  | receivers (router : String)
  | chatState (source : ChatSource)
  | failing (after : Nat) (failure : Failure)

/-- The steps that happen at once. -/
inductive Action where
  | createTopic (topic : String) (partitions : Nat)
  | failPublishes (count : Nat)
  | append (partition : Partition) (data : Bytes)
  | envelopes (partition : Partition)
  | recordCount (partition : Partition)
  | committed (group : String) (partition : Partition)
  | addProducer (id : String)
  | publish (producer : String) (partition : Partition) (envelope : Envelope)
  | flush (producer : String)
  | addRouter (name : String) (router : Router)
  | route (router : String) (envelope : Envelope)
  | knownPartition (partition : Partition)
  | knownCount (topic : String)
  | connect (user : UserId)
  | disconnect (user : UserId) (session : Nat)
  | dropInbox (session : Nat)
  | sessionCount (user : UserId)
  | deliver (user : UserId) (envelope : Envelope)
  | receive (session : Nat)
  | failWrites (count : Nat)
  | merge (update : ChatUpdate)
  | load (key : ChatKey)
  | newerThan (user : UserId) (time : Int)
  | storeSize
  | updates (source : ChatSource) (envelope : Envelope)
  | process (processor : ProcessorName) (envelope : Envelope)
  | register (loop : String)
  | start (loop : String)
  | stop (loop : String)
  | setRebalancing (loop : String) (rebalancing : Bool)
  | registry
  | request (data : Bytes)
  | watch (id loop : String)
  | reassign (watch : String) (change : AssignmentChange)
  | pollCompleted (watch : String)
  | owned (watch : String)
  | owns (watch : String) (partition : Partition)
  | subscribe (consumer : String) (topics : List String)
  | commitPolled (consumer : String) (count : Option Nat) (source : String)
  | commitMarks (consumer : String) (marks : List Mark)
  | rewind (consumer : String)
  | assignment (consumer : String)
  | leave (consumer : String)
  | metrics
  /-- A step of which some part, such as an envelope in bytes, could not be made. -/
  | refused (word : String) (failure : Failure)

/-- The calls of a consumer that can be made to fail. -/
inductive Site where
  | subscribe
  | poll
  | commit
  | rewind
deriving DecidableEq, Repr

/-- Makes the call of a number, counted from one, fail. -/
structure Injection where
  site : Site
  number : Nat
  failure : Failure

structure LoopPlan where
  id : String
  group : String
  maxRecords : Nat
  topics : List String
  loop : String
  processor : ProcessorName
  injections : List Injection := []
  cancelled : Bool := false

structure ConsumerPlan where
  id : String
  group : String
  maxRecords : Nat
  watch : Option String := none
  listens : Bool := true

/-- Polls may run further steps: those for the next assignment change when it is told, and in a loop those
for the next poll before it. -/
inductive Step where
  | act (action : Action)
  | addConsumer (plan : ConsumerPlan) (onChange : List (List Step))
  | poll (consumer : String)
  | runLoop (plan : LoopPlan) (polls onChange : List (List Step))

mutual

def Step.size : Step → Nat
  | .act _ => 1
  | .addConsumer _ onChange => 1 + scriptsSize onChange
  | .poll _ => 1
  | .runLoop _ polls onChange => 1 + scriptsSize polls + scriptsSize onChange

def scriptsSize : List (List Step) → Nat
  | [] => 0
  | script :: rest => scriptSize script + scriptsSize rest

def scriptSize : List Step → Nat
  | [] => 0
  | step :: rest => step.size + scriptSize rest

end

end ChatRelay.Scenario
