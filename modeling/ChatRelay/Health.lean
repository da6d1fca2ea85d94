namespace ChatRelay

structure LoopHealth where
  name : String
  started : Bool := false
  healthy : Bool := false
  rebalancing : Bool := false
deriving DecidableEq, Repr, Inhabited

namespace LoopHealth

def markStarted (health : LoopHealth) : LoopHealth :=
  { health with started := true, healthy := true }

def markStopped (health : LoopHealth) : LoopHealth :=
  { health with healthy := false }

def setRebalancing (health : LoopHealth) (rebalancing : Bool) : LoopHealth :=
  { health with rebalancing }

/-- A loop is ready while it runs and its partitions are settled. -/
def isReady (health : LoopHealth) : Bool :=
  health.started && health.healthy && !health.rebalancing

/-- A loop is dead once it has started and no longer runs. -/
def isDead (health : LoopHealth) : Bool :=
  health.started && !health.healthy

end LoopHealth

/-- The loops of an instance in the order of registration. A loop is known by its place. -/
structure HealthRegistry where
  loops : List LoopHealth := []
deriving DecidableEq, Repr, Inhabited

namespace HealthRegistry

/-- Adds a loop that has not started, and gives its place. -/
def register (registry : HealthRegistry) (name : String) : Nat × HealthRegistry :=
  (registry.loops.length, ⟨registry.loops ++ [{ name := name }]⟩)

def modify (registry : HealthRegistry) (loop : Nat) (change : LoopHealth → LoopHealth) : HealthRegistry :=
  ⟨registry.loops.modify loop change⟩

/-- The place of the last loop registered under a name. -/
def findLast? (registry : HealthRegistry) (name : String) : Option Nat :=
  (registry.loops.zipIdx.reverse.find? (·.1.name == name)).map (·.2)

/-- The instance is ready if it has loops and all of them are. -/
def isReady (registry : HealthRegistry) : Bool :=
  !registry.loops.isEmpty && registry.loops.all (·.isReady)

/-- The instance is live while no loop is dead. -/
def isLive (registry : HealthRegistry) : Bool :=
  registry.loops.all (!·.isDead)

end HealthRegistry
end ChatRelay
