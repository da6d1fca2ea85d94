import ChatRelay.Failure
import ChatRelay.Health
import ChatRelay.Metrics

/-! Runs loops on threads of their own. A loop that ends, be it well, by failure or by a panic, is unhealthy
from then on; only loops that wait for cancellation keep running. -/
namespace ChatRelay

inductive LoopBody where
  | returns
  | panics
  | untilCancelled
  | fails (failure : Failure)

/-- Whether the loop ends without being cancelled. -/
def LoopBody.ends : LoopBody → Bool
  | untilCancelled => false
  | _ => true

/-- Whether the thread of the loop ended without a panic. -/
def LoopBody.joins : LoopBody → Bool
  | panics => false
  | _ => true

/-- The health of a loop that was started and given time to settle. -/
def LoopBody.start (body : LoopBody) (health : LoopHealth) : LoopHealth :=
  if body.ends then health.markStarted.markStopped else health.markStarted

/-- A loop is shown to run, and not to run any more if it ends. -/
def LoopBody.measurements (body : LoopBody) (name : String) : List Measurement :=
  .loopHealthy name true :: if body.ends then [.loopHealthy name false] else []

structure Supervisor where
  health : HealthRegistry := {}
  metrics : Metrics := {}
  cancelled : Bool := false
  /-- The places of the loops that wait for cancellation. -/
  running : List Nat := []

namespace Supervisor

def record (supervisor : Supervisor) (measurements : List Measurement) : Supervisor :=
  { supervisor with metrics := supervisor.metrics.recordAll measurements }

def nameOf (supervisor : Supervisor) (loop : Nat) : String :=
  (supervisor.health.loops[loop]?.map (·.name)).getD ""

/-- Starts a registered loop, unless all was cancelled. -/
def spawnRegistered (supervisor : Supervisor) (loop : Nat) (body : LoopBody) : Except Failure Supervisor :=
  if supervisor.cancelled then .error .cancelled
  else .ok <| record
    { supervisor with
      health := supervisor.health.modify loop body.start
      running := if body.ends then supervisor.running else supervisor.running ++ [loop] }
    (body.measurements (supervisor.nameOf loop))

def register (supervisor : Supervisor) (name : String) : Nat × Supervisor :=
  let (loop, health) := supervisor.health.register name
  (loop, { supervisor with health })

/-- Registers a loop and starts it. After a cancellation it stays registered, but does not start. -/
def spawn (supervisor : Supervisor) (name : String) (body : LoopBody) : Except Failure Nat × Supervisor :=
  let (loop, supervisor) := supervisor.register name
  match supervisor.spawnRegistered loop body with
  | .ok supervisor => (.ok loop, supervisor)
  | .error failure => (.error failure, supervisor)

def runAlone (supervisor : Supervisor) (name : String) : LoopHealth × Supervisor :=
  let health : LoopHealth := { name := name }
  (health.markStarted.markStopped,
   supervisor.record [.loopHealthy name true, .loopHealthy name false])

def cancel (supervisor : Supervisor) : Supervisor :=
  { supervisor with cancelled := true }

def join (supervisor : Supervisor) : Supervisor :=
  record
    { supervisor.cancel with
      health := supervisor.running.foldl (·.modify · LoopHealth.markStopped) supervisor.health
      running := [] }
    (supervisor.running.map fun loop => .loopHealthy (supervisor.nameOf loop) false)

/-- Ends all loops, then lets the producer flush what it holds; a failure to flush changes nothing more.
Gives the timeouts, in milliseconds, that the producer was asked to flush with. -/
def shutdown (supervisor : Supervisor) (flushTimeout : Nat) : List Nat × Supervisor :=
  ([flushTimeout], supervisor.join)

end Supervisor
end ChatRelay
