import Roster.Failure
import Roster.Worker
/-! # Readiness of a dependency

A monitor asks its dependency at an interval and on demand, and remembers the last answer. Until the
first one it takes the dependency to be ready. -/
namespace Roster

/-- What a dependency answers to a probe: nothing, or why it cannot be reached. -/
abbrev Probe := Except Chain Unit

structure Monitor where
  dependency : String
  worker : Worker
  ready : Bool := true
  deriving DecidableEq, Repr

namespace Monitor

/-- A monitor whose first probe comes one interval from now. -/
def start? (dependency : String) (now interval : Nat) : Option Monitor :=
  (Worker.start? now interval).map fun worker => { dependency, worker }

def events (m : Monitor) (probe : Probe) : List Event :=
  let ready := probe.toBool
  (match probe with
    | .ok _ => []
    | .error cause => [{ level := .warn, message := "readiness probe failed",
                         fields := [("dependency", m.dependency), ("error", cause.render)] }]) ++
  if m.ready = ready then []
  else [{ level := .debug, message := "readiness changed",
          fields := [("dependency", m.dependency), ("ready", toString ready)] }]

def record (m : Monitor) (probe : Probe) : Monitor × List Event :=
  ({ m with ready := probe.toBool }, m.events probe)

def running (m : Monitor) : Bool := m.worker.handle = .held && m.worker.alive

/-- Probes at once; a monitor that was stopped does not. -/
def checkNow (m : Monitor) (probe : Probe) : Monitor × Option Bool × List Event :=
  if m.running then
    let (m, events) := m.record probe
    (m, some m.ready, events)
  else (m, none, [])

/-- Lets time pass; the dependency gives every probe the same answer. -/
def advance (m : Monitor) (ms : Nat) (probe : Probe) : Monitor × List Event :=
  let (worker, trail) := m.worker.advance ms
  let (m, events) := trail.foldl (fun (m, events) c =>
    match c with
    | .tick =>
      let (m, more) := record m probe
      (m, more.reverse ++ events)
    | _ => (m, events)) (m, [])
  ({ m with worker }, events.reverse)

/-- Tells the loop to stop, unless it was told before. -/
def halt? (m : Monitor) : Option Monitor :=
  (m.worker.move? .stop).map fun worker => { m with worker }

def windDown (m : Monitor) : Monitor :=
  { m with worker := (m.worker.run Worker.alive (m.worker.now + m.worker.remaining) 5).1 }

/-- The answer stays what it was. -/
def stop (m : Monitor) : Monitor := (m.halt?.map windDown).getD m

end Monitor

end Roster
