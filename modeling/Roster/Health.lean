import Roster.Report
/-! # Health of the process and its dependencies -/
namespace Roster

structure NotReady where
  dependency : String
  deriving DecidableEq, Repr

def NotReady.message (e : NotReady) : String := "dependency " ++ e.dependency ++ " is not ready"

/-- The first dependency that is not ready decides; none behind it is asked. -/
def firstUnready : List (String × Bool) → Option String
  | [] => none
  | (name, ready) :: rest => if ready then firstUnready rest else some name

def readiness (deps : List (String × Bool)) : Except NotReady Unit :=
  match firstUnready deps with
  | none => .ok ()
  | some name => .error ⟨name⟩

def readinessEvents (deps : List (String × Bool)) : List Event :=
  match firstUnready deps with
  | none => []
  | some name => [⟨.warn, "readiness check failed", [("dependency", name)], [], none⟩]

structure BuildInfo where
  buildTime : String := "unknown"
  version : String := "0.1.0"
  commit : String := "unknown"
  deriving DecidableEq, Repr

/-- A dependency that can be asked, with how often it was. -/
structure Dependency where
  name : String
  ready : Bool
  asked : Nat := 0
  deriving DecidableEq, Repr

def Dependency.ask (d : Dependency) : Bool × Dependency := (d.ready, { d with asked := d.asked + 1 })

/-- Asks dependencies one after the other until one is not ready. Gives what they said. -/
def askInTurn : List Dependency → List (String × Bool) × List Dependency
  | [] => ([], [])
  | d :: rest =>
    let (ready, d) := d.ask
    if ready then
      let (said, rest) := askInTurn rest
      ((d.name, true) :: said, d :: rest)
    else ([(d.name, false)], d :: rest)

structure Health where
  dependencies : List Dependency
  build : BuildInfo := {}
  deriving DecidableEq, Repr

namespace Health

/-- What may be asked, and what may happen to a dependency meanwhile. -/
inductive Act
  | set (index : Nat) (ready : Bool)
  | readiness
  | liveness
  | version
  deriving DecidableEq, Repr

/-- The answer to a question; there is none to a change. -/
inductive Answer
  | silence
  | readiness (outcome : Except NotReady Unit)
  | alive
  | version (build : BuildInfo)

structure Reply where
  answer : Answer
  events : List Event := []
  health : Health

/-- Only the question for readiness is passed on to the dependencies. -/
def act (h : Health) : Act → Reply
  | .set index ready =>
    { answer := .silence
      health := { h with dependencies := h.dependencies.modify index fun d => { d with ready } } }
  | .readiness =>
    let (said, dependencies) := askInTurn h.dependencies
    { answer := .readiness (readiness said), events := readinessEvents said
      health := { h with dependencies } }
  | .liveness => { answer := .alive, health := h }
  | .version => { answer := .version h.build, health := h }

end Health

end Roster
