import Roster.Observation
/-! # Error reports and log events -/
namespace Roster

/-- A captured error with its tags and groups of fields. -/
structure ErrorReport where
  message : String
  tags : List Field := []
  extras : List (String × List Field) := []
  deriving DecidableEq, Repr

namespace ErrorReport

def tag? (r : ErrorReport) (key : String) : Option String :=
  (r.tags.find? fun t => t.1 == key).map (·.2)

def render (r : ErrorReport) : String :=
  r.message ++ String.join (r.tags.map fun t => " " ++ t.1 ++ "=" ++ t.2) ++
    String.join (r.extras.map fun e => " " ++ e.1 ++ "=[" ++ renderFields e.2 ++ "]")

end ErrorReport

inductive Level
  | debug | info | warn | error
  deriving DecidableEq, Repr

def Level.name : Level → String
  | debug => "DEBUG"
  | info => "INFO"
  | warn => "WARN"
  | error => "ERROR"

/-- A log event. The spans that enclose it stand root first. -/
structure Event where
  level : Level
  message : String
  fields : List Field := []
  spans : List String := []
  target : Option String := none
  deriving DecidableEq, Repr

/-- Where captured errors go: they are kept, or logged under the name of an environment. -/
inductive Reporter
  | keep
  | log (environment : String)
  deriving DecidableEq, Repr

def ErrorReport.toEvent (r : ErrorReport) (environment : String) : Event where
  level := .error
  message := "captured error"
  fields := [("environment", environment), ("report", r.render)]
  target := some "error_report"

end Roster
