import Roster.Report
/-! # What observers note during a call

The notes of a call stand in the order in which they were made. Whatever is noted between the
opening and the closing of a span lies inside it. -/
namespace Roster

inductive Note
  | opened (span : String) (fields : List Field)
  /-- Closes the innermost open span, with the fields that became known in it. -/
  | closed (fields : List Field)
  | event (event : Event)
  | report (report : ErrorReport)
  /-- One more finished operation, by name and status code. -/
  | counted (operation : String) (code : Nat)
  deriving DecidableEq, Repr

def Reporter.capture (r : Reporter) (report : ErrorReport) : Note :=
  match r with
  | .keep => .report report
  | .log environment => .event (report.toEvent environment)

/-- A span, the names of the spans around it first in its path. -/
structure Span where
  path : List String
  fields : List Field
  closed : Bool := false
  deriving DecidableEq, Repr

abbrev Notes := List Note

namespace Notes

/-- The events, each in the spans that enclose it. -/
def events (inside : List String) : Notes → List Event
  | [] => []
  | .opened name _ :: rest => events (inside ++ [name]) rest
  | .closed _ :: rest => events inside.dropLast rest
  | .event e :: rest => { e with spans := inside } :: events inside rest
  | _ :: rest => events inside rest

/-- A span that is open, by its place among all spans. -/
structure Open where
  name : String
  place : Nat

/-- The spans in the order in which they were opened. -/
def spansFrom (inside : List Open) (spans : Array Span) : Notes → Array Span
  | [] => spans
  | .opened name fields :: rest =>
    let inside := inside ++ [⟨name, spans.size⟩]
    spansFrom inside (spans.push { path := inside.map (·.name), fields }) rest
  | .closed fields :: rest =>
    let spans := match inside.getLast? with
      | some o => spans.modify o.place fun s => { s with fields := s.fields ++ fields, closed := true }
      | none => spans
    spansFrom inside.dropLast spans rest
  | _ :: rest => spansFrom inside spans rest

def spans (notes : Notes) : List Span := (spansFrom [] #[] notes).toList

def reports (notes : Notes) : List ErrorReport :=
  notes.filterMap fun
    | .report r => some r
    | _ => none

def counted (notes : Notes) : List (String × Nat) :=
  notes.filterMap fun
    | .counted operation code => some (operation, code)
    | _ => none

end Notes

end Roster
