import Roster.Text.Alphanumeric
import Roster.Text.Blank
import Roster.Text.Integer
import Roster.Text.Quoted
/-! # Log filters

A filter is a list of directives with commas between them. A directive is a level, or the target
of events, a span in brackets, and a level after an equals sign. -/
namespace Roster.LogFilter
open Text

def levelNames : List String := ["error", "warn", "info", "debug", "trace", "off"]

/-- The text is the name of a level, in any case, or its number from zero to five. -/
def isLevel (s : String) : Bool :=
  levelNames.contains (String.ofList (s.toList.map Char.toLower)) ||
    (parseNatural? s).any (· ≤ 5)

/-- Where the reading of a directive stands. The characters of a level or of a field are kept in
reverse. -/
inductive Place
  | start
  | target
  | span
  | field (seen : List Char)
  | fields
  | afterSpan
  | level (seen : List Char)
  deriving DecidableEq, Repr

/-- The place behind one more character, if the directive may have it there. -/
def Place.step (p : Place) (c : Char) : Option Place :=
  match p with
  | .start =>
    if c = '[' then some .span
    else if c = '-' ∨ c = ':' ∨ c = '_' ∨ isAlphanumeric c then some .target else none
  | .target =>
    if c = '=' then some (.level []) else if c = '[' then some .span else some .target
  | .span =>
    if c = ']' then some .afterSpan else if c = '{' then some (.field []) else some .span
  | .field seen =>
    if c = '}' then (if seen = [] then none else some .fields) else some (.field (c :: seen))
  | .fields => if c = ']' then some .afterSpan else none
  | .afterSpan => if c = '=' then some (.level []) else none
  | .level seen => some (.level (c :: seen))

/-- A directive may end at the place; a level may be left out behind the equals sign. -/
def Place.accepts : Place → Bool
  | .target | .afterSpan => true
  | .level seen => seen.isEmpty || isLevel (String.ofList seen.reverse)
  | _ => false

def trim (cs : List Char) : List Char := (trimLeft (trimLeft cs).reverse).reverse

/-- The text is a directive. Blanks may stand around it, but not where a level follows an equals
sign. -/
def isDirective (s : String) : Bool :=
  let cs := s.toList
  let inner := trim cs
  match inner.foldlM Place.step .start with
  | some (.level seen) => inner == cs && (Place.level seen).accepts
  | some p => p.accepts
  | none => false

/-- Every directive of the filter is one; empty ones are left out. -/
def isValid (filter : String) : Bool :=
  (splitCommas filter).all fun s => s == "" || isDirective s

structure Refused where
  directive : String
  deriving DecidableEq, Repr

def Refused.message (e : Refused) : String := "invalid log filter " ++ quote e.directive

/-- The filter in force: that of the environment if there is a valid one, else the configured
one. -/
def choose (environment : Option String) (configured : String) : Except Refused String :=
  match environment.filter isValid with
  | some f => .ok f
  | none => if isValid configured then .ok configured else .error ⟨configured⟩

end Roster.LogFilter
