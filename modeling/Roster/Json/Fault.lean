import Roster.Json.Basic
import Roster.Text.Quoted
import Roster.Text.Shortest
import Roster.Text.Utf8
/-! # Why a JSON text is refused -/
namespace Roster.Json

/-- What stands where something else was expected. -/
inductive Found
  | null
  | bool (b : Bool)
  | number (n : Number)
  | text (s : String)
  | list
  | object
  deriving DecidableEq, Repr

inductive Cause
  | endOfList | endOfObject | endOfString | endOfValue
  | expectedColon | expectedListComma | expectedObjectComma | expectedIdent | expectedValue
  | invalidEscape | invalidNumber | numberOutOfRange | controlCharacter | keyNotText
  | loneSurrogate | unfinishedSurrogate | trailingComma | trailingCharacters | tooDeep
  | wrongType (found : Found) (expected : String)
  | wrongValue (found : Found) (expected : String)
  | repeatedMember (name : String)
  | missingMember (name : String)
  | tooFewItems (found : Nat) (expected : String) (count : Nat)
  deriving DecidableEq, Repr

/-- The three kinds of fault: the text ends too early, it is no JSON text, or it is the text of a
value that does not fit. -/
inductive FaultKind
  | ended | malformed | unfit
  deriving DecidableEq, Repr

def Cause.kind : Cause → FaultKind
  | endOfList | endOfObject | endOfString | endOfValue => .ended
  | wrongType .. | wrongValue .. | repeatedMember _ | missingMember _ | tooFewItems .. => .unfit
  | _ => .malformed

/-- A fault: its cause, the text that was not read, and whether the fault lies with the first
character of that text. -/
structure Fault where
  cause : Cause
  rest : List Char
  ahead : Bool := false
  deriving Repr

def Fault.next (cause : Cause) (rest : List Char) : Fault := ⟨cause, rest, true⟩

/-- The size of a number in floating point: its digits are rounded, and so is their product with a
power of ten. No power beyond the greatest finite one is used, so a very small number takes two
steps. -/
def magnitude (significand : Nat) (exponent : Int) : Float :=
  let power (n : Nat) := Float.ofScientific 1 false n
  let digits := Float.ofNat significand
  let down := exponent.natAbs
  if 0 ≤ exponent then digits * power down
  else if down ≤ 308 then digits / power down
  else if down ≤ 616 then digits / power 308 / power (down - 308)
  else 0

def Number.describe : Number → String
  | .natural n => "integer `" ++ toString n ++ "`"
  | .negative n => "integer `-" ++ toString n ++ "`"
  | .scaled isNegative significand exponent =>
    "floating point `" ++ (if isNegative then "-" else "") ++
      String.ofList (Text.writeMagnitude (magnitude significand exponent)) ++ "`"

def Found.describe : Found → String
  | null => "null"
  | bool b => "boolean `" ++ toString b ++ "`"
  | number n => n.describe
  | text s => "string " ++ Text.quote s
  | list => "sequence"
  | object => "map"

def Cause.message : Cause → String
  | endOfList => "EOF while parsing a list"
  | endOfObject => "EOF while parsing an object"
  | endOfString => "EOF while parsing a string"
  | endOfValue => "EOF while parsing a value"
  | expectedColon => "expected `:`"
  | expectedListComma => "expected `,` or `]`"
  | expectedObjectComma => "expected `,` or `\x7d`"
  | expectedIdent => "expected ident"
  | expectedValue => "expected value"
  | invalidEscape => "invalid escape"
  | invalidNumber => "invalid number"
  | numberOutOfRange => "number out of range"
  | controlCharacter =>
    "control character (\\u0000-\\u001F) found while parsing a string"
  | keyNotText => "key must be a string"
  | loneSurrogate => "lone leading surrogate in hex escape"
  | unfinishedSurrogate => "unexpected end of hex escape"
  | trailingComma => "trailing comma"
  | trailingCharacters => "trailing characters"
  | tooDeep => "recursion limit exceeded"
  | wrongType found expected => "invalid type: " ++ found.describe ++ ", expected " ++ expected
  | wrongValue found expected => "invalid value: " ++ found.describe ++ ", expected " ++ expected
  | repeatedMember name => "duplicate field `" ++ name ++ "`"
  | missingMember name => "missing field `" ++ name ++ "`"
  | tooFewItems found expected count =>
    "invalid length " ++ toString found ++ ", expected " ++ expected ++ " with " ++
      toString count ++ (if count = 1 then " element" else " elements")

/-- The line and the column of a place in a text: lines from one, columns in bytes. -/
def position (read : List Char) (ahead : Nat) : Nat × Nat :=
  let line := read.reverse.takeWhile (· != '\n')
  (1 + read.count '\n', Text.byteLength line + ahead)

def Fault.message (f : Fault) (whole : List Char) : String :=
  let read := whole.take (whole.length - f.rest.length)
  let place := position read (if f.ahead ∧ f.rest ≠ [] then 1 else 0)
  f.cause.message ++ " at line " ++ toString place.1 ++ " column " ++ toString place.2

end Roster.Json
