/-! # Media types -/
namespace Roster.Http

def isTokenChar (c : Char) : Bool := c.isAlphanum || "!#$%&'*+-.^_\x60|~".toList.contains c

/-- A word: at least one character, and no other characters. -/
def isToken (s : String) : Bool := s != "" && s.toList.all isTokenChar

/-- A media type without its parameters, in lower case. What stands behind the last plus sign of a
subtype is its suffix. -/
structure MediaType where
  type : String
  subtype : String
  suffix : Option String := none
  deriving DecidableEq, Repr

namespace MediaType

/-- Passes over a parameter value in quotes, which holds at least one character, and the blanks
behind it. What follows is a semicolon or nothing. -/
def skipQuoted (cs : List Char) : Option (List Char) :=
  match cs with
  | [] => none
  | c :: rest =>
    let isQuotable (c : Char) : Bool := 0x20 ≤ c.toNat && c.toNat != 0x7F
    let body := rest.takeWhile (· != '"')
    if !isQuotable c || !body.all isQuotable then none
    else
      match rest.drop body.length with
      | [] => none
      | _ :: behind =>
        match behind.dropWhile (· == ' ') with
        | [] => some []
        | ';' :: more => some more
        | _ => none

/-- Passes over a parameter: its name, an equals sign and its value. -/
def skipParameter (cs : List Char) : Option (List Char) :=
  let name := cs.takeWhile isTokenChar
  if name = [] then none
  else
    match cs.drop name.length with
    | '=' :: '"' :: rest => skipQuoted rest
    | '=' :: rest =>
      let value := rest.takeWhile isTokenChar
      match rest.drop value.length with
      | [] => some []
      | ';' :: more => if value = [] then none else some more
      | _ => none
    | _ => none

/-- The parameters are well formed. Each is shorter than what it stands in, which bounds their
number. -/
def parametersOk : Nat → List Char → Bool
  | 0, cs => cs.all (· == ' ')
  | n + 1, cs =>
    match cs.dropWhile (· == ' ') with
    | [] => true
    | cs =>
      match skipParameter cs with
      | some rest => parametersOk n rest
      | none => false

/-- The subtype and the suffix of what follows the slash. A plus sign at its beginning is part of
the subtype. -/
def splitSuffix (cs : List Char) : String × Option String :=
  let suffix := (cs.reverse.takeWhile (· != '+')).reverse
  if suffix.length + 1 < cs.length then
    (.ofList (cs.take (cs.length - suffix.length - 1)), some (.ofList suffix))
  else (.ofList cs, none)

def parse? (s : String) : Option MediaType :=
  let cs := s.toList.map Char.toLower
  let type := cs.takeWhile isTokenChar
  match cs.drop type.length with
  | '/' :: rest =>
    let whole := rest.takeWhile isTokenChar
    let (subtype, suffix) := splitSuffix whole
    if type = [] ∨ cs.any (fun c => 0x7F ≤ c.toNat) then none
    else
      match rest.drop whole.length with
      | [] => some { type := .ofList type, subtype, suffix }
      | ';' :: parameters =>
        if whole != [] && parametersOk parameters.length parameters then
          some { type := .ofList type, subtype, suffix }
        else none
      | _ => none
  | _ => none

/-- The type of JSON texts, and of every format that is written in JSON. -/
def isJson (m : MediaType) : Bool :=
  m.type == "application" && (m.subtype == "json" || m.suffix == some "json")

end MediaType

end Roster.Http
