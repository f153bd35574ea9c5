import Roster.Json.Scan
/-! # JSON values: reading and passing over

A value that is read may be nested at most 127 deep, and its numbers and strings have to be
representable. A value that is passed over is checked against the grammar alone, at any depth. -/
namespace Roster.Json

/-- What encloses the place that is read. -/
inductive Frame
  | list | object
  deriving DecidableEq, Repr

namespace Frame

def closing : Frame → Char
  | list => ']'
  | object => '}'

def ended : Frame → Cause
  | list => .endOfList
  | object => .endOfObject

def expectedComma : Frame → Cause
  | list => .expectedListComma
  | object => .expectedObjectComma

end Frame

def readColon (cs : List Char) : Except Fault (List Char) :=
  match skipBlanks cs with
  | [] => .error (.next .endOfObject [])
  | ':' :: rest => .ok rest
  | rest => .error (.next .expectedColon rest)

def passScalar : List Char → Except Fault (List Char)
  | 'n' :: rest => readWord ['u', 'l', 'l'] rest
  | 't' :: rest => readWord ['r', 'u', 'e'] rest
  | 'f' :: rest => readWord ['a', 'l', 's', 'e'] rest
  | '"' :: rest => passText rest
  | '-' :: rest => passNumber rest
  | cs@(c :: _) => if c.isDigit then passNumber cs else .error (.next .expectedValue cs)
  | [] => .error (.next .endOfValue [])

def passName (cs : List Char) : Except Fault (List Char) :=
  match skipBlanks cs with
  | [] => .error (.next .endOfObject [])
  | '"' :: rest => (passText rest).bind readColon
  | rest => .error (.next .keyNotText rest)

/-- What is expected next: a value, or the rest of the innermost frame, in which a comma stands
before each item but the first. -/
inductive Awaited
  | value
  | frame (afterItem : Bool)
  deriving DecidableEq, Repr

/-- Passes over what is left of a value inside some frames, in at most `fuel` steps. -/
def passOn : Nat → Awaited → List Frame → List Char → Except Fault (List Char)
  | 0, _, _, cs => .error (.next .endOfValue cs)
  | fuel + 1, .value, frames, cs =>
    match skipBlanks cs with
    | '[' :: rest => passOn fuel (.frame false) (.list :: frames) rest
    | '{' :: rest => passOn fuel (.frame false) (.object :: frames) rest
    | cs =>
      match passScalar cs with
      | .error f => .error f
      | .ok rest => passOn fuel (.frame true) frames rest
  | _ + 1, .frame _, [], cs => .ok cs
  | fuel + 1, .frame afterItem, frame :: frames, cs =>
    match skipBlanks cs with
    | [] => .error (.next frame.ended [])
    | c :: rest =>
      if c = frame.closing then passOn fuel (.frame true) frames rest
      else if afterItem ∧ c ≠ ',' then .error (.next frame.expectedComma (c :: rest))
      else
        let item := if afterItem then rest else c :: rest
        match frame with
        | .list => passOn fuel .value (frame :: frames) item
        | .object =>
          match passName item with
          | .error f => .error f
          | .ok rest => passOn fuel .value (frame :: frames) rest

def passValue (cs : List Char) : Except Fault (List Char) :=
  passOn (2 * cs.length + 2) .value [] cs

def maxDepth : Nat := 127

def readScalar : List Char → Except Fault (Json × List Char)
  | 'n' :: rest => (readWord ['u', 'l', 'l'] rest).map (Json.null, ·)
  | 't' :: rest => (readWord ['r', 'u', 'e'] rest).map (Json.bool true, ·)
  | 'f' :: rest => (readWord ['a', 'l', 's', 'e'] rest).map (Json.bool false, ·)
  | '"' :: rest => (readText rest).map fun r => (Json.text r.1, r.2)
  | '-' :: rest => (readNumber true rest).map fun r => (Json.number r.1, r.2)
  | cs@(c :: _) =>
    if c.isDigit then (readNumber false cs).map fun r => (Json.number r.1, r.2)
    else .error (.next .expectedValue cs)
  | [] => .error (.next .endOfValue [])

/-- Whether an item follows in a frame, and the text from it on. The closing bracket stays. -/
def nextItem (frame : Frame) (isFirst : Bool) (cs : List Char) :
    Except Fault (Option (List Char)) :=
  match skipBlanks cs with
  | [] => .error (.next frame.ended [])
  | c :: rest =>
    if c = frame.closing then .ok none
    else if isFirst then .ok (some (c :: rest))
    else if c ≠ ',' then .error (.next frame.expectedComma (c :: rest))
    else
      match skipBlanks rest with
      | [] => .error (.next .endOfValue [])
      | d :: more =>
        if d = frame.closing then .error (.next .trailingComma (d :: more))
        else .ok (some (d :: more))

/-- The name of a member, whose first character is not a blank. -/
def readName : List Char → Except Fault (String × List Char)
  | '"' :: rest => readText rest
  | cs => .error (.next .keyNotText cs)

/-- The text behind the bracket that closes a frame, when nothing but blanks precedes it. -/
def readClosing (frame : Frame) (cs : List Char) : Except Fault (List Char) :=
  match skipBlanks cs with
  | [] => .error (.next frame.ended [])
  | c :: rest =>
    if c = frame.closing then .ok rest
    else if c = ',' then
      let more := skipBlanks rest
      match frame with
      | .object => .error (.next .trailingComma (c :: rest))
      | .list =>
        .error (.next (if more.head? = some ']' then .trailingComma else .trailingCharacters) more)
    else .error (.next .trailingCharacters (c :: rest))

mutual

/-- A value inside `depth` frames, in at most `fuel` steps. -/
def readOn : Nat → Nat → List Char → Except Fault (Json × List Char)
  | 0, _, cs => .error (.next .endOfValue cs)
  | fuel + 1, depth, cs =>
    match skipBlanks cs with
    | '[' :: rest =>
      if maxDepth ≤ depth then .error (.next .tooDeep ('[' :: rest))
      else readItems fuel (depth + 1) true [] rest
    | '{' :: rest =>
      if maxDepth ≤ depth then .error (.next .tooDeep ('{' :: rest))
      else readMembers fuel (depth + 1) true [] rest
    | rest => readScalar rest

/-- The items of a list behind those that `seen` holds in reverse, and the closing bracket. -/
def readItems : Nat → Nat → Bool → List Json → List Char → Except Fault (Json × List Char)
  | 0, _, _, _, cs => .error (.next .endOfList cs)
  | fuel + 1, depth, isFirst, seen, cs =>
    match nextItem .list isFirst cs with
    | .error f => .error f
    | .ok none => (readClosing .list cs).map (Json.list seen.reverse, ·)
    | .ok (some item) =>
      match readOn fuel depth item with
      | .error f => .error f
      | .ok (v, rest) => readItems fuel depth false (v :: seen) rest

/-- The members of an object behind those that `seen` holds in reverse, and the closing bracket. -/
def readMembers : Nat → Nat → Bool → List (String × Json) → List Char →
    Except Fault (Json × List Char)
  | 0, _, _, _, cs => .error (.next .endOfObject cs)
  | fuel + 1, depth, isFirst, seen, cs =>
    match nextItem .object isFirst cs with
    | .error f => .error f
    | .ok none => (readClosing .object cs).map (Json.object seen.reverse, ·)
    | .ok (some item) =>
      match readName item with
      | .error f => .error f
      | .ok (name, rest) =>
        match readColon rest with
        | .error f => .error f
        | .ok rest =>
          match readOn fuel depth rest with
          | .error f => .error f
          | .ok (v, rest) => readMembers fuel depth false ((name, v) :: seen) rest

end

def readValue (depth : Nat) (cs : List Char) : Except Fault (Json × List Char) :=
  readOn (2 * cs.length + 2) depth cs

/-- What stands at the place of a value of another type, when it can be told. -/
def readFound (cs : List Char) : Except Fault (Found × List Char) :=
  match cs with
  | '[' :: _ => .ok (.list, cs)
  | '{' :: _ => .ok (.object, cs)
  | _ =>
    match readScalar cs with
    | .error f => .error f
    | .ok (v, rest) =>
      .ok (match v with
        | .bool b => .bool b
        | .number n => .number n
        | .text s => .text s
        | _ => .null, rest)

/-- The fault of a value of another type than the expected one. -/
def refuse {α : Type} (expected : String) (cs : List Char) : Except Fault α :=
  match readFound cs with
  | .error f => .error f
  | .ok (found, rest) => .error ⟨.wrongType found expected, rest, false⟩

def readEnd (cs : List Char) : Except Fault Unit :=
  match skipBlanks cs with
  | [] => .ok ()
  | rest => .error (.next .trailingCharacters rest)

end Roster.Json
