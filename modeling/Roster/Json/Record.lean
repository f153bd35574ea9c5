import Roster.Json.Read
import Roster.User
/-! # Records: objects of known members

A record is read straight from the text. Members of other names are passed over, a member may
stand only once, and a list gives the members by their order. A record that embeds a profile keeps
the values of the members it does not know until the object ends, and takes the profile from them. -/
namespace Roster.Json

inductive Kind
  | text | count | flag
  deriving DecidableEq, Repr

inductive Datum
  | text (s : String)
  | count (n : UInt32)
  | flag (b : Bool)
  deriving DecidableEq, Repr

def Datum.kind : Datum → Kind
  | text _ => .text
  | count _ => .count
  | flag _ => .flag

def Datum.toJson : Datum → Json
  | text s => .text s
  | count n => .natural n.toNat
  | flag b => .bool b

abbrev Record := List (String × Datum)

/-- What records of one type look like. When the members are required, none may be missing. -/
structure Shape where
  name : String
  members : List (String × Kind)
  required : Bool := false
  deriving Repr

namespace Shape

def expected (s : Shape) : String := "struct " ++ s.name

def kind? (s : Shape) (name : String) : Option Kind :=
  (s.members.find? fun m => m.1 == name).map (·.2)

end Shape

/-- The value of a member, after blanks. -/
def readDatum (kind : Kind) (cs : List Char) : Except Fault (Datum × List Char) :=
  match kind, skipBlanks cs with
  | _, [] => .error (.next .endOfValue [])
  | .text, '"' :: rest => (readText rest).map fun r => (.text r.1, r.2)
  | .text, cs => refuse "a string" cs
  | .flag, 't' :: rest => (readWord ['r', 'u', 'e'] rest).map (.flag true, ·)
  | .flag, 'f' :: rest => (readWord ['a', 'l', 's', 'e'] rest).map (.flag false, ·)
  | .flag, cs => refuse "a boolean" cs
  | .count, c :: rest =>
    if c.isDigit then
      match readNumber false (c :: rest) with
      | .error f => .error f
      | .ok (.natural n, rest) =>
        if n < UInt32.size then .ok (.count (UInt32.ofNat n), rest)
        else .error ⟨.wrongValue (.number (.natural n)) "u32", rest, false⟩
      | .ok (n, rest) => .error ⟨.wrongType (.number n) "u32", rest, false⟩
    else if c = '-' then
      match readNumber true rest with
      | .error f => .error f
      | .ok (.negative n, rest) => .error ⟨.wrongValue (.number (.negative n)) "u32", rest, false⟩
      | .ok (n, rest) => .error ⟨.wrongType (.number n) "u32", rest, false⟩
    else refuse "u32" (c :: rest)

/-- The fault of an object as a whole, which is noticed where the object should close. -/
def objectFault (cause : Cause) (cs : List Char) : Fault :=
  match skipBlanks cs with
  | '}' :: rest => ⟨cause, rest, false⟩
  | rest => ⟨cause, rest, false⟩

/-- The members of an object of a shape, behind those already read, in at most `fuel` steps. -/
def readShapeMembers (shape : Shape) : Nat → Bool → Record → List Char →
    Except Fault (Record × List Char)
  | 0, _, _, cs => .error (.next .endOfObject cs)
  | fuel + 1, isFirst, seen, cs =>
    match nextItem .object isFirst cs with
    | .error f => .error f
    | .ok none =>
      match if shape.required then
          shape.members.find? fun m => !(seen.any fun e => e.1 == m.1) else none with
      | some m => .error (objectFault (.missingMember m.1) cs)
      | none => (readClosing .object cs).map (seen, ·)
    | .ok (some item) =>
      match readName item with
      | .error f => .error f
      | .ok (name, rest) =>
        match shape.kind? name with
        | none =>
          match (readColon rest).bind passValue with
          | .error f => .error f
          | .ok rest => readShapeMembers shape fuel false seen rest
        | some kind =>
          if seen.any fun e => e.1 == name then .error (objectFault (.repeatedMember name) rest)
          else
            match (readColon rest).bind (readDatum kind) with
            | .error f => .error f
            | .ok (v, rest) => readShapeMembers shape fuel false (seen ++ [(name, v)]) rest

/-- The members of a shape as the items of a list, from the given members on. -/
def readShapeItems (shape : Shape) : List (String × Kind) → Bool → Record → List Char →
    Except Fault (Record × List Char)
  | [], _, seen, cs => (readClosing .list cs).map (seen, ·)
  | (name, kind) :: members, isFirst, seen, cs =>
    match nextItem .list isFirst cs with
    | .error f => .error f
    | .ok none =>
      match readClosing .list cs with
      | .error f => .error f
      | .ok rest =>
        if shape.required then
          .error ⟨.tooFewItems seen.length shape.expected shape.members.length, rest, false⟩
        else .ok (seen, rest)
    | .ok (some item) =>
      match readDatum kind item with
      | .error f => .error f
      | .ok (v, rest) => readShapeItems shape members false (seen ++ [(name, v)]) rest

def readRecord (shape : Shape) (cs : List Char) : Except Fault (Record × List Char) :=
  match skipBlanks cs with
  | [] => .error (.next .endOfValue [])
  | '{' :: rest => readShapeMembers shape (rest.length + 1) true [] rest
  | '[' :: rest => readShapeItems shape shape.members true [] rest
  | rest => refuse shape.expected rest

/-- The records of a list behind those that `seen` holds in reverse, in at most `fuel` steps. -/
def readRecordsOn (shape : Shape) : Nat → Bool → List Record → List Char →
    Except Fault (List Record × List Char)
  | 0, _, _, cs => .error (.next .endOfList cs)
  | fuel + 1, isFirst, seen, cs =>
    match nextItem .list isFirst cs with
    | .error f => .error f
    | .ok none => (readClosing .list cs).map (seen.reverse, ·)
    | .ok (some item) =>
      match readRecord shape item with
      | .error f => .error f
      | .ok (r, rest) => readRecordsOn shape fuel false (r :: seen) rest

def readRecords (shape : Shape) (cs : List Char) : Except Fault (List Record × List Char) :=
  match skipBlanks cs with
  | [] => .error (.next .endOfValue [])
  | '[' :: rest => readRecordsOn shape (rest.length + 1) true [] rest
  | rest => refuse "a sequence" rest

def readWhole {α : Type} (read : List Char → Except Fault (α × List Char)) (s : String) :
    Except Fault α :=
  match read s.toList with
  | .error f => .error f
  | .ok (v, rest) => (readEnd rest).map fun _ => v

def attribute? (name : String) : Option Attribute :=
  Attribute.all.find? fun a => a.wireName == name

/-- The profile among members of any name: the attributes not yet in `seen`, each a text. -/
def pickAttributes : List (Attribute × String) → List (String × Json) →
    Except Cause (List (Attribute × String))
  | seen, [] => .ok seen
  | seen, (name, v) :: rest =>
    match attribute? name with
    | none => pickAttributes seen rest
    | some a =>
      if seen.any fun e => e.1 == a then .error (.repeatedMember name)
      else
        match v with
        | .text s => pickAttributes (seen ++ [(a, s)]) rest
        | .null => .error (.wrongType .null "a string")
        | .bool b => .error (.wrongType (.bool b) "a string")
        | .number n => .error (.wrongType (.number n) "a string")
        | .list _ => .error (.wrongType .list "a string")
        | .object _ => .error (.wrongType .object "a string")

/-- The profile of the attributes found; the others are not supplied. -/
def profileOf (found : List (Attribute × String)) : Profile :=
  .ofFn fun a => ((found.find? fun e => e.1 == a).map (·.2)).getD ""

/-- The members of an object that embeds a profile: its own texts in `seen`, and in `kept` the
values of all others, in at most `fuel` steps. -/
def readEmbeddedMembers (own : List String) : Nat → Bool → List (String × String) →
    List (String × Json) → List Char →
    Except Fault ((List (String × String) × Profile) × List Char)
  | 0, _, _, _, cs => .error (.next .endOfObject cs)
  | fuel + 1, isFirst, seen, kept, cs =>
    match nextItem .object isFirst cs with
    | .error f => .error f
    | .ok none =>
      match pickAttributes [] kept.reverse with
      | .error cause => .error (objectFault cause cs)
      | .ok found => (readClosing .object cs).map ((seen, profileOf found), ·)
    | .ok (some item) =>
      match readName item with
      | .error f => .error f
      | .ok (name, rest) =>
        if own.contains name then
          if seen.any fun e => e.1 == name then .error (objectFault (.repeatedMember name) rest)
          else
            match (readColon rest).bind (readDatum .text) with
            | .error f => .error f
            | .ok (.text s, rest) =>
              readEmbeddedMembers own fuel false (seen ++ [(name, s)]) kept rest
            | .ok (_, rest) => .error ⟨.missingMember name, rest, false⟩
        else
          match (readColon rest).bind (readValue 1) with
          | .error f => .error f
          | .ok (v, rest) => readEmbeddedMembers own fuel false seen ((name, v) :: kept) rest

/-- A record with texts of its own and a profile, after blanks, and the text behind it. -/
def readEmbedded (name : String) (own : List String) (cs : List Char) :
    Except Fault ((List (String × String) × Profile) × List Char) :=
  match skipBlanks cs with
  | [] => .error (.next .endOfValue [])
  | '{' :: rest => readEmbeddedMembers own (rest.length + 1) true [] [] rest
  | rest => refuse ("struct " ++ name) rest

end Roster.Json
