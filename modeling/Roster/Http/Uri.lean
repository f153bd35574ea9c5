/-! # Request targets

A target is a path with an optional query, the same behind a scheme and an authority, or an
authority alone. Fragments are cut off. -/
namespace Roster.Http

structure Uri where
  scheme : Option String := none
  authority : String := ""
  /-- The path as it was written. -/
  written : String := ""
  query : Option String := none
  deriving DecidableEq, Repr

namespace Uri

/-- The path; behind an authority it is at least a slash. -/
def path (u : Uri) : String := if u.written = "" ∧ u.scheme.isSome then "/" else u.written

def target (u : Uri) : String := u.path ++ (u.query.map ("?" ++ ·)).getD ""

def render (u : Uri) : String := (u.scheme.map (· ++ "://")).getD "" ++ u.authority ++ u.target

def isPathChar (c : Char) : Bool :=
  0x21 ≤ c.toNat && c != '#' && c != '<' && c != '>' && c != '?' && c != '\x60'

def isQueryChar (c : Char) : Bool :=
  0x21 ≤ c.toNat && c != '"' && c != '#' && c != '<' && c != '>'

def isSchemeChar (c : Char) : Bool :=
  c.isAlphanum || c == '+' || c == '-' || c == '.' || c == '~'

/-- The characters that may stand anywhere behind a scheme without being escaped. -/
def isPlainChar (c : Char) : Bool := c.isAlphanum || "!#$&'()*+,-./:;=?@[]_~".toList.contains c

def splitTarget? (cs : List Char) : Option (String × Option String) :=
  let path := cs.takeWhile fun c => c != '?' && c != '#'
  if !path.all isPathChar then none
  else
    match cs.drop path.length with
    | '?' :: rest =>
      let query := rest.takeWhile (· != '#')
      if query.all isQueryChar then some (.ofList path, some (.ofList query)) else none
    | _ => some (.ofList path, none)

/-- What is known of an authority from the characters read so far: the colons since the user
information or the bracketed address ended, brackets, and percent signs outside user information. -/
structure Scan where
  colons : Nat := 0
  opened : Bool := false
  closed : Bool := false
  percent : Bool := false

def Scan.read (s : Scan) (c : Char) : Option Scan :=
  match c with
  | ':' => if 8 ≤ s.colons then none else some { s with colons := s.colons + 1 }
  | '[' => if s.percent || s.opened then none else some { s with opened := true }
  | ']' =>
    if !s.opened || s.closed then none
    else some { s with closed := true, colons := 0, percent := false }
  | '@' => some { s with colons := 0, percent := false }
  | '%' => some { s with percent := true }
  | c => if isPlainChar c then some s else none

/-- The characters form an authority: brackets come in one pair, at most one colon stands before a
port, and something follows the user information. -/
def isAuthority (cs : List Char) : Bool :=
  match cs.foldlM Scan.read {} with
  | none => false
  | some s => s.opened == s.closed && s.colons ≤ 1 && cs.getLast? != some '@' && !s.percent

def authorityPart (cs : List Char) : List Char :=
  cs.takeWhile fun c => c != '/' && c != '?' && c != '#'

inductive Start
  | scheme (name : String) (rest : List Char)
  | none
  | tooLong

/-- The scheme that a text starts with. The two schemes of the web are known in any case of their
letters. -/
def start (cs : List Char) : Start :=
  let lower (n : Nat) := (cs.take n).map Char.toLower
  if lower 7 = "http://".toList then .scheme "http" (cs.drop 7)
  else if lower 8 = "https://".toList then .scheme "https" (cs.drop 8)
  else
    let name := cs.takeWhile isSchemeChar
    match cs.drop name.length with
    | ':' :: '/' :: '/' :: rest =>
      if cs.length ≤ 3 then .none
      else if 64 < name.length then .tooLong
      else .scheme (.ofList name) rest
    | _ => .none

def maxLength : Nat := 65534

def parse? (s : String) : Option Uri :=
  if maxLength < s.utf8ByteSize then none
  else
    match s.toList with
    | [] => none
    | ['*'] => some { written := "*" }
    | cs@('/' :: _) => (splitTarget? cs).map fun t => { written := t.1, query := t.2 }
    | cs =>
      match start cs with
      | .tooLong => none
      | .none => if isAuthority cs ∧ authorityPart cs = cs then some { authority := s } else none
      | .scheme name rest =>
        let authority := authorityPart rest
        if authority = [] ∨ !isAuthority authority then none
        else (splitTarget? (rest.drop authority.length)).map fun t =>
          { scheme := some name, authority := .ofList authority, written := t.1, query := t.2 }

end Uri

end Roster.Http
