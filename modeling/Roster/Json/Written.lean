import Roster.Json.Basic
import Roster.Text.Digits
/-! # JSON text of a value

No blanks; a quote, a backslash and the controls below the space are escaped, and nothing else. -/
namespace Roster.Json
open Text

/-- How a character stands in a JSON text. -/
def escape (c : Char) : List Char :=
  match c with
  | '"' => ['\\', '"']
  | '\\' => ['\\', '\\']
  | '\x08' => ['\\', 'b']
  | '\x0c' => ['\\', 'f']
  | '\n' => ['\\', 'n']
  | '\r' => ['\\', 'r']
  | '\t' => ['\\', 't']
  | c =>
    if c.toNat < 0x20 then
      ['\\', 'u', '0', '0', Nat.digitChar (c.toNat / 16), Nat.digitChar (c.toNat % 16)]
    else [c]

def writeText (s : String) : List Char := '"' :: s.toList.flatMap escape ++ ['"']

def writeNumber : Number → List Char
  | .natural n => decimal n
  | .negative n => '-' :: decimal n
  | .scaled isNegative significand exponent =>
    (if isNegative then ['-'] else []) ++ decimal significand ++
      'e' :: (if exponent < 0 then ['-'] else []) ++ decimal exponent.natAbs

/-- The parts with commas between them. -/
def separate : List (List Char) → List Char
  | [] => []
  | [part] => part
  | part :: parts => part ++ ',' :: separate parts

mutual

def write : Json → List Char
  | .null => ['n', 'u', 'l', 'l']
  | .bool true => ['t', 'r', 'u', 'e']
  | .bool false => ['f', 'a', 'l', 's', 'e']
  | .number n => writeNumber n
  | .text s => writeText s
  | .list items => '[' :: separate (writeItems items) ++ [']']
  | .object members => '{' :: separate (writeMembers members) ++ ['}']

def writeItems : List Json → List (List Char)
  | [] => []
  | v :: rest => write v :: writeItems rest

def writeMembers : List (String × Json) → List (List Char)
  | [] => []
  | (k, v) :: rest => (writeText k ++ ':' :: write v) :: writeMembers rest

end

def render (v : Json) : String := String.ofList v.write

end Roster.Json
