import Roster.Text.Digits
import Roster.Text.Utf8
/-! # Escapes in targets and queries -/
namespace Roster.Http
open Text

/-- The bytes that escaped bytes stand for. An escape that is malformed stands for itself. -/
def unescape : List UInt8 → List UInt8
  | [] => []
  | [a] => [a]
  | [a, b] => [a, b]
  | a :: b :: c :: rest =>
    if a = 0x25 then
      match digitValue? (Char.ofNat b.toNat), digitValue? (Char.ofNat c.toNat) with
      | some x, some y => .ofNat (16 * x + y) :: unescape rest
      | _, _ => a :: unescape (b :: c :: rest)
    else a :: unescape (b :: c :: rest)

/-- The text of an escaped path segment, if its bytes are a text. -/
def unescapeSegment? (s : String) : Option String :=
  (decode? (unescape (encode s))).map String.ofList

/-- The text of an escaped part of a query: a plus sign is a space, and bytes that are no text are
replaced. -/
def unescapeField (cs : List Char) : String :=
  let spaced := cs.map fun c => if c = '+' then ' ' else c
  .ofList (decodeWith '\uFFFD' (unescape (encode (.ofList spaced))))

def field (cs : List Char) : String × String :=
  let key := cs.takeWhile (· != '=')
  (unescapeField key, unescapeField (cs.drop (key.length + 1)))

def fields (query : String) : List (String × String) :=
  ((query.toList.splitOn '&').filter (· != [])).map field

def lastValues (fields : List (String × String)) : List (String × String) :=
  fields.foldl (fun known f => known.filter (fun k => k.1 != f.1) ++ [f]) []

end Roster.Http
