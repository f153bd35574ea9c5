/-! # Text and its bytes in UTF-8 -/
namespace Roster.Text

def byteLength (cs : List Char) : Nat := cs.foldl (fun n c => n + c.utf8Size) 0

/-- The character with a code point, when there is one. -/
def charOfCode? (n : Nat) : Option Char :=
  if h : n.isValidChar then some (Char.ofNatAux n h) else none

/-- How many bytes follow a leading byte, and the bits it brings. -/
def leading? (b : UInt8) : Option (Nat × Nat) :=
  let n := b.toNat
  if n < 0x80 then some (0, n)
  else if 0xC2 ≤ n ∧ n < 0xE0 then some (1, n - 0xC0)
  else if 0xE0 ≤ n ∧ n < 0xF0 then some (2, n - 0xE0)
  else if 0xF0 ≤ n ∧ n < 0xF5 then some (3, n - 0xF0)
  else none

/-- The values the first byte after a leading byte may take: overlong forms, surrogates and code
points beyond the last plane are left out. -/
def secondByteRange (lead : UInt8) : Nat × Nat :=
  match lead.toNat with
  | 0xE0 => (0xA0, 0xBF)
  | 0xED => (0x80, 0x9F)
  | 0xF0 => (0x90, 0xBF)
  | 0xF4 => (0x80, 0x8F)
  | _ => (0x80, 0xBF)

/-- What the bytes start with: a character, or a run of bytes that is no character; with the
number of bytes it takes beyond the first. -/
def firstChar (lead : UInt8) (rest : List UInt8) : Option Char × Nat :=
  match leading? lead with
  | none => (none, 0)
  | some (0, bits) => (charOfCode? bits, 0)
  | some (more, bits) =>
    let bounds := secondByteRange lead
    match rest with
    | [] => (none, 0)
    | b :: others =>
      if b.toNat < bounds.1 ∨ bounds.2 < b.toNat then (none, 0)
      else
        let tail := (others.takeWhile fun c => 0x80 ≤ c.toNat && c.toNat ≤ 0xBF).take (more - 1)
        if tail.length + 1 < more then (none, tail.length + 1)
        else
          let code := (b :: tail).foldl (fun acc c => acc * 64 + (c.toNat - 0x80)) bits
          (charOfCode? code, more)

/-- The characters of the bytes after those already read, which `seen` holds in reverse. -/
def decodeOnto (bad : Char) (seen : List Char) : List UInt8 → List Char
  | [] => seen.reverse
  | lead :: rest =>
    let first := firstChar lead rest
    decodeOnto bad (first.1.getD bad :: seen) (rest.drop first.2)
termination_by bytes => bytes.length
decreasing_by simp only [List.length_drop, List.length_cons]; omega

/-- The characters of the bytes, `bad` standing for each longest run that starts a character and
does not end it, and for each other byte that is part of none. -/
def decodeWith (bad : Char) (bytes : List UInt8) : List Char := decodeOnto bad [] bytes

def hasStrayByte : List UInt8 → Bool
  | [] => false
  | lead :: rest =>
    let first := firstChar lead rest
    if first.1.isNone then true else hasStrayByte (rest.drop first.2)
termination_by bytes => bytes.length
decreasing_by simp only [List.length_drop, List.length_cons]; omega

/-- The characters of the bytes, unless some byte is part of no character. -/
def decode? (bytes : List UInt8) : Option (List Char) :=
  if hasStrayByte bytes then none else some (decodeWith '\x00' bytes)

def encode (s : String) : List UInt8 := s.toUTF8.toList

end Roster.Text
