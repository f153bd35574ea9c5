/-! # Decimal digits -/
namespace Roster.Text

def decimal (n : Nat) : List Char := Nat.toDigits 10 n

/-- The digits with zeros in front up to a width. -/
def padded (width n : Nat) : List Char :=
  List.replicate (width - (decimal n).length) '0' ++ decimal n

def digitValue? (c : Char) : Option Nat :=
  let n := c.toNat
  if 0x30 ≤ n ∧ n ≤ 0x39 then some (n - 0x30)
  else if 0x61 ≤ n ∧ n ≤ 0x66 then some (n - 0x57)
  else if 0x41 ≤ n ∧ n ≤ 0x46 then some (n - 0x37)
  else none

def digitsValue (cs : List Char) : Nat :=
  cs.foldl (fun acc c => acc * 10 + (c.toNat - 0x30)) 0

/-- The digits a text starts with, at most `width` of them, and what follows. -/
def spanDigits (width : Nat) (cs : List Char) : List Char × List Char :=
  let run := (cs.takeWhile Char.isDigit).take width
  (run, cs.drop run.length)

theorem spanDigits_append (width : Nat) (cs : List Char) :
    (spanDigits width cs).1 ++ (spanDigits width cs).2 = cs := by
  unfold spanDigits
  have h : (cs.takeWhile Char.isDigit).take width <+: cs :=
    (List.take_prefix _ _).trans (List.takeWhile_prefix _)
  simpa using List.prefix_iff_eq_append.mp h

/-- A number of at least one digit at the front of a text, with at most `width` digits. -/
def readNumber? (width : Nat) (cs : List Char) : Option (Nat × List Char) :=
  match spanDigits width cs with
  | ([], _) => none
  | (run, rest) => some (digitsValue run, rest)

/-- The value of a whole text of decimal digits, of which there is at least one. -/
def natOfDigits? (cs : List Char) : Option Nat :=
  if cs = [] ∨ cs.any (fun c => !c.isDigit) then none else some (digitsValue cs)

end Roster.Text
