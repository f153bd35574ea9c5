import Roster.Time.Timestamp
import Roster.Text.Blank
import Roster.Text.Digits
/-! # Timestamps as text

A timestamp is written as date, `T` and time of day, without a zone. The fraction has only its
significant digits and is left out when it is zero. Reading accepts one or two digits for each
part, blanks before a number, a signed year of any length, and a fraction of any length. -/
namespace Roster.Time
open Roster.Text

/-- Four digits for the years that have four; a sign and at least four digits for the others. -/
def writeYear (y : Int) : List Char :=
  if 0 ≤ y ∧ y ≤ 9999 then padded 4 y.toNat
  else (if y < 0 then '-' else '+') :: padded 4 y.natAbs

/-- The nanoseconds of a second without the zeros they end in; nothing for a whole second. -/
def writeFraction (nanos : Nat) : List Char :=
  if nanos = 0 then []
  else '.' :: ((padded 9 nanos).reverse.dropWhile (· == '0')).reverse

def Timestamp.toChars (t : Timestamp) : List Char :=
  let d := t.date
  let s := t.secondOfDay
  writeYear d.year ++ '-' :: padded 2 d.month ++ '-' :: padded 2 d.day ++
    'T' :: padded 2 (s / 3600) ++ ':' :: padded 2 (s / 60 % 60) ++
    ':' :: padded 2 (s % 60 + t.nanos / 1000000000) ++ writeFraction (t.nanos % 1000000000)

def Timestamp.format (t : Timestamp) : String := String.ofList t.toChars

/-- A number of one or two digits, after blanks. -/
def readPart? (cs : List Char) : Option (Nat × List Char) := readNumber? 2 (trimLeft cs)

/-- A year: at most four digits, or a sign and any number of digits, after blanks. -/
def readYear? (cs : List Char) : Option (Int × List Char) :=
  match trimLeft cs with
  | '-' :: rest => (readNumber? rest.length rest).map fun (n, more) => (-(n : Int), more)
  | '+' :: rest => (readNumber? rest.length rest).map fun (n, more) => ((n : Int), more)
  | rest => (readNumber? 4 rest).map fun (n, more) => ((n : Int), more)

/-- A point and digits, of which nine count; or nothing. -/
def readFraction? (cs : List Char) : Option (Nat × List Char) :=
  match cs with
  | '.' :: rest =>
    match spanDigits 9 rest with
    | ([], _) => none
    | (run, more) =>
      some (digitsValue run * Nat.pow 10 (9 - run.length), more.dropWhile Char.isDigit)
  | _ => some (0, cs)

def readMark? (mark : Char) (cs : List Char) : Option (List Char) :=
  match cs with
  | c :: rest => if c = mark then some rest else none
  | [] => none

/-- The instant of a date and a time of day; second 60 is the leap second after second 59. -/
def Timestamp.ofCivil? (d : Date) (hour minute second nanos : Nat) : Option Timestamp :=
  if d.Valid ∧ hour ≤ 23 ∧ minute ≤ 59 ∧ second ≤ 60 then
    let whole := min second 59
    of? (d.toDays * 86400 + (hour * 3600 + minute * 60 + whole : Nat))
      ((second - whole) * 1000000000 + nanos)
  else none

def Timestamp.ofChars? (cs : List Char) : Option Timestamp := do
  let (year, cs) ← readYear? cs
  let (month, cs) ← readPart? (← readMark? '-' cs)
  let (day, cs) ← readPart? (← readMark? '-' cs)
  let (hour, cs) ← readPart? (← readMark? 'T' cs)
  let (minute, cs) ← readPart? (← readMark? ':' cs)
  let (second, cs) ← readPart? (← readMark? ':' cs)
  let (nanos, cs) ← readFraction? cs
  if cs = [] then ofCivil? ⟨year, month, day⟩ hour minute second nanos else none

/-- The instant that a text stands for; `none` for any text that is no timestamp. -/
def Timestamp.parse? (s : String) : Option Timestamp := ofChars? s.toList

end Roster.Time
