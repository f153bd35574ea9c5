import Roster.Text.Digits
/-! # The shortest decimal of a number in floating point

A number of 64 bits in floating point stands for all the reals that are rounded to it. Its text is
the one of fewest digits among them, and of several the nearest to the number. -/
namespace Roster.Text

/-- The reals that are rounded to one number, in units of a power of ten: the number itself, how
far they reach below and above it, and whether the two ends belong to them. -/
structure Neighbourhood where
  centre : Nat
  below : Nat
  above : Nat
  closed : Bool
  exponent : Int
  deriving DecidableEq, Repr

/-- Around `significand * 2 ^ power`, half way to the numbers on either side. Below the first
number of a power of two the numbers lie twice as close. -/
def Neighbourhood.around (significand : Nat) (power : Int) (first : Bool) : Neighbourhood :=
  let quarter := if power < 2 then Nat.pow 5 (2 - power).toNat else Nat.pow 2 (power - 2).toNat
  { centre := 4 * significand * quarter
    below := if first then quarter else 2 * quarter
    above := 2 * quarter
    closed := significand % 2 = 0
    exponent := min (power - 2) 0 }

/-- The fields of a finite number: eleven bits of exponent and fifty-two of fraction. -/
def Neighbourhood.ofFloat (x : Float) : Neighbourhood :=
  let bits := x.toBits.toNat
  let fraction := bits % 0x10000000000000
  let exponent := bits / 0x10000000000000 % 0x800
  if exponent = 0 then around fraction (-1074) false
  else around (0x10000000000000 + fraction) (exponent - 1075) (fraction = 0 ∧ 1 < exponent)

def Neighbourhood.contains (x : Neighbourhood) (n : Nat) : Bool :=
  (x.centre < n + x.below && n < x.centre + x.above) ||
    (x.closed && (n + x.below = x.centre || n = x.centre + x.above))

theorem Neighbourhood.contains_centre (x : Neighbourhood) (hb : 0 < x.below) (ha : 0 < x.above) :
    x.contains x.centre = true := by
  simp [contains, hb, ha]

/-- The member that is nearest to the centre among the multiples of a power of ten, divided by it;
half way between two of them, the even one. -/
def Neighbourhood.nearest? (x : Neighbourhood) (zeros : Nat) : Option Nat :=
  let unit := Nat.pow 10 zeros
  let low := x.centre / unit
  let twice := 2 * (x.centre % unit)
  let (near, far) :=
    if twice < unit ∨ twice = unit ∧ low % 2 = 0 then (low, low + 1) else (low + 1, low)
  [near, far].find? fun n => x.contains (n * unit)

/-- A member as few of whose digits as possible are not final zeros: what stands before those zeros,
and the power of ten that it is multiplied with. -/
def Neighbourhood.shortest (x : Neighbourhood) : List Char × Int :=
  let length := (decimal x.centre).length
  let found := (List.range 17).findSome? fun n =>
    (x.nearest? (length - (n + 1))).map fun d => (d, length - (n + 1))
  let (digits, zeros) := found.getD (x.centre, 0)
  let final := (decimal digits).reverse.takeWhile (· = '0')
  ((decimal digits).take ((decimal digits).length - final.length),
    x.exponent + zeros + final.length)

/-- Digits times a power of ten: with a point if it lies among sixteen digits before it or four
zeros after it, and with an exponent otherwise. -/
def pointed (digits : List Char) (exponent : Int) : List Char :=
  let place := digits.length + exponent
  let zeros (n : Int) := List.replicate n.toNat '0'
  if 0 ≤ exponent ∧ place ≤ 16 then digits ++ zeros exponent ++ ['.', '0']
  else if 0 < place ∧ place ≤ 16 then digits.take place.toNat ++ '.' :: digits.drop place.toNat
  else if -5 < place ∧ place ≤ 0 then '0' :: '.' :: zeros (-place) ++ digits
  else
    let tail := digits.drop 1
    digits.take 1 ++ (if tail = [] then [] else '.' :: tail) ++
      'e' :: (if place < 1 then '-' else '+') :: decimal (place - 1).natAbs

def writeMagnitude (x : Float) : List Char :=
  if x == 0 then ['0', '.', '0']
  else
    let (digits, exponent) := (Neighbourhood.ofFloat x).shortest
    pointed digits exponent

end Roster.Text
