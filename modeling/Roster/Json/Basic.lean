/-! # JSON values -/
namespace Roster

/-- A number, as its digits give it: a natural number or a negative whole number of at most 64
bits, or a significand with a power of ten. -/
inductive Json.Number
  | natural (n : Nat)
  | negative (n : Nat)
  | scaled (isNegative : Bool) (significand : Nat) (exponent : Int)
  deriving DecidableEq, Repr

/-- A JSON value. The members of an object keep their order. -/
inductive Json
  | null
  | bool (b : Bool)
  | number (n : Json.Number)
  | text (s : String)
  | list (items : List Json)
  | object (members : List (String × Json))
  deriving Repr, Inhabited

def Json.natural (n : Nat) : Json := .number (.natural n)

end Roster
