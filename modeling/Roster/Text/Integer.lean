import Roster.Text.Digits
/-! # Whole numbers in the words of a command line or a query -/
namespace Roster.Text

def parseNatural? (s : String) : Option Nat :=
  match s.toList with
  | '+' :: ds => natOfDigits? ds
  | ds => natOfDigits? ds

def parseInteger? (s : String) : Option Int :=
  match s.toList with
  | '+' :: ds => (natOfDigits? ds).map Int.ofNat
  | '-' :: ds => (natOfDigits? ds).map fun n => -(n : Int)
  | ds => (natOfDigits? ds).map Int.ofNat

def splitCommas (s : String) : List String :=
  ((s.toList.splitOn ',').map String.ofList)

end Roster.Text
