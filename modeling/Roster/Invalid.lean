/-! # What is wrong with a caller's input -/
namespace Roster

/-- The constraint that an input breaks. -/
inductive Invalid
  | passwordMismatch
  | missingId
  | limitTooLarge (limit max : UInt32)
  | unknownFilter (key : String)
  deriving DecidableEq, Repr

def Invalid.message : Invalid → String
  | passwordMismatch => "passwords do not match"
  | missingId => "id cannot be empty"
  | limitTooLarge limit max => s!"limit {limit} is greater than {max}"
  | unknownFilter key => "unknown filter key: " ++ key

end Roster
