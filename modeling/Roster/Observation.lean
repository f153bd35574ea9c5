/-! # What observers may see of a message -/
namespace Roster

abbrev Field := String × String

/-- Fields as `key=value`, with a space between two. -/
def renderFields (fields : List Field) : String :=
  " ".intercalate (fields.map fun f => f.1 ++ "=" ++ f.2)

/-- The fields of a message for logs, for spans, and for error reports. -/
structure Observed where
  log : List Field := []
  trace : List Field := []
  report : List Field := []
  deriving DecidableEq, Repr, Inhabited

def Observed.everywhere (fields : List Field) : Observed := ⟨fields, fields, fields⟩

end Roster
