import Roster.Invalid
/-! # Pages of a list -/
namespace Roster

/-- A window of a list: at most `limit` rows, from row `offset` counted from one. -/
structure Page where
  limit : UInt32
  offset : UInt32
  deriving DecidableEq, Repr

namespace Page

def defaultLimit : UInt32 := 50

/-- The greatest size of a page unless configured otherwise. -/
def defaultMaxLimit : UInt32 := 500

/-- The window of the values a caller asks for: zero stands for the default of each. -/
def resolve (limit offset maxLimit : UInt32) : Except Invalid Page :=
  if maxLimit < limit then .error (.limitTooLarge limit maxLimit)
  else .ok {
    limit := if limit = 0 then (if maxLimit < defaultLimit then maxLimit else defaultLimit) else limit
    offset := if offset = 0 then 1 else offset }

def skip (p : Page) : UInt32 := if p.offset = 0 then 0 else p.offset - 1

theorem resolve_eq_error_iff {limit offset maxLimit : UInt32} :
    resolve limit offset maxLimit = .error (.limitTooLarge limit maxLimit) ↔ maxLimit < limit := by
  unfold resolve
  split <;> simp_all

def slice {α : Type} (p : Page) (rows : List α) : List α :=
  (rows.drop p.skip.toNat).take p.limit.toNat

end Page

end Roster
