import Roster.Invalid
import Roster.User
/-! # Filters of a list query -/
namespace Roster

inductive FilterKey
  | id | country | nickname | firstName | lastName
  deriving DecidableEq, Repr

namespace FilterKey

/-- All keys, in the order in which conditions stand. -/
def all : List FilterKey := [id, country, nickname, firstName, lastName]

theorem mem_all (k : FilterKey) : k ∈ all := by cases k <;> decide

def column : FilterKey → String
  | id => "id"
  | country => "country"
  | nickname => "nickname"
  | firstName => "first_name"
  | lastName => "last_name"

def parse (raw : String) : Except Invalid FilterKey :=
  if raw = "id" then .ok id
  else if raw = "country" then .ok country
  else if raw = "nickname" then .ok nickname
  else if raw = "first_name" ∨ raw = "firstName" then .ok firstName
  else if raw = "last_name" ∨ raw = "lastName" then .ok lastName
  else .error (.unknownFilter raw)

theorem parse_column (k : FilterKey) : parse k.column = .ok k := by cases k <;> rfl

def value (k : FilterKey) (u : User) : String :=
  match k with
  | id => u.id
  | country => u.profile.country
  | nickname => u.profile.nickname
  | firstName => u.profile.firstName
  | lastName => u.profile.lastName

end FilterKey

/-- A conjunction of equalities, at most one for a key. -/
structure Conditions where
  expected : FilterKey → Option String

namespace Conditions

/-- No condition: every account matches. -/
def empty : Conditions := ⟨fun _ => none⟩

def get? (c : Conditions) (k : FilterKey) : Option String := c.expected k

/-- The condition on a key replaces the one it had. -/
def insert (c : Conditions) (k : FilterKey) (v : String) : Conditions :=
  ⟨fun k' => if k' = k then some v else c.expected k'⟩

/-- An empty value sets no condition. -/
def insertSupplied (c : Conditions) (k : FilterKey) (v : String) : Conditions :=
  if v = "" then c else c.insert k v

def entries (c : Conditions) : List (FilterKey × String) :=
  FilterKey.all.filterMap fun k => (c.get? k).map fun v => (k, v)

@[simp] theorem get?_empty (k : FilterKey) : empty.get? k = none := rfl

theorem get?_insert (c : Conditions) (k k' : FilterKey) (v : String) :
    (c.insert k v).get? k' = if k' = k then some v else c.get? k' := rfl

theorem mem_entries {c : Conditions} {k : FilterKey} {v : String} :
    (k, v) ∈ c.entries ↔ c.get? k = some v := by
  simp only [entries, List.mem_filterMap, Option.map_eq_some_iff, Prod.mk.injEq]
  constructor
  · rintro ⟨k', _, v', h, rfl, rfl⟩
    exact h
  · intro h
    exact ⟨k, FilterKey.mem_all k, v, h, rfl, rfl⟩

def holds (c : Conditions) (u : User) : Bool :=
  c.entries.all fun e => e.1.value u == e.2

end Conditions

end Roster
