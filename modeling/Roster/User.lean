import Roster.Time.Timestamp
/-! # User accounts

The empty text stands for "not supplied" in every attribute. -/
namespace Roster
open Time

inductive Attribute
  | firstName | lastName | nickname | password | email | country
  deriving DecidableEq, Repr

namespace Attribute

/-- All attributes, in the order of their columns. -/
def all : List Attribute := [firstName, lastName, nickname, password, email, country]

theorem mem_all (a : Attribute) : a ∈ all := by cases a <;> decide

def column : Attribute → String
  | firstName => "first_name"
  | lastName => "last_name"
  | nickname => "nickname"
  | password => "password"
  | email => "email"
  | country => "country"

def wireName : Attribute → String
  | firstName => "firstName"
  | lastName => "lastName"
  | nickname => "nickname"
  | password => "password"
  | email => "email"
  | country => "country"

end Attribute

structure Profile where
  firstName : String := ""
  lastName : String := ""
  nickname : String := ""
  password : String := ""
  email : String := ""
  country : String := ""
  deriving DecidableEq, Repr, Inhabited

namespace Profile

def get (p : Profile) : Attribute → String
  | .firstName => p.firstName
  | .lastName => p.lastName
  | .nickname => p.nickname
  | .password => p.password
  | .email => p.email
  | .country => p.country

def ofFn (f : Attribute → String) : Profile :=
  ⟨f .firstName, f .lastName, f .nickname, f .password, f .email, f .country⟩

@[simp] theorem get_ofFn (f : Attribute → String) (a : Attribute) : (ofFn f).get a = f a := by
  cases a <;> rfl

@[ext] theorem ext_get {p q : Profile} (h : ∀ a, p.get a = q.get a) : p = q := by
  cases p; cases q
  simp only [mk.injEq]
  exact ⟨h .firstName, h .lastName, h .nickname, h .password, h .email, h .country⟩

/-- The attributes with a value, in the order of their columns. -/
def supplied (p : Profile) : List (Attribute × String) :=
  (Attribute.all.map fun a => (a, p.get a)).filter fun e => e.2 != ""

/-- Each supplied attribute of `changes` replaces the one it had. -/
def overwrite (p changes : Profile) : Profile :=
  ofFn fun a => if changes.get a = "" then p.get a else changes.get a

theorem get_overwrite (p changes : Profile) (a : Attribute) :
    (p.overwrite changes).get a = if changes.get a = "" then p.get a else changes.get a := by
  simp [overwrite]

end Profile

structure User where
  id : String
  profile : Profile
  createdAt : Timestamp
  updatedAt : Timestamp
  deriving DecidableEq, Inhabited

/-- The account after a change at a given instant. -/
def User.apply (u : User) (changes : Profile) (now : Timestamp) : User :=
  { u with profile := u.profile.overwrite changes, updatedAt := now }

end Roster
