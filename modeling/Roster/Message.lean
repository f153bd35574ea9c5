import Roster.Filter
import Roster.Observation
import Roster.Page
import Roster.Time.Written
/-! # Requests and responses of the four operations -/
namespace Roster

structure CreateUser where
  profile : Profile := {}
  passwordConfirm : String := ""
  deriving DecidableEq, Repr, Inhabited

structure CreatedUser where
  id : String
  deriving DecidableEq, Repr, Inhabited

/-- Asks for a page of the accounts that match. Empty texts set no condition. -/
structure ListUsers where
  limit : UInt32 := 0
  offset : UInt32 := 0
  id : String := ""
  country : String := ""
  nickname : String := ""
  firstName : String := ""
  lastName : String := ""
  deriving DecidableEq, Repr, Inhabited

/-- What is shown of an account: all but the password. -/
structure UserView where
  id : String := ""
  firstName : String := ""
  lastName : String := ""
  nickname : String := ""
  email : String := ""
  country : String := ""
  createdAt : String := ""
  updatedAt : String := ""
  deriving DecidableEq, Repr, Inhabited

/-- Asks to change the supplied attributes of an account. -/
structure UpdateUser where
  id : String := ""
  profile : Profile := {}
  createdAt : String := ""
  updatedAt : String := ""
  deriving DecidableEq, Repr, Inhabited

structure DeleteUser where
  id : String := ""
  deriving DecidableEq, Repr, Inhabited

structure Status where
  status : Bool
  message : String
  deriving DecidableEq, Repr, Inhabited

/-- The snapshot of an account that subscribers receive after a change. -/
structure Envelope where
  id : String := ""
  firstName : String := ""
  lastName : String := ""
  nickname : String := ""
  email : String := ""
  country : String := ""
  createdAt : String := ""
  updatedAt : String := ""
  deriving DecidableEq, Repr, Inhabited

def defaultChannel : String := "roster_user_updated"

namespace CreateUser

def validate (r : CreateUser) : Except Invalid Unit :=
  if r.profile.password = r.passwordConfirm then .ok () else .error .passwordMismatch

def observed (r : CreateUser) : Observed where
  log := [("nickname", r.profile.nickname), ("email", r.profile.email),
    ("country", r.profile.country)]
  trace := [("nickname", r.profile.nickname)]
  report := [("nickname", r.profile.nickname), ("email", r.profile.email)]

end CreateUser

def CreatedUser.observed (r : CreatedUser) : Observed where
  log := [("id", r.id)]
  trace := [("id", r.id)]

namespace ListUsers

def filter (r : ListUsers) : FilterKey → String
  | .id => r.id
  | .country => r.country
  | .nickname => r.nickname
  | .firstName => r.firstName
  | .lastName => r.lastName

def withFilter (r : ListUsers) (k : FilterKey) (v : String) : ListUsers :=
  match k with
  | .id => { r with id := v }
  | .country => { r with country := v }
  | .nickname => { r with nickname := v }
  | .firstName => { r with firstName := v }
  | .lastName => { r with lastName := v }

theorem filter_withFilter (r : ListUsers) (k k' : FilterKey) (v : String) :
    (r.withFilter k v).filter k' = if k' = k then v else r.filter k' := by
  cases k <;> cases k' <;> rfl

/-- Sets the filter that a caller names; a name that is no key changes nothing. -/
def setFilter (r : ListUsers) (key value : String) : Except Invalid ListUsers :=
  (FilterKey.parse key).map fun k => r.withFilter k value

def conditions (r : ListUsers) : Conditions :=
  FilterKey.all.foldl (fun c k => c.insertSupplied k (r.filter k)) Conditions.empty

def observed (r : ListUsers) : Observed :=
  .everywhere (("limit", toString r.limit.toNat) :: ("offset", toString r.offset.toNat) ::
    r.conditions.entries.map fun e => (e.1.column, e.2))

end ListUsers

def UserView.ofUser (u : User) : UserView where
  id := u.id
  firstName := u.profile.firstName
  lastName := u.profile.lastName
  nickname := u.profile.nickname
  email := u.profile.email
  country := u.profile.country
  createdAt := u.createdAt.format
  updatedAt := u.updatedAt.format

/-- A page of accounts shows observers its length alone. -/
def observedViews (views : List UserView) : Observed where
  log := [("count", toString views.length)]
  trace := [("count", toString views.length)]

namespace UpdateUser

def validate (r : UpdateUser) : Except Invalid Unit :=
  if r.id = "" then .error .missingId else .ok ()

def envelope (r : UpdateUser) : Envelope where
  id := r.id
  firstName := r.profile.firstName
  lastName := r.profile.lastName
  nickname := r.profile.nickname
  email := r.profile.email
  country := r.profile.country
  createdAt := r.createdAt
  updatedAt := r.updatedAt

def changedColumns (r : UpdateUser) : String :=
  ",".intercalate (r.profile.supplied.map fun e => e.1.column)

def observed (r : UpdateUser) : Observed :=
  .everywhere [("id", r.id), ("changed", r.changedColumns)]

end UpdateUser

namespace DeleteUser

def validate (r : DeleteUser) : Except Invalid Unit :=
  if r.id = "" then .error .missingId else .ok ()

def observed (r : DeleteUser) : Observed := .everywhere [("id", r.id)]

end DeleteUser

def Status.ok : Status := ⟨true, "OK"⟩

def Status.observed (_ : Status) : Observed := {}

end Roster
