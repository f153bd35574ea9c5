import Roster.Json.Record
import Roster.Json.Written
import Roster.Message
/-! # Messages as JSON text

Members stand in the order of the fields, an embedded profile at the place of its field. Reading
gives a missing member its default; only a created identifier and a status need all of theirs. -/
namespace Roster
open Json

namespace Json.Record

def get? (r : Record) (name : String) : Option Datum :=
  (r.find? fun e => e.1 == name).map (·.2)

/-- A member that is a text; empty when it is missing. -/
def text (r : Record) (name : String) : String :=
  match get? r name with
  | some (.text s) => s
  | _ => ""

/-- A member that is a count; zero when it is missing. -/
def count (r : Record) (name : String) : UInt32 :=
  match get? r name with
  | some (.count n) => n
  | _ => 0

/-- A member that is a flag; false when it is missing. -/
def flag (r : Record) (name : String) : Bool :=
  match get? r name with
  | some (.flag b) => b
  | _ => false

def toJson (r : Record) : Json := .object (r.map fun e => (e.1, e.2.toJson))

end Json.Record

def textMembers (names : List String) : List (String × Kind) := names.map fun n => (n, .text)

namespace Profile

def shape : Shape := ⟨"UserFields", textMembers (Attribute.all.map Attribute.wireName), false⟩

def ofRecord (r : Record) : Profile := .ofFn fun a => Record.text r a.wireName

def toRecord (p : Profile) : Record :=
  Attribute.all.map fun a => (a.wireName, .text (p.get a))

def decode (s : String) : Except Fault Profile := (readWhole (readRecord shape) s).map ofRecord

def toJson (p : Profile) : Json := Record.toJson p.toRecord

end Profile

namespace CreateUser

def ownMembers : List String := ["passwordConfirm"]

def ofParts (own : List (String × String)) (p : Profile) : CreateUser :=
  ⟨p, (own.lookup "passwordConfirm").getD ""⟩

def read (cs : List Char) : Except Fault (CreateUser × List Char) :=
  (readEmbedded "CreateUserRequest" ownMembers cs).map fun r => (ofParts r.1.1 r.1.2, r.2)

def decode (s : String) : Except Fault CreateUser := readWhole read s

def toRecord (r : CreateUser) : Record :=
  r.profile.toRecord ++ [("passwordConfirm", .text r.passwordConfirm)]

def toJson (r : CreateUser) : Json := Record.toJson r.toRecord

end CreateUser

namespace CreatedUser

def shape : Shape := ⟨"CreateUserResponse", textMembers ["id"], true⟩

def ofRecord (r : Record) : CreatedUser := ⟨r.text "id"⟩

def toRecord (r : CreatedUser) : Record := [("id", .text r.id)]

def decode (s : String) : Except Fault CreatedUser :=
  (readWhole (readRecord shape) s).map ofRecord

def toJson (r : CreatedUser) : Json := Record.toJson r.toRecord

end CreatedUser

namespace ListUsers

def shape : Shape where
  name := "GetUsersRequest"
  members := [("limit", .count), ("offset", .count)] ++
    textMembers ["id", "country", "nickname", "firstName", "lastName"]

def ofRecord (r : Record) : ListUsers where
  limit := r.count "limit"
  offset := r.count "offset"
  id := r.text "id"
  country := r.text "country"
  nickname := r.text "nickname"
  firstName := r.text "firstName"
  lastName := r.text "lastName"

def toRecord (r : ListUsers) : Record :=
  [("limit", .count r.limit), ("offset", .count r.offset), ("id", .text r.id),
    ("country", .text r.country), ("nickname", .text r.nickname),
    ("firstName", .text r.firstName), ("lastName", .text r.lastName)]

def decode (s : String) : Except Fault ListUsers := (readWhole (readRecord shape) s).map ofRecord

def toJson (r : ListUsers) : Json := Record.toJson r.toRecord

end ListUsers

/-- The members of a view and of an envelope. -/
def viewMembers : List String :=
  ["id", "firstName", "lastName", "nickname", "email", "country", "createdAt", "updatedAt"]

namespace UserView

def shape : Shape := ⟨"UserView", textMembers viewMembers, false⟩

def ofRecord (r : Record) : UserView where
  id := r.text "id"
  firstName := r.text "firstName"
  lastName := r.text "lastName"
  nickname := r.text "nickname"
  email := r.text "email"
  country := r.text "country"
  createdAt := r.text "createdAt"
  updatedAt := r.text "updatedAt"

def toRecord (v : UserView) : Record :=
  [("id", .text v.id), ("firstName", .text v.firstName), ("lastName", .text v.lastName),
    ("nickname", .text v.nickname), ("email", .text v.email), ("country", .text v.country),
    ("createdAt", .text v.createdAt), ("updatedAt", .text v.updatedAt)]

def decode (s : String) : Except Fault UserView := (readWhole (readRecord shape) s).map ofRecord

def toJson (v : UserView) : Json := Record.toJson v.toRecord

def decodeList (s : String) : Except Fault (List UserView) :=
  (readWhole (readRecords shape) s).map fun rs => rs.map ofRecord

def listToJson (vs : List UserView) : Json := .list (vs.map toJson)

end UserView

namespace UpdateUser

def ownMembers : List String := ["id", "createdAt", "updatedAt"]

def ofParts (own : List (String × String)) (p : Profile) : UpdateUser where
  id := (own.lookup "id").getD ""
  profile := p
  createdAt := (own.lookup "createdAt").getD ""
  updatedAt := (own.lookup "updatedAt").getD ""

def read (cs : List Char) : Except Fault (UpdateUser × List Char) :=
  (readEmbedded "UpdateUserRequest" ownMembers cs).map fun r => (ofParts r.1.1 r.1.2, r.2)

def decode (s : String) : Except Fault UpdateUser := readWhole read s

def toRecord (r : UpdateUser) : Record :=
  ("id", .text r.id) :: r.profile.toRecord ++
    [("createdAt", .text r.createdAt), ("updatedAt", .text r.updatedAt)]

def toJson (r : UpdateUser) : Json := Record.toJson r.toRecord

end UpdateUser

namespace DeleteUser

def shape : Shape := ⟨"DeleteUserRequest", textMembers ["id"], false⟩

def ofRecord (r : Record) : DeleteUser := ⟨r.text "id"⟩

def toRecord (r : DeleteUser) : Record := [("id", .text r.id)]

def decode (s : String) : Except Fault DeleteUser := (readWhole (readRecord shape) s).map ofRecord

def toJson (r : DeleteUser) : Json := Record.toJson r.toRecord

end DeleteUser

namespace Status

def shape : Shape := ⟨"Status", [("status", .flag), ("message", .text)], true⟩

def ofRecord (r : Record) : Status := ⟨r.flag "status", r.text "message"⟩

def toRecord (s : Status) : Record := [("status", .flag s.status), ("message", .text s.message)]

def decode (s : String) : Except Fault Status := (readWhole (readRecord shape) s).map ofRecord

def toJson (s : Status) : Json := Record.toJson s.toRecord

end Status

namespace Envelope

def shape : Shape := ⟨"UserEnvelope", textMembers viewMembers, false⟩

def ofRecord (r : Record) : Envelope where
  id := r.text "id"
  firstName := r.text "firstName"
  lastName := r.text "lastName"
  nickname := r.text "nickname"
  email := r.text "email"
  country := r.text "country"
  createdAt := r.text "createdAt"
  updatedAt := r.text "updatedAt"

/-- The identifier, and the other members that are not empty. -/
def toRecord (e : Envelope) : Record :=
  ("id", .text e.id) ::
    [("firstName", Datum.text e.firstName), ("lastName", .text e.lastName),
      ("nickname", .text e.nickname), ("email", .text e.email), ("country", .text e.country),
      ("createdAt", .text e.createdAt), ("updatedAt", .text e.updatedAt)].filter
      fun m => m.2 != .text ""

def decode (s : String) : Except Fault Envelope := (readWhole (readRecord shape) s).map ofRecord

def toJson (e : Envelope) : Json := Record.toJson e.toRecord

def encode (e : Envelope) : String := e.toJson.render

end Envelope

end Roster
