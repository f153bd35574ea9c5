import Roster.Http.Form
import Roster.Http.Message
import Roster.Operation
import Roster.Text.Integer
import Roster.Wire
/-! # What an HTTP request asks for

A request is understood before the server is asked: its path, its method, and then the parts that
the path and the method call for. Whatever cannot be understood is refused. -/
namespace Roster.Http

inductive Route
  | users
  | user (escapedId : String)
  | live
  | ready
  | version
  deriving DecidableEq, Repr

namespace Route

def ofPath? (path : String) : Option Route :=
  if path = "/user" then some users
  else if path = "/health/live" then some live
  else if path = "/health/ready" then some ready
  else if path = "/health/version" then some version
  else
    match path.toList with
    | '/' :: 'u' :: 's' :: 'e' :: 'r' :: '/' :: id =>
      if id = [] ∨ id.contains '/' then none else some (user (.ofList id))
    | _ => none

def allowed : Route → String
  | users => "GET,HEAD,POST"
  | user _ => "PUT,DELETE"
  | live | ready | version => "GET,HEAD"

end Route

inductive Demand
  | call (request : Roster.Request)
  | live
  | ready
  | version
  deriving Repr

def maxBody : Nat := 2097152

/-- The characters of a body. A byte that is part of no text stands as a control character, which no
JSON text holds. -/
def bodyText (body : List UInt8) : String := .ofList (Text.decodeWith '\x01' body)

/-- Reads a body that must be the JSON text of some message. -/
def readBody {α : Type} (decode : String → Except Json.Fault α) (r : Request) : Except Response α :=
  if !((r.header? "content-type").bind MediaType.parse?).any (·.isJson) then
    .error (.refusal 415 "Expected request with \x60Content-Type")
  else if maxBody < r.body.length then .error (.refusal 413 "Failed to buffer the request body")
  else
    match decode (bodyText r.body) with
    | .ok message => .ok message
    | .error fault =>
      match fault.cause.kind with
      | .unfit => .error (.refusal 422 "Failed to deserialize the JSON body into the target type")
      | _ => .error (.refusal 400 "Failed to parse the request body as JSON")

def failed (e : OperationError) : Response := .failure e.code e.publicMessage

def readCount (key value : String) : Except Response UInt32 :=
  match Text.parseNatural? value with
  | some n =>
    if n < 0x100000000 then .ok (.ofNat n)
    else .error (.failure 400 ("bad request: " ++ key ++ " must be a non-negative integer"))
  | none => .error (.failure 400 ("bad request: " ++ key ++ " must be a non-negative integer"))

def addParameter (r : ListUsers) (parameter : String × String) : Except Response ListUsers :=
  match parameter.1 with
  | "limit" => (readCount "limit" parameter.2).map fun n => { r with limit := n }
  | "offset" => (readCount "offset" parameter.2).map fun n => { r with offset := n }
  | key => (r.setFilter key parameter.2).mapError fun e => failed (.invalid e)

/-- The request for a page that the parameters of a query make. -/
def listOfParameters (parameters : List (String × String)) : Except Response ListUsers :=
  parameters.foldlM addParameter {}

def pathId (escaped : String) : Except Response String :=
  match unescapeSegment? escaped with
  | some id => .ok id
  | none => .error (.refusal 400 "Invalid URL")

def Request.demand (r : Request) : Except Response Demand :=
  match Route.ofPath? r.uri.path with
  | none => .error { status := 404 }
  | some route =>
    match route, r.method with
    | .users, "GET" | .users, "HEAD" => do
      let parameters := lastValues (fields (r.uri.query.getD ""))
      return .call (.list (← listOfParameters parameters))
    | .users, "POST" => (readBody CreateUser.decode r).map fun m => .call (.create m)
    | .user escaped, "PUT" => do
      let id ← pathId escaped
      let m ← readBody UpdateUser.decode r
      return .call (.update { m with id })
    | .user escaped, "DELETE" => (pathId escaped).map fun id => .call (.delete { id })
    | .live, "GET" | .live, "HEAD" => .ok .live
    | .ready, "GET" | .ready, "HEAD" => .ok .ready
    | .version, "GET" | .version, "HEAD" => .ok .version
    | route, _ => .error { status := 405, headers := [("allow", route.allowed)] }

end Roster.Http
