import Roster.Http.MediaType
import Roster.Http.Uri
import Roster.Json.Written
import Roster.Observation
/-! # HTTP requests and responses -/
namespace Roster.Http

/-- A request whose parts are well formed. The names of headers are in lower case. -/
structure Request where
  method : String
  uri : Uri
  headers : List Field := []
  body : List UInt8 := []
  deriving DecidableEq, Repr

/-- The characters of header values: no control character but the tab. -/
def isHeaderChar (c : Char) : Bool := c == '\t' || 0x20 ≤ c.toNat && c.toNat != 0x7F

def isHeaderValue (s : String) : Bool := s.toList.all isHeaderChar

/-- A text of printable characters of one byte. -/
def isPlainText (s : String) : Bool :=
  s.toList.all fun c => c == '\t' || 0x20 ≤ c.toNat && c.toNat < 0x7F

namespace Request

def ofParts? (method uri : String) (headers : List Field) (body : List UInt8) : Option Request :=
  match Uri.parse? uri with
  | none => none
  | some uri =>
    if isToken method && headers.all fun h => isToken h.1 && isHeaderValue h.2 then
      some { method, uri, body
             headers := headers.map fun h => (.ofList (h.1.toList.map Char.toLower), h.2) }
    else none

/-- The first value of a header. -/
def header? (r : Request) (name : String) : Option String := r.headers.lookup name

end Request

/-- What a response carries. Of a plain text only the beginning is fixed. -/
inductive Body
  | empty
  | json (value : Json)
  | text (text : String)
  deriving Repr

def Body.mediaType? : Body → Option String
  | empty => none
  | json _ => some "application/json"
  | text _ => some "text/plain; charset=utf-8"

structure Response where
  status : Nat
  headers : List Field := []
  body : Body := .empty
  deriving Repr

namespace Response

def ofBody (status : Nat) (body : Body) : Response :=
  { status, body, headers := body.mediaType?.toList.map fun t => ("content-type", t) }

def failure (status : Nat) (message : String) : Response :=
  ofBody status (.json (.object [("error", .text message)]))

def refusal (status : Nat) (message : String) : Response := ofBody status (.text message)

def adding (r : Response) (headers : List Field) : Response := { r with headers := r.headers ++ headers }

/-- The response to a request for the headers alone. -/
def withoutBody (r : Response) : Response := { r with body := .empty }

end Response

end Roster.Http
