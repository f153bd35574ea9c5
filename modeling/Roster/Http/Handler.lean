import Roster.Http.Cors
import Roster.Http.Demand
import Roster.Server
/-! # A server behind HTTP

Every request is answered inside a span and carries an identifier, its own or a fresh one. A call
that takes longer than a request may take is abandoned. -/
namespace Roster
open Http

def Response.toJson : Response → Json
  | .created r => r.toJson
  | .users views => UserView.listToJson views
  | .status r => r.toJson

def BuildInfo.toJson (b : BuildInfo) : Json :=
  .object [("buildTime", .text b.buildTime), ("version", .text b.version), ("commit", .text b.commit)]

namespace Http

def requestIdHeader : String := "x-request-id"

/-- The identifier of a request; the first that it carries counts. -/
def Request.id (r : Request) (fresh : String) : String := (r.header? requestIdHeader).getD fresh

/-- The span around a request. An identifier that is no plain text is not shown. -/
def Request.opened (r : Request) (fresh : String) : Note :=
  let id := r.id fresh
  .opened "http" [("method", r.method), ("uri", r.uri.render),
    ("request_id", if isPlainText id then id else "")]

/-- The response to a call; there is no result if it was abandoned. -/
def Response.ofResult : Option (Except OperationError Roster.Response) → Response
  | none => { status := 408 }
  | some (.ok response) => .ofBody 200 (.json response.toJson)
  | some (.error e) => failed e

/-- A refusal while a request is waited for. If it is not, of the refusal only the methods that are
allowed are told. -/
def Response.within (patience : Nat) (refusal : Response) : Response :=
  if patience = 0 then
    { status := 408, headers := refusal.headers.filter fun h => h.1 == "allow" }
  else refusal

def Response.ofReadiness : Except NotReady Unit → Response
  | .ok _ => { status := 200 }
  | .error e => .failure 503 e.message

end Http

namespace Server

/-- How long a request is waited for. Timers ring at whole milliseconds: one that is set between two
of them does not ring at once. -/
def patience (s : Server) : Nat :=
  let ms := s.http.requestTimeoutMs.toNat
  if s.onTick then ms else max 1 ms

def meet (s : Server) (draw : Draw) (method url : String) : Demand → Step Http.Response
  | .live => { value := { status := 200 }, server := s }
  | .version => { value := .ofBody 200 (.json (BuildInfo.toJson {})), server := s }
  | .ready => s.readiness.map .ofReadiness
  | .call request =>
    let (s, context) := s.context (.http method url)
    let context := { context with abandonedAt := some s.patience }
    (s.run draw { context, request }).map .ofResult

/-- Answers a request, without the headers that every response has. -/
def answer (s : Server) (draw : Draw) (r : Http.Request) : Step Http.Response :=
  if r.method = "OPTIONS" then
    let allow := (Route.ofPath? r.uri.path).toList.map fun route => ("allow", route.allowed)
    { value := preflight.adding allow, server := s }
  else
    match r.demand with
    | .error refusal => { value := refusal.within s.patience, server := s }
    | .ok demand =>
      if s.patience = 0 then { value := { status := 408 }, server := s }
      else s.meet draw r.method r.uri.target demand

def respond (s : Server) (draw : Draw) (freshRequestId : String) (r : Http.Request) :
    Step Http.Response :=
  let step := s.answer draw r
  let value := if r.method = "HEAD" then step.value.withoutBody else step.value
  { step with
    value := value.adding
      (corsHeaders s.http.corsOrigins r ++ [(requestIdHeader, r.id freshRequestId)])
    notes := r.opened freshRequestId :: step.notes ++ [.closed []] }

end Server

end Roster
