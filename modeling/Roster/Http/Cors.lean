import Roster.Http.Message
/-! # Requests from other origins -/
namespace Roster.Http

/-- The origin that a response names as allowed: any, or the one that asks if it is in the list. -/
def allowedOrigin (origins : List String) (origin : Option String) : Option String :=
  if origins.contains "*" then some "*"
  else origin.filter fun o => isHeaderValue o && origins.contains o

def corsHeaders (origins : List String) (r : Request) : List Field :=
  ("vary", "origin, access-control-request-method, access-control-request-headers") ::
    (allowedOrigin origins (r.header? "origin")).toList.map fun o => ("access-control-allow-origin", o)

/-- The answer to a browser that asks before it sends a request. -/
def preflight : Response :=
  { status := 200
    headers := [("access-control-allow-methods", "GET,POST,PUT,DELETE"),
      ("access-control-allow-headers", "*")] }

end Roster.Http
