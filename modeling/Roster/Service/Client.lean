import Roster.Service.Users
/-! # Typed answers

A client expects the response that belongs to its request. -/
namespace Roster

namespace Request

def fits : Request → Response → Bool
  | create _, .created _ => true
  | list _, .users _ => true
  | update _, .status _ => true
  | delete _, .status _ => true
  | _, _ => false

/-- What a client makes of the result of a call: a response to another request is a failure. -/
def accept (r : Request) : Except OperationError Response → Except OperationError Response
  | .ok response =>
    if r.fits response then .ok response
    else .error (.unavailable r.name ["unexpected response variant: " ++ response.describe])
  | e => e

end Request

end Roster
