import Roster.Proofs.Accounts
import Roster.Proofs.Broadcast
import Roster.Proofs.Outcome
import Roster.Proofs.Sendings
/-! # What is refused leaves no trace

A request is understood as its method and its path say, or it is refused. Unless it is a change that
succeeds, the store keeps its rows, nothing is announced, and whether the server is ready depends on
nothing but the time that has passed. -/
namespace Roster
namespace Http

/-- What a request asks for is told by its method, and the account by its path. -/
inductive Request.Asked (r : Request) : Demand → Prop
  | watch {d : Demand} (hmethod : r.method = "GET" ∨ r.method = "HEAD") (hd : ∀ request, d ≠ .call request) :
      Asked r d
  | list {m : ListUsers} (hmethod : r.method = "GET" ∨ r.method = "HEAD") : Asked r (.call (.list m))
  | create {m : CreateUser} (hmethod : r.method = "POST") : Asked r (.call (.create m))
  | update {m : UpdateUser} {segment : List Char} {id : String} (hmethod : r.method = "PUT")
      (hpath : r.uri.path = userPath segment) (hid : unescapeSegment? (.ofList segment) = some id)
      (hbody : readBody UpdateUser.decode r = .ok m) : Asked r (.call (.update { m with id }))
  | delete {segment : List Char} {id : String} (hmethod : r.method = "DELETE")
      (hpath : r.uri.path = userPath segment) (hid : unescapeSegment? (.ofList segment) = some id) :
      Asked r (.call (.delete { id }))

section

variable {r : Request} {request : Roster.Request}

end

/-- A request is understood, or refused with a status that tells so. -/
def Request.Understood (r : Request) : Except Response Demand → Prop
  | .ok d => r.Asked d
  | .error refusal => 400 ≤ refusal.status

section

variable {refusal : Response}

end

theorem Request.Understood.map {r : Request} {α : Type} {x : Except Response α} {f : α → Demand}
    (herror : ∀ refusal, x = .error refusal → 400 ≤ refusal.status)
    (hok : ∀ a, x = .ok a → r.Asked (f a)) : r.Understood (x.map f) := by
  cases x with
  | error refusal => exact herror refusal rfl
  | ok a => exact hok a rfl

def Response.Succeeds (r : Response) : Prop := 200 ≤ r.status ∧ r.status < 300

end Http

namespace Server

open Http

/-- The server to which nothing has happened but that the time has passed that a request takes. -/
def passed (s : Server) (draw : Draw) (r : Http.Request) : Server :=
  match s.callOf? draw r with
  | none => s
  | some c => (s.advance (s.duration c)).server

theorem Resting.advance_zero {s : Server} (hs : s.Resting) : (s.advance 0).server = s := by
  simp only [advance, pass, Monitor.advance_zero hs.monitor]

section

variable {s : Server} {draw : Draw} {r : Http.Request}

end

end Server

end Roster
