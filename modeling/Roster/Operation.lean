import Roster.Failure
import Roster.Message
import Roster.Text.Quoted
/-! # Operations

An operation is a request in the context of one call. The context says how the call came in and how
long its caller is willing to wait. -/
namespace Roster

inductive Protocol
  | http (method url : String)
  | grpc
  | internal
  deriving DecidableEq, Repr

namespace Protocol

def name : Protocol → String
  | http .. => "HTTP"
  | grpc => "GRPC"
  | internal => "internal"

def url? : Protocol → Option String
  | http _ url => some url
  | _ => none

end Protocol

/-- How guarded work comes to its end. -/
inductive Ending
  | done
  | interrupted (reason : Interrupted)
  /-- Nobody waits for it any more. -/
  | abandoned
  deriving DecidableEq, Repr

/-- The circumstances of one call. Durations are in milliseconds from its beginning. -/
structure Context where
  callId : Nat
  protocol : Protocol := .internal
  /-- The time the call may take; zero sets no limit. -/
  timeoutMs : UInt64 := 0
  /-- When the caller cancels; a call that is cancelled at zero is cancelled before it begins. -/
  cancelledAt : Option Nat := none
  /-- When the caller turns away without a word. -/
  abandonedAt : Option Nat := none
  deriving DecidableEq, Repr

namespace Context

/-- The earlier of two endings, the first if they coincide. -/
def earlier (x y : Nat × Ending) : Nat × Ending := if y.1 < x.1 then y else x

/-- When work that takes `takes` comes to its end, and how. At the same instant whoever turns away
comes first, then a cancellation, then the result, and the deadline last. -/
def settle (c : Context) (takes : Nat) : Nat × Ending :=
  let waited :=
    if c.timeoutMs = 0 then (takes, .done)
    else earlier (takes, .done) (c.timeoutMs.toNat, .interrupted (.deadline c.timeoutMs))
  let waited :=
    match c.cancelledAt with
    | some t => earlier (t, .interrupted .cancelled) waited
    | none => waited
  match c.abandonedAt with
  | some t => earlier (t, .abandoned) waited
  | none => waited

def begins (c : Context) : Bool := c.cancelledAt != some 0 && c.abandonedAt != some 0

theorem settle_cancelled {c : Context} (h : c.cancelledAt = some 0) (h' : c.abandonedAt ≠ some 0)
    (takes : Nat) : c.settle takes = (0, .interrupted .cancelled) := by
  unfold settle
  rw [h]
  cases ha : c.abandonedAt with
  | none => simp [earlier]
  | some t =>
    have ht : 0 < t := Nat.pos_of_ne_zero fun h0 => h' (h0 ▸ ha)
    simp [earlier, ht]

end Context

inductive Request
  | create (request : CreateUser)
  | list (request : ListUsers)
  | update (request : UpdateUser)
  | delete (request : DeleteUser)
  deriving DecidableEq, Repr

namespace Request

def name : Request → String
  | create _ => "CreateUser"
  | list _ => "GetUsers"
  | update _ => "UpdateUser"
  | delete _ => "DeleteUser"

def observed : Request → Observed
  | create r => r.observed
  | list r => r.observed
  | update r => r.observed
  | delete r => r.observed

end Request

structure Operation where
  context : Context
  request : Request
  deriving DecidableEq, Repr

namespace Operation

def name (op : Operation) : String := op.request.name

def observed (op : Operation) : Observed := op.request.observed

end Operation

inductive Response
  | created (response : CreatedUser)
  | users (views : List UserView)
  | status (response : Status)
  deriving DecidableEq, Repr

namespace Response

def observed : Response → Observed
  | created r => r.observed
  | users views => observedViews views
  | status r => r.observed

/-- A record in the notation of diagnostics. -/
def record (name : String) (fields : List Field) : String :=
  name ++ " \x7b " ++ ", ".intercalate (fields.map fun f => f.1 ++ ": " ++ f.2) ++ " \x7d"

def describeView (v : UserView) : String :=
  record "UserView" ([("id", v.id), ("first_name", v.firstName), ("last_name", v.lastName),
    ("nickname", v.nickname), ("email", v.email), ("country", v.country),
    ("created_at", v.createdAt), ("updated_at", v.updatedAt)].map fun f => (f.1, Text.quote f.2))

def describe : Response → String
  | created r => "Created(" ++ record "CreateUserResponse" [("id", Text.quote r.id)] ++ ")"
  | users views => "Users(GetUsersResponse([" ++ ", ".intercalate (views.map describeView) ++ "]))"
  | status r => "Status(" ++ record "Status"
      [("status", toString r.status), ("message", Text.quote r.message)] ++ ")"

end Response

end Roster
