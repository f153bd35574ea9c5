import Roster.Operation
import Roster.Repository.Basic
import Roster.Wire
/-! # The service behind every transport

A request is checked, becomes one command of a repository, and is answered from the reply. Waiting
for the repository is bounded by the context of the call. A change that was made is announced once
the call is over. -/
namespace Roster

/-- What a call comes to. There is no result if its caller has turned away. -/
structure Call (σ : Type) where
  result : Option (Except OperationError Response)
  notes : Notes := []
  state : σ
  /-- How long the call took, in milliseconds. -/
  elapsed : Nat := 0
  /-- The changes to be announced. -/
  announced : List Envelope := []

abbrev Service (σ : Type) := Draw → Operation → σ → Call σ

namespace Request

def command (maxLimit : UInt32) : Request → Except Invalid Command
  | .create r => r.validate.map fun _ => .create r.profile
  | .list r => (Page.resolve r.limit r.offset maxLimit).map fun page => .get r.conditions page
  | .update r => r.validate.map fun _ => .update r.id r.profile
  | .delete r => r.validate.map fun _ => .delete r.id

/-- The change that a request makes, if it makes one that is announced. -/
def announcement : Request → List Envelope
  | .update r => [r.envelope]
  | _ => []

end Request

def Response.ofReply : Reply → Response
  | .created id => .created ⟨id⟩
  | .done => .status .ok
  | .users accounts => .users (accounts.map UserView.ofUser)

def OperationError.ofRepository (operation : String) : RepositoryError → OperationError
  | .notFound _ => .notFound
  | e => .unavailable operation e.toChain

namespace Service

variable {σ : Type}

def outcome (operation : String) : Ending → Option (Except RepositoryError Reply) →
    Option (Except OperationError Response)
  | .interrupted reason, _ => some (.error (.unavailable operation [reason.message]))
  | .done, some (.ok reply) => some (.ok (.ofReply reply))
  | .done, some (.error e) => some (.error (.ofRepository operation e))
  | _, _ => none

/-- The operations over a repository each command of which takes `latency`. -/
def users (maxLimit : UInt32) (latency : Nat) (repository : Repository σ) : Service σ :=
  fun draw op s =>
    match op.request.command maxLimit with
    | .error reason => { result := some (.error (.invalid reason)), state := s }
    | .ok command =>
      let (elapsed, ending) := op.context.settle latency
      let run :=
        if op.context.begins then repository ⟨draw, command, ending = .done⟩ s
        else { result := none, state := s }
      let result := outcome op.name ending run.result
      { result, notes := run.notes, state := run.state, elapsed,
        announced := if result.any (·.toBool) then op.request.announcement else [] }

/-- Answers every operation in the same way, without a repository. -/
def fixed (answer : Operation → Except OperationError Response) : Service σ := fun _ op s =>
  { result := some (answer op), state := s }

end Service

end Roster
