import Roster.Invalid
/-! # Failures and how they are told

A failure has a chain of causes, the outermost context first and the root last. -/
namespace Roster

/-- Contexts of a failure, outermost first, and its root. -/
abbrev Chain := List String

/-- The whole chain in one line. -/
def Chain.render (c : Chain) : String := ": ".intercalate c

/-- A cause behind a mark, with as many blanks before its other lines. -/
def Chain.indent (mark cause : String) : String :=
  ("\n" ++ "".pushn ' ' mark.length).intercalate ((mark ++ cause).splitOn "\n")

/-- The whole chain over several lines. Causes are numbered if there are several. -/
def Chain.describe : Chain → String
  | [] => ""
  | [outermost] => outermost
  | [outermost, root] => outermost ++ "\n\nCaused by:\n" ++ indent "    " root
  | outermost :: causes =>
    let number (n : Nat) := "".pushn ' ' (5 - (toString n).length) ++ toString n ++ ": "
    outermost ++ "\n\nCaused by:" ++
      String.join (causes.zipIdx.map fun c => "\n" ++ indent (number c.2) c.1)

inductive Interrupted
  | cancelled
  | deadline (ms : UInt64)
  deriving DecidableEq, Repr

def Interrupted.message : Interrupted → String
  | cancelled => "call cancelled by caller"
  | deadline ms => s!"call exceeded deadline of {ms}ms"

inductive RepositoryError
  | notFound (operation : String)
  | persistence (operation : String) (source : Chain)
  deriving DecidableEq, Repr

namespace RepositoryError

def operation : RepositoryError → String
  | notFound op => op
  | persistence op _ => op

def message : RepositoryError → String
  | notFound op => op ++ ": user not found"
  | persistence op source => op ++ ": " ++ Chain.render source

/-- The failure as the cause of another: its message already tells the chain of its source, which
follows once more. -/
def toChain : RepositoryError → Chain
  | notFound op => [message (notFound op)]
  | persistence op source => message (persistence op source) :: source

end RepositoryError

inductive NotifyError
  | disconnected
  | encode (reason : String)
  | transport (source : Chain)
  deriving DecidableEq, Repr

def NotifyError.message : NotifyError → String
  | disconnected => "notifier is not connected"
  | encode reason => "encode envelope: " ++ reason
  | transport source => "notifier transport: " ++ Chain.render source

/-- Failures of an operation, as callers see them. -/
inductive OperationError
  | invalid (reason : Invalid)
  | notFound
  | unavailable (operation : String) (source : Chain)
  deriving DecidableEq, Repr

namespace OperationError

def message : OperationError → String
  | invalid reason => "bad request: " ++ reason.message
  | notFound => "not found"
  | unavailable op source => op ++ ": " ++ Chain.render source

def code : OperationError → Nat
  | invalid _ => 400
  | notFound => 404
  | unavailable .. => 503

/-- What callers outside the process read: the details of dependencies stay inside. -/
def publicMessage : OperationError → String
  | unavailable .. => "service unavailable"
  | e => e.message

end OperationError

def codeOf {α : Type} : Except OperationError α → Nat
  | .ok _ => 200
  | .error e => e.code

end Roster
