import Roster.Filter
import Roster.Monitor
import Roster.Notes
import Roster.Page
/-! # Repositories of accounts

A repository runs one command at a time over its state. Observers are put around a repository and
give a repository again. -/
namespace Roster

inductive Command
  | create (profile : Profile)
  | update (id : String) (changes : Profile)
  | delete (id : String)
  | get (conditions : Conditions) (page : Page)

def Command.name : Command → String
  | create _ => "create"
  | update .. => "update"
  | delete _ => "delete"
  | get .. => "get"

inductive Reply
  | created (id : String)
  | done
  | users (accounts : List User)
  deriving DecidableEq

/-- What a command takes from its surroundings: an identifier that is not in use, and the time. -/
structure Draw where
  id : String
  now : Time.Timestamp
  deriving DecidableEq

/-- A command that a repository begins. One that is not awaited is given up before it takes effect. -/
structure Attempt where
  draw : Draw
  command : Command
  awaited : Bool := true

/-- What an attempt comes to. There is no result if it was given up. -/
structure Run (σ : Type) where
  result : Option (Except RepositoryError Reply)
  notes : Notes := []
  state : σ

/-- A repository carries out attempts over its state, and has a monitor that knows whether it is
ready. Closing it begins the end of the monitor, if there was none yet. -/
structure Repository (σ : Type) where
  perform : Attempt → σ → Run σ
  isReady : Monitor → Bool
  close : Monitor → Option Monitor

instance (σ : Type) : CoeFun (Repository σ) fun _ => Attempt → σ → Run σ := ⟨Repository.perform⟩

namespace Repository

variable {σ : Type}

/-- Closes the repository and waits until its monitor has come to its end. -/
def shut (repository : Repository σ) (m : Monitor) : Monitor :=
  ((repository.close m).map Monitor.windDown).getD m

def outcome : Except RepositoryError Reply → String
  | .ok _ => "ok"
  | .error (.notFound _) => "not_found"
  | .error (.persistence ..) => "error"

def traced (repository : Repository σ) : Repository σ where
  perform a s :=
    let run := repository a s
    { run with
      notes := .opened "repository" [("operation", a.command.name)] :: run.notes ++
        [.closed (run.result.toList.map fun r => ("outcome", outcome r))] }
  isReady m := repository.isReady m
  close m := repository.close m

/-- The report of a failure; an account that is not there is none. -/
def report? : Except RepositoryError Reply → Option ErrorReport
  | .error e@(.persistence op _) =>
    some { message := e.message, tags := [("repository", "user"), ("method", op)] }
  | _ => none

def reported (reporter : Reporter) (repository : Repository σ) : Repository σ where
  perform a s :=
    let run := repository a s
    { run with
      notes := run.notes ++ ((run.result.bind report?).toList.map reporter.capture) }
  isReady m := repository.isReady m
  close m := repository.close m

end Repository

end Roster
