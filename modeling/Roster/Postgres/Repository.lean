import Roster.Postgres.Exchange
import Roster.Repository.Basic
/-! # Accounts in a pair of databases -/
namespace Roster.Postgres
open Sql

/-- The values of a new row, one after another. -/
def newValues (draw : Draw) (profile : Profile) : List Value :=
  .text draw.id :: Attribute.all.map (fun a => .text (profile.get a)) ++
    [.time draw.now, .time draw.now]

def statement (draw : Draw) : Command → Side × Statement
  | .create profile => (.master, .insert (newValues draw profile))
  | .update id changes =>
    (.master, .update
      (changes.supplied.map (fun e => (.profile e.1, .text e.2)) ++
        [(.updatedAt, .time draw.now)]) id)
  | .delete id => (.master, .delete id)
  | .get conditions page =>
    (.replica, .select conditions.entries page.limit.toNat page.skip.toNat)

/-- The reply that an answer carries: a change of no row finds no account. -/
def reply (draw : Draw) (command : Command) (answer : Answer) : Except RepositoryError Reply :=
  match command with
  | .create _ => .ok (.created draw.id)
  | .get .. => .ok (.users answer.rows)
  | .update .. | .delete _ =>
    if answer.affected = 0 then .error (.notFound command.name) else .ok .done

/-- The repository over a pair: one statement for every command. -/
def repository {σ : Type} (peers : Peers σ) : Repository (Pair σ) where
  perform a p :=
    if !a.awaited then { result := none, state := p }
    else
      let (side, s) := statement a.draw a.command
      let (result, after) := (execute peers side s).exec p
      { state := after
        result := some <|
          match result with
          | .ok answer => reply a.draw a.command answer
          | .error cause => .error (.persistence a.command.name cause) }
  isReady m := m.ready
  close m := m.halt?

end Roster.Postgres
