import Roster.Repository.Basic
/-! # Accounts in memory

Rows stand in the order of their creation. -/
namespace Roster

/-- The rows, and two switches: a store that cannot be reached fails its probes, one that rejects
fails its commands. -/
structure MemoryStore where
  rows : List User := []
  reachable : Bool := true
  failing : Bool := false
  deriving DecidableEq

/-- Changes the first row with an identifier, if there is one. -/
def changeRow (id : String) (f : User → User) : List User → Option (List User)
  | [] => none
  | u :: rest => if u.id = id then some (f u :: rest) else (changeRow id f rest).map (u :: ·)

namespace MemoryStore

def perform (rows : List User) (draw : Draw) : Command → Except RepositoryError (Reply × List User)
  | .create profile => .ok (.created draw.id, rows ++ [⟨draw.id, profile, draw.now, draw.now⟩])
  | .update id changes =>
    match changeRow id (fun u => u.apply changes draw.now) rows with
    | some rows => .ok (.done, rows)
    | none => .error (.notFound "update")
  | .delete id =>
    let kept := rows.filter fun u => u.id != id
    if kept.length = rows.length then .error (.notFound "delete") else .ok (.done, kept)
  | .get conditions page => .ok (.users (page.slice (rows.filter conditions.holds)), rows)

def rejected : Chain := ["memory store rejected the operation"]

def repository : Repository MemoryStore where
  perform a s :=
    if !a.awaited then { result := none, state := s }
    else if s.failing then
      { result := some (.error (.persistence a.command.name rejected)), state := s }
    else
      match perform s.rows a.draw a.command with
      | .ok (reply, rows) => { result := some (.ok reply), state := { s with rows } }
      | .error e => { result := some (.error e), state := s }
  isReady m := m.ready
  close m := m.halt?

def probe (s : MemoryStore) : Probe :=
  if s.reachable then .ok () else .error ["memory store unreachable"]

end MemoryStore

end Roster
