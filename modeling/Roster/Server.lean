import Roster.Health
import Roster.Notify.Channel
import Roster.Repository.Memory
import Roster.Service.Client
import Roster.Service.Layers
/-! # A running server over accounts in memory

The server holds the store, the channel of change notifications and the monitor of the store, and
answers calls through the layers that its settings want. What is detached from a call, such as the
announcement of a change, is done when the call is over. -/
namespace Roster

inductive Core
  | users
  | fixed (answer : Operation → Except OperationError Response)

abbrev Counts := List ((String × Nat) × Nat)

namespace Counts

def add (key : String × Nat) : Counts → Counts
  | [] => [(key, 1)]
  | (k, n) :: rest => if k = key then (k, n + 1) :: rest else (k, n) :: add key rest

/-- The lines of two metrics, the number of calls and the number of their durations, in order. -/
def lines (service : String) (counts : Counts) : List String :=
  let labels (key : String × Nat) :=
    "\x7bservice=\"" ++ service ++ "\",handler=\"" ++ key.1 ++ "\",code=\"" ++ toString key.2 ++ "\"\x7d "
  let line (metric : String) := counts.map fun c => metric ++ labels c.1 ++ toString c.2
  (line "roster_requests_total" ++ line "roster_request_duration_seconds_count").mergeSort
    fun a b => a ≤ b

end Counts

structure Server where
  service : ServiceSettings := {}
  http : HttpSettings := {}
  /-- Observers around the repository. -/
  tracedRepository : Bool := false
  reportedRepository : Bool := false
  reporter : Reporter := .keep
  core : Core := .users
  store : MemoryStore := {}
  channel : Channel := {}
  monitor : Monitor
  /-- How long each command of the repository takes. -/
  latency : Nat := 0
  /-- Requests come in at a whole millisecond. -/
  onTick : Bool := true
  /-- How many calls have come in. -/
  calls : Nat := 0
  /-- The server is going down: every call is cancelled. -/
  shutDown : Bool := false
  counts : Counts := []

structure Step (α : Type) where
  value : α
  notes : Notes := []
  /-- What the monitor logs while the step is under way. -/
  meanwhile : List Event := []
  /-- What is logged by work detached from the step. -/
  background : List Event := []
  deliveries : List Delivery := []
  server : Server

def Step.map {α β : Type} (f : α → β) (s : Step α) : Step β := { s with value := f s.value }

namespace Server

def repository (s : Server) : Repository MemoryStore :=
  let inner := if s.tracedRepository then MemoryStore.repository.traced else MemoryStore.repository
  if s.reportedRepository then inner.reported s.reporter else inner

def stack (s : Server) : Service MemoryStore :=
  Service.pipeline s.service s.reporter <|
    match s.core with
    | .users => Service.users s.service.maxPageLimit s.latency s.repository
    | .fixed answer => Service.fixed answer

def context (s : Server) (protocol : Protocol) : Server × Context :=
  let s := { s with calls := s.calls + 1 }
  (s, { callId := s.calls, protocol, timeoutMs := s.service.operationTimeoutMs,
        cancelledAt := if s.shutDown then some 0 else none })

def pass (s : Server) (ms : Nat) : Server × List Event :=
  let (monitor, events) := s.monitor.advance ms s.store.probe
  ({ s with monitor }, events)

def announcementEvent (channel id : String) : Except NotifyError Unit → Event
  | .ok _ => { level := .debug, message := "change published",
               fields := [("channel", channel), ("id", id)] }
  | .error e => { level := .error, message := "change notification failed",
                  fields := [("channel", channel), ("id", id), ("error", e.message)] }

/-- Announces a change; nobody waits for it. -/
def announce (c : Channel) (e : Envelope) : Channel × List Event :=
  let (c, attempt) := c.publish e
  (c, attempt.events ++ [announcementEvent c.name e.id attempt.result])

def announceAll (c : Channel) : List Envelope → Channel × List Event
  | [] => (c, [])
  | e :: rest =>
    let (c, events) := announce c e
    let (c, more) := announceAll c rest
    (c, events ++ more)

/-- Does what is left to do after a call: announcements, and their deliveries. -/
def finish {α : Type} (s : Server) (value : α) (notes : Notes) (meanwhile : List Event)
    (announced : List Envelope) : Step α :=
  let (channel, background) := announceAll s.channel announced
  let (channel, deliveries) := channel.drain
  { value, notes, meanwhile, background, deliveries, server := { s with channel } }

/-- Runs an operation through the layers. There is no result if its caller has turned away. -/
def run (s : Server) (draw : Draw) (op : Operation) :
    Step (Option (Except OperationError Response)) :=
  let call := s.stack draw op s.store
  let (s, meanwhile) := s.pass call.elapsed
  let s := { s with
    store := call.state
    counts := call.notes.counted.foldl (fun c key => Counts.add key c) s.counts }
  s.finish (call.result.map op.request.accept) call.notes meanwhile call.announced

def perform (s : Server) (draw : Draw) (command : Command) :
    Step (Option (Except RepositoryError Reply)) :=
  let run := s.repository { draw, command } s.store
  let (s, meanwhile) := s.pass s.latency
  { value := run.result, notes := run.notes, meanwhile, server := { s with store := run.state } }

def advance (s : Server) (ms : Nat) : Step Unit :=
  let (server, background) := s.pass ms
  { value := (), background, server }

/-- Asks the store whether it can be reached; nothing after the repository was closed. -/
def checkNow (s : Server) : Step (Option Bool) :=
  let (monitor, value, events) := s.monitor.checkNow s.store.probe
  { value, notes := events.map .event, server := { s with monitor } }

def closeRepository (s : Server) : Server :=
  { s with monitor := s.repository.shut s.monitor }

def dependencies (s : Server) : List (String × Bool) :=
  [("repository", s.repository.isReady s.monitor), ("notifier", s.channel.isReady)]

def readiness (s : Server) : Step (Except NotReady Unit) :=
  { value := Roster.readiness s.dependencies
    notes := (readinessEvents s.dependencies).map .event
    server := s }

end Server

end Roster
