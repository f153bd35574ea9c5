import Roster.Http.Listener
import Roster.Postgres.Notifier
import Roster.Server
import Roster.Settings.CommandLine
import Roster.Settings.LogFilter
/-! # The life of the program

The program reads its settings, connects what it needs, listens, serves until it is told to stop,
and stops in the opposite order. -/
namespace Roster.Program
open Postgres

structure Surroundings (σ : Type) where
  /-- The value of a variable of the environment. -/
  environment : String → Option String
  /-- How long the clock has been running, in milliseconds. -/
  uptime : Nat := 0
  /-- The port that a listener gets beside those that listen already, or why it gets none. -/
  bind : List (String × UInt16) → String → UInt16 → Except String UInt16
  /-- What is said of a log filter that is refused. -/
  filterFault : String → Chain := fun _ => []
  peers : Peers σ
  databases : σ

inductive Exit
  | success
  /-- The command line is refused. -/
  | refused (reason : CommandLine.Refusal)
  | failed (cause : Chain)
  /-- The clock does not reach the first probe. -/
  | aborted
  deriving DecidableEq

namespace Exit

def code : Exit → UInt32
  | success => 0
  | refused .displayHelp | refused .displayVersion => 0
  | refused _ => 2
  | failed _ => 1
  | aborted => 101

def message? : Exit → Option String
  | failed cause => some ("Error: " ++ cause.describe)
  | _ => none

def output? : Exit → Option String
  | refused .displayVersion => some ("roster-server " ++ ({} : BuildInfo).version)
  | _ => none

end Exit

structure Course (σ : Type) where
  events : List Event := []
  listening : List (String × UInt16) := []
  pair : Pair σ

abbrev Part (σ α : Type) := ExceptT Exit (StateM (Course σ)) α

section

variable {σ α : Type}

def log (e : Event) : Part σ Unit := modify fun c => { c with events := c.events ++ [e] }

def say (message : String) (fields : List Field := []) : Part σ Unit :=
  log { level := .info, message, fields }

/-- An exchange with the databases whose failure ends the run. -/
def exchange (x : Exchange σ α) : Part σ α := do
  let c ← get
  let (result, pair) := x.exec c.pair
  set { c with pair }
  match result with
  | .ok a => return a
  | .error cause => throw (.failed cause)

/-- Opens a listener, or fails for the reason that there is none. -/
def openListener (around : Surroundings σ) (host : String) (port : UInt16)
    (failure : String → Chain) : Part σ UInt16 := do
  let c ← get
  match around.bind c.listening host port with
  | .error reason => throw (.failed (failure reason))
  | .ok got =>
    set { c with listening := c.listening ++ [(host, got)] }
    return got

def exporterFailed (reason : String) : Chain :=
  ["installing prometheus exporter", "failed to create HTTP listener: " ++ reason]

def exportMetrics (s : Settings) (around : Surroundings σ) : Part σ Unit := do
  if s.service.metrics then
    let _ ← openListener around "0.0.0.0" s.metricsPort exporterFailed
    say "Prometheus exporter listening" [("addr", Http.address "0.0.0.0" (toString s.metricsPort))]

def openStore (s : Settings) (around : Surroundings σ) : Part σ Unit := do
  match s.store with
  | .memory => say "using in-memory store"
  | .postgres =>
    exchange (connect around.peers)
    exchange (migrate around.peers)
    say "connected to postgres master and replica"
  if (Monitor.start? s.store.name around.uptime (s.probeIntervalSecs.toNat * 1000)).isNone then
    throw .aborted

/-- The name of the program's own subscription to change notifications. -/
def ownSubscription : String := "log"

def listenForChanges (s : Settings) (around : Surroundings σ) : Part σ Unit := do
  if s.store = .postgres then
    let c ← get
    let (_, pair, result, events) :=
      Notifier.subscribe around.peers { channel := s.notifyChannel } c.pair ownSubscription
    set { c with pair, events := c.events ++ events }
    if let .error e := result then throw (.failed [e.message])

def start (s : Settings) (around : Surroundings σ) : Part σ Unit := do
  match LogFilter.choose (around.environment "RUST_LOG") s.logLevel with
  | .error refused =>
    throw (.failed (refused.message :: around.filterFault refused.directive))
  | .ok _ => say "starting roster-server" [("version", ({} : BuildInfo).version)]
  exportMetrics s around
  openStore s around
  listenForChanges s around
  let port ← openListener around s.http.host s.http.port
    (Http.bindingFailed s.http.host s.http.port)
  log (Http.boundEvent s.http.host (toString port))
  say "roster-server ready" [("port", toString port)]
  log Http.servingEvent

def stop : Part σ Unit := do
  say "shutdown signal received"
  log Http.stoppedEvent
  say "roster-server stopped"

end

def pairOf {σ : Type} (s : Settings) (databases : σ) : Pair σ where
  master := { endpoint := s.master }
  replica := { endpoint := s.replica }
  peers := databases

/-- How a run went: its end, what it logged, and what it sent to the databases. -/
structure Life where
  ending : Exit
  events : List Event := []
  traffic : List (Side × Packet) := []

def Life.of {σ : Type} (s : Settings) (around : Surroundings σ) (part : Part σ Unit) : Life :=
  let (result, c) := part.run { pair := pairOf s around.databases }
  { ending := match result with
      | .ok _ => .success
      | .error ending => ending
    events := c.events, traffic := c.pair.traffic }

/-- A whole run in which no request comes in. -/
def idle {σ : Type} (args : List String) (around : Surroundings σ) : Life :=
  match CommandLine.parse around.environment args with
  | .error reason => { ending := .refused reason }
  | .ok s => .of s around (do start s around; stop)

/-- The events that a run leaves as records: all, if the settings want records. -/
def records {σ : Type} (args : List String) (around : Surroundings σ) (life : Life) : List Event :=
  match CommandLine.parse around.environment args with
  | .ok s => if s.logJson then life.events else []
  | .error _ => []

/-- What is logged of the changes that reach the program's own subscription. -/
def changeEvents (deliveries : List Delivery) : List Event :=
  deliveries.flatMap fun d => d.events ++ d.envelopes.map fun e =>
    { level := .debug, message := "user change notification received", fields := [("id", e.id)] }

/-- The server over accounts in memory that settings ask for. -/
def serverOf (s : Settings) (uptime : Nat) : Option Server :=
  let channel : Channel := { name := s.notifyChannel }
  (Monitor.start? s.store.name uptime (s.probeIntervalSecs.toNat * 1000)).map fun monitor =>
    { service := s.service
      http := s.http
      tracedRepository := s.service.tracing
      reportedRepository := s.service.errorReporting
      reporter := .log s.environment
      channel := (channel.subscribe ownSubscription).toOption.getD channel
      monitor
      onTick := false }

end Roster.Program
