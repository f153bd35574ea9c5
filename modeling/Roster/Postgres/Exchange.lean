import Roster.Failure
import Roster.Settings.Endpoint
import Roster.Sql.Statement
/-! # Exchanges with a pair of databases

The master takes every change; sessions on the replica are read-only. Each side has a pool of
sessions, which opens one when none is idle. How the databases themselves behave is left open. -/
namespace Roster.Postgres

inductive Side
  | master | replica
  deriving DecidableEq, Repr

structure Session where
  user : String
  database : String
  options : Option String := none
  deriving DecidableEq, Repr

inductive Packet
  | session (s : Session)
  | statement (s : Sql.Statement)
  deriving DecidableEq

structure Answer where
  affected : Nat := 0
  rows : List User := []

/-- How the databases behave, over some state of theirs: the message with which they refuse a
session, and the answer to a statement or the message with which it fails. -/
structure Peers (σ : Type) where
  refusal : Side → σ → Option String
  answer : Side → Sql.Statement → σ → Except String Answer × σ

/-- The sessions with one side. -/
structure Pool where
  endpoint : Endpoint
  /-- Open sessions that nobody uses. -/
  idle : Nat := 0
  /-- Sessions that listen for notifications. -/
  held : Nat := 0
  closed : Bool := false

/-- The client's end of the pair, and everything that was sent so far. -/
structure Pair (σ : Type) where
  master : Pool
  replica : Pool
  peers : σ
  traffic : List (Side × Packet) := []

namespace Pair

variable {σ : Type}

def pool (p : Pair σ) : Side → Pool
  | .master => p.master
  | .replica => p.replica

def withPool (p : Pair σ) (side : Side) (pool : Pool) : Pair σ :=
  match side with
  | .master => { p with master := pool }
  | .replica => { p with replica := pool }

end Pair

/-- Something done with the pair, which fails with a chain of causes. What was sent stays sent. -/
abbrev Exchange (σ α : Type) := ExceptT Chain (StateM (Pair σ)) α

namespace Exchange

variable {σ α : Type}

def within (context : String) (x : Exchange σ α) : Exchange σ α := x.adapt (context :: ·)

def exec (x : Exchange σ α) (p : Pair σ) : Except Chain α × Pair σ := x.run p

def send (side : Side) (packet : Packet) : Exchange σ Unit :=
  modify fun p => { p with traffic := p.traffic ++ [(side, packet)] }

def changePool (side : Side) (f : Pool → Pool) : Exchange σ Unit :=
  modify fun p => p.withPool side (f (p.pool side))

end Exchange

def reported (message : String) : Chain := ["error returned from database: " ++ message, message]

def poolClosed : Chain := ["attempted to acquire a connection on a closed pool"]

def poolTimedOut : Chain := ["pool timed out while waiting for an open connection"]

/-- The databases offer no encryption, which some modes insist on. -/
def noEncryption : Chain :=
  ["error occurred while attempting to establish a TLS connection: server does not support TLS",
    "server does not support TLS"]

/-- The mode gives up rather than go without encryption. -/
def insistsOnEncryption (mode : SslMode) : Bool :=
  match mode with
  | .disable | .allow | .prefer => false
  | .require | .verifyCa | .verifyFull => true

def sessionFor (side : Side) (e : Endpoint) : Session where
  user := e.user
  database := e.database
  options :=
    match side with
    | .master => none
    | .replica => some "-c default_transaction_read_only=on"

section

variable {σ : Type} (peers : Peers σ)

def openSession (side : Side) (e : Endpoint) : Exchange σ Unit := do
  match e.sslMode? with
  | .error refused => throw [refused.message]
  | .ok mode =>
    if insistsOnEncryption mode then throw noEncryption
    Exchange.send side (.session (sessionFor side e))
    if let some message := peers.refusal side (← get).peers then throw (reported message)

/-- Takes a session out of the pool, opening one if there is room for it. -/
def acquire (side : Side) : Exchange σ Unit := do
  let pool := (← get).pool side
  if pool.closed then throw poolClosed
  if 0 < pool.idle then Exchange.changePool side fun p => { p with idle := p.idle - 1 }
  else if pool.endpoint.maxConnections.toNat ≤ pool.held then throw poolTimedOut
  else openSession peers side pool.endpoint

def release (side : Side) : Exchange σ Unit :=
  Exchange.changePool side fun p => { p with idle := p.idle + 1 }

def ask (side : Side) (s : Sql.Statement) : Exchange σ (Except String Answer) := do
  Exchange.send side (.statement s)
  let p ← get
  let (result, after) := peers.answer side s p.peers
  set { p with peers := after }
  return result

/-- Sends a statement and puts the session back. -/
def execute (side : Side) (s : Sql.Statement) : Exchange σ Answer := do
  acquire peers side
  let result ← ask peers side s
  release side
  match result with
  | .ok a => return a
  | .error message => throw (reported message)

def checkMode (e : Endpoint) : Exchange σ Unit :=
  match e.sslMode? with
  | .ok _ => pure ()
  | .error refused => throw [refused.message]

/-- Opens a session on one side to see that it can be reached. -/
def reach (side : Side) : Exchange σ Unit := do
  checkMode ((← get).pool side).endpoint
  let context := match side with
    | .master => "master DB connect"
    | .replica => "replica DB connect"
  Exchange.within context do
    acquire peers side
    release side

/-- Connects both sides, the master first. -/
def connect : Exchange σ Unit := do
  reach peers .master
  reach peers .replica

def connectLazily : Exchange σ Unit := do
  checkMode (← get).master.endpoint
  checkMode (← get).replica.endpoint

def indexed : List FilterKey := [.country, .nickname, .firstName, .lastName]

/-- Makes the table and its indexes where they are missing. -/
def migrate : Exchange σ Unit := do
  let _ ← Exchange.within "create users table" (execute peers .master .createTable)
  for key in indexed do
    let _ ← Exchange.within ("create index on " ++ key.column)
      (execute peers .master (.createIndex key))

def probe : Exchange σ Unit := do
  let _ ← Exchange.within "ping master" (execute peers .master .ping)
  let _ ← Exchange.within "ping replica" (execute peers .replica .ping)

def close (p : Pair σ) : Pair σ :=
  { p with
    master := { p.master with closed := true, idle := 0 }
    replica := { p.replica with closed := true, idle := 0 } }

end

end Roster.Postgres
