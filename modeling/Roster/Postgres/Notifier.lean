import Roster.Notify.Delivery
import Roster.Postgres.Exchange
/-! # Change notifications through the master

Every subscription holds a session that listens. The notifier is taken to be connected as its last
exchange went. -/
namespace Roster.Postgres

structure Listener where
  name : String
  active : Bool := true
  /-- The session of the subscription is open. -/
  listening : Bool := true
  deriving DecidableEq, Repr

structure Notifier where
  channel : String := defaultChannel
  connected : Bool := true
  closed : Bool := false
  listeners : List Listener := []
  deriving DecidableEq, Repr

namespace Notifier

variable {σ : Type} (peers : Peers σ)

/-- Closing is final, that of the pool too; until then the last exchange decides. -/
def isReady (n : Notifier) (p : Pair σ) : Bool := n.connected && !p.master.closed && !n.closed

def publish (n : Notifier) (p : Pair σ) (e : Envelope) : Notifier × Pair σ × Except NotifyError Unit :=
  if n.closed then (n, p, .error .disconnected)
  else
    let (result, after) := (execute peers .master (.notify n.channel e.encode)).exec p
    ({ n with connected := result.toBool }, after, (result.map fun _ => ()).mapError .transport)

def listen (channel : String) : Exchange σ Unit := do
  acquire peers .master
  match ← ask peers .master (.listen channel) with
  | .ok _ => Exchange.changePool .master fun p => { p with held := p.held + 1 }
  | .error message =>
    release .master
    throw (reported message)

def release (p : Pair σ) (gone : List Listener) : Pair σ :=
  let count := gone.countP (·.listening)
  p.withPool .master { p.master with idle := p.master.idle + count, held := p.master.held - count }

/-- A subscription hears what is published from now on. The name stands for the new one. -/
def subscribe (n : Notifier) (p : Pair σ) (name : String) :
    Notifier × Pair σ × Except NotifyError Unit × List Event :=
  if n.closed then (n, p, .error .disconnected, [])
  else
    match (listen peers n.channel).exec p with
    | (.error cause, p) => (n, p, .error (.transport cause), [])
    | (.ok _, p) =>
      let (old, kept) := n.listeners.partition (·.name == name)
      ({ n with listeners := kept ++ [{ name }] }, release p old, .ok (),
        [{ level := .info, message := "subscribed to notifications",
           fields := [("channel", n.channel)] }])

def unsubscribe (n : Notifier) (p : Pair σ) (name : String) : Notifier × Pair σ × Bool :=
  let (old, kept) := n.listeners.partition (·.name == name)
  ({ n with listeners := kept }, release p old, !old.isEmpty)

/-- Refuses publishes and subscriptions from now on, and asks every loop to end. What the sessions of
the loops hear until they do is still handed on. -/
def close (n : Notifier) : Notifier := { n with closed := true }

/-- Loops see that the notifier was closed, and put their sessions back. -/
def finish (n : Notifier) (p : Pair σ) (sees : Listener → Bool) : Notifier × Pair σ :=
  if n.closed then
    ({ n with
       listeners := n.listeners.map fun l =>
         if sees l then { l with active := false, listening := false } else l },
      release p (n.listeners.filter sees))
  else (n, p)

def hear (n : Notifier) (payload : String) (l : Listener) : Notifier × Delivery :=
  ({ n with connected := true }, Delivery.payload { subscriber := l.name } n.channel payload)

def withSession (n : Notifier) (l : Listener) (listening : Bool) : Notifier :=
  { n with listeners := n.listeners.map fun m => if m = l then { m with listening } else m }

def lose (n : Notifier) (cause : Chain) (l : Listener) : Notifier × Event :=
  ({ n.withSession l false with connected := false },
    { level := .warn, message := "notification listener failed",
      fields := [("channel", n.channel), ("error", cause.headD "")] })

/-- The loop of a listener whose session broke opens another one. -/
def retry (n : Notifier) (p : Pair σ) (l : Listener) : Notifier × Pair σ × List Event :=
  match (listen peers n.channel).exec p with
  | (.ok _, p) => (n.withSession l true, p, [])
  | (.error cause, p) =>
    let (n, event) := n.lose cause l
    (n, p, [event])

def heard (n : Notifier) : List Listener := n.listeners.filter (·.listening)

/-- A payload that the master sends to whoever listens. -/
def received (n : Notifier) (payload : String) : Notifier × List Delivery :=
  (n.heard.foldl (fun m l => (m.hear payload l).1) n, n.heard.map fun l => (n.hear payload l).2)

def cut (n : Notifier) (p : Pair σ) (message : String) : Notifier × Pair σ × List Event :=
  (n.heard.foldl (fun m l => (m.lose (reported message) l).1) n,
    p.withPool .master { p.master with idle := 0, held := 0 },
    n.heard.map fun l => (n.lose (reported message) l).2)

end Notifier

end Roster.Postgres
