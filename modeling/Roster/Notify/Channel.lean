import Roster.Failure
import Roster.Notify.Delivery
/-! # A broadcast channel inside the process

The channel holds the newest payloads, as many as its capacity. Every subscriber has a place in the
sequence of all payloads; one that falls behind by more than the capacity loses the oldest. -/
namespace Roster

/-- A subscriber and the number of payloads that lie behind its place. -/
structure Subscriber where
  name : String
  next : Nat
  active : Bool := true
  deriving DecidableEq, Repr

structure Channel where
  name : String := defaultChannel
  capacity : Nat := 256
  connected : Bool := true
  closed : Bool := false
  /-- How many payloads were broadcast so far. -/
  sent : Nat := 0
  /-- The newest payloads, the last one first. -/
  ring : List String := []
  subscribers : List Subscriber := []
  deriving DecidableEq, Repr

namespace Channel

/-- A channel that holds at least `capacity` payloads: the next power of two. None holds none, and
none more than half of all addresses. -/
def withCapacity (name : String) (capacity : Nat) : Option Channel :=
  if capacity = 0 ∨ 0x8000000000000000 ≤ capacity then none
  else some { name, capacity := capacity.nextPowerOfTwo }

/-- Closing is final; until then the connection decides. -/
def isReady (c : Channel) : Bool := c.connected && !c.closed

def setConnected (c : Channel) (connected : Bool) : Channel := { c with connected }

def close (c : Channel) : Channel :=
  { c with
    closed := true
    subscribers := c.subscribers.map fun s => { s with active := false } }

def heard (c : Channel) : Bool := c.subscribers.any (·.active)

def push (c : Channel) (text : String) : Channel :=
  { c with sent := c.sent + 1, ring := (text :: c.ring).take c.capacity }

/-- What one attempt to publish brings: its result and what is logged. -/
structure Attempt where
  result : Except NotifyError Unit
  events : List Event := []

/-- An envelope that nobody hears is not kept. -/
def publish (c : Channel) (e : Envelope) : Channel × Attempt :=
  if !c.isReady then (c, ⟨.error .disconnected, []⟩)
  else if c.heard then (c.push e.encode, ⟨.ok (), []⟩)
  else (c, ⟨.ok (), [{ level := .debug, message := "published with no subscribers",
                       fields := [("channel", c.name)] }]⟩)

def without (c : Channel) (name : String) : List Subscriber :=
  c.subscribers.filter fun s => s.name != name

/-- A subscriber hears what is published from now on. The name stands for the new subscription. -/
def subscribe (c : Channel) (name : String) : Except NotifyError Channel :=
  if c.closed then .error .disconnected
  else .ok { c with subscribers := c.without name ++ [{ name, next := c.sent }] }

def unsubscribe (c : Channel) (name : String) : Channel × Bool :=
  ({ c with subscribers := c.without name }, c.subscribers.any fun s => s.name == name)

def backlog (c : Channel) (s : Subscriber) : List String := (c.ring.take (c.sent - s.next)).reverse

def lost (c : Channel) (s : Subscriber) : Nat := c.sent - s.next - (c.backlog s).length

def lagged (channel : String) (lost : Nat) : List Event :=
  if lost = 0 then []
  else [{ level := .warn, message := "subscriber lagged, envelopes dropped",
          fields := [("channel", channel), ("skipped", toString lost)] }]

/-- Brings a subscriber to the end of the sequence. -/
def deliver (c : Channel) (s : Subscriber) : Delivery :=
  if s.active then
    Delivery.payloads { subscriber := s.name, events := lagged c.name (c.lost s) } c.name (c.backlog s)
  else { subscriber := s.name }

/-- Brings every subscriber to the end of the sequence. -/
def drain (c : Channel) : Channel × List Delivery :=
  ({ c with subscribers := c.subscribers.map fun s => { s with next := c.sent } },
    c.subscribers.map c.deliver)

inductive Action
  | subscribe (name : String)
  | unsubscribe (name : String)
  | publish (envelopes : List Envelope)
  | setConnected (connected : Bool)
  | close
  deriving DecidableEq, Repr

/-- What the one who acts learns. -/
inductive Reply
  | done
  | subscribed (result : Except NotifyError Unit)
  | removed (found : Bool)
  | published (attempts : List Attempt)

/-- Publishes one envelope after the other, before any is delivered. -/
def publishAll (c : Channel) : List Envelope → Channel × List Attempt
  | [] => (c, [])
  | e :: rest =>
    let (c, attempt) := c.publish e
    let (c, attempts) := c.publishAll rest
    (c, attempt :: attempts)

def act (c : Channel) : Action → Channel × Reply
  | .subscribe name =>
    match c.subscribe name with
    | .ok c' => (c', .subscribed (.ok ()))
    | .error e => (c, .subscribed (.error e))
  | .unsubscribe name =>
    let (c, found) := c.unsubscribe name
    (c, .removed found)
  | .publish envelopes =>
    let (c, attempts) := c.publishAll envelopes
    (c, .published attempts)
  | .setConnected connected => (c.setConnected connected, .done)
  | .close => (c.close, .done)

structure Round where
  reply : Reply
  deliveries : List Delivery

def perform (c : Channel) (a : Action) : Channel × Round :=
  let (c, reply) := c.act a
  let (c, deliveries) := c.drain
  (c, ⟨reply, deliveries⟩)

end Channel

end Roster
