import Roster.Report
/-! # A background worker

One loop takes jobs from a queue, ticks at an interval, and ends when it is told to stop. It calls
one callback at a time. When several callbacks are ready the loop may begin any of them; how long a
callback takes is not up to the loop either. `Worker.move?` allows all of that, and `Worker.next`
makes one choice. Instants and durations are in milliseconds. -/
namespace Roster

structure Job where
  label : String
  takes : Nat := 0
  crashes : Bool := false
  deriving DecidableEq, Repr

inductive Callback
  | run (job : Job)
  | tick
  | shutdown
  deriving DecidableEq, Repr

namespace Callback

def takes : Callback → Nat
  | run job => job.takes
  | _ => 0

def crashes : Callback → Bool
  | run job => job.crashes
  | _ => false

end Callback

inductive Phase
  | waiting
  | calling (callback : Callback) (ends : Nat)
  | ended
  | crashed
  deriving DecidableEq, Repr

/-- What the owner has done with the worker. -/
inductive Handle
  | held | stopped | dropped
  deriving DecidableEq, Repr

structure Worker where
  interval : Nat
  now : Nat
  /-- When the next tick is due. -/
  deadline : Nat
  queue : List Job := []
  phase : Phase := .waiting
  handle : Handle := .held
  deriving DecidableEq, Repr

namespace Worker

def queueDepth : Nat := 16

/-- A tick is late when it is served more than this after it was due. -/
def tolerance : Nat := 5

/-- Clocks count seconds in 63 bits: every instant lies below this one. -/
def endOfTime : Nat := 0x8000000000000000 * 1000

/-- A worker whose first tick comes one interval from now. There is none for the interval zero, nor
if the clock does not reach that tick. -/
def start? (now interval : Nat) : Option Worker :=
  if interval = 0 ∨ endOfTime ≤ now + interval then none
  else some { interval, now, deadline := now + interval }

def alive (w : Worker) : Bool :=
  match w.phase with
  | .waiting | .calling .. => true
  | .ended | .crashed => false

/-- The callbacks that a waiting loop may begin now. -/
def ready (w : Worker) : List Callback :=
  (if w.handle = .held then [] else [.shutdown]) ++ (w.queue.head?.toList.map .run) ++
    (if w.deadline ≤ w.now then [.tick] else [])

/-- When the loop will move by itself. -/
def due (w : Worker) : Option Nat :=
  match w.phase with
  | .waiting => some (if w.ready = [] then w.deadline else w.now)
  | .calling _ t => some t
  | .ended | .crashed => none

/-- When the tick after the one served now is due: a full interval after a late one. -/
def nextDeadline (w : Worker) : Nat :=
  if w.deadline + tolerance < w.now then w.now + w.interval else w.deadline + w.interval

def begin (w : Worker) (c : Callback) (takes : Nat) : Worker :=
  let w := { w with phase := .calling c (w.now + takes) }
  match c with
  | .run _ => { w with queue := w.queue.tail }
  | .tick => { w with deadline := w.nextDeadline }
  | .shutdown => w

inductive Move
  | submit (job : Job)
  | pass (ms : Nat)
  | begin (callback : Callback) (takes : Nat)
  | finish
  | crash
  | stop
  | drop
  deriving DecidableEq, Repr

/-- The worker after a move, if the move can be made. Time does not pass the loop's next move, and a
job is accepted while the owner holds the worker, its loop runs and the queue has room. -/
def move? (w : Worker) : Move → Option Worker
  | .submit job =>
    if w.handle = .held ∧ w.alive ∧ w.queue.length < queueDepth then
      some { w with queue := w.queue ++ [job] }
    else none
  | .pass ms =>
    if w.due.all (w.now + ms ≤ ·) then some { w with now := w.now + ms } else none
  | .begin c takes =>
    if w.phase = .waiting ∧ c ∈ w.ready then some (w.begin c takes) else none
  | .finish =>
    match w.phase with
    | .calling .shutdown t => if t = w.now then some { w with phase := .ended } else none
    | .calling _ t => if t = w.now then some { w with phase := .waiting } else none
    | _ => none
  | .crash =>
    match w.phase with
    | .calling _ t => if t = w.now then some { w with phase := .crashed, queue := [] } else none
    | _ => none
  | .stop => if w.handle = .held then some { w with handle := .stopped } else none
  | .drop => some { w with handle := .dropped }

def moves? (w : Worker) : List Move → Option Worker
  | [] => some w
  | m :: rest => (w.move? m).bind fun w => w.moves? rest

/-- The loop's own next move if nobody acts on the worker until `target`. It prefers to stop, then a
job, then a tick. -/
def next (w : Worker) (target : Nat) : Option Move :=
  let pass (t : Nat) := if w.now < min t target then some (.pass (min t target - w.now)) else none
  match w.phase with
  | .calling c t =>
    if t ≤ w.now then some (if c.crashes then .crash else .finish) else pass t
  | .waiting =>
    match w.ready with
    | c :: _ => some (.begin c c.takes)
    | [] => pass w.deadline
  | .ended | .crashed => pass target

/-- The callbacks that have come to their end, in order. -/
def trail (w : Worker) : Move → List Callback
  | .finish =>
    match w.phase with
    | .calling c _ => [c]
    | _ => []
  | _ => []

/-- Lets the loop move by itself as long as `go` holds, for at most `fuel` moves. The callbacks that
come to their end are put before those in `done`. -/
def runWhile (go : Worker → Bool) (target : Nat) : Nat → Worker → List Callback → Worker × List Callback
  | 0, w, done => (w, done)
  | fuel + 1, w, done =>
    if go w then
      match w.next target with
      | none => (w, done)
      | some m =>
        match w.move? m with
        | none => (w, done)
        | some w' => runWhile go target fuel w' (w.trail m ++ done)
    else (w, done)

/-- The same, with the callbacks in their order. -/
def run (w : Worker) (go : Worker → Bool) (target fuel : Nat) : Worker × List Callback :=
  let (w, done) := runWhile go target fuel w []
  (w, done.reverse)

/-- Enough moves to reach an instant: three for every job and every tick. -/
def movesUntil (w : Worker) (target : Nat) : Nat :=
  3 * (w.queue.length + (target - w.deadline) / w.interval + 4)

def advance (w : Worker) (ms : Nat) : Worker × List Callback :=
  w.run (fun _ => true) (w.now + ms) (w.movesUntil (w.now + ms))

inductive Rejected
  | notRunning | exited
  deriving DecidableEq, Repr

def Rejected.message : Rejected → String
  | notRunning => "worker not running"
  | exited => "worker loop has exited"

def remaining (w : Worker) : Nat :=
  match w.phase with
  | .calling _ t => t - w.now
  | _ => 0

def makeRoom (w : Worker) : Worker × List Callback :=
  w.run (fun w => w.alive && queueDepth ≤ w.queue.length) (w.now + w.remaining)
    (w.movesUntil (w.now + w.remaining))

/-- Offers a job, waiting for room if need be. -/
def submit (w : Worker) (job : Job) : Worker × Except Rejected Unit × List Callback :=
  if w.handle = .held then
    let (w, done) := w.makeRoom
    match w.move? (.submit job) with
    | some w => (w, .ok (), done)
    | none => (w, .error .exited, done)
  else (w, .error .notRunning, [])

/-- What is logged when a loop is found to have gone down with a callback. -/
def endEvents (w : Worker) : List Event :=
  if w.phase = .crashed then [{ level := .warn, message := "background worker ended abnormally" }]
  else []

/-- Stops the loop and waits for its end: at most the current callback and the shutdown are left. -/
def stop (w : Worker) : Worker × List Callback × List Event :=
  match w.move? .stop with
  | some w =>
    let (w, done) := w.run alive (w.now + w.remaining) 5
    (w, done, w.endEvents)
  | none => (w, [], [])

/-- Lets go of the worker; its loop ends when it comes to it. -/
def drop (w : Worker) : Worker := { w with handle := .dropped }

end Worker

end Roster
