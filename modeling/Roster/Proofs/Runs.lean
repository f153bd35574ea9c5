import Roster.Server
import Roster.Proofs.Rows
import Roster.Proofs.Transparency
/-! # Runs of a server

A run is any sequence of calls, switches of the store and the notifier, passages of time and orders
to the monitor. One lemma says all that a call can do to the store; whatever holds along a run
follows from it by induction. -/
namespace Roster

theorem Commits.fits {maxLimit : UInt32} {draw : Draw} {rows changed : List User}
    {request : Request} {response : Response} (h : Commits maxLimit draw rows request response changed) :
    request.fits response = true := by
  cases h <;> rfl

/-- A call that is not begun is not waited for to its end. -/
theorem Context.ending_of_not_begins {c : Context} (h : c.begins = false) (takes : Nat) :
    (c.settle takes).2 ≠ .done := by
  by_cases ha : c.abandonedAt = some 0
  · simp [settle, ha, earlier]
  · have hc : c.cancelledAt = some 0 := by simpa [begins, ha] using h
    simp [settle_cancelled hc ha]

namespace Service

/-- A call commits, and hands over the change to be announced, or it keeps the store as it was. -/
inductive Settles (maxLimit : UInt32) (draw : Draw) (request : Request) (s : MemoryStore) :
    Option (Except OperationError Response) → MemoryStore → List Envelope → Prop
  | commits {response : Response} {rows : List User}
      (h : Commits maxLimit draw s.rows request response rows) :
      Settles maxLimit draw request s (some (.ok response)) { s with rows } request.announcement
  | keeps {result : Option (Except OperationError Response)}
      (h : ∀ response, result ≠ some (.ok response)) : Settles maxLimit draw request s result s []

theorem Settles.accept {maxLimit : UInt32} {draw : Draw} {request : Request} {s t : MemoryStore}
    {result : Option (Except OperationError Response)} {announced : List Envelope}
    (h : Settles maxLimit draw request s result t announced) :
    result.map request.accept = result := by
  cases h with
  | commits h => simp [Request.accept, h.fits]
  | keeps h =>
    rcases result with _ | e | response
    · rfl
    · rfl
    · exact absurd rfl (h response)

theorem Settles.commits_of_ok {maxLimit : UInt32} {draw : Draw} {request : Request}
    {s t : MemoryStore} {response : Response} {announced : List Envelope}
    (h : Settles maxLimit draw request s (some (.ok response)) t announced) :
    ∃ rows, Commits maxLimit draw s.rows request response rows ∧ t = { s with rows } ∧
      announced = request.announcement := by
  cases h with
  | commits h => exact ⟨_, h, rfl, rfl⟩
  | keeps h => exact absurd rfl (h response)

theorem Settles.keeps_of_not_ok {maxLimit : UInt32} {draw : Draw} {request : Request}
    {s t : MemoryStore} {result : Option (Except OperationError Response)}
    {announced : List Envelope} (h : Settles maxLimit draw request s result t announced)
    (hr : ∀ response, result ≠ some (.ok response)) : t = s ∧ announced = [] := by
  cases h with
  | commits h => exact absurd rfl (hr _)
  | keeps h => exact ⟨rfl, rfl⟩

/-- Exactly what a call over accounts in memory comes to, and when. -/
inductive Ends (maxLimit : UInt32) (latency : Nat) (draw : Draw) (op : Operation) (s : MemoryStore) :
    Call MemoryStore → Prop
  | refused {reason : Invalid} (h : op.request.Breaks maxLimit) :
      Ends maxLimit latency draw op s { result := some (.error (.invalid reason)), state := s }
  | interrupted {elapsed : Nat} {reason : Interrupted} (h : ¬ op.request.Breaks maxLimit)
      (hends : op.context.settle latency = (elapsed, .interrupted reason)) :
      Ends maxLimit latency draw op s
        { result := some (.error (.unavailable op.name [reason.message])), state := s, elapsed }
  | abandoned {elapsed : Nat} (h : ¬ op.request.Breaks maxLimit)
      (hends : op.context.settle latency = (elapsed, .abandoned)) :
      Ends maxLimit latency draw op s { result := none, state := s, elapsed }
  | rejected {elapsed : Nat} {method : String} (h : ¬ op.request.Breaks maxLimit)
      (hends : op.context.settle latency = (elapsed, .done)) (hfailing : s.failing = true) :
      Ends maxLimit latency draw op s
        { result := some (.error (.ofRepository op.name (.persistence method MemoryStore.rejected)))
          state := s, elapsed }
  | missed {elapsed : Nat} (h : ¬ op.request.Breaks maxLimit)
      (hends : op.context.settle latency = (elapsed, .done)) (hfailing : s.failing = false)
      (hmisses : op.request.Misses s.rows) :
      Ends maxLimit latency draw op s { result := some (.error .notFound), state := s, elapsed }
  | committed {elapsed : Nat} {response : Response} {rows : List User}
      (h : ¬ op.request.Breaks maxLimit) (hends : op.context.settle latency = (elapsed, .done))
      (hfailing : s.failing = false) (hmisses : ¬ op.request.Misses s.rows)
      (hcommits : Commits maxLimit draw s.rows op.request response rows) :
      Ends maxLimit latency draw op s
        { result := some (.ok response), state := { s with rows }, elapsed
          announced := op.request.announcement }

theorem users_ends (maxLimit : UInt32) (latency : Nat) (draw : Draw) (op : Operation)
    (s : MemoryStore) :
    Ends maxLimit latency draw op s (users maxLimit latency MemoryStore.repository draw op s) := by
  cases hc : op.request.command maxLimit with
  | error reason =>
    simp only [users, hc]
    exact .refused (Request.command_eq_error_iff.mp ⟨reason, hc⟩)
  | ok command =>
    have hbreaks : ¬ op.request.Breaks maxLimit := fun h => by
      obtain ⟨reason, he⟩ := Request.command_eq_error_iff.mpr h
      rw [hc] at he
      cases he
    -- The store is reached only by a call that is begun and waited for to its end.
    rcases hends : op.context.settle latency with ⟨elapsed, ending⟩
    cases hbegins : op.context.begins with
    | false =>
      have hnot : ending ≠ .done := by
        have hne := Context.ending_of_not_begins hbegins latency
        rwa [hends] at hne
      simp only [users, hc, hends, hbegins, Bool.false_eq_true, if_false]
      cases ending with
      | done => exact absurd rfl hnot
      | interrupted reason => exact .interrupted hbreaks hends
      | abandoned => exact .abandoned hbreaks hends
    | true =>
      simp only [users, hc, hends, hbegins, if_true]
      cases ending with
      | interrupted reason => exact .interrupted hbreaks hends
      | abandoned => exact .abandoned hbreaks hends
      | done =>
        cases hf : s.failing with
        | true =>
          simp only [MemoryStore.repository, hf]
          exact .rejected hbreaks hends hf
        | false =>
          rcases MemoryStore.perform_command hc s.rows draw with
            ⟨hm, reply, changed, hp, hcommits⟩ | ⟨hm, operation, hp⟩
          · simp only [MemoryStore.repository, hf, hp]
            have hcommitted := Ends.committed hbreaks hends hf hm hcommits
            rw [hf] at hcommitted
            exact hcommitted
          · simp only [MemoryStore.repository, hf, hp]
            exact .missed hbreaks hends hf hm

theorem Ends.settles {maxLimit : UInt32} {latency : Nat} {draw : Draw} {op : Operation}
    {s : MemoryStore} {call : Call MemoryStore} (h : Ends maxLimit latency draw op s call) :
    Settles maxLimit draw op.request s call.result call.state call.announced := by
  cases h with
  | committed _ _ _ _ hcommits => exact .commits hcommits
  | refused | interrupted | abandoned | rejected | missed => exact .keeps (by simp)

theorem users_settles (maxLimit : UInt32) (latency : Nat) (draw : Draw) (op : Operation)
    (s : MemoryStore) :
    let call := users maxLimit latency MemoryStore.repository draw op s
    Settles maxLimit draw op.request s call.result call.state call.announced :=
  (users_ends maxLimit latency draw op s).settles

end Service

/-- A call of a client. The client hands out its context, which whoever calls may still change. -/
structure ClientCall where
  draw : Draw
  protocol : Protocol := .internal
  within : Context → Context := id
  request : Request

/-- A call that is over: what it drew, what it asked for and what came of it. -/
structure Answered where
  draw : Draw
  request : Request
  result : Option (Except OperationError Response)

theorem MemoryStore.repository_monitored : MemoryStore.repository.Monitored :=
  ⟨fun _ => rfl, fun _ => rfl⟩

namespace Server

/-- The service behind the layers. -/
def innermost (s : Server) : Service MemoryStore :=
  match s.core with
  | .users => Service.users s.service.maxPageLimit s.latency s.repository
  | .fixed answer => Service.fixed answer

theorem stack_eq (s : Server) : s.stack = Service.pipeline s.service s.reporter s.innermost := rfl

theorem repository_observed (s : Server) : MemoryStore.repository.Observed s.repository := by
  have htraced : MemoryStore.repository.Observed
      (if s.tracedRepository then MemoryStore.repository.traced else MemoryStore.repository) := by
    split
    · exact .traced .bare
    · exact .bare
  unfold repository
  dsimp only
  split
  · exact .reported s.reporter htraced
  · exact htraced

theorem repository_alike (s : Server) : s.repository.Alike MemoryStore.repository :=
  s.repository_observed.alike

theorem repository_monitored (s : Server) : s.repository.Monitored :=
  s.repository_observed.monitored MemoryStore.repository_monitored

/-- Whatever observes it, a server over accounts answers as the service over the bare store does. -/
theorem stack_alike {s : Server} (hs : s.core = .users) :
    Service.Alike s.stack
      (Service.users s.service.maxPageLimit s.latency MemoryStore.repository) := by
  have hi : s.innermost = Service.users s.service.maxPageLimit s.latency s.repository := by
    simp only [innermost, hs]
  rw [stack_eq, hi]
  exact (Service.pipeline_alike _ _ _).trans (Service.users_alike s.repository_alike _ _)

@[simp] theorem run_value (s : Server) (draw : Draw) (op : Operation) :
    (s.run draw op).value = (s.stack draw op s.store).result.map op.request.accept := rfl

/-- The server that has handed out the context of a call. -/
def entering (s : Server) (c : ClientCall) : Server := (s.context c.protocol).1

/-- The operation that a call comes to. -/
def operation (s : Server) (c : ClientCall) : Operation :=
  { context := c.within (s.context c.protocol).2, request := c.request }

def call (s : Server) (c : ClientCall) : Step (Option (Except OperationError Response)) :=
  (s.entering c).run c.draw (s.operation c)

/-- What the layers answer in a call, before the client looks at it. -/
def unchecked (s : Server) (c : ClientCall) : Option (Except OperationError Response) :=
  ((s.entering c).stack c.draw (s.operation c) s.store).result

/-- The changes that a call hands over to be announced. -/
def announced (s : Server) (c : ClientCall) : List Envelope :=
  ((s.entering c).stack c.draw (s.operation c) s.store).announced

/-- What happens to a server, one thing at a time. -/
inductive Action
  | call (call : ClientCall)
  | setFailing (failing : Bool)
  | setReachable (reachable : Bool)
  | channel (action : Channel.Action)
  | advance (ms : Nat)
  | checkNow
  | closeRepository
  | shutDown

def after (s : Server) : Action → Server
  | .call c => (s.call c).server
  | .setFailing failing => { s with store := { s.store with failing } }
  | .setReachable reachable => { s with store := { s.store with reachable } }
  | .channel action => { s with channel := (s.channel.perform action).1 }
  | .advance ms => (s.advance ms).server
  | .checkNow => s.checkNow.server
  | .closeRepository => s.closeRepository
  | .shutDown => { s with shutDown := true }

def course (s : Server) (run : List Action) : Server := run.foldl after s

def answered? (s : Server) : Action → Option Answered
  | .call c => some ⟨c.draw, c.request, (s.call c).value⟩
  | _ => none

/-- The calls of a run, oldest first. -/
def history (s : Server) : List Action → List Answered
  | [] => []
  | a :: rest => (s.answered? a).toList ++ (s.after a).history rest

theorem course_append (s : Server) (run more : List Action) :
    s.course (run ++ more) = (s.course run).course more := List.foldl_append

@[simp] theorem history_singleton (s : Server) (a : Action) :
    s.history [a] = (s.answered? a).toList := List.append_nil _

theorem history_append (s : Server) (run more : List Action) :
    s.history (run ++ more) = s.history run ++ (s.course run).history more := by
  induction run generalizing s with
  | nil => rfl
  | cons a run ih =>
    simp only [List.cons_append, history, ih, List.append_assoc]
    rfl

/-- Whatever holds in the beginning and is kept by every action holds after every run. -/
theorem course_induction {P : Server → Prop} (hstep : ∀ s a, P s → P (s.after a)) {s : Server}
    (hs : P s) (run : List Action) : P (s.course run) := by
  induction run generalizing s with
  | nil => exact hs
  | cons a run ih => exact ih (hstep s a hs)

/-- What every action keeps of two servers, and is answered the same by both, holds along every run
of the two. -/
theorem course_induction₂ {R : Server → Server → Prop}
    (hstep : ∀ {s t : Server} a, R s t → s.answered? a = t.answered? a ∧ R (s.after a) (t.after a))
    {s t : Server} (h : R s t) (run : List Action) :
    s.history run = t.history run ∧ R (s.course run) (t.course run) := by
  induction run generalizing s t with
  | nil => exact ⟨rfl, h⟩
  | cons a run ih =>
    obtain ⟨hanswered, hafter⟩ := hstep a h
    obtain ⟨hhistory, hcourse⟩ := ih hafter
    exact ⟨by rw [history, history, hanswered, hhistory], hcourse⟩

theorem after_closeRepository (s : Server) :
    s.after .closeRepository = { s with monitor := s.monitor.stop } := by
  rw [after, closeRepository, s.repository_monitored.shut]

@[simp] theorem after_core (s : Server) (a : Action) : (s.after a).core = s.core := by
  cases a <;> rfl

@[simp] theorem after_service (s : Server) (a : Action) : (s.after a).service = s.service := by
  cases a <;> rfl

@[simp] theorem after_latency (s : Server) (a : Action) : (s.after a).latency = s.latency := by
  cases a <;> rfl

@[simp] theorem course_core (s : Server) (run : List Action) : (s.course run).core = s.core :=
  course_induction (P := fun t => t.core = s.core) (fun t a h => (after_core t a).trans h) rfl run

@[simp] theorem course_service (s : Server) (run : List Action) :
    (s.course run).service = s.service :=
  course_induction (P := fun t => t.service = s.service)
    (fun t a h => (after_service t a).trans h) rfl run

theorem after_rows_of_not_call {s : Server} {a : Action} (h : s.answered? a = none) :
    (s.after a).store.rows = s.store.rows := by
  cases a with
  | call c => cases h
  | _ => rfl

/-- A server over accounts in memory as it is started: no accounts, no subscribers, and a store
that answers at once. -/
structure Started (s : Server) : Prop where
  core : s.core = .users
  latency : s.latency = 0
  rows : s.store.rows = []
  subscribers : s.channel.subscribers = []
  monitor : ∃ dependency now interval, Monitor.start? dependency now interval = some s.monitor

/-- A server over accounts in memory with nothing but defaults. Its first probe is a minute away. -/
def initial : Server :=
  { monitor := { dependency := "memory", worker := { interval := 60000, now := 0, deadline := 60000 } } }

theorem initial_started : initial.Started := ⟨rfl, rfl, rfl, rfl, "memory", 0, 60000, rfl⟩

/-- Some run of a server that was started leads here. -/
def Reachable (s : Server) : Prop := ∃ t run, Started t ∧ t.course run = s

end Server

/-- A call comes to what the service over the bare store comes to. -/
theorem Server.call_users {s : Server} (hs : s.core = .users) (c : ClientCall) :
    let call := Service.users s.service.maxPageLimit s.latency MemoryStore.repository c.draw
      (s.operation c) s.store
    (s.call c).value = call.result ∧ (s.call c).server.store = call.state ∧
      s.announced c = call.announced := by
  let core := Service.users s.service.maxPageLimit s.latency MemoryStore.repository
  let op := s.operation c
  have halike : Service.Alike (s.entering c).stack core := stack_alike hs
  have hsettles := Service.users_settles s.service.maxPageLimit s.latency c.draw op s.store
  have hv : (s.call c).value = (core c.draw op s.store).result := by
    rw [← hsettles.accept, ← halike.result]
    rfl
  exact ⟨hv, halike.state _ _ _, halike.announced _ _ _⟩

theorem Server.call_ends {s : Server} (hs : s.core = .users) (c : ClientCall) :
    ∃ call, Service.Ends s.service.maxPageLimit s.latency c.draw (s.operation c) s.store call ∧
      (s.call c).value = call.result ∧ (s.call c).server.store = call.state ∧
      s.announced c = call.announced :=
  ⟨_, Service.users_ends _ _ _ _ _, call_users hs c⟩

theorem Server.call_settles {s : Server} (hs : s.core = .users) (c : ClientCall) :
    Service.Settles s.service.maxPageLimit c.draw c.request s.store (s.call c).value
      (s.call c).server.store (s.announced c) := by
  obtain ⟨call, hends, hv, ht, ha⟩ := call_ends hs c
  rw [hv, ht, ha]
  exact hends.settles

end Roster
