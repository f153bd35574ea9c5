import Mathlib
import Roster.Proofs.Observations
import Roster.Proofs.Observers
import Roster.Proofs.Transport
/-! # All observers tell the same

Along any run of a server over accounts, with calls of clients and requests over HTTP, what was
logged and what was counted are the calls that came to their end. -/
namespace Roster

/-- The observers of a call tell the status code of its result, and the log how grave that is. -/
structure Unanimous (op : Operation) (r : Except OperationError Response) : Prop where
  logged : (Service.logEvent op r).field? "operation" = some op.name ∧
    (Service.logEvent op r).field? "code" = some (toString (codeOf r))
  traced : (Service.spanFields op ++ Service.spanResult r).lookup "code" =
    some (toString (codeOf r))
  reported : ∀ {report}, Service.report? op r = some report →
    report.tag? "operation" = some op.name ∧ report.tag? "code" = some (toString (codeOf r))
  answered : (Http.Response.ofResult (some r)).status = codeOf r
  warns : (Service.logEvent op r).level = .warn ↔ codeOf r = 404
  fails : (Service.logEvent op r).level = .error ↔ codeOf r = 400 ∨ codeOf r = 503
  informs : (Service.logEvent op r).level = .info ↔ codeOf r ≠ 404 ∧ codeOf r ≠ 400 ∧ codeOf r ≠ 503

theorem unanimous (op : Operation) (r : Except OperationError Response) : Unanimous op r := by
  refine ⟨⟨rfl, rfl⟩, rfl, fun {report} h => ?_, ?_, ?_, ?_, ?_⟩
  · rcases r with e | response
    · cases e with
      | invalid => cases h
      | notFound | unavailable =>
        obtain rfl := Option.some.inj h
        exact ⟨rfl, rfl⟩
    · cases h
  all_goals
    rcases r with e | response
    · cases e <;> simp [Service.logEvent, Service.logLine, codeOf, OperationError.code,
        Http.Response.ofResult, Http.failed, Http.Response.failure, Http.Response.ofBody]
    · simp [Service.logEvent, Service.logLine, codeOf, Http.Response.ofResult, Http.Response.ofBody]

/-- What comes to a server: an action, or a request over HTTP. -/
inductive Visit
  | act (a : Server.Action)
  | request (draw : Draw) (freshRequestId : String) (r : Http.Request)

/-- The spans around whatever a visit asks for. -/
def Visit.outer : Visit → List String
  | act _ => []
  | request .. => ["http"]

/-- A call that came to its end. -/
structure Finished where
  operation : Operation
  result : Except OperationError Response

/-- The name of the operation, and the status code. -/
def Finished.key (f : Finished) : String × Nat := (f.operation.name, codeOf f.result)

/-- How often operations ended as the key says. -/
def Counts.of (counts : Counts) (key : String × Nat) : Nat := (counts.lookup key).getD 0

theorem Counts.of_cons (k key : String × Nat) (n : Nat) (counts : Counts) :
    of ((key, n) :: counts) k = if key = k then n else counts.of k := by
  by_cases h : key = k
  · simp [of, h]
  · have hne : (k == key) = false := beq_false_of_ne (Ne.symm h)
    simp [of, List.lookup_cons, h, hne]

theorem Counts.of_add (counts : Counts) (key k : String × Nat) :
    (counts.add key).of k = counts.of k + if key = k then 1 else 0 := by
  induction counts with
  | nil =>
    show of [(key, 1)] k = of [] k + _
    rw [of_cons]
    split <;> rfl
  | cons c counts ih =>
    obtain ⟨key', n⟩ := c
    unfold add
    split
    · rename_i hsame
      subst hsame
      rw [of_cons, of_cons]
      split <;> rfl
    · rename_i hother
      rw [of_cons, of_cons, ih]
      split
      · rename_i hsame
        rw [if_neg (hsame ▸ Ne.symm hother), Nat.add_zero]
      · rfl

theorem Counts.of_foldl_add (keys : List (String × Nat)) (counts : Counts) (k : String × Nat) :
    (keys.foldl (fun c key => c.add key) counts).of k = counts.of k + keys.count k := by
  induction keys generalizing counts with
  | nil => rfl
  | cons key keys ih =>
    rw [List.foldl_cons, ih, of_add, List.count_cons]
    by_cases h : key = k <;> simp [h]
    omega

namespace Server

/-- The call that a visit comes to, if it comes to one. -/
def called? (s : Server) : Visit → Option ClientCall
  | .act (.call c) => some c
  | .act _ => none
  | .request draw _ r => s.callOf? draw r

def visit (s : Server) : Visit → Server
  | .act a => s.after a
  | .request draw freshRequestId r => (s.respond draw freshRequestId r).server

/-- What is noted of a visit. -/
def noted (s : Server) : Visit → Notes
  | .act (.call c) => (s.call c).notes
  | .act .checkNow => s.checkNow.notes
  | .act _ => []
  | .request draw freshRequestId r => (s.respond draw freshRequestId r).notes

/-- What the service behind the layers makes of a call. -/
def served (s : Server) (c : ClientCall) : Roster.Call MemoryStore :=
  (s.entering c).innermost c.draw (s.operation c) s.store

/-- The call of a visit, if it came to its end. -/
def finished? (s : Server) (v : Visit) : Option Finished :=
  (s.called? v).bind fun c => (s.served c).result.map fun result => ⟨s.operation c, result⟩

theorem served_eq {s : Server} (hs : s.core = .users) (c : ClientCall) :
    s.served c =
      Service.users s.service.maxPageLimit s.latency s.repository c.draw (s.operation c)
        s.store := by
  show s.innermost c.draw (s.operation c) s.store = _
  simp only [innermost, hs]

theorem served_modest {s : Server} (hs : s.core = .users) (c : ClientCall) :
    (s.served c).notes.Modest := by
  rw [served_eq hs]
  exact Service.users_modest s.repository_modest ..

theorem unchecked_eq (s : Server) (c : ClientCall) : s.unchecked c = (s.served c).result :=
  (Service.pipeline_alike _ _ (s.entering c).innermost).result ..

theorem noted_of_called {s : Server} (hs : s.core = .users) {v : Visit} {c : ClientCall}
    (hc : s.called? v = some c) :
    Service.Noted s.service s.reporter (s.operation c) (s.served c) v.outer (s.noted v) := by
  have hmodest := served_modest hs c
  cases v with
  | act a =>
    cases a with
    | call c' =>
      obtain rfl := Option.some.inj hc
      exact Service.noted_pipeline s.service s.reporter hmodest
    | _ => cases hc
  | request draw freshRequestId r =>
    have hnotes : s.noted (.request draw freshRequestId r) =
        r.opened freshRequestId :: ((s.call c).notes ++ [.closed []]) := by
      show r.opened freshRequestId :: ((s.answer draw r).notes ++ [.closed []]) = _
      rw [answer_of_call hc]
      rfl
    rw [hnotes]
    exact Service.noted_span s.service s.reporter hmodest (by decide) _ _

theorem checkNow_modest (s : Server) : s.checkNow.notes.Modest := by
  have hevents : (s.monitor.checkNow s.store.probe).2.2 =
      if s.monitor.running then s.monitor.events s.store.probe else [] := by
    unfold Monitor.checkNow
    split <;> rfl
  have hprobe {e : Event} (he : e ∈ s.monitor.events s.store.probe) : e.endsCall = false := by
    rcases List.mem_append.mp he with he | he
    · split at he
      · cases he
      · obtain rfl := List.mem_singleton.mp he
        rfl
    · split at he
      · cases he
      · obtain rfl := List.mem_singleton.mp he
        rfl
  show Notes.Modest ((s.monitor.checkNow s.store.probe).2.2.map .event)
  rw [hevents]
  split
  · exact Notes.modest_events fun _ => hprobe
  · exact Notes.modest_nil

theorem answer_modest {s : Server} {draw : Draw} {r : Http.Request} (h : s.callOf? draw r = none) :
    (s.answer draw r).notes.Modest := by
  unfold callOf? at h
  unfold answer
  split
  · exact Notes.modest_nil
  · rename_i hmethod
    split
    · exact Notes.modest_nil
    · rename_i demand hdemand
      split
      · exact Notes.modest_nil
      · rename_i htimeout
        rw [if_neg (by simp [hmethod, htimeout]), hdemand] at h
        cases demand with
        | call request => cases h
        | live | version => exact Notes.modest_nil
        | ready =>
          apply Notes.modest_events
          intro e he
          unfold readinessEvents at he
          split at he
          · cases he
          · obtain rfl := List.mem_singleton.mp he
            rfl

/-- What else comes to a server says nothing of operations. -/
theorem modest_of_not_called {s : Server} {v : Visit} (hv : s.called? v = none) :
    (s.noted v).Modest := by
  cases v with
  | act a =>
    cases a with
    | call => cases hv
    | checkNow => exact s.checkNow_modest
    | _ => exact Notes.modest_nil
  | request draw freshRequestId r => exact (answer_modest hv).span (by decide) _ _

theorem counts_visit (s : Server) (v : Visit) :
    (s.visit v).counts = (s.noted v).counted.foldl (fun counts key => counts.add key) s.counts := by
  have hcall (c : ClientCall) : (s.call c).server.counts =
      (s.call c).notes.counted.foldl (fun counts key => counts.add key) s.counts := rfl
  cases v with
  | act a =>
    cases a with
    | call c => exact hcall c
    | checkNow =>
      have hnone : (s.noted (.act .checkNow)).counted = [] := s.checkNow_modest.counted
      rw [hnone]
      rfl
    | _ => rfl
  | request draw freshRequestId r =>
    have hcounted : (s.noted (.request draw freshRequestId r)).counted =
        (s.answer draw r).notes.counted := Notes.counted_span _ _ _
    have hserver : (s.visit (.request draw freshRequestId r)) = (s.answer draw r).server := rfl
    rw [hcounted, hserver]
    cases hc : s.callOf? draw r with
    | none =>
      rw [(answer_of_none hc).1, (answer_modest hc).counted]
      rfl
    | some c =>
      rw [answer_of_call hc]
      exact hcall c

/-- What the layers answer is what came of the call, and so is the status of a response. -/
theorem value_eq {s : Server} (hs : s.core = .users) (c : ClientCall) :
    (s.call c).value = (s.served c).result := by
  have hvalue : (s.call c).value = (s.unchecked c).map c.request.accept := rfl
  rw [hvalue, ← unchecked_eq]
  cases hu : s.unchecked c with
  | none => rfl
  | some result =>
    rcases result with e | response
    · rfl
    · simp [Request.accept, fits_of_unchecked hs hu]

theorem status_of_called {s : Server} (hs : s.core = .users) {draw : Draw} {r : Http.Request}
    {c : ClientCall} (hc : s.callOf? draw r = some c) {result : Except OperationError Response}
    (hr : (s.served c).result = some result) (freshRequestId : String) :
    (s.respond draw freshRequestId r).value.status = codeOf result := by
  rw [status_respond, answer_of_call hc]
  show (Http.Response.ofResult (s.call c).value).status = _
  rw [value_eq hs, hr]
  exact (unanimous (s.operation c) result).answered

def visited (s : Server) (visits : List Visit) : Server := visits.foldl visit s

/-- The calls of some visits that came to their end. -/
def finished (s : Server) : List Visit → List Finished
  | [] => []
  | v :: rest => (s.finished? v).toList ++ (s.visit v).finished rest

/-- The lines that are logged at the ends of calls. -/
def lines (s : Server) : List Visit → List Event
  | [] => []
  | v :: rest => ((s.noted v).events []).filter (·.endsCall) ++ (s.visit v).lines rest

theorem visit_unchanged (s : Server) (v : Visit) :
    (s.visit v).core = s.core ∧ (s.visit v).service = s.service := by
  cases v with
  | act a => exact ⟨after_core s a, after_service s a⟩
  | request draw freshRequestId r =>
    show (s.answer draw r).server.core = s.core ∧ (s.answer draw r).server.service = s.service
    cases hc : s.callOf? draw r with
    | none =>
      rw [(answer_of_none hc).1]
      exact ⟨rfl, rfl⟩
    | some c =>
      rw [answer_of_call hc]
      exact ⟨rfl, rfl⟩

theorem core_visited (s : Server) (visits : List Visit) : (s.visited visits).core = s.core := by
  induction visits generalizing s with
  | nil => rfl
  | cons v visits ih => exact (ih (s.visit v)).trans (s.visit_unchanged v).1

section

variable {s : Server} (hs : s.core = .users)
include hs

theorem lines_visit (v : Visit) :
    ((s.noted v).events []).filter (·.endsCall) =
      if s.service.logging then
        (s.finished? v).toList.map fun f =>
          { Service.logEvent f.operation f.result with spans := v.outer }
      else [] := by
  cases hc : s.called? v with
  | none =>
    rw [(modest_of_not_called hc).filter_events, finished?, hc]
    simp
  | some c =>
    rw [(noted_of_called hs hc).logged, finished?, hc, Option.bind_some]
    cases (s.served c).result <;> simp

theorem counted_visit (v : Visit) :
    (s.noted v).counted = if s.service.metrics then (s.finished? v).toList.map (·.key) else [] := by
  cases hc : s.called? v with
  | none =>
    rw [(modest_of_not_called hc).counted, finished?, hc]
    simp
  | some c =>
    rw [(noted_of_called hs hc).counted, finished?, hc, Option.bind_some]
    cases (s.served c).result <;> simp [Finished.key]

theorem counts_visited (visits : List Visit) (key : String × Nat) :
    (s.visited visits).counts.of key =
      s.counts.of key +
        if s.service.metrics then ((s.finished visits).map (·.key)).count key else 0 := by
  induction visits generalizing s with
  | nil => simp [visited, finished]
  | cons v visits ih =>
    obtain ⟨hcore, hservice⟩ := s.visit_unchanged v
    have hrest := ih (hcore.trans hs)
    rw [hservice, counts_visit, Counts.of_foldl_add, counted_visit hs] at hrest
    show ((s.visit v).visited visits).counts.of key = _
    rw [hrest, finished, List.map_append, List.count_append]
    cases s.service.metrics <;> simp [Nat.add_assoc]

end

end Server

/-- The line tells of an operation and of its status code. -/
def Event.tells (e : Event) (key : String × Nat) : Bool :=
  e.field? "operation" == some key.1 && e.field? "code" == some (toString key.2)

theorem Finished.tells_logEvent (f : Finished) (spans : List String) (key : String × Nat) :
    { Service.logEvent f.operation f.result with spans }.tells key = (f.key == key) := by
  obtain ⟨hoperation, hcode⟩ := (unanimous f.operation f.result).logged
  have hfields : { Service.logEvent f.operation f.result with spans }.tells key =
      (Service.logEvent f.operation f.result).tells key := rfl
  rw [hfields, Event.tells, hoperation, hcode, Bool.eq_iff_iff]
  simp [Finished.key, Prod.ext_iff]

theorem Server.countP_lines {s : Server} (hs : s.core = .users) (visits : List Visit)
    (key : String × Nat) :
    (s.lines visits).countP (·.tells key) =
      if s.service.logging then ((s.finished visits).map (·.key)).count key else 0 := by
  induction visits generalizing s with
  | nil => simp [lines, finished]
  | cons v visits ih =>
    obtain ⟨hcore, hservice⟩ := s.visit_unchanged v
    have hrest := ih (hcore.trans hs)
    rw [hservice] at hrest
    rw [lines, List.countP_append, hrest, lines_visit hs, finished, List.map_append,
      List.count_append]
    cases s.service.logging with
    | false => rfl
    | true =>
      cases s.finished? v with
      | none => simp
      | some f => simp [Finished.tells_logEvent, List.count_cons]

/-- Every call is observed once by every observer that is wanted, and all of them tell of its
result. In a run, the counters and the lines in the log both come to the calls that came to their
end. -/
theorem observed_once :
    (∀ {σ : Type} {r : Repository σ}, r.Modest → ∀ settings reporter maxLimit latency draw op s,
      let core := Service.users maxLimit latency r
      let call := Service.pipeline settings reporter core draw op s
      call.result = (core draw op s).result ∧
        Service.Noted settings reporter op (core draw op s) [] call.notes) ∧
    (∀ {σ : Type} (peers : Postgres.Peers σ), Repository.Modest (Postgres.repository peers)) ∧
    (∀ op r, Unanimous op r) ∧
    ∀ {s : Server}, s.core = .users → ∀ visits,
      let t := s.visited visits
      (∀ {v c}, t.called? v = some c →
        Service.Noted t.service t.reporter (t.operation c) (t.served c) v.outer (t.noted v)) ∧
      (∀ {draw q c result}, t.callOf? draw q = some c → (t.served c).result = some result →
        ∀ freshRequestId, (t.respond draw freshRequestId q).value.status = codeOf result) ∧
      ∀ key,
        let finished := ((s.finished visits).map (·.key)).count key
        t.counts.of key = s.counts.of key + (if s.service.metrics then finished else 0) ∧
          (s.lines visits).countP (·.tells key) = if s.service.logging then finished else 0 := by
  refine ⟨fun {σ r} hr settings reporter maxLimit latency draw op s => ⟨?_, ?_⟩,
    fun peers => Postgres.repository_modest peers, unanimous, fun {s} hs visits => ?_⟩
  · exact (Service.pipeline_alike settings reporter _).result ..
  · exact Service.noted_pipeline settings reporter (Service.users_modest hr ..)
  · intro t
    have ht : t.core = .users := by
      rw [← hs]
      exact Server.core_visited s visits
    exact ⟨fun hc => Server.noted_of_called ht hc,
      fun hc hr freshRequestId => Server.status_of_called ht hc hr freshRequestId,
      fun key => ⟨Server.counts_visited hs visits key, Server.countP_lines hs visits key⟩⟩

/-- An account that is not there is removed in vain, by a call and by a request. -/
theorem observed_once_of_missing_account :
    let key : String × Nat := ("DeleteUser", 404)
    let op : Operation := { context := { callId := 0 }, request := .delete { id := "b" } }
    let core := Service.users 100 0 MemoryStore.repository
    let r : Http.Request := { method := "DELETE", uri := { written := "/user/b" } }
    let visits : List Visit :=
      [.act (.call ⟨⟨"", .epoch⟩, .grpc, id, op.request⟩), .request ⟨"", .epoch⟩ "1" r]
    MemoryStore.repository.Modest ∧ Server.initial.core = .users ∧
      Service.Noted {} .keep op (core ⟨"", .epoch⟩ op {}) []
        (Service.pipeline {} .keep core ⟨"", .epoch⟩ op {}).notes ∧
      (Server.initial.visited visits).counts.of key = 2 ∧
      (Server.initial.lines visits).countP (·.tells key) = 2 := by
  intro key op core r visits
  have hfinished : ((Server.initial.finished visits).map (·.key)).count key = 2 := by decide +kernel
  obtain ⟨hpipeline, -, -, hruns⟩ := observed_once
  obtain ⟨-, -, htally⟩ := hruns (s := Server.initial) rfl visits
  obtain ⟨hcounts, hlines⟩ := htally key
  rw [hfinished] at hcounts hlines
  exact ⟨MemoryStore.repository_modest, rfl,
    (hpipeline MemoryStore.repository_modest {} .keep 100 0 ⟨"", .epoch⟩ op {}).2, hcounts, hlines⟩

end Roster
