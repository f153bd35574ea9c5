import Roster.Proofs.Observations
/-! # What is captured of a call

Errors are captured at two places: behind the repository, where a command has failed, and behind the
service, where an operation has. Both stand side by side in the notes of a call, so that either can
be left out without a change to the other or to anything else. -/
namespace Roster

/-- The command that a request becomes. -/
def Request.method : Request → String
  | create _ => "create"
  | list _ => "get"
  | update _ => "update"
  | delete _ => "delete"

theorem Request.name_of_command {maxLimit : UInt32} {request : Request} {command : Command}
    (h : request.command maxLimit = .ok command) : command.name = request.method := by
  cases request with
  | create r =>
    obtain ⟨_, _, rfl⟩ := eq_ok_of_map_eq_ok h
    rfl
  | list r =>
    obtain ⟨_, _, rfl⟩ := eq_ok_of_map_eq_ok h
    rfl
  | update r =>
    obtain ⟨_, _, rfl⟩ := eq_ok_of_map_eq_ok h
    rfl
  | delete r =>
    obtain ⟨_, _, rfl⟩ := eq_ok_of_map_eq_ok h
    rfl

namespace Service

variable {σ : Type}

/-- The reports of the command of an operation, if it comes to one. -/
def faults (maxLimit : UInt32) (latency : Nat) (repository : Repository σ) (draw : Draw)
    (op : Operation) (s : σ) : List ErrorReport :=
  match op.request.command maxLimit with
  | .error _ => []
  | .ok command =>
    if op.context.begins then
      ((repository ⟨draw, command, (op.context.settle latency).2 = .done⟩ s).result.bind
        Repository.report?).toList
    else []

/-- Reports of the repository are added behind what else is noted, and nothing else is changed. -/
theorem users_reported (maxLimit : UInt32) (latency : Nat) (repository : Repository σ)
    (reporter : Reporter) (draw : Draw) (op : Operation) (s : σ) :
    users maxLimit latency (repository.reported reporter) draw op s =
      { users maxLimit latency repository draw op s with
        notes := (users maxLimit latency repository draw op s).notes ++
          (faults maxLimit latency repository draw op s).map reporter.capture } := by
  cases hc : op.request.command maxLimit with
  | error reason => simp only [users, faults, hc, List.map_nil, List.append_nil]
  | ok command =>
    by_cases hb : op.context.begins = true
    · simp only [users, faults, hc, hb, if_true, Repository.reported]
    · simp only [users, faults, hc, hb, Bool.false_eq_true, if_false, List.map_nil, List.append_nil]

theorem faults_alike {r r' : Repository σ} (h : r.Alike r') (maxLimit : UInt32) (latency : Nat)
    (draw : Draw) (op : Operation) (s : σ) :
    faults maxLimit latency r draw op s = faults maxLimit latency r' draw op s := by
  have hresult (a : Attempt) : (r a s).result = (r' a s).result := by
    have he := congrArg Run.result (h a s)
    exact he
  simp only [faults, hresult]

end Service

/-- The store rejects the command of the operation: the request is in order, and the command is
waited for to its end. -/
structure Operation.Fails (op : Operation) (maxLimit : UInt32) (latency : Nat) (s : MemoryStore) :
    Prop where
  sound : ¬ op.request.Breaks maxLimit
  done : (op.context.settle latency).2 = .done
  failing : s.failing = true

/-- The report of a store that rejects the command of a request. -/
def Request.fault (r : Request) : ErrorReport where
  message := RepositoryError.message (.persistence r.method MemoryStore.rejected)
  tags := [("repository", "user"), ("method", r.method)]

/-- The report of an operation that failed with a status code. -/
def Request.failure (r : Request) (message : String) (code : Nat) : ErrorReport where
  message
  tags := [("operation", r.name), ("code", toString code)]
  extras := [("request", r.observed.report), ("response", [])]

namespace Service

section

variable {maxLimit : UInt32} {latency : Nat} {op : Operation} {s : MemoryStore}

theorem faults_of_fails (h : op.Fails maxLimit latency s) (draw : Draw) :
    faults maxLimit latency MemoryStore.repository draw op s = [op.request.fault] := by
  cases hc : op.request.command maxLimit with
  | error reason => exact absurd (Request.command_eq_error_iff.mp ⟨reason, hc⟩) h.sound
  | ok command =>
    have hbegins : op.context.begins = true := by
      by_cases hb : op.context.begins = true
      · exact hb
      · exact absurd h.done (Context.ending_of_not_begins (Bool.not_eq_true _ ▸ hb) latency)
    have hname := Request.name_of_command hc
    simp only [faults, hc, hbegins, h.done, MemoryStore.repository, h.failing, hname]
    rfl

theorem faults_of_not_fails (h : ¬ op.Fails maxLimit latency s) (draw : Draw) :
    faults maxLimit latency MemoryStore.repository draw op s = [] := by
  cases hc : op.request.command maxLimit with
  | error reason => simp only [faults, hc]
  | ok command =>
    have hbreaks : ¬ op.request.Breaks maxLimit := fun hb => by
      obtain ⟨reason, he⟩ := Request.command_eq_error_iff.mpr hb
      exact absurd (hc.symm.trans he) nofun
    by_cases hb : op.context.begins = true
    · by_cases hdone : (op.context.settle latency).2 = .done
      · have hfailing : s.failing = false :=
          Bool.eq_false_iff.mpr fun hf => h ⟨hbreaks, hdone, hf⟩
        rcases MemoryStore.perform_command hc s.rows draw with
          ⟨-, reply, changed, hp, -⟩ | ⟨-, operation, hp⟩ <;>
          simp [faults, hc, hb, hdone, MemoryStore.repository, hfailing, hp, Repository.report?]
      · simp [faults, hc, hb, hdone, MemoryStore.repository]
    · simp [faults, hc, hb]

end

section

variable {maxLimit : UInt32} {latency : Nat} {draw : Draw} {op : Operation} {s : MemoryStore}
  {call : Call MemoryStore} (h : Ends maxLimit latency draw op s call)
include h

theorem Ends.result_of_fails (hfails : op.Fails maxLimit latency s) :
    ∃ causes, call.result = some (.error (.unavailable op.name causes)) := by
  have hdone := hfails.done
  cases h with
  | refused hbreaks => exact absurd hbreaks hfails.sound
  | interrupted _ hends | abandoned _ hends =>
    rw [hends] at hdone
    cases hdone
  | rejected => exact ⟨_, rfl⟩
  | missed _ _ hfailing | committed _ _ hfailing =>
    exact absurd (hfailing.symm.trans hfails.failing) (by decide)

theorem Ends.result_of_interrupted (hsound : ¬ op.request.Breaks maxLimit) {elapsed : Nat}
    {reason : Interrupted} (hsettle : op.context.settle latency = (elapsed, .interrupted reason)) :
    call.result = some (.error (.unavailable op.name [reason.message])) := by
  cases h with
  | refused hbreaks => exact absurd hbreaks hsound
  | interrupted _ hends =>
    obtain ⟨-, hreason⟩ := Prod.mk.inj (hends.symm.trans hsettle)
    rw [Ending.interrupted.inj hreason]
  | abandoned _ hends | rejected _ hends | missed _ hends | committed _ hends =>
    cases (Prod.mk.inj (hends.symm.trans hsettle)).2

end

/-- A call that is cancelled before it begins does not enter the repository. -/
theorem users_cancelled {σ : Type} {maxLimit : UInt32} {op : Operation}
    (hsound : ¬ op.request.Breaks maxLimit) (hcancelled : op.context.cancelledAt = some 0)
    (habandoned : op.context.abandonedAt ≠ some 0) (latency : Nat) (repository : Repository σ)
    (draw : Draw) (s : σ) :
    users maxLimit latency repository draw op s =
      { result := some (.error (.unavailable op.name [Interrupted.cancelled.message]))
        state := s } := by
  have hsettle := Context.settle_cancelled hcancelled habandoned latency
  have hbegins : op.context.begins = false := by simp [Context.begins, hcancelled]
  cases hc : op.request.command maxLimit with
  | error reason => exact absurd (Request.command_eq_error_iff.mp ⟨reason, hc⟩) hsound
  | ok command =>
    simp only [users, hc, hsettle, hbegins, Bool.false_eq_true, if_false]
    rfl

/-- What the layers note before the reports. -/
def opening (settings : ServiceSettings) (op : Operation) (notes : Notes) : Notes :=
  (if settings.tracing then [.opened op.name (spanFields op)] else []) ++ notes

/-- What the layers note behind the reports. -/
def closing (settings : ServiceSettings) (op : Operation)
    (result : Option (Except OperationError Response)) : Notes :=
  (if settings.tracing then [.closed (result.toList.flatMap spanResult)] else []) ++
    afterwards settings op result

/-- The reports stand side by side, those of the repository first. -/
theorem pipeline_notes_eq {σ : Type} (settings : ServiceSettings) (reporter : Reporter)
    {core : Service σ} {draw : Draw} {op : Operation} {s : σ} {notes theirs : Notes}
    (h : (core draw op s).notes = notes ++ theirs) :
    (pipeline settings reporter core draw op s).notes =
      opening settings op notes ++ (theirs ++
        if settings.errorReporting then
          ((core draw op s).result.bind (report? op)).toList.map reporter.capture
        else []) ++ closing settings op (core draw op s).result := by
  rw [pipeline_notes, enclosed, within, h, opening, closing]
  cases settings.tracing <;> simp

theorem not_captured_opening {settings : ServiceSettings} {op : Operation} {notes : Notes}
    (h : ∀ n ∈ notes, n.captured = false) :
    ∀ n ∈ opening settings op notes, n.captured = false := by
  intro n hn
  rcases List.mem_append.mp hn with hn | hn
  · split at hn
    · obtain rfl := List.mem_singleton.mp hn
      rfl
    · cases hn
  · exact h n hn

theorem not_captured_closing {settings : ServiceSettings} {op : Operation}
    {result : Option (Except OperationError Response)} :
    ∀ n ∈ closing settings op result, n.captured = false := by
  intro n hn
  rcases List.mem_append.mp hn with hn | hn
  · split at hn
    · obtain rfl := List.mem_singleton.mp hn
      rfl
    · cases hn
  · rcases List.mem_append.mp hn with hn | hn
    all_goals
      split at hn
      · obtain ⟨r, -, rfl⟩ := List.mem_map.mp hn
        rfl
      · cases hn

end Service

namespace Server

/-- The server with either place where errors are captured switched on or off. -/
def reporting (s : Server) (pipeline repository : Bool) : Server :=
  { s with
    service := { s.service with errorReporting := pipeline }
    reportedRepository := repository }

/-- The repository of the server without its reports. -/
def unreported (s : Server) : Repository MemoryStore :=
  if s.tracedRepository then MemoryStore.repository.traced else MemoryStore.repository

theorem unreported_alike (s : Server) : s.unreported.Alike MemoryStore.repository := by
  unfold unreported
  split
  · exact Repository.traced_alike _
  · exact Repository.Alike.refl _

theorem not_captured_unreported (s : Server) (a : Attempt) (t : MemoryStore) :
    ∀ n ∈ (s.unreported a t).notes, n.captured = false := by
  have hnone := MemoryStore.notes_repository a t
  unfold unreported
  split
  · intro n hn
    simp only [Repository.traced, hnone, List.mem_append, List.mem_singleton] at hn
    rcases hn with rfl | rfl <;> rfl
  · rw [hnone]
    exact nofun

/-- What the service notes of a call inside all reports. -/
def plain (s : Server) (c : ClientCall) : Roster.Call MemoryStore :=
  Service.users s.service.maxPageLimit s.latency s.unreported c.draw (s.operation c) s.store

theorem not_captured_plain (s : Server) (c : ClientCall) :
    ∀ n ∈ (s.plain c).notes, n.captured = false := by
  unfold plain Service.users
  split
  · exact nofun
  · dsimp only
    split
    · exact s.not_captured_unreported _ _
    · exact nofun

/-- What the repository reports of a call, if it is observed. -/
def theirs (s : Server) (c : ClientCall) : List ErrorReport :=
  Service.faults s.service.maxPageLimit s.latency MemoryStore.repository c.draw (s.operation c)
    s.store

/-- What the layers report of a call, if it is observed. -/
def own (s : Server) (c : ClientCall) : List ErrorReport :=
  ((s.call c).value.bind (Service.report? (s.operation c))).toList

section

variable {s : Server} (hs : s.core = .users)
include hs

theorem plain_result (c : ClientCall) : (s.plain c).result = (s.call c).value := by
  rw [(call_users hs c).1]
  exact (Service.users_alike s.unreported_alike _ _).result _ _ _

theorem innermost_reporting (pipeline repository : Bool) (c : ClientCall) :
    ((s.reporting pipeline repository).entering c).innermost c.draw (s.operation c) s.store =
      { s.plain c with
        notes := (s.plain c).notes ++
          ((if repository then s.theirs c else []).map s.reporter.capture) } := by
  have hcore : ((s.reporting pipeline repository).entering c).innermost =
      Service.users s.service.maxPageLimit s.latency
        (if repository then s.unreported.reported s.reporter else s.unreported) := by
    have hentering : ((s.reporting pipeline repository).entering c).core = .users := hs
    simp only [innermost, hentering]
    rfl
  have htheirs := Service.faults_alike s.unreported_alike s.service.maxPageLimit s.latency c.draw
    (s.operation c) s.store
  rw [hcore]
  cases repository with
  | false => simp [plain]
  | true =>
    simp only [if_true]
    rw [Service.users_reported, htheirs]
    rfl

theorem notes_reporting (pipeline repository : Bool) (c : ClientCall) :
    ((s.reporting pipeline repository).call c).notes =
      Service.opening s.service (s.operation c) (s.plain c).notes ++
        ((if repository then s.theirs c else []) ++
          (if pipeline then s.own c else [])).map s.reporter.capture ++
        Service.closing s.service (s.operation c) (s.call c).value := by
  have hcore := innermost_reporting hs pipeline repository c
  have hnotes := Service.pipeline_notes_eq (s.reporting pipeline repository).service s.reporter
    (congrArg Call.notes hcore)
  have hresult := (congrArg Call.result hcore).trans (plain_result hs c)
  rw [hresult] at hnotes
  refine hnotes.trans ?_
  cases pipeline <;> simp [own, reporting] <;> rfl

theorem alike_reporting (pipeline repository : Bool) :
    Service.Alike (s.reporting pipeline repository).stack s.stack := by
  have hbare : Service.Alike s.stack
      (Service.users s.service.maxPageLimit s.latency MemoryStore.repository) := stack_alike hs
  have hreporting : Service.Alike (s.reporting pipeline repository).stack
      (Service.users s.service.maxPageLimit s.latency MemoryStore.repository) :=
    stack_alike (s := s.reporting pipeline repository) hs
  exact fun draw op t => (hreporting draw op t).trans (hbare draw op t).symm

theorem counted_reporting (pipeline repository : Bool) (draw : Draw) (op : Operation)
    (t : MemoryStore) :
    ((s.reporting pipeline repository).stack draw op t).notes.counted =
      (s.stack draw op t).notes.counted := by
  have hcounted (u : Server) (hu : u.core = .users) :
      (u.stack draw op t).notes.counted =
        if u.service.metrics then (u.stack draw op t).result.toList.map fun r => (op.name, codeOf r)
        else [] := by
    have hinner : u.innermost = Service.users u.service.maxPageLimit u.latency u.repository := by
      simp only [innermost, hu]
    have hmodest : (u.innermost draw op t).notes.Modest := by
      rw [hinner]
      exact Service.users_modest u.repository_modest ..
    have hresult : (u.stack draw op t).result = (u.innermost draw op t).result :=
      (Service.pipeline_alike _ _ u.innermost).result ..
    rw [hresult]
    exact Service.counted_pipeline u.service u.reporter hmodest
  rw [hcounted _ hs, hcounted (s.reporting pipeline repository) hs,
    (alike_reporting hs pipeline repository).result]
  rfl

theorem run_reporting (pipeline repository : Bool) (draw : Draw) (op : Operation) :
    (s.reporting pipeline repository).run draw op =
      { s.run draw op with
        notes := ((s.reporting pipeline repository).run draw op).notes
        server := (s.run draw op).server.reporting pipeline repository } := by
  have halike := alike_reporting hs pipeline repository draw op s.store
  have hcounted := counted_reporting hs pipeline repository draw op s.store
  have hstore : (s.reporting pipeline repository).store = s.store := rfl
  simp only [run, hstore]
  generalize (s.reporting pipeline repository).stack draw op s.store = call at halike hcounted
  generalize s.stack draw op s.store = call' at halike hcounted
  obtain ⟨result, notes, state, elapsed, announced⟩ := call
  obtain ⟨result', notes', state', elapsed', announced'⟩ := call'
  obtain ⟨rfl, -, rfl, rfl, rfl⟩ := Call.mk.inj halike
  simp only at hcounted
  simp only [hcounted]
  rfl

/-- Switching reports on and off changes the reports that are noted of a call, and nothing else. -/
theorem call_reporting (pipeline repository : Bool) (c : ClientCall) :
    (s.reporting pipeline repository).call c =
      { s.call c with
        notes := Service.opening s.service (s.operation c) (s.plain c).notes ++
          ((if repository then s.theirs c else []) ++
            (if pipeline then s.own c else [])).map s.reporter.capture ++
          Service.closing s.service (s.operation c) (s.call c).value
        server := (s.call c).server.reporting pipeline repository } := by
  rw [← notes_reporting hs]
  exact run_reporting (s := s.entering c) hs pipeline repository c.draw (s.operation c)

theorem after_reporting (pipeline repository : Bool) (a : Action) :
    (s.reporting pipeline repository).after a = (s.after a).reporting pipeline repository := by
  cases a with
  | call c =>
    have h := congrArg Step.server (call_reporting hs pipeline repository c)
    exact h
  | closeRepository =>
    rw [after_closeRepository, after_closeRepository]
    rfl
  | _ => rfl

end

theorem course_reporting {s : Server} (hs : s.core = .users) (pipeline repository : Bool)
    (run : List Action) :
    (s.reporting pipeline repository).course run =
      (s.course run).reporting pipeline repository := by
  induction run generalizing s with
  | nil => rfl
  | cons a run ih =>
    have hrest := ih ((after_core s a).trans hs)
    rw [← after_reporting hs] at hrest
    exact hrest

/-- What is captured of a call, by what comes of it: the reports of the repository and those of the
layers. -/
structure Captures (s : Server) (c : ClientCall) (theirs own : List ErrorReport) : Prop where
  answered : ∀ {response}, (s.call c).value = some (.ok response) → theirs = [] ∧ own = []
  refused : ∀ {reason}, (s.call c).value = some (.error (.invalid reason)) →
    theirs = [] ∧ own = []
  missed : (s.call c).value = some (.error .notFound) →
    theirs = [] ∧ own = [c.request.failure "not found" 404]
  failed : (s.operation c).Fails s.service.maxPageLimit s.latency s.store → ∃ causes,
    let e := OperationError.unavailable c.request.name causes
    (s.call c).value = some (.error e) ∧ theirs = [c.request.fault] ∧
      own = [c.request.failure e.message 503]
  interrupted : ¬ c.request.Breaks s.service.maxPageLimit → ∀ {elapsed reason},
    (s.operation c).context.settle s.latency = (elapsed, .interrupted reason) →
      let e := OperationError.unavailable c.request.name [reason.message]
      (s.call c).value = some (.error e) ∧ theirs = [] ∧
        own = [c.request.failure e.message 503]
  /-- A call that is cancelled before it begins does not enter the repository. -/
  cancelled : ¬ c.request.Breaks s.service.maxPageLimit →
    (s.operation c).context.cancelledAt = some 0 →
    (s.operation c).context.abandonedAt ≠ some 0 →
      let e := OperationError.unavailable c.request.name [Interrupted.cancelled.message]
      (s.call c).value = some (.error e) ∧ theirs = [] ∧
        own = [c.request.failure e.message 503] ∧
        ∀ (σ : Type) (repository : Repository σ) (t : σ),
          Service.users s.service.maxPageLimit s.latency repository c.draw (s.operation c) t =
            { result := some (.error e), state := t }
  unheard : (s.call c).value = none → theirs = [] ∧ own = []

theorem captures {s : Server} (hs : s.core = .users) (c : ClientCall) :
    s.Captures c (s.theirs c) (s.own c) := by
  obtain ⟨call, hends, hvalue, -, -⟩ := call_ends hs c
  have hquiet (h : ∀ causes, (s.call c).value ≠
      some (.error (.unavailable c.request.name causes))) : s.theirs c = [] :=
    Service.faults_of_not_fails (fun hfails => by
      obtain ⟨causes, hresult⟩ := hends.result_of_fails hfails
      exact h causes (hvalue.trans hresult)) c.draw
  have hown {value : Option (Except OperationError Response)} (h : (s.call c).value = value) :
      s.own c = (value.bind (Service.report? (s.operation c))).toList := by
    rw [own, h]
  have hinterrupted (hsound : ¬ c.request.Breaks s.service.maxPageLimit) {elapsed : Nat}
      {reason : Interrupted}
      (hsettle : (s.operation c).context.settle s.latency = (elapsed, .interrupted reason)) :
      let e := OperationError.unavailable c.request.name [reason.message]
      (s.call c).value = some (.error e) ∧ s.theirs c = [] ∧
        s.own c = [c.request.failure e.message 503] := by
    have hresult := hvalue.trans (hends.result_of_interrupted hsound hsettle)
    refine ⟨hresult, Service.faults_of_not_fails (fun hfails => ?_) c.draw, hown hresult⟩
    have hdone := hfails.done
    rw [hsettle] at hdone
    cases hdone
  refine ⟨fun h => ⟨hquiet (by simp [h]), hown h⟩, fun h => ⟨hquiet (by simp [h]), hown h⟩,
    fun h => ⟨hquiet (by simp [h]), hown h⟩, fun hfails => ?_, hinterrupted,
    fun hsound hcancelled habandoned => ?_, fun h => ⟨hquiet (by simp [h]), hown h⟩⟩
  · obtain ⟨causes, hresult⟩ := hends.result_of_fails hfails
    have hresult := hvalue.trans hresult
    exact ⟨causes, hresult, Service.faults_of_fails hfails c.draw, hown hresult⟩
  · obtain ⟨hresult, htheirs, hone⟩ :=
      hinterrupted hsound (Context.settle_cancelled hcancelled habandoned s.latency)
    exact ⟨hresult, htheirs, hone, fun σ repository =>
      Service.users_cancelled hsound hcancelled habandoned s.latency repository c.draw⟩

/-- Between notes that are no reports, the captured ones are the reports. -/
theorem filter_captured {front back : Notes} (hfront : ∀ n ∈ front, n.captured = false)
    (hback : ∀ n ∈ back, n.captured = false) (reporter : Reporter) (reports : List ErrorReport) :
    (front ++ reports.map reporter.capture ++ back).filter (·.captured) =
      reports.map reporter.capture := by
  have hreports : ∀ n ∈ reports.map reporter.capture, n.captured = true := by
    intro n hn
    obtain ⟨report, -, rfl⟩ := List.mem_map.mp hn
    cases reporter <;> rfl
  have hnone {notes : Notes} (h : ∀ n ∈ notes, n.captured = false) :
      notes.filter (·.captured) = [] :=
    List.filter_eq_nil_iff.mpr fun n hn => Bool.eq_false_iff.mp (h n hn)
  rw [List.filter_append, List.filter_append, hnone hfront, hnone hback,
    List.filter_eq_self.mpr hreports, List.append_nil, List.nil_append]

/-- Along any run, the reports that are captured of a call are exactly its faults. With either place
switched off, its own reports are missing and everything else is the same. -/
theorem captures_exact {s : Server} (hs : s.core = .users) (run : List Action) (c : ClientCall) :
    let t := s.course run
    ∃ front theirs own back, t.Captures c theirs own ∧
      ∀ pipeline repository,
        let captured := ((if repository then theirs else []) ++ (if pipeline then own else [])).map
          t.reporter.capture
        let call := ((s.reporting pipeline repository).course run).call c
        call.notes.filter (·.captured) = captured ∧
          call = { t.call c with
            notes := front ++ captured ++ back
            server := (t.call c).server.reporting pipeline repository } := by
  intro t
  have ht : t.core = .users := (course_core s run).trans hs
  let front := Service.opening t.service (t.operation c) (t.plain c).notes
  let back := Service.closing t.service (t.operation c) (t.call c).value
  refine ⟨front, t.theirs c, t.own c, back, captures ht c, fun pipeline repository => ?_⟩
  intro captured call
  have hcall : call = { t.call c with
      notes := front ++ captured ++ back
      server := (t.call c).server.reporting pipeline repository } := by
    simp only [call, course_reporting hs]
    exact call_reporting ht pipeline repository c
  refine ⟨?_, hcall⟩
  rw [hcall]
  exact filter_captured (Service.not_captured_opening (t.not_captured_plain c))
    Service.not_captured_closing t.reporter _

theorem captures_exact_rejecting :
    let run : List Action := [.setFailing true]
    let c : ClientCall := { draw := ⟨"", .epoch⟩, request := .delete { id := "a" } }
    let cancelled : ClientCall :=
      { c with within := fun context => { context with cancelledAt := some 0 } }
    let fault : ErrorReport :=
      { message := "delete: memory store rejected the operation"
        tags := [("repository", "user"), ("method", "delete")] }
    (∃ message, (((initial.reporting true true).course run).call c).notes.filter (·.captured) =
      [.report fault, .report (c.request.failure message 503)]) ∧
    (((initial.reporting false true).course run).call c).notes.filter (·.captured) =
      [.report fault] ∧
    (((initial.reporting true true).course run).call cancelled).notes.filter (·.captured) =
      [.report (c.request.failure "DeleteUser: call cancelled by caller" 503)] := by
  intro run c cancelled fault
  obtain ⟨_, theirs, own, _, hcaptures, hcalls⟩ := captures_exact (s := initial) rfl run c
  obtain ⟨causes, -, rfl, rfl⟩ := hcaptures.failed ⟨by decide, by decide, rfl⟩
  have hfault : c.request.fault = fault := rfl
  rw [hfault] at hcalls
  obtain ⟨_, theirs', own', _, hcaptures', hcalls'⟩ :=
    captures_exact (s := initial) rfl run cancelled
  obtain ⟨-, rfl, rfl, -⟩ := hcaptures'.cancelled (by decide) rfl (by decide)
  exact ⟨⟨_, (hcalls true true).1⟩, (hcalls false true).1, (hcalls' true true).1⟩

end Server

end Roster
