import Roster.Postgres.Repository
import Roster.Proofs.Runs
import Roster.Proofs.Spans
/-! # What observers note of a call

The layers note the end of a call once each, and all of them tell of the same result. Observers of
the repository inside never pass for them. -/
namespace Roster

/-- What operations are called in logs, spans and metrics. -/
def Operation.names : List String := ["CreateUser", "GetUsers", "UpdateUser", "DeleteUser"]

theorem Operation.name_mem (op : Operation) : op.name ∈ names := by
  rcases op with ⟨context, _ | _ | _ | _⟩ <;> simp [name, Request.name, names]

/-- The event is the line that is logged at the end of a call. -/
def Event.endsCall (e : Event) : Bool := e.message == "call finished" || e.message == "call failed"

def Event.field? (e : Event) (key : String) : Option String := e.fields.lookup key

def Span.isOperation (s : Span) : Bool := s.path.getLast?.any (Operation.names.contains ·)

/-- It is an error that was captured, wherever the reporter has put it. -/
def Note.captured : Note → Bool
  | .report _ => true
  | .event e => e.target == some "error_report"
  | _ => false

namespace Notes

/-- The notes say nothing of operations, and close every span that they open. -/
structure Modest (notes : Notes) : Prop where
  bracketed : Bracketed notes
  events : ∀ {e}, .event e ∈ notes → e.endsCall = false
  spans : ∀ {name fields}, .opened name fields ∈ notes → name ∉ Operation.names
  counted : notes.counted = []

theorem modest_nil : Modest [] := ⟨.nil, nofun, nofun, rfl⟩

theorem modest_capture (reporter : Reporter) (report : ErrorReport) :
    Modest [reporter.capture report] := by
  cases reporter with
  | keep => exact ⟨.singleton rfl, by simp [Reporter.capture], by simp [Reporter.capture], rfl⟩
  | log =>
    refine ⟨.singleton rfl, fun h => ?_, by simp [Reporter.capture], rfl⟩
    obtain rfl : _ = report.toEvent _ := by simpa [Reporter.capture] using h
    rfl

theorem modest_events {events : List Event} (h : ∀ e ∈ events, e.endsCall = false) :
    Modest (events.map .event) := by
  refine ⟨.of_plain fun n hn => ?_, fun hn => ?_, fun hn => ?_, ?_⟩
  · obtain ⟨e, -, rfl⟩ := List.mem_map.mp hn
    rfl
  · obtain ⟨e, he, heq⟩ := List.mem_map.mp hn
    exact Note.event.inj heq ▸ h e he
  · obtain ⟨e, -, heq⟩ := List.mem_map.mp hn
    cases heq
  · simp [Notes.counted]

theorem counted_append (a b : Notes) : (a ++ b).counted = a.counted ++ b.counted :=
  List.filterMap_append

section

variable {a b : Notes}

theorem Modest.append (ha : Modest a) (hb : Modest b) : Modest (a ++ b) := by
  refine ⟨ha.bracketed.append hb.bracketed, fun h => ?_, fun h => ?_, ?_⟩
  · exact (List.mem_append.mp h).elim ha.events hb.events
  · exact (List.mem_append.mp h).elim ha.spans hb.spans
  · rw [counted_append, ha.counted, hb.counted, List.append_nil]

theorem counted_span {name : String} (fields closing : List Field) (a : Notes) :
    counted (.opened name fields :: (a ++ [.closed closing])) = a.counted := by
  simp [Notes.counted]

theorem Modest.span {name : String} (ha : Modest a) (hname : name ∉ Operation.names)
    (fields closing : List Field) : Modest (.opened name fields :: (a ++ [.closed closing])) := by
  refine ⟨.span ha.bracketed .nil, fun h => ?_, fun h => ?_, ?_⟩
  · exact ha.events (by simpa using h)
  · simp only [List.mem_cons, Note.opened.injEq, List.mem_append, List.not_mem_nil, or_false,
      reduceCtorEq] at h
    obtain ⟨rfl, -⟩ | h := h
    · exact hname
    · exact ha.spans h
  · rw [counted_span, ha.counted]

theorem mem_placed {n : Note} {inside path : List String} {notes : Notes}
    (h : (path, n) ∈ placed inside notes) : n ∈ notes := by
  induction notes generalizing inside with
  | nil => exact absurd h List.not_mem_nil
  | cons m notes ih =>
    cases m with
    | opened | closed => exact List.mem_cons_of_mem _ (ih h)
    | event | report | counted =>
      obtain h | h := List.mem_cons.mp h
      · rw [(Prod.mk.inj h).2]
        exact List.mem_cons_self
      · exact List.mem_cons_of_mem _ (ih h)

theorem Modest.filter_events (ha : Modest a) (outer : List String) :
    (a.events outer).filter (·.endsCall) = [] := by
  rw [List.filter_eq_nil_iff, events_eq]
  intro e he
  obtain ⟨⟨path, n⟩, hplaced, hevent⟩ := List.mem_filterMap.mp he
  cases n with
  | event e' =>
    obtain rfl := Option.some.inj hevent
    have hends := ha.events (mem_placed hplaced)
    simpa [Event.endsCall] using hends
  | opened | closed | report | counted => cases hevent

theorem Modest.filter_spans (ha : Modest a) (outer : List String) :
    (a.spans.map (·.under outer)).filter (·.isOperation) = [] := by
  rw [List.filter_eq_nil_iff]
  intro s hs
  obtain ⟨s', hs', rfl⟩ := List.mem_map.mp hs
  obtain ⟨name, fields, hopened, hlast⟩ := ha.bracketed.exists_opened hs'
  simpa [Span.isOperation, Span.under, List.getLast?_append, hlast] using ha.spans hopened

theorem events_append (ha : Bracketed a) (outer : List String) :
    (a ++ b).events outer = a.events outer ++ b.events outer := by
  simp only [events_eq, ha.placed_append, List.filterMap_append]

theorem events_span (ha : Bracketed a) {name : String} {fields closing : List Field}
    (outer : List String) :
    events outer (.opened name fields :: (a ++ [.closed closing])) =
      a.events (outer ++ [name]) := by
  rw [events_eq, events_eq, ha.placed_span, placed, List.append_nil]

end

end Notes

namespace Repository

variable {σ : Type} {r : Repository σ}

/-- Whatever the repository does, its observers say nothing of operations. -/
def Modest (r : Repository σ) : Prop := ∀ a s, (r a s).notes.Modest

theorem traced_modest (hr : r.Modest) : r.traced.Modest :=
  fun a s => (hr a s).span (by decide) _ _

theorem reported_modest (reporter : Reporter) (hr : r.Modest) : (r.reported reporter).Modest := by
  intro a s
  refine (hr a s).append ?_
  cases (r a s).result.bind report? with
  | none => exact Notes.modest_nil
  | some report => exact Notes.modest_capture reporter report

end Repository

theorem MemoryStore.notes_repository (a : Attempt) (s : MemoryStore) :
    (MemoryStore.repository a s).notes = [] := by
  unfold repository
  dsimp only
  split
  · rfl
  · split
    · rfl
    · split <;> rfl

theorem MemoryStore.repository_modest : Repository.Modest MemoryStore.repository := by
  intro a s
  rw [notes_repository]
  exact Notes.modest_nil

theorem Postgres.repository_modest {σ : Type} (peers : Peers σ) :
    Repository.Modest (repository peers) := by
  intro a p
  have hnotes : (repository peers a p).notes = [] := by
    unfold repository
    dsimp only
    split <;> rfl
  rw [hnotes]
  exact Notes.modest_nil

theorem Server.repository_modest (s : Server) : s.repository.Modest := by
  have hinner : (if s.tracedRepository then MemoryStore.repository.traced
      else MemoryStore.repository).Modest := by
    split
    · exact Repository.traced_modest MemoryStore.repository_modest
    · exact MemoryStore.repository_modest
  unfold repository
  dsimp only
  split
  · exact Repository.reported_modest s.reporter hinner
  · exact hinner

namespace Service

variable {σ : Type}

theorem users_modest {r : Repository σ} (hr : r.Modest) (maxLimit : UInt32) (latency : Nat)
    (draw : Draw) (op : Operation) (s : σ) : (users maxLimit latency r draw op s).notes.Modest := by
  unfold users
  split
  · exact Notes.modest_nil
  · dsimp only
    split
    · exact hr _ _
    · exact Notes.modest_nil

/-- What the layers note inside the span of the operation. -/
def within (settings : ServiceSettings) (reporter : Reporter) (op : Operation) (call : Call σ) :
    Notes :=
  call.notes ++
    if settings.errorReporting then (call.result.bind (report? op)).toList.map reporter.capture
    else []

/-- What the layers note in the place of the span, if there is one. -/
def enclosed (settings : ServiceSettings) (reporter : Reporter) (op : Operation) (call : Call σ) :
    Notes :=
  if settings.tracing then
    .opened op.name (spanFields op) ::
      (within settings reporter op call ++ [.closed (call.result.toList.flatMap spanResult)])
  else within settings reporter op call

/-- What the layers note when the span is closed. -/
def afterwards (settings : ServiceSettings) (op : Operation)
    (result : Option (Except OperationError Response)) : Notes :=
  (if settings.logging then result.toList.map fun r => .event (logEvent op r) else []) ++
    if settings.metrics then result.toList.map fun r => .counted op.name (codeOf r) else []

theorem pipeline_notes (settings : ServiceSettings) (reporter : Reporter) (core : Service σ)
    (draw : Draw) (op : Operation) (s : σ) :
    (pipeline settings reporter core draw op s).notes =
      enclosed settings reporter op (core draw op s) ++
        afterwards settings op (core draw op s).result := by
  unfold pipeline layer enclosed within afterwards
  cases settings.metrics <;> cases settings.logging <;> cases settings.tracing <;>
    cases settings.errorReporting <;> simp [counted, logged, traced, reported]

section

variable {settings : ServiceSettings} {reporter : Reporter} {op : Operation} {call : Call σ}

variable (settings reporter op) in
theorem within_modest (h : call.notes.Modest) : (within settings reporter op call).Modest := by
  unfold within
  cases settings.errorReporting with
  | false => exact h.append Notes.modest_nil
  | true =>
    refine h.append ?_
    cases call.result.bind (report? op) with
    | none => exact Notes.modest_nil
    | some report => exact Notes.modest_capture reporter report

theorem enclosed_bracketed (h : call.notes.Modest) :
    (enclosed settings reporter op call).Bracketed := by
  unfold enclosed
  split
  · exact .span (within_modest settings reporter op h).bracketed .nil
  · exact (within_modest settings reporter op h).bracketed

theorem plain_afterwards {result : Option (Except OperationError Response)} {n : Note}
    (h : n ∈ afterwards settings op result) : n.plain = true := by
  rcases List.mem_append.mp h with h | h
  all_goals
    split at h
    · obtain ⟨r, -, rfl⟩ := List.mem_map.mp h
      rfl
    · cases h

theorem endsCall_logEvent (r : Except OperationError Response) (spans : List String) :
    { logEvent op r with spans }.endsCall = true := by
  rcases r with e | response
  · cases e <;> rfl
  · rfl

theorem events_afterwards (result : Option (Except OperationError Response)) (outer : List String) :
    (Notes.events outer (afterwards settings op result)).filter (·.endsCall) =
      if settings.logging then result.toList.map fun r => { logEvent op r with spans := outer }
      else [] := by
  unfold afterwards
  cases result with
  | none => simp [Notes.events]
  | some r =>
    cases settings.logging <;> cases settings.metrics <;> simp [Notes.events, endsCall_logEvent]

theorem captured_afterwards (result : Option (Except OperationError Response))
    (outer : List String) :
    (Notes.placed outer (afterwards settings op result)).filter (·.2.captured) = [] := by
  unfold afterwards
  cases result with
  | none => simp [Notes.placed]
  | some r =>
    cases settings.logging <;> cases settings.metrics <;>
      simp [Notes.placed, Note.captured, logEvent]

theorem captured_within (h : call.notes.Modest) (inside : List String) :
    (Notes.placed inside (within settings reporter op call)).filter (·.2.captured) =
      (call.notes.placed inside).filter (·.2.captured) ++
        if settings.errorReporting then
          (call.result.bind (report? op)).toList.map fun report => (inside, reporter.capture report)
        else [] := by
  rw [within, h.bracketed.placed_append, List.filter_append]
  congr 1
  cases settings.errorReporting with
  | false => rfl
  | true =>
    cases call.result.bind (report? op) with
    | none => rfl
    | some report => cases reporter <;> rfl

theorem counted_afterwards (result : Option (Except OperationError Response)) :
    Notes.counted (afterwards settings op result) =
      if settings.metrics then result.toList.map fun r => (op.name, codeOf r) else [] := by
  unfold afterwards
  cases result <;> cases settings.logging <;> cases settings.metrics <;> simp [Notes.counted]

end

section

variable (settings : ServiceSettings) (reporter : Reporter) {core : Service σ} {draw : Draw}
  {op : Operation} {s : σ} (h : (core draw op s).notes.Modest) (outer : List String)
include h

theorem pipeline_bracketed : (pipeline settings reporter core draw op s).notes.Bracketed := by
  rw [pipeline_notes]
  exact (enclosed_bracketed h).append (.of_plain fun _ hn => plain_afterwards hn)

/-- The end of a call is logged once, outside the span of the operation. -/
theorem events_pipeline :
    ((pipeline settings reporter core draw op s).notes.events outer).filter (·.endsCall) =
      if settings.logging then
        (core draw op s).result.toList.map fun r => { logEvent op r with spans := outer }
      else [] := by
  have hinner := within_modest settings reporter op h
  have hnone : (Notes.events outer (enclosed settings reporter op (core draw op s))).filter
      (·.endsCall) = [] := by
    unfold enclosed
    split
    · rw [Notes.events_span hinner.bracketed, hinner.filter_events]
    · exact hinner.filter_events outer
  rw [pipeline_notes, Notes.events_append (enclosed_bracketed h), List.filter_append, hnone,
    List.nil_append, events_afterwards]

theorem counted_pipeline :
    (pipeline settings reporter core draw op s).notes.counted =
      if settings.metrics then (core draw op s).result.toList.map fun r => (op.name, codeOf r)
      else [] := by
  have hinner := within_modest settings reporter op h
  have hnone : Notes.counted (enclosed settings reporter op (core draw op s)) = [] := by
    unfold enclosed
    split
    · rw [Notes.counted_span, hinner.counted]
    · exact hinner.counted
  rw [pipeline_notes, Notes.counted_append, hnone, List.nil_append, counted_afterwards]

/-- The operation has one span, which is closed whatever the outcome. -/
theorem spans_pipeline :
    ((pipeline settings reporter core draw op s).notes.spans.map (·.under outer)).filter
        (·.isOperation) =
      if settings.tracing then
        [{ path := outer ++ [op.name]
           fields := spanFields op ++ (core draw op s).result.toList.flatMap spanResult
           closed := true }]
      else [] := by
  have hinner := within_modest settings reporter op h
  have hplain (n : Note) (hn : n ∈ afterwards settings op (core draw op s).result) :=
    plain_afterwards hn
  rw [pipeline_notes, (enclosed_bracketed h).spans_append (.of_plain hplain),
    Notes.Bracketed.spans_of_plain hplain, List.append_nil]
  unfold enclosed
  split
  · rw [hinner.bracketed.spans_span, List.map_cons,
      List.filter_cons_of_pos (by simp [Span.under, Span.isOperation, op.name_mem]), List.map_map]
    have hcomp : Span.under outer ∘ Span.under [op.name] = Span.under (outer ++ [op.name]) :=
      funext (Span.under_under outer [op.name])
    rw [hcomp, hinner.filter_spans]
    rfl
  · exact hinner.filter_spans outer

/-- Captured errors lie inside the span of the operation. -/
theorem placed_pipeline :
    let inside := outer ++ if settings.tracing then [op.name] else []
    ((pipeline settings reporter core draw op s).notes.placed outer).filter (·.2.captured) =
      ((core draw op s).notes.placed inside).filter (·.2.captured) ++
        if settings.errorReporting then
          ((core draw op s).result.bind (report? op)).toList.map fun report =>
            (inside, reporter.capture report)
        else [] := by
  intro inside
  have hinner := within_modest settings reporter op h
  rw [pipeline_notes, (enclosed_bracketed h).placed_append, List.filter_append, captured_afterwards,
    List.append_nil, ← captured_within h]
  unfold enclosed
  split
  · rename_i htracing
    rw [hinner.bracketed.placed_span, Notes.placed, List.append_nil]
    simp only [inside, htracing, if_true]
  · rename_i htracing
    simp only [inside, htracing, Bool.false_eq_true, if_false, List.append_nil]

end

/-- What is noted of a call: one line in the log, one count and one span, as far as they are wanted
and, but for the span, if the call came to its end. The span is closed. Captured errors lie in it,
and the log line does not. -/
structure Noted (settings : ServiceSettings) (reporter : Reporter) (op : Operation) (core : Call σ)
    (outer : List String) (notes : Notes) : Prop where
  logged : (notes.events []).filter (·.endsCall) =
    if settings.logging then core.result.toList.map fun r => { logEvent op r with spans := outer }
    else []
  counted : notes.counted =
    if settings.metrics then core.result.toList.map fun r => (op.name, codeOf r) else []
  traced : notes.spans.filter (·.isOperation) =
    if settings.tracing then
      [{ path := outer ++ [op.name]
         fields := spanFields op ++ core.result.toList.flatMap spanResult, closed := true }]
    else []
  captured : let inside := outer ++ if settings.tracing then [op.name] else []
    (notes.placed []).filter (·.2.captured) =
      (core.notes.placed inside).filter (·.2.captured) ++
        if settings.errorReporting then
          (core.result.bind (report? op)).toList.map fun report => (inside, reporter.capture report)
        else []

section

variable (settings : ServiceSettings) (reporter : Reporter) {core : Service σ} {draw : Draw}
  {op : Operation} {s : σ} (h : (core draw op s).notes.Modest)
include h

theorem noted_pipeline :
    Noted settings reporter op (core draw op s) []
      (pipeline settings reporter core draw op s).notes := by
  refine ⟨events_pipeline settings reporter h [], counted_pipeline settings reporter h, ?_,
    placed_pipeline settings reporter h []⟩
  have hspans := spans_pipeline settings reporter h []
  simp only [Span.under_nil, List.map_id'] at hspans
  exact hspans

/-- Inside a span that is none of an operation, the same is noted. -/
theorem noted_span {name : String} (hname : name ∉ Operation.names) (fields closing : List Field) :
    Noted settings reporter op (core draw op s) [name]
      (.opened name fields :: ((pipeline settings reporter core draw op s).notes ++
        [.closed closing])) := by
  have hbracketed := pipeline_bracketed settings reporter h
  refine ⟨?_, ?_, ?_, ?_⟩
  · rw [Notes.events_span hbracketed]
    exact events_pipeline settings reporter h [name]
  · rw [Notes.counted_span]
    exact counted_pipeline settings reporter h
  · rw [hbracketed.spans_span, List.filter_cons_of_neg (by simpa [Span.isOperation] using hname)]
    exact spans_pipeline settings reporter h [name]
  · intro inside
    rw [hbracketed.placed_span, Notes.placed, List.append_nil]
    exact placed_pipeline settings reporter h [name]

end

end Service

end Roster
