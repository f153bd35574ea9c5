import Roster.Service.Layers
/-! # Observers add notes and nothing else

Calls are compared without their notes. Every layer around a service and every observer around a
repository is then the service or the repository itself, whatever is inside. -/
namespace Roster

variable {σ : Type}

/-- The attempt without its notes. -/
def Run.unobserved (r : Run σ) : Run σ := { r with notes := [] }

/-- The call without its notes. -/
def Call.unobserved (c : Call σ) : Call σ := { c with notes := [] }

namespace Repository

/-- The repositories differ in their notes at most. -/
def Alike (r r' : Repository σ) : Prop := ∀ a s, (r a s).unobserved = (r' a s).unobserved

theorem Alike.refl (r : Repository σ) : r.Alike r := fun _ _ => rfl

theorem Alike.trans {r r' r'' : Repository σ} (h : r.Alike r') (h' : r'.Alike r'') : r.Alike r'' :=
  fun a s => (h a s).trans (h' a s)

theorem traced_alike (r : Repository σ) : r.traced.Alike r := fun _ _ => rfl

theorem reported_alike (reporter : Reporter) (r : Repository σ) : (r.reported reporter).Alike r :=
  fun _ _ => rfl

/-- Puts any number of observers around a repository, in any order. -/
inductive Observed (r : Repository σ) : Repository σ → Prop
  | bare : Observed r r
  | traced {o : Repository σ} (h : Observed r o) : Observed r o.traced
  | reported {o : Repository σ} (reporter : Reporter) (h : Observed r o) :
      Observed r (o.reported reporter)

/-- The repository is as ready as its monitor, and its end is that of the monitor. -/
structure Monitored (r : Repository σ) : Prop where
  isReady : ∀ m, r.isReady m = m.ready
  close : ∀ m, r.close m = m.halt?

section

variable {r o : Repository σ}

theorem Observed.alike (h : r.Observed o) : o.Alike r := by
  induction h with
  | bare => exact Alike.refl r
  | traced _ ih => exact (traced_alike _).trans ih
  | reported reporter _ ih => exact (reported_alike reporter _).trans ih

theorem Observed.isReady (h : r.Observed o) (m : Monitor) : o.isReady m = r.isReady m := by
  induction h with
  | bare => rfl
  | traced _ ih | reported _ _ ih => exact ih

theorem Observed.close (h : r.Observed o) (m : Monitor) : o.close m = r.close m := by
  induction h with
  | bare => rfl
  | traced _ ih | reported _ _ ih => exact ih

theorem Observed.monitored (h : r.Observed o) (hr : r.Monitored) : o.Monitored :=
  ⟨fun m => (h.isReady m).trans (hr.isReady m), fun m => (h.close m).trans (hr.close m)⟩

/-- Who waits for the end of a closed repository waits for the end of its monitor. -/
theorem Monitored.shut (hr : r.Monitored) (m : Monitor) : r.shut m = m.stop := by
  rw [Repository.shut, hr.close, Monitor.stop]

end

end Repository

/-- The same operation, waited for otherwise. -/
def Operation.awaited (op : Operation) (timeoutMs : UInt64) (cancelledAt abandonedAt : Option Nat) :
    Operation :=
  { op with context := { op.context with timeoutMs, cancelledAt, abandonedAt } }

namespace Service

/-- The services differ in their notes at most. -/
def Alike (f g : Service σ) : Prop :=
  ∀ draw op s, (f draw op s).unobserved = (g draw op s).unobserved

theorem Alike.refl (f : Service σ) : Alike f f := fun _ _ _ => rfl

theorem Alike.trans {f g k : Service σ} (h : Alike f g) (h' : Alike g k) : Alike f k :=
  fun draw op s => (h draw op s).trans (h' draw op s)

section

variable {f g : Service σ} (h : Alike f g) (draw : Draw) (op : Operation) (s : σ)
include h

theorem Alike.result : (f draw op s).result = (g draw op s).result := by
  have he := congrArg Call.result (h draw op s)
  exact he

theorem Alike.state : (f draw op s).state = (g draw op s).state := by
  have he := congrArg Call.state (h draw op s)
  exact he

theorem Alike.elapsed : (f draw op s).elapsed = (g draw op s).elapsed := by
  have he := congrArg Call.elapsed (h draw op s)
  exact he

theorem Alike.announced : (f draw op s).announced = (g draw op s).announced := by
  have he := congrArg Call.announced (h draw op s)
  exact he

end

theorem counted_alike (inner : Service σ) : Alike (counted inner) inner := fun _ _ _ => rfl

theorem logged_alike (inner : Service σ) : Alike (logged inner) inner := fun _ _ _ => rfl

theorem traced_alike (inner : Service σ) : Alike (traced inner) inner := fun _ _ _ => rfl

theorem reported_alike (reporter : Reporter) (inner : Service σ) :
    Alike (reported reporter inner) inner := fun _ _ _ => rfl

/-- A layer that changes nothing changes nothing where it is left out. -/
theorem layer_alike {f : Service σ → Service σ} (hf : ∀ inner, Alike (f inner) inner)
    (wanted : Bool) (inner : Service σ) : Alike (layer wanted f inner) inner := by
  cases wanted with
  | false => exact Alike.refl inner
  | true => exact hf inner

/-- Whatever layers the settings want, the core answers. -/
theorem pipeline_alike (settings : ServiceSettings) (reporter : Reporter) (core : Service σ) :
    Alike (pipeline settings reporter core) core := by
  have hreported := layer_alike (reported_alike reporter) settings.errorReporting core
  have htraced := layer_alike traced_alike settings.tracing
    (layer settings.errorReporting (reported reporter) core)
  have hlogged := layer_alike logged_alike settings.logging
    (layer settings.tracing traced (layer settings.errorReporting (reported reporter) core))
  exact (layer_alike counted_alike settings.metrics _).trans
    (hlogged.trans (htraced.trans hreported))

/-- Observers do not see how long an operation is waited for. -/
theorem pipeline_awaited (settings : ServiceSettings) (reporter : Reporter) {core : Service σ}
    {draw : Draw} {op : Operation} {s : σ} {timeoutMs : UInt64} {cancelledAt abandonedAt : Option Nat}
    (h : core draw (op.awaited timeoutMs cancelledAt abandonedAt) s = core draw op s) :
    pipeline settings reporter core draw (op.awaited timeoutMs cancelledAt abandonedAt) s =
      pipeline settings reporter core draw op s := by
  let op' := op.awaited timeoutMs cancelledAt abandonedAt
  have hlayer {f : Service σ → Service σ} (wanted : Bool)
      (hf : ∀ inner : Service σ, inner draw op' s = inner draw op s →
        f inner draw op' s = f inner draw op s) {inner : Service σ}
      (hi : inner draw op' s = inner draw op s) :
      layer wanted f inner draw op' s = layer wanted f inner draw op s := by
    cases wanted with
    | false => exact hi
    | true => exact hf inner hi
  have hreported := hlayer settings.errorReporting (f := reported reporter)
    (fun inner hi => by simp only [reported, hi]; rfl) h
  have htraced := hlayer settings.tracing (f := traced)
    (fun inner hi => by simp only [traced, hi]; rfl) hreported
  have hlogged := hlayer settings.logging (f := logged)
    (fun inner hi => by simp only [logged, hi]; rfl) htraced
  exact hlayer settings.metrics (f := counted)
    (fun inner hi => by simp only [counted, hi]; rfl) hlogged

/-- Operations over repositories that differ in their notes differ in their notes. -/
theorem users_alike {r r' : Repository σ} (h : r.Alike r') (maxLimit : UInt32) (latency : Nat) :
    Alike (users maxLimit latency r) (users maxLimit latency r') := by
  intro draw op s
  cases hc : op.request.command maxLimit with
  | error reason => simp only [users, hc]
  | ok command =>
    by_cases hb : op.context.begins = true
    · have hr := h ⟨draw, command, (op.context.settle latency).2 = .done⟩ s
      have hresult := congrArg Run.result hr
      have hstate := congrArg Run.state hr
      dsimp only [Run.unobserved] at hresult hstate
      simp only [users, hc, hb, Call.unobserved, if_true, hresult, hstate]
    · simp only [users, hc, hb, Call.unobserved, if_false, Bool.false_eq_true]

/-- A core that keeps what it is entered with: the draw and the operation, the last ones last. -/
def entered (core : Service σ) : Service (σ × List (Draw × Operation)) := fun draw op s =>
  let call := core draw op s.1
  { result := call.result, notes := call.notes, state := (call.state, s.2 ++ [(draw, op)])
    elapsed := call.elapsed, announced := call.announced }

theorem layer_entered {f : Service σ → Service σ}
    {f' : Service (σ × List (Draw × Operation)) → Service (σ × List (Draw × Operation))}
    (hf : ∀ inner, f' (entered inner) = entered (f inner)) (wanted : Bool) (inner : Service σ) :
    layer wanted f' (entered inner) = entered (layer wanted f inner) := by
  cases wanted with
  | false => rfl
  | true => exact hf inner

/-- Behind any layers the core is entered once for a call, with the very operation of the call. -/
theorem pipeline_entered (settings : ServiceSettings) (reporter : Reporter) (core : Service σ) :
    pipeline settings reporter (entered core) = entered (pipeline settings reporter core) := by
  have hreported (inner : Service σ) :
      reported reporter (entered inner) = entered (reported reporter inner) := rfl
  have htraced (inner : Service σ) : traced (entered inner) = entered (traced inner) := rfl
  have hlogged (inner : Service σ) : logged (entered inner) = entered (logged inner) := rfl
  have hcounted (inner : Service σ) : counted (entered inner) = entered (counted inner) := rfl
  rw [pipeline, layer_entered hreported, layer_entered htraced, layer_entered hlogged,
    layer_entered hcounted]
  rfl

end Service

end Roster
