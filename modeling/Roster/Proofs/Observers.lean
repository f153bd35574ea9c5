import Roster.Proofs.Runs
/-! # Servers that differ in their observers

Without its observers a server answers every call as it does with them, and is left in the same
state. Along any run, servers that differ in their observers alone cannot be told apart by callers. -/
namespace Roster

/-- The server without observers and without what these have counted. -/
def Server.bare (s : Server) : Server :=
  { s with
    service := { s.service with
      metrics := false
      logging := false
      tracing := false
      errorReporting := false }
    tracedRepository := false
    reportedRepository := false
    counts := [] }

/-- The step without what observers have seen of it. -/
def Step.bare {α : Type} (s : Step α) : Step α := { s with notes := [], server := s.server.bare }

namespace Server

theorem stack_bare (s : Server) : Service.Alike s.stack s.bare.stack := by
  have hinner : Service.Alike s.innermost s.bare.innermost := by
    unfold innermost
    rw [show s.bare.core = s.core from rfl]
    split
    · exact Service.users_alike s.repository_alike _ _
    · exact Service.Alike.refl _
  exact (Service.pipeline_alike _ _ _).trans hinner

theorem run_bare (s : Server) (draw : Draw) (op : Operation) :
    (s.run draw op).bare = (s.bare.run draw op).bare := by
  -- Both steps are made from the two calls in the same way, and no note of a call is left.
  have halike := stack_bare s draw op s.store
  have hstore : s.bare.store = s.store := rfl
  simp only [run, hstore]
  generalize s.stack draw op s.store = call at halike
  generalize s.bare.stack draw op s.store = call' at halike
  obtain ⟨result, notes, state, elapsed, announced⟩ := call
  obtain ⟨result', notes', state', elapsed', announced'⟩ := call'
  obtain ⟨rfl, -, rfl, rfl, rfl⟩ := Call.mk.inj halike
  rfl

theorem call_bare (s : Server) (c : ClientCall) : (s.call c).bare = (s.bare.call c).bare :=
  run_bare (s.entering c) c.draw (s.operation c)

theorem value_bare (s : Server) (c : ClientCall) : (s.call c).value = (s.bare.call c).value := by
  have h := congrArg Step.value (call_bare s c)
  exact h

theorem announced_bare (s : Server) (c : ClientCall) : s.announced c = s.bare.announced c :=
  (stack_bare (s.entering c)).announced c.draw (s.operation c) s.store

theorem after_bare (s : Server) (a : Action) : (s.after a).bare = (s.bare.after a).bare := by
  cases a with
  | call c =>
    have h := congrArg Step.server (call_bare s c)
    exact h
  | closeRepository =>
    rw [after_closeRepository, after_closeRepository]
    rfl
  | _ => rfl

section

variable {s t : Server} (h : s.bare = t.bare)
include h

theorem after_eq_of_bare_eq (a : Action) : (s.after a).bare = (t.after a).bare := by
  rw [after_bare, h, ← after_bare]

theorem answered?_eq_of_bare_eq (a : Action) : s.answered? a = t.answered? a := by
  cases a with
  | call c => simp only [answered?, value_bare s c, h, ← value_bare t c]
  | _ => rfl

theorem operation_eq_of_bare_eq (c : ClientCall) : s.operation c = t.operation c := by
  have hc : s.bare.operation c = t.bare.operation c := by rw [h]
  exact hc

end

/-- Along any run, servers that differ in their observers alone stay so, and answer the same. -/
theorem course_eq_of_bare_eq {s t : Server} (h : s.bare = t.bare) (run : List Action) :
    s.history run = t.history run ∧ (s.course run).bare = (t.course run).bare :=
  course_induction₂ (R := fun s t => s.bare = t.bare)
    (fun a h => ⟨answered?_eq_of_bare_eq h a, after_eq_of_bare_eq h a⟩) h run

/-- What the core is entered with in the course of a call. -/
def entries (s : Server) (c : ClientCall) : List (Draw × Operation) :=
  (Service.pipeline s.service s.reporter (Service.entered s.innermost) c.draw (s.operation c)
    (s.store, [])).state.2

theorem entries_eq (s : Server) (c : ClientCall) : s.entries c = [(c.draw, s.operation c)] := by
  rw [entries, Service.pipeline_entered]
  rfl

theorem fits_of_unchecked {s : Server} (hs : s.core = .users) {c : ClientCall} {response : Response}
    (h : s.unchecked c = some (.ok response)) : c.request.fits response = true := by
  have halike : Service.Alike (s.entering c).stack
      (Service.users s.service.maxPageLimit s.latency MemoryStore.repository) := stack_alike hs
  have hsettles := Service.users_settles s.service.maxPageLimit s.latency c.draw (s.operation c) s.store
  rw [unchecked, halike.result] at h
  simp only [h] at hsettles
  obtain ⟨_, hcommits, -, -⟩ := hsettles.commits_of_ok
  exact hcommits.fits

/-- Servers that differ in their observers alone give the same results along any run, and are left
in the same state. In each further call they announce the same, and both enter their core once, with
the operation of the call; over accounts, no client is given a response to another request. -/
theorem observers_transparent {s t : Server} (h : s.bare = t.bare) (run : List Action) :
    s.history run = t.history run ∧ (s.course run).bare = (t.course run).bare ∧
      ∀ c, (s.course run).announced c = (t.course run).announced c ∧
        (s.course run).entries c = [(c.draw, (s.course run).operation c)] ∧
        (t.course run).entries c = [(c.draw, (s.course run).operation c)] ∧
        (s.core = .users → ∀ response, (s.course run).unchecked c = some (.ok response) →
          c.request.fits response = true) := by
  obtain ⟨hhistory, hcourse⟩ := course_eq_of_bare_eq h run
  refine ⟨hhistory, hcourse, fun c => ⟨?_, entries_eq _ _, ?_, ?_⟩⟩
  · rw [announced_bare, hcourse, ← announced_bare]
  · rw [entries_eq, operation_eq_of_bare_eq hcourse]
  · intro hs response hok
    exact fits_of_unchecked ((course_core s run).trans hs) hok

/-- An account is made and found, with all observers and with none. -/
theorem observers_transparent_all_or_none :
    let run : List Action :=
      [.call ⟨⟨"a", .epoch⟩, .grpc, id, .create {}⟩, .call ⟨⟨"", .epoch⟩, .grpc, id, .list {}⟩]
    let observed : Server := { initial with tracedRepository := true, reportedRepository := true }
    observed.bare = initial.bare.bare ∧ observed.bare.counts ≠ (observed.course run).counts ∧
      observed.history run = initial.bare.history run ∧
      (observed.course run).bare = (initial.bare.course run).bare := by
  intro run observed
  have h : observed.bare = initial.bare.bare := rfl
  obtain ⟨hhistory, hcourse, -⟩ := observers_transparent h run
  exact ⟨h, by simp only [observed, run]; decide +kernel, hhistory, hcourse⟩

end Server

end Roster
