import Roster.Server
/-! # Dependencies are asked in turn

The question for readiness goes from one dependency to the next as long as they are ready. So each is
asked once for every such question that the ones before it let through. -/
namespace Roster

theorem firstUnready_append {before : List (String × Bool)} (hbefore : ∀ e ∈ before, e.2 = true)
    (rest : List (String × Bool)) : firstUnready (before ++ rest) = firstUnready rest := by
  induction before with
  | nil => rfl
  | cons e before ih =>
    obtain ⟨he, hbefore⟩ := List.forall_mem_cons.mp hbefore
    rw [List.cons_append, firstUnready, if_pos he, ih hbefore]

/-- Name and flag of a dependency. -/
def Dependency.flag (d : Dependency) : String × Bool := (d.name, d.ready)

/-- A dependency with another flag, after some more questions. -/
def Dependency.later (d : Dependency) (ready : Bool) (times : Nat) : Dependency :=
  { d with ready, asked := d.asked + times }

/-- A dependency after one more question. -/
def Dependency.askedOnce (d : Dependency) : Dependency := d.later d.ready 1

theorem askInTurn_cons (d : Dependency) (rest : List Dependency) :
    askInTurn (d :: rest) =
      if d.ready then ((d.name, true) :: (askInTurn rest).1, d.askedOnce :: (askInTurn rest).2)
      else ([(d.name, false)], d.askedOnce :: rest) := rfl

/-- What the dependencies say that are asked is enough to know the first that is not ready. -/
theorem firstUnready_askInTurn (deps : List Dependency) :
    firstUnready (askInTurn deps).1 = firstUnready (deps.map Dependency.flag) := by
  induction deps with
  | nil => rfl
  | cons d deps ih =>
    rw [askInTurn_cons]
    cases hd : d.ready <;> simp [firstUnready, Dependency.flag, hd, ih]

/-- As long as dependencies are ready, the question goes on. -/
theorem askInTurn_append {before : List Dependency} (hbefore : ∀ d ∈ before, d.ready = true)
    (rest : List Dependency) :
    askInTurn (before ++ rest) = (before.map Dependency.flag ++ (askInTurn rest).1,
      before.map Dependency.askedOnce ++ (askInTurn rest).2) := by
  induction before with
  | nil => rfl
  | cons d before ih =>
    obtain ⟨hd, hbefore⟩ := List.forall_mem_cons.mp hbefore
    rw [List.cons_append, askInTurn_cons, if_pos hd, ih hbefore]
    simp [Dependency.flag, hd]

/-- A question asks a dependency once if those before it let it through, and else not. -/
theorem getElem?_askInTurn (deps : List Dependency) (place : Nat) :
    (askInTurn deps).2[place]? = deps[place]?.map fun d =>
      d.later d.ready (if (deps.take place).all (·.ready) then 1 else 0) := by
  induction deps generalizing place with
  | nil => simp [askInTurn]
  | cons d deps ih =>
    rw [askInTurn_cons]
    cases hd : d.ready <;> cases place <;> simp [hd, ih, Dependency.later, Dependency.askedOnce]

/-- The dependencies are all ready, or there is a first that is not. -/
theorem ready_or_first (deps : List Dependency) :
    (∀ d ∈ deps, d.ready = true) ∨ ∃ before d after, deps = before ++ d :: after ∧
      (∀ e ∈ before, e.ready = true) ∧ d.ready = false := by
  induction deps with
  | nil => exact .inl (by simp)
  | cons d deps ih =>
    cases hd : d.ready with
    | false => exact .inr ⟨[], d, deps, rfl, by simp, hd⟩
    | true =>
      rcases ih with hall | ⟨before, e, after, rfl, hbefore, he⟩
      · exact .inl (List.forall_mem_cons.mpr ⟨hd, hall⟩)
      · exact .inr ⟨d :: before, e, after, rfl, List.forall_mem_cons.mpr ⟨hd, hbefore⟩, he⟩

namespace Health

/-- What an act comes to. The question for readiness reaches the first dependency that is not ready, which
is then named, or all of them; nothing else reaches any. -/
inductive Answered (h : Health) : Act → Reply → Prop
  | ready (hall : ∀ d ∈ h.dependencies, d.ready = true) :
      Answered h .readiness
        { answer := .readiness (.ok ())
          health := { h with dependencies := h.dependencies.map Dependency.askedOnce } }
  | unready {before after : List Dependency} {d : Dependency}
      (hsplit : h.dependencies = before ++ d :: after) (hbefore : ∀ e ∈ before, e.ready = true)
      (hd : d.ready = false) :
      Answered h .readiness
        { answer := .readiness (.error ⟨d.name⟩)
          events := [⟨.warn, "readiness check failed", [("dependency", d.name)], [], none⟩]
          health := { h with
            dependencies := before.map Dependency.askedOnce ++ d.askedOnce :: after } }
  | liveness : Answered h .liveness { answer := .alive, health := h }
  | version : Answered h .version { answer := .version h.build, health := h }
  | set {index : Nat} {ready : Bool} :
      Answered h (.set index ready)
        { answer := .silence
          health := { h with
            dependencies := h.dependencies.modify index fun d => { d with ready } } }

theorem answered (h : Health) (a : Act) : Answered h a (h.act a) := by
  cases a with
  | liveness => exact .liveness
  | version => exact .version
  | set => exact .set
  | readiness =>
    have hflags {before : List Dependency} (hbefore : ∀ d ∈ before, d.ready = true) :
        ∀ e ∈ before.map Dependency.flag, e.2 = true := List.forall_mem_map.mpr hbefore
    have hact {said : List (String × Bool)} {dependencies : List Dependency}
        (hask : askInTurn h.dependencies = (said, dependencies)) :
        h.act .readiness = { answer := .readiness (Roster.readiness said)
                             events := readinessEvents said
                             health := { h with dependencies } } := by
      rw [act, hask]
    rcases ready_or_first h.dependencies with hall | ⟨before, d, after, hsplit, hbefore, hd⟩
    · have hask := askInTurn_append hall []
      simp only [askInTurn, List.append_nil] at hask
      have hnone : firstUnready (h.dependencies.map Dependency.flag) = none := by
        simpa [firstUnready] using firstUnready_append (hflags hall) []
      rw [hact hask, Roster.readiness, readinessEvents, hnone]
      exact .ready hall
    · have hask := askInTurn_append hbefore (d :: after)
      rw [← hsplit, askInTurn_cons, hd] at hask
      have hsome : firstUnready (before.map Dependency.flag ++ [(d.name, false)]) = some d.name :=
        firstUnready_append (hflags hbefore) _
      rw [hact hask, Roster.readiness, readinessEvents]
      simp only [Bool.false_eq_true, if_false, hsome]
      exact .unready hsplit hbefore hd

/-- The answer is good exactly if all dependencies are ready. -/
theorem readiness_eq_ok_iff (h : Health) :
    (h.act .readiness).answer = .readiness (.ok ()) ↔ ∀ d ∈ h.dependencies, d.ready = true := by
  have hanswered := answered h .readiness
  generalize h.act .readiness = reply at hanswered
  cases hanswered with
  | ready hall => exact ⟨fun _ => hall, fun _ => rfl⟩
  | @unready before after d hsplit _ hd =>
    refine ⟨nofun, fun hall => ?_⟩
    have hready := hall d (by simp [hsplit])
    rw [hd] at hready
    cases hready

/-- What an act makes of the flag of the dependency at a place. -/
def Act.flag (place : Nat) (flag : Bool) : Act → Bool
  | .set index ready => if index = place then ready else flag
  | _ => flag

/-- The health after some acts. -/
def course (h : Health) (acts : List Act) : Health := acts.foldl (fun h a => (h.act a).health) h

/-- The acts, each with the health it finds. -/
def moments (h : Health) : List Act → List (Health × Act)
  | [] => []
  | a :: acts => (h, a) :: (h.act a).health.moments acts

/-- A question for readiness that all dependencies before some place let through. -/
def reaches (place : Nat) (moment : Health × Act) : Bool :=
  moment.2 = .readiness && (moment.1.dependencies.take place).all (·.ready)

/-- One act asks a dependency once if it reaches it, and else not. -/
theorem getElem?_act (h : Health) (a : Act) (place : Nat) :
    (h.act a).health.dependencies[place]? = h.dependencies[place]?.map fun d =>
      d.later (a.flag place d.ready) (if reaches place (h, a) then 1 else 0) := by
  cases a with
  | readiness => simpa [act, reaches, Act.flag] using getElem?_askInTurn h.dependencies place
  | liveness | version => simp [act, reaches, Act.flag, Dependency.later]
  | set index ready =>
    simp only [act, List.getElem?_modify, Act.flag, reaches]
    by_cases hindex : index = place <;> simp [hindex, Dependency.later]

theorem getElem?_course (h : Health) (acts : List Act) (place : Nat) :
    (h.course acts).dependencies[place]? = h.dependencies[place]?.map fun d =>
      d.later (acts.foldl (Act.flag place) d.ready) ((h.moments acts).countP (reaches place)) := by
  induction acts generalizing h with
  | nil => simp [course, moments, Dependency.later]
  | cons a acts ih =>
    rw [course, List.foldl_cons, ← course, ih, getElem?_act, Option.map_map, moments,
      List.countP_cons]
    congr 1
    funext d
    simp [Dependency.later, Nat.add_comm, Nat.add_left_comm]

/-- In every run, the answer about readiness is that all dependencies are ready, or names the first
that is not. A dependency has been asked once more for every question that those before it let
through, and its flag is the one it was last given. -/
theorem asked_in_turn (h : Health) (acts : List Act) :
    (∀ moment ∈ h.moments acts, Answered moment.1 moment.2 (moment.1.act moment.2) ∧
      ((moment.1.act .readiness).answer = .readiness (.ok ()) ↔
        ∀ d ∈ moment.1.dependencies, d.ready = true)) ∧
    ∀ place : Nat, (h.course acts).dependencies[place]? = h.dependencies[place]?.map fun d =>
      d.later (acts.foldl (Act.flag place) d.ready) ((h.moments acts).countP (reaches place)) :=
  ⟨fun moment _ => ⟨answered moment.1 moment.2, readiness_eq_ok_iff moment.1⟩, getElem?_course h acts⟩

theorem asked_in_turn_of_namesakes :
    let h : Health := { dependencies := [⟨"replica", true, 0⟩, ⟨"replica", false, 0⟩, ⟨"hub", true, 0⟩] }
    let acts : List Act :=
      [.readiness, .set 1 true, .readiness, .liveness, .set 0 false, .readiness, .version]
    Answered h .readiness (h.act .readiness) ∧
    (h.act .readiness).answer = .readiness (.error ⟨"replica"⟩) ∧
    (h.course acts).dependencies[0]? = some ⟨"replica", false, 3⟩ ∧
    (h.course acts).dependencies[1]? = some ⟨"replica", true, 2⟩ ∧
    (h.course acts).dependencies[2]? = some ⟨"hub", true, 1⟩ := by
  intro h acts
  obtain ⟨hmoments, hcourse⟩ := asked_in_turn h acts
  have hfirst : (h, .readiness) ∈ h.moments acts := List.mem_cons_self
  exact ⟨(hmoments _ hfirst).1, rfl, hcourse 0, hcourse 1, hcourse 2⟩

end Health

/-- The health that a server answers for, before anybody asks. -/
def Server.health (s : Server) : Health :=
  { dependencies := s.dependencies.map fun (name, ready) => { name, ready } }

/-- A server answers a question for readiness as its health does. -/
theorem Server.act_health (s : Server) :
    (s.health.act .readiness).answer = .readiness s.readiness.value ∧
      (s.health.act .readiness).events.map .event = s.readiness.notes := by
  have hflags : s.health.dependencies.map Dependency.flag = s.dependencies := by
    simp [health, Dependency.flag, Function.comp_def]
  have hsaid := firstUnready_askInTurn s.health.dependencies
  rw [hflags] at hsaid
  simp [Health.act, readiness, Roster.readiness, readinessEvents, hsaid]

end Roster
