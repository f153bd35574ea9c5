import Roster.Worker
/-! # One callback at a time

Whatever the loop of a worker chooses, however long callbacks take and whenever the owner acts, jobs
are run in the order in which they were accepted, and nothing is called after the shutdown or after
a crash. One lemma says all that a move can do; the rest follows by induction over the
happenings. -/
namespace Roster

def Callback.job? : Callback → Option Job
  | run job => some job
  | _ => none

namespace Worker

theorem eq_of_start? {now interval : Nat} {w : Worker} (h : start? now interval = some w) :
    0 < interval ∧ w = { interval, now, deadline := now + interval } := by
  obtain ⟨hpos, h⟩ := Option.ite_none_left_eq_some.mp h
  exact ⟨Nat.pos_of_ne_zero fun hzero => hpos (.inl hzero), (Option.some.inj h).symm⟩

/-- All that a move can do. -/
inductive Moves (w : Worker) : Move → Worker → Prop
  | submit {job : Job} (hheld : w.handle = .held) (halive : w.alive = true)
      (hroom : w.queue.length < queueDepth) :
      Moves w (.submit job) { w with queue := w.queue ++ [job] }
  | pass {ms : Nat} (hdue : ∀ t, w.due = some t → w.now + ms ≤ t) :
      Moves w (.pass ms) { w with now := w.now + ms }
  | run {job : Job} {rest : List Job} {takes : Nat} (hphase : w.phase = .waiting)
      (hqueue : w.queue = job :: rest) :
      Moves w (.begin (.run job) takes)
        { w with phase := .calling (.run job) (w.now + takes), queue := rest }
  | tick {takes : Nat} (hphase : w.phase = .waiting) (hdue : w.deadline ≤ w.now) :
      Moves w (.begin .tick takes)
        { w with phase := .calling .tick (w.now + takes), deadline := w.nextDeadline }
  | shutdown {takes : Nat} (hphase : w.phase = .waiting) (hhandle : w.handle ≠ .held) :
      Moves w (.begin .shutdown takes) { w with phase := .calling .shutdown (w.now + takes) }
  | finish {c : Callback} (hphase : w.phase = .calling c w.now) (hc : c ≠ .shutdown) :
      Moves w .finish { w with phase := .waiting }
  | finishLast (hphase : w.phase = .calling .shutdown w.now) :
      Moves w .finish { w with phase := .ended }
  | crash {c : Callback} (hphase : w.phase = .calling c w.now) :
      Moves w .crash { w with phase := .crashed, queue := [] }
  | stop (hheld : w.handle = .held) : Moves w .stop { w with handle := .stopped }
  | drop : Moves w .drop { w with handle := .dropped }

theorem mem_ready {w : Worker} {c : Callback} :
    c ∈ w.ready ↔ match c with
      | .run job => w.queue.head? = some job
      | .tick => w.deadline ≤ w.now
      | .shutdown => w.handle ≠ .held := by
  cases c <;> simp [ready]

theorem moves_of_move? {w v : Worker} {m : Move} (h : w.move? m = some v) : w.Moves m v := by
  cases m with
  | submit job =>
    simp only [move?, Option.ite_none_right_eq_some, Option.some.injEq] at h
    obtain ⟨⟨hheld, halive, hroom⟩, rfl⟩ := h
    exact .submit hheld halive hroom
  | pass ms =>
    simp only [move?, Option.ite_none_right_eq_some, Option.some.injEq] at h
    obtain ⟨hdue, rfl⟩ := h
    apply Moves.pass
    intro t ht
    simpa [ht] using hdue
  | «begin» c takes =>
    simp only [move?, Option.ite_none_right_eq_some, Option.some.injEq] at h
    obtain ⟨⟨hphase, hready⟩, rfl⟩ := h
    rw [mem_ready] at hready
    cases c with
    | run job =>
      obtain ⟨rest, hqueue⟩ := List.head?_eq_some_iff.mp hready
      simp only [«begin», hqueue, List.tail_cons]
      exact .run hphase hqueue
    | tick => exact .tick hphase hready
    | shutdown => exact .shutdown hphase hready
  | finish =>
    simp only [move?] at h
    split at h
    · rename_i t hphase
      simp only [Option.ite_none_right_eq_some, Option.some.injEq] at h
      obtain ⟨rfl, rfl⟩ := h
      exact .finishLast hphase
    · rename_i c t hc hphase
      simp only [Option.ite_none_right_eq_some, Option.some.injEq] at h
      obtain ⟨rfl, rfl⟩ := h
      exact .finish hphase hc
    · cases h
  | crash =>
    simp only [move?] at h
    split at h
    · rename_i c t hphase
      simp only [Option.ite_none_right_eq_some, Option.some.injEq] at h
      obtain ⟨rfl, rfl⟩ := h
      exact .crash hphase
    · cases h
  | stop =>
    simp only [move?, Option.ite_none_right_eq_some, Option.some.injEq] at h
    obtain ⟨hheld, rfl⟩ := h
    exact .stop hheld
  | drop =>
    obtain rfl := Option.some.inj h
    exact .drop

/-- What happens to a worker, with the answers that its owner gets. -/
inductive Happening
  | move (m : Move)
  | refused (job : Job) (why : Rejected)
  /-- The owner has waited for the end of the loop. -/
  | returned
  deriving DecidableEq, Repr

/-- Why no job is accepted any more. -/
def refusal? (w : Worker) : Option Rejected :=
  if w.handle ≠ .held then some .notRunning
  else if w.alive then none else some .exited

def meet? (w : Worker) : Happening → Option Worker
  | .move m => w.move? m
  | .refused _ why => if w.refusal? = some why then some w else none
  | .returned => if w.handle = .stopped ∧ w.alive = false then some w else none

def course? (w : Worker) : List Happening → Option Worker
  | [] => some w
  | h :: rest => (w.meet? h).bind fun v => v.course? rest

namespace Happening

def accepted? : Happening → Option Job
  | move (.submit job) => some job
  | _ => none

def refused? : Happening → Option Job
  | refused job _ => some job
  | _ => none

def submitted? : Happening → Option Job
  | move (.submit job) => some job
  | refused job _ => some job
  | _ => none

def begun? : Happening → Option Callback
  | move (.begin c _) => some c
  | _ => none

end Happening

def accepted (hs : List Happening) : List Job := hs.filterMap (·.accepted?)

def refused (hs : List Happening) : List Job := hs.filterMap (·.refused?)

def submitted (hs : List Happening) : List Job := hs.filterMap (·.submitted?)

/-- The callbacks that were begun. -/
def begun (hs : List Happening) : List Callback := hs.filterMap (·.begun?)

/-- The jobs that were begun. -/
def ran (hs : List Happening) : List Job := (begun hs).filterMap (·.job?)

/-- The callback that comes to its end, if one does. -/
def ending (w : Worker) : Happening → List Callback
  | .move m => w.trail m
  | .refused .. | .returned => []

/-- The callbacks that come to their end. -/
def completed (w : Worker) : List Happening → List Callback
  | [] => []
  | h :: rest => w.ending h ++ (w.meet? h).elim [] fun v => v.completed rest

theorem begun_append (hs more : List Happening) : begun (hs ++ more) = begun hs ++ begun more :=
  List.filterMap_append

section

variable {w v : Worker} {h : Happening} {hs more : List Happening}

theorem course?_append : w.course? (hs ++ more) = (w.course? hs).bind (·.course? more) := by
  induction hs generalizing w with
  | nil => rfl
  | cons h hs ih =>
    simp only [List.cons_append, course?, Option.bind_assoc, ih]

theorem completed_append (hv : w.course? hs = some v) :
    w.completed (hs ++ more) = w.completed hs ++ v.completed more := by
  induction hs generalizing w with
  | nil =>
    obtain rfl := Option.some.inj hv
    rfl
  | cons h hs ih =>
    obtain ⟨u, hu, hv⟩ := Option.bind_eq_some_iff.mp hv
    simp only [List.cons_append, completed, hu, Option.elim_some, ih hv, List.append_assoc]

end

/-- How far the loop has come, by the callbacks that were begun and those that came to their end. -/
inductive Stage : Phase → List Callback → List Callback → Prop
  | waiting {cs : List Callback} (h : .shutdown ∉ cs) : Stage .waiting cs cs
  | calling {cs : List Callback} {c : Callback} {t : Nat} (h : .shutdown ∉ cs) :
      Stage (.calling c t) (cs ++ [c]) cs
  | ended {cs : List Callback} (h : .shutdown ∉ cs) :
      Stage .ended (cs ++ [.shutdown]) (cs ++ [.shutdown])
  | crashed {cs : List Callback} {c : Callback} (h : .shutdown ∉ cs) : Stage .crashed (cs ++ [c]) cs

section

variable {w v : Worker} {m : Move}

theorem Stage.move {bs cs : List Callback} (hs : Stage w.phase bs cs) (h : w.Moves m v) :
    Stage v.phase (bs ++ begun [.move m]) (cs ++ w.trail m) := by
  cases h with
  | submit | pass | stop | drop => simpa [begun, Happening.begun?, trail] using hs
  | run hphase | tick hphase | shutdown hphase =>
    rw [hphase] at hs
    obtain ⟨h⟩ := hs
    simpa [begun, Happening.begun?, trail] using Stage.calling h
  | finish hphase hc =>
    rw [hphase] at hs
    obtain _ | h := hs
    simpa [begun, Happening.begun?, trail, hphase] using Stage.waiting (by simp [h, hc.symm])
  | finishLast hphase =>
    rw [hphase] at hs
    obtain _ | h := hs
    simpa [begun, Happening.begun?, trail, hphase] using Stage.ended h
  | crash hphase =>
    rw [hphase] at hs
    obtain _ | h := hs
    simpa [begun, Happening.begun?, trail] using Stage.crashed h

theorem Moves.alive (h : w.Moves m v) (hv : v.alive = true) : w.alive = true := by
  cases h with
  | submit _ halive => exact halive
  | pass | stop | drop => exact hv
  | run hphase | tick hphase | shutdown hphase | finish hphase => simp [Worker.alive, hphase]
  | finishLast | crash => cases hv

/-- Jobs go in at one end of the queue and come out at the other. -/
theorem Moves.queue (h : w.Moves m v) (hm : m ≠ .crash) :
    w.queue ++ accepted [.move m] = ran [.move m] ++ v.queue := by
  cases h with
  | run _ hqueue =>
    simp [accepted, ran, begun, Happening.accepted?, Happening.begun?, Callback.job?, hqueue]
  | crash => exact absurd rfl hm
  | _ => simp [accepted, ran, begun, Happening.accepted?, Happening.begun?, Callback.job?]

/-- A loop that is down stays down and takes no job. -/
theorem Moves.of_down (h : w.Moves m v) (hw : w.alive = false) :
    v.phase = w.phase ∧ accepted [.move m] = [] ∧ begun [.move m] = [] := by
  cases h with
  | submit _ halive => rw [hw] at halive; cases halive
  | pass | stop | drop => exact ⟨rfl, rfl, rfl⟩
  | run hphase | tick hphase | shutdown hphase | finish hphase | finishLast hphase | crash hphase =>
    simp [Worker.alive, hphase] at hw

/-- A worker that its owner has let go of is not taken up again. -/
theorem Moves.of_let_go (h : w.Moves m v) (hw : w.handle ≠ .held) :
    v.handle ≠ .held ∧ accepted [.move m] = [] := by
  cases h with
  | submit hheld | stop hheld => exact absurd hheld hw
  | drop => exact ⟨nofun, rfl⟩
  | _ => exact ⟨hw, rfl⟩

theorem Moves.crashed (h : w.Moves m v) (hv : v.phase = .crashed) :
    w.phase = .crashed ∨ m = .crash := by
  cases h with
  | submit | pass | stop | drop => exact .inl hv
  | run | tick | shutdown | finish | finishLast => cases hv
  | crash => exact .inr rfl

end

/-- What holds of a worker after a course from its start. -/
structure Kept (w₀ : Worker) (hs : List Happening) (w : Worker) : Prop where
  course : w₀.course? hs = some w
  stage : Stage w.phase (begun hs) (w₀.completed hs)
  crashed : w.phase = .crashed → .move .crash ∈ hs
  queued : w.alive = true → accepted hs = ran hs ++ w.queue
  inOrder : ran hs <+: accepted hs

section

variable {w₀ w v : Worker} {h : Happening} {hs : List Happening}

theorem kept_nil {now interval : Nat} (hw : start? now interval = some w) : Kept w [] w := by
  obtain ⟨-, rfl⟩ := eq_of_start? hw
  exact ⟨rfl, .waiting List.not_mem_nil, nofun, fun _ => rfl, List.prefix_refl _⟩

theorem Kept.queue_move {m : Move} (hw : Kept w₀ hs w) (hm : w.Moves m v) :
    (v.alive = true → accepted (hs ++ [.move m]) = ran (hs ++ [.move m]) ++ v.queue) ∧
      ran (hs ++ [.move m]) <+: accepted (hs ++ [.move m]) := by
  have haccepted : accepted (hs ++ [.move m]) = accepted hs ++ accepted [.move m] :=
    List.filterMap_append
  have hran : ran (hs ++ [.move m]) = ran hs ++ ran [.move m] := by
    simp [ran, begun]
  rw [haccepted, hran]
  cases halive : w.alive with
  | false =>
    obtain ⟨-, ha, hb⟩ := hm.of_down halive
    have hnone : ran [.move m] = [] := by simp [ran, hb]
    rw [ha, hnone, List.append_nil, List.append_nil]
    refine ⟨fun hv => ?_, hw.inOrder⟩
    rw [hm.alive hv] at halive
    cases halive
  | true =>
    by_cases hcrash : m = .crash
    · subst hcrash
      cases hm
      refine ⟨nofun, ?_⟩
      simpa [accepted, ran, begun, Happening.accepted?, Happening.begun?] using hw.inOrder
    · have hqueue : accepted hs ++ accepted [.move m] = ran hs ++ ran [.move m] ++ v.queue := by
        rw [hw.queued halive, List.append_assoc, hm.queue hcrash, List.append_assoc]
      exact ⟨fun _ => hqueue, hqueue ▸ List.prefix_append _ _⟩

theorem Kept.move {m : Move} (hw : Kept w₀ hs w) (hm : w.move? m = some v) :
    Kept w₀ (hs ++ [.move m]) v := by
  have hmoves := moves_of_move? hm
  have hcompleted : w₀.completed (hs ++ [.move m]) = w₀.completed hs ++ w.trail m := by
    rw [completed_append hw.course]
    simp [completed, ending, meet?, hm]
  obtain ⟨hqueued, hran⟩ := hw.queue_move hmoves
  refine ⟨?_, ?_, fun hv => ?_, hqueued, hran⟩
  · rw [course?_append, hw.course]
    simp [course?, meet?, hm]
  · rw [hcompleted, begun_append]
    exact hw.stage.move hmoves
  · rw [List.mem_append, List.mem_singleton]
    rcases hmoves.crashed hv with hv | rfl
    · exact .inl (hw.crashed hv)
    · exact .inr rfl

theorem Kept.meet (hw : Kept w₀ hs w) (hh : w.meet? h = some v) : Kept w₀ (hs ++ [h]) v := by
  have hkept {h : Happening} (hh : w.meet? h = some w) (ha : h.accepted? = none)
      (hb : h.begun? = none) (hc : w₀.completed (hs ++ [h]) = w₀.completed hs) :
      Kept w₀ (hs ++ [h]) w := by
    have haccepted : accepted (hs ++ [h]) = accepted hs := by simp [accepted, ha]
    have hbegun : begun (hs ++ [h]) = begun hs := by simp [begun, hb]
    have hran : ran (hs ++ [h]) = ran hs := by rw [ran, hbegun, ran]
    refine ⟨?_, ?_, fun hv => List.mem_append_left _ (hw.crashed hv), ?_, ?_⟩
    · rw [course?_append, hw.course]
      simp [course?, hh]
    · rw [hbegun, hc]
      exact hw.stage
    · rw [haccepted, hran]
      exact hw.queued
    · rw [haccepted, hran]
      exact hw.inOrder
  cases h with
  | move m => exact hw.move hh
  | refused job why =>
    obtain ⟨-, rfl⟩ : w.refusal? = some why ∧ w = v := by simpa [meet?] using hh
    exact hkept hh rfl rfl (by rw [completed_append hw.course]; simp [completed, ending, hh])
  | returned =>
    obtain ⟨-, rfl⟩ : (w.handle = .stopped ∧ w.alive = false) ∧ w = v := by simpa [meet?] using hh
    exact hkept hh rfl rfl (by rw [completed_append hw.course]; simp [completed, ending, hh])

theorem Kept.course? (hw : Kept w₀ hs w) {more : List Happening} (hv : w.course? more = some v) :
    Kept w₀ (hs ++ more) v := by
  induction more generalizing hs w with
  | nil =>
    obtain rfl := Option.some.inj hv
    rwa [List.append_nil]
  | cons h more ih =>
    obtain ⟨u, hu, hv⟩ := Option.bind_eq_some_iff.mp hv
    have hrest := ih (hw.meet hu) hv
    rwa [List.append_assoc] at hrest

end

section

variable {w v : Worker} {hs : List Happening}

theorem Stage.nil_of_shutdown {p : Phase} {bs cs xs ys : List Callback} (hs : Stage p bs cs)
    (h : bs = xs ++ .shutdown :: ys) : ys = [] := by
  have hlast {cs : List Callback} {c : Callback} (hc : .shutdown ∉ cs)
      (h : cs ++ [c] = xs ++ .shutdown :: ys) : ys = [] := by
    rcases List.eq_nil_or_concat ys with rfl | ⟨zs, z, rfl⟩
    · rfl
    · rw [List.concat_eq_append, ← List.cons_append, ← List.append_assoc] at h
      obtain ⟨rfl, -⟩ := List.append_inj' h rfl
      simp at hc
  cases hs with
  | waiting hc => simp [h] at hc
  | calling hc | ended hc | crashed hc => exact hlast hc h

theorem Stage.waiting_eq {bs cs : List Callback} (hs : Stage .waiting bs cs) : bs = cs := by
  cases hs with
  | waiting => rfl

theorem Stage.calling_eq {c : Callback} {t : Nat} {bs cs : List Callback}
    (hs : Stage (.calling c t) bs cs) : bs = cs ++ [c] := by
  cases hs with
  | calling => rfl

theorem Stage.count_shutdown {p : Phase} {bs cs : List Callback} (hs : Stage p bs cs) :
    bs.count .shutdown ≤ 1 := by
  cases hs with
  | waiting hc => simp [List.count_eq_zero_of_not_mem hc]
  | calling hc | ended hc | crashed hc =>
    rw [List.count_append, List.count_eq_zero_of_not_mem hc, Nat.zero_add]
    exact List.count_le_length

theorem completed_eq_nil (h : .move .finish ∉ hs) : w.completed hs = [] := by
  induction hs generalizing w with
  | nil => rfl
  | cons h' hs ih =>
    rw [List.mem_cons, not_or] at h
    have hnone : w.ending h' = [] := by
      cases h' with
      | move m =>
        cases m with
        | finish => exact absurd rfl h.1
        | _ => rfl
      | _ => rfl
    rw [completed, hnone, List.nil_append]
    cases w.meet? h' with
    | none => rfl
    | some u => exact ih h.2

theorem moves_of_meet? {m : Move} (hv : w.meet? (.move m) = some v) : w.Moves m v :=
  moves_of_move? hv

theorem of_meet? {h : Happening} (hv : w.meet? h = some v) :
    (∃ m, h = .move m ∧ w.Moves m v) ∨ v = w ∧ accepted [h] = [] ∧ begun [h] = [] := by
  cases h with
  | move m => exact .inl ⟨m, rfl, moves_of_meet? hv⟩
  | refused job why =>
    obtain ⟨-, rfl⟩ : w.refusal? = some why ∧ w = v := by simpa [meet?] using hv
    exact .inr ⟨rfl, rfl, rfl⟩
  | returned =>
    obtain ⟨-, rfl⟩ : (w.handle = .stopped ∧ w.alive = false) ∧ w = v := by simpa [meet?] using hv
    exact .inr ⟨rfl, rfl, rfl⟩

/-- What every happening keeps, and that none shows some things, holds along a course. -/
theorem course?_induction {P : Worker → Prop} {α : Type} {f : Happening → Option α}
    (hstep : ∀ {w v h}, P w → w.meet? h = some v → P v ∧ [h].filterMap f = []) (hw : P w)
    (hv : w.course? hs = some v) : P v ∧ hs.filterMap f = [] := by
  induction hs generalizing w with
  | nil =>
    obtain rfl := Option.some.inj hv
    exact ⟨hw, rfl⟩
  | cons h hs ih =>
    obtain ⟨u, hu, hv⟩ := Option.bind_eq_some_iff.mp hv
    obtain ⟨hkept, hfirst⟩ := hstep hw hu
    obtain ⟨hlast, hrest⟩ := ih hkept hv
    refine ⟨hlast, ?_⟩
    rw [← List.singleton_append, List.filterMap_append, hfirst, hrest]
    rfl

theorem down_of_course? (hv : w.course? hs = some v) (hw : w.alive = false) :
    v.alive = false ∧ begun hs = [] := by
  apply course?_induction (P := fun w => w.alive = false) _ hw hv
  intro w v h hw hv
  rcases of_meet? hv with ⟨m, rfl, hm⟩ | ⟨rfl, -, hbegun⟩
  · obtain ⟨hphase, -, hbegun⟩ := hm.of_down hw
    refine ⟨?_, hbegun⟩
    rw [← hw, alive, hphase, alive]
  · exact ⟨hw, hbegun⟩

theorem let_go_of_course? (hv : w.course? hs = some v) (hw : w.handle ≠ .held) :
    v.handle ≠ .held ∧ accepted hs = [] := by
  apply course?_induction (P := fun w => w.handle ≠ .held) _ hw hv
  intro w v h hw hv
  rcases of_meet? hv with ⟨m, rfl, hm⟩ | ⟨rfl, haccepted, -⟩
  · exact hm.of_let_go hw
  · exact ⟨hw, haccepted⟩

theorem count_submitted (hs : List Happening) (job : Job) :
    (submitted hs).count job = (accepted hs).count job + (refused hs).count job := by
  induction hs with
  | nil => rfl
  | cons h hs ih =>
    rcases h with m | ⟨job', why⟩ | _
    · cases m with
      | submit job' =>
        show (job' :: submitted hs).count job =
          (job' :: accepted hs).count job + (refused hs).count job
        simp only [List.count_cons, ih]
        omega
      | _ => exact ih
    · show (job' :: submitted hs).count job =
        (accepted hs).count job + (job' :: refused hs).count job
      simp only [List.count_cons, ih]
      omega
    · exact ih

end

/-- The rules that what happens to a worker keeps to. -/
structure Disciplined (w₀ : Worker) (hs : List Happening) : Prop where
  inOrder : ran hs <+: accepted hs
  notRefused : ∀ job, (ran hs).count job + (refused hs).count job ≤ (submitted hs).count job
  apart : ∀ {pre c n mid c' n' post},
    hs = pre ++ .move (.begin c n) :: (mid ++ .move (.begin c' n') :: post) → .move .finish ∈ mid
  shutdownOnce : (begun hs).count .shutdown ≤ 1
  shutdownLast : ∀ {pre n post}, hs = pre ++ .move (.begin .shutdown n) :: post → begun post = []
  crashLast : ∀ {pre post}, hs = pre ++ .move .crash :: post → begun post = []
  returned : ∀ {pre post}, hs = pre ++ .returned :: post →
    (begun pre).count .shutdown = 1 ∧ (w₀.completed pre).count .shutdown = 1 ∨ .move .crash ∈ pre
  stopped : ∀ {pre post}, hs = pre ++ .move .stop :: post → accepted post = []

section

variable {w₀ w : Worker} {hs pre post : List Happening} {h : Happening}

/-- A course at one of its happenings. -/
theorem Kept.split (h₀ : Kept w₀ [] w₀) (hw : w₀.course? (pre ++ h :: post) = some w) :
    ∃ u v, Kept w₀ pre u ∧ u.meet? h = some v ∧ Kept w₀ (pre ++ [h]) v ∧
      v.course? post = some w := by
  rw [course?_append] at hw
  obtain ⟨u, hu, hw⟩ := Option.bind_eq_some_iff.mp hw
  obtain ⟨v, hv, hw⟩ := Option.bind_eq_some_iff.mp hw
  have hpre : Kept w₀ pre u := h₀.course? hu
  exact ⟨u, v, hpre, hv, hpre.meet hv, hw⟩

/-- When a second callback begins, all that were begun before it have come to their end. -/
theorem Kept.apart (h₀ : Kept w₀ [] w₀) {c c' : Callback} {n n' : Nat} {mid : List Happening}
    (hw : w₀.course? (pre ++ .move (.begin c n) :: (mid ++ .move (.begin c' n') :: post)) =
      some w) : .move .finish ∈ mid := by
  obtain ⟨u, v, -, hbegin, hv, hmid⟩ := h₀.split hw
  rw [course?_append] at hmid
  obtain ⟨x, hx, hmid⟩ := Option.bind_eq_some_iff.mp hmid
  obtain ⟨_, hbegin', -⟩ := Option.bind_eq_some_iff.mp hmid
  obtain ⟨t, hcalling⟩ : ∃ t, v.phase = .calling c t := by
    cases moves_of_meet? hbegin <;> exact ⟨_, rfl⟩
  have hwaiting : x.phase = .waiting := by
    cases moves_of_meet? hbegin' <;> assumption
  have hbefore := (hcalling ▸ hv.stage).calling_eq
  have hafter := (hwaiting ▸ (hv.course? hx).stage).waiting_eq
  by_cases hfinish : .move .finish ∈ mid
  · exact hfinish
  · rw [completed_append hv.course, completed_eq_nil hfinish, List.append_nil, begun_append,
      hbefore] at hafter
    have hlength := congrArg List.length hafter
    simp only [List.length_append, List.length_singleton] at hlength
    omega

theorem Kept.crash_last (h₀ : Kept w₀ [] w₀)
    (hw : w₀.course? (pre ++ .move .crash :: post) = some w) : begun post = [] := by
  obtain ⟨u, v, -, hv, -, hpost⟩ := h₀.split hw
  have hdown : v.alive = false := by
    cases moves_of_meet? hv
    rfl
  exact (down_of_course? hpost hdown).2

theorem Kept.stop_last (h₀ : Kept w₀ [] w₀)
    (hw : w₀.course? (pre ++ .move .stop :: post) = some w) : accepted post = [] := by
  obtain ⟨u, v, -, hv, -, hpost⟩ := h₀.split hw
  have hgone : v.handle ≠ .held := by
    cases moves_of_meet? hv
    exact nofun
  exact (let_go_of_course? hpost hgone).2

/-- The owner has waited: the loop has come to the end of its shutdown, or a callback crashed. -/
theorem Kept.returned (h₀ : Kept w₀ [] w₀) (hw : w₀.course? (pre ++ .returned :: post) = some w) :
    (begun pre).count .shutdown = 1 ∧ (w₀.completed pre).count .shutdown = 1 ∨
      .move .crash ∈ pre := by
  obtain ⟨u, v, hu, hv, -, -⟩ := h₀.split hw
  obtain ⟨⟨-, hdown⟩, -⟩ : (u.handle = .stopped ∧ u.alive = false) ∧ u = v := by
    simpa [meet?] using hv
  have hstage := hu.stage
  cases hphase : u.phase with
  | waiting | calling => simp [alive, hphase] at hdown
  | crashed => exact .inr (hu.crashed hphase)
  | ended =>
    rw [hphase] at hstage
    generalize begun _ = bs at hstage
    generalize w₀.completed _ = cs at hstage
    obtain _ | _ | h := hstage
    simp [List.count_eq_zero_of_not_mem h]

theorem Kept.disciplined (h₀ : Kept w₀ [] w₀) (hw : w₀.course? hs = some w) :
    w₀.Disciplined hs := by
  have hkept : Kept w₀ hs w := h₀.course? hw
  refine ⟨hkept.inOrder, fun job => ?_, fun heq => ?_, hkept.stage.count_shutdown, fun heq => ?_,
    fun heq => ?_, fun heq => ?_, fun heq => ?_⟩
  · rw [count_submitted]
    exact Nat.add_le_add_right (hkept.inOrder.sublist.count_le job) _
  · rw [heq] at hw
    exact h₀.apart hw
  · rename_i pre n post
    have hbegun : begun hs = begun pre ++ .shutdown :: begun post := by
      rw [heq, begun_append]
      rfl
    exact hkept.stage.nil_of_shutdown hbegun
  · rw [heq] at hw
    exact h₀.crash_last hw
  · rw [heq] at hw
    exact h₀.returned hw
  · rw [heq] at hw
    exact h₀.stop_last hw

end

end Worker
end Roster
