import Roster.Proofs.Orders
/-! # Ticks keep their distance

Jobs, ticks and their owner may hold each other up for as long as they like. When a tick is due
follows from the one before it alone: a full interval after it began if it was late, else a full
interval after it was due. So ticks that were missed are never made up for. -/
namespace Roster
namespace Worker

/-- A tick that was served: when it was due, and when it began. -/
structure Serving where
  due : Nat
  began : Nat
  deriving DecidableEq, Repr

namespace Serving

/-- The tick was served late. -/
def Late (s : Serving) : Prop := s.due + tolerance < s.began

/-- When the tick behind this one is due. -/
def next (interval : Nat) (s : Serving) : Nat :=
  if s.due + tolerance < s.began then s.began + interval else s.due + interval

end Serving

/-- The tick that a happening serves, if it serves one. -/
def serving? (w : Worker) : Happening → Option Serving
  | .move (.begin .tick _) => some ⟨w.deadline, w.now⟩
  | _ => none

/-- The ticks that are served in a course, in their order. -/
def servings (w : Worker) : List Happening → List Serving
  | [] => []
  | h :: rest => (w.serving? h).toList ++ (w.meet? h).elim [] fun v => v.servings rest

/-- Ticks that are served one after the other, the first of which is due at `first`. The one behind
them is due at `last`. -/
inductive Schedule (interval : Nat) : Nat → List Serving → Nat → Prop
  | nil {first : Nat} : Schedule interval first [] first
  | cons {s : Serving} {ss : List Serving} {last : Nat} (hbegan : s.due ≤ s.began)
      (hrest : Schedule interval (s.next interval) ss last) :
      Schedule interval s.due (s :: ss) last

section

variable {interval first last : Nat} {s : Serving} {ss : List Serving}

theorem Serving.due_add_le_next (s : Serving) (interval : Nat) :
    s.due + interval ≤ s.next interval := by
  unfold next
  split <;> omega

theorem Serving.began_add_le_next (s : Serving) (interval : Nat) :
    s.began + interval ≤ s.next interval + tolerance := by
  unfold next
  split <;> omega

theorem Serving.Late.next_eq (h : s.Late) : s.next interval = s.began + interval := if_pos h

theorem Schedule.due_le (h : Schedule interval first ss last) {k : Nat} (hs : ss[k]? = some s) :
    first + k * interval ≤ s.due ∧ s.due ≤ s.began := by
  induction h generalizing k with
  | nil => cases hs
  | @cons t ss last hbegan _ ih =>
    cases k with
    | zero =>
      obtain rfl := Option.some.inj hs
      exact ⟨by omega, hbegan⟩
    | succ k =>
      obtain ⟨hdue, hle⟩ := ih hs
      have hnext := t.due_add_le_next interval
      refine ⟨?_, hle⟩
      calc t.due + (k + 1) * interval = t.due + interval + k * interval := by
            rw [Nat.succ_mul]
            omega
        _ ≤ t.next interval + k * interval := Nat.add_le_add_right hnext _
        _ ≤ s.due := hdue

/-- From a tick on, every later one is a full interval behind the one that follows it, or more. -/
theorem Schedule.next_le (h : Schedule interval first ss last) {k d : Nat} {t : Serving}
    (hs : ss[k]? = some s) (ht : ss[k + 1 + d]? = some t) :
    s.next interval + d * interval ≤ t.began := by
  induction h generalizing k with
  | nil => cases hs
  | cons _ hrest ih =>
    cases k with
    | zero =>
      obtain rfl := Option.some.inj hs
      have hd : 0 + 1 + d = d + 1 := by omega
      rw [hd] at ht
      obtain ⟨hdue, hbegan⟩ := hrest.due_le ht
      exact Nat.le_trans hdue hbegan
    | succ k =>
      have hd : k + 1 + 1 + d = k + 1 + d + 1 := by omega
      rw [hd] at ht
      exact ih hs ht

/-- Nothing was late: the ticks are as many intervals apart as there are between them. -/
theorem Schedule.eq_of_prompt (h : Schedule interval first ss last)
    (hprompt : ∀ s ∈ ss, s.began = s.due) :
    last = first + ss.length * interval ∧
      ∀ k s, ss[k]? = some s → s.began = first + k * interval := by
  induction h with
  | nil => exact ⟨by simp, nofun⟩
  | @cons t ss last _ _ ih =>
    obtain ⟨hfirst, hrest⟩ := List.forall_mem_cons.mp hprompt
    have hnext : t.next interval = t.due + interval := by
      rw [Serving.next, if_neg]
      omega
    obtain ⟨hlast, hbegan⟩ := ih hrest
    rw [hnext] at hlast hbegan
    refine ⟨?_, fun k s hs => ?_⟩
    · rw [hlast, List.length_cons, Nat.succ_mul]
      omega
    · cases k with
      | zero =>
        obtain rfl := Option.some.inj hs
        rw [hfirst]
        omega
      | succ k =>
        rw [hbegan k s hs, Nat.succ_mul]
        omega

end

section

variable {w v : Worker} {m : Move} {h : Happening} {hs : List Happening}

theorem Moves.interval (h : w.Moves m v) : v.interval = w.interval := by cases h <;> rfl

/-- What becomes of the tick that is due: it is left due, or a loop that runs serves it. -/
inductive Serves (w v : Worker) : Option Serving → Prop
  | left (hdue : v.deadline = w.deadline) : Serves w v none
  | served (halive : w.alive = true) (hbegan : w.deadline ≤ w.now)
      (hdue : v.deadline = Serving.next w.interval ⟨w.deadline, w.now⟩) :
      Serves w v (some ⟨w.deadline, w.now⟩)

theorem Moves.serves (h : w.Moves m v) : Serves w v (w.serving? (.move m)) := by
  cases h with
  | tick hphase hdue => exact .served (by simp [Worker.alive, hphase]) hdue rfl
  | _ => exact .left rfl

theorem serves_of_meet? (hv : w.meet? h = some v) :
    v.interval = w.interval ∧ Serves w v (w.serving? h) := by
  cases h with
  | move m => exact ⟨(moves_of_meet? hv).interval, (moves_of_meet? hv).serves⟩
  | refused job why =>
    obtain ⟨-, rfl⟩ : w.refusal? = some why ∧ w = v := by simpa [meet?] using hv
    exact ⟨rfl, .left rfl⟩
  | returned =>
    obtain ⟨-, rfl⟩ : (w.handle = .stopped ∧ w.alive = false) ∧ w = v := by simpa [meet?] using hv
    exact ⟨rfl, .left rfl⟩

/-- The ticks of a course keep to a schedule, from the one that is due at its start to the one that
is due at its end. -/
theorem schedule_of_course? (hv : w.course? hs = some v) :
    v.interval = w.interval ∧ Schedule w.interval w.deadline (w.servings hs) v.deadline := by
  induction hs generalizing w with
  | nil =>
    obtain rfl := Option.some.inj hv
    exact ⟨rfl, .nil⟩
  | cons h hs ih =>
    obtain ⟨u, hu, hv⟩ := Option.bind_eq_some_iff.mp hv
    obtain ⟨hinterval, hschedule⟩ := ih hv
    obtain ⟨hsame, hserves⟩ := serves_of_meet? hu
    rw [hsame] at hinterval hschedule
    refine ⟨hinterval, ?_⟩
    simp only [servings, hu, Option.elim_some]
    generalize w.serving? h = serving? at hserves
    cases hserves with
    | left hdue => exact hdue ▸ hschedule
    | served _ hbegan hdue => exact .cons hbegan (hdue ▸ hschedule)

/-- No callback takes time. -/
def Prompt (hs : List Happening) : Prop := ∀ {c n}, .move (.begin c n) ∈ hs → n = 0

/-- While no callback takes time, a loop that runs is never behind the tick that is due, and its
current callback ends at once. -/
structure OnTime (w : Worker) : Prop where
  now_le : w.alive = true → w.now ≤ w.deadline
  ends : ∀ {c t}, w.phase = .calling c t → t = w.now

/-- Time does not pass while the loop has something to do at once. -/
theorem OnTime.pass {ms : Nat} (hw : w.OnTime) (hdue : ∀ t, w.due = some t → w.now + ms ≤ t)
    (halive : w.alive = true) : w.now + ms ≤ w.deadline ∧
      ∀ {c t}, w.phase = .calling c t → t = w.now + ms := by
  obtain ⟨hnow, hends⟩ := hw
  have hle := hnow halive
  cases hphase : w.phase with
  | ended | crashed => simp [Worker.alive, hphase] at halive
  | calling c t =>
    have ht := hends hphase
    have hms := hdue t (by simp [due, hphase])
    refine ⟨by omega, fun heq => ?_⟩
    obtain ⟨-, rfl⟩ := Phase.calling.inj heq
    omega
  | waiting =>
    refine ⟨?_, fun heq => by cases heq⟩
    by_cases hready : w.ready = []
    · exact hdue w.deadline (by simp [due, hphase, hready])
    · have hms := hdue w.now (by simp [due, hphase, hready])
      omega

theorem OnTime.moves (hw : w.OnTime) (h : w.Moves m v) (hm : ∀ c n, m = .begin c n → n = 0) :
    v.OnTime := by
  have hwaiting (hphase : w.phase = .waiting) : w.now ≤ w.deadline :=
    hw.now_le (by simp [alive, hphase])
  cases h with
  | submit | stop | drop => exact ⟨hw.now_le, hw.ends⟩
  | pass hdue =>
    refine ⟨fun halive => (hw.pass hdue halive).1, fun {c t} hphase => ?_⟩
    have hcalling : w.phase = .calling c t := hphase
    exact (hw.pass hdue (by simp [alive, hcalling])).2 hcalling
  | run hphase | shutdown hphase =>
    obtain rfl := hm _ _ rfl
    exact ⟨fun _ => hwaiting hphase, fun hcalling => (Phase.calling.inj hcalling).2.symm⟩
  | tick hphase hdue =>
    obtain rfl := hm _ _ rfl
    refine ⟨fun _ => ?_, fun hcalling => (Phase.calling.inj hcalling).2.symm⟩
    have hnext := Serving.due_add_le_next ⟨w.deadline, w.now⟩ w.interval
    exact Nat.le_trans (hwaiting hphase) (Nat.le_trans (Nat.le_add_right _ _) hnext)
  | finish hphase => exact ⟨fun _ => hw.now_le (by simp [alive, hphase]), fun heq => by cases heq⟩
  | finishLast | crash => exact ⟨fun halive => (by cases halive), fun heq => by cases heq⟩

theorem OnTime.course? (hw : w.OnTime) (hprompt : Prompt hs) (hv : w.course? hs = some v) :
    v.OnTime ∧ ∀ s ∈ w.servings hs, s.began = s.due := by
  induction hs generalizing w with
  | nil =>
    obtain rfl := Option.some.inj hv
    exact ⟨hw, nofun⟩
  | cons h hs ih =>
    obtain ⟨u, hu, hv⟩ := Option.bind_eq_some_iff.mp hv
    have hlater : Prompt hs := fun hmem => hprompt (List.mem_cons_of_mem _ hmem)
    have honTime : u.OnTime := by
      rcases of_meet? hu with ⟨m, rfl, hm⟩ | ⟨rfl, -, -⟩
      · exact hw.moves hm fun c n heq => hprompt (c := c) (heq ▸ List.mem_cons_self)
      · exact hw
    obtain ⟨hlast, hrest⟩ := ih honTime hlater hv
    refine ⟨hlast, ?_⟩
    obtain ⟨-, hserves⟩ := serves_of_meet? hu
    simp only [servings, hu, Option.elim_some]
    generalize w.serving? h = serving? at hserves
    cases hserves with
    | left => exact hrest
    | served halive hbegan =>
      exact List.forall_mem_cons.mpr ⟨Nat.le_antisymm (hw.now_le halive) hbegan, hrest⟩

end

/-- The ticks of a course are never bursted. -/
structure Spaced (w₀ : Worker) (hs : List Happening) : Prop where
  notEarly : ∀ {k s}, (w₀.servings hs)[k]? = some s →
    w₀.now + (k + 1) * w₀.interval ≤ s.began
  afterLate : ∀ {i j : Nat} {s t : Serving},
    (w₀.servings hs)[i]? = some s → (w₀.servings hs)[j]? = some t →
    i < j → s.Late → s.began + w₀.interval ≤ t.began
  apart : ∀ {k s t}, (w₀.servings hs)[k]? = some s → (w₀.servings hs)[k + 1]? = some t →
    s.began + w₀.interval ≤ t.began + tolerance

/-- The ticks of a course are served when they are due, and none is left out while the loop runs. -/
structure Exact (w₀ : Worker) (hs : List Happening) (w : Worker) : Prop where
  began : ∀ {k s}, (w₀.servings hs)[k]? = some s → s.began = w₀.now + (k + 1) * w₀.interval
  none_left : w.alive = true → w.now ≤ w₀.now + ((w₀.servings hs).length + 1) * w₀.interval

section

variable {w₀ w : Worker} {hs : List Happening}

theorem spaced_of_course? (hdue : w₀.deadline = w₀.now + w₀.interval)
    (hw : w₀.course? hs = some w) : w₀.Spaced hs := by
  obtain ⟨-, hschedule⟩ := schedule_of_course? hw
  refine ⟨fun {k s} hs => ?_, fun {i j s t} hi hj hlt hlate => ?_, fun {k s t} hs ht => ?_⟩
  · obtain ⟨hfirst, hbegan⟩ := hschedule.due_le hs
    rw [hdue] at hfirst
    rw [Nat.succ_mul]
    omega
  · obtain ⟨d, rfl⟩ := Nat.exists_eq_add_of_le hlt
    have hnext := hschedule.next_le hi hj
    rw [hlate.next_eq] at hnext
    exact Nat.le_trans (Nat.le_add_right _ _) hnext
  · have hnext := hschedule.next_le (d := 0) hs ht
    have hbegan := s.began_add_le_next w₀.interval
    omega

theorem exact_of_course? (hdue : w₀.deadline = w₀.now + w₀.interval) (honTime : w₀.OnTime)
    (hprompt : Prompt hs) (hw : w₀.course? hs = some w) : w₀.Exact hs w := by
  obtain ⟨-, hschedule⟩ := schedule_of_course? hw
  obtain ⟨hlast, hserved⟩ := honTime.course? hprompt hw
  obtain ⟨hdeadline, hbegan⟩ := hschedule.eq_of_prompt hserved
  rw [hdue] at hdeadline hbegan
  refine ⟨fun {k s} hs => ?_, fun halive => ?_⟩
  · rw [hbegan k s hs, Nat.succ_mul]
    omega
  · have hnow := hlast.now_le halive
    rw [hdeadline] at hnow
    rw [Nat.succ_mul]
    omega

end

/-- No tick comes before its time, none comes sooner than a full interval after a late one, and any
two in a row are a full interval apart but for the tolerance, however many were missed. If no
callback takes time, every tick comes exactly when it should. What a worker does on the orders of
its owner is one such course. -/
theorem ticks_spaced {now interval : Nat} {w₀ : Worker} (h₀ : start? now interval = some w₀) :
    w₀.now = now ∧ w₀.interval = interval ∧
    (∀ {hs w}, w₀.course? hs = some w → w₀.Spaced hs ∧ (Prompt hs → w₀.Exact hs w)) ∧
    ∀ orders, ∃ hs, w₀.Follows hs (w₀.obeyAll orders) ∧ w₀.Spaced hs := by
  have hsettled : w₀.Settled := ⟨timely_of_start? h₀, fun h => by
    obtain ⟨-, rfl⟩ := eq_of_start? h₀
    cases h⟩
  obtain ⟨-, rfl⟩ := eq_of_start? h₀
  have honTime : OnTime { interval, now, deadline := now + interval } :=
    ⟨fun _ => Nat.le_add_right _ _, nofun⟩
  refine ⟨rfl, rfl, fun hw => ⟨spaced_of_course? rfl hw, fun hprompt =>
    exact_of_course? rfl honTime hprompt hw⟩, fun orders => ?_⟩
  obtain ⟨hs, hfollows⟩ := hsettled.follows_all orders
  exact ⟨hs, hfollows, spaced_of_course? rfl hfollows.course⟩

/-- A job holds the loop up past two ticks: one is served late, the other is never made up for.
Without the job both come when they are due. -/
theorem ticks_spaced_of_long_job :
    let w₀ : Worker := { interval := 10, now := 7, deadline := 17 }
    let job : Job := { label := "a", takes := 25 }
    let late : List Happening :=
      [.move (.submit job), .move (.begin (.run job) 25), .move (.pass 25), .move .finish,
        .move (.begin .tick 0), .move .finish, .move (.pass 10), .move (.begin .tick 0)]
    let prompt : List Happening :=
      [.move (.pass 10), .move (.begin .tick 0), .move .finish, .move (.pass 10),
        .move (.begin .tick 0), .move .finish]
    start? 7 10 = some w₀ ∧
      w₀.servings late = [⟨17, 32⟩, ⟨42, 42⟩] ∧ w₀.Spaced late ∧
      w₀.servings prompt = [⟨17, 17⟩, ⟨27, 27⟩] ∧ (∃ w, w.alive ∧ w₀.Exact prompt w) ∧
      ∃ hs, w₀.Follows hs (w₀.obeyAll [.submit job, .pass 40]) ∧ w₀.Spaced hs := by
  intro w₀ job late prompt
  have hstart : start? 7 10 = some w₀ := by decide
  obtain ⟨-, -, hcourse, horders⟩ := ticks_spaced hstart
  have hlate : (w₀.course? late).isSome = true := by decide
  obtain ⟨v, hv⟩ := Option.isSome_iff_exists.mp hlate
  have hprompt : (w₀.course? prompt).any (·.alive) = true := by decide
  obtain ⟨w, hw, halive⟩ := (Option.any_eq_true _ _).mp hprompt
  have hzero : Prompt prompt := by
    intro c n hmem
    have hbegun : c = .tick ∧ n = 0 := by simpa [prompt] using hmem
    exact hbegun.2
  exact ⟨hstart, by decide, (hcourse hv).1, by decide, ⟨w, halive, (hcourse hw).2 hzero⟩, horders _⟩

end Worker
end Roster
