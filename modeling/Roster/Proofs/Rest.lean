import Roster.Proofs.Loop
import Roster.Proofs.Runs
/-! # A server between its calls

The loop of a monitor has no jobs. Between the calls it either waits for a tick that is still to
come or has ended, so that no time at all brings no probe; and every subscriber has heard all that
was published. -/
namespace Roster

namespace Worker

/-- The loop has no jobs, and waits for a tick that is still to come or has ended. -/
structure Rested (w : Worker) : Prop where
  interval_pos : 0 < w.interval
  queue : w.queue = []
  phase : w.phase = .ended ∨ w.phase = .waiting ∧ w.handle = .held ∧ w.now < w.deadline

theorem rested_of_start? {now interval : Nat} {w : Worker} (h : start? now interval = some w) :
    w.Rested := by
  obtain ⟨hpos, rfl⟩ := eq_of_start? h
  exact ⟨hpos, rfl, .inr ⟨rfl, rfl, Nat.lt_add_of_pos_right hpos⟩⟩

section

variable {w : Worker} {target : Nat}

theorem runWhile_stop (h : w.next target = none) (fuel : Nat) (done : List Callback) :
    runWhile (fun _ => true) target fuel w done = (w, done) := by
  cases fuel with
  | zero => rfl
  | succ fuel => simp [runWhile, h]

theorem runWhile_step {m : Move} {v : Worker} (hn : w.next target = some m)
    (hm : w.move? m = some v) (fuel : Nat) (done : List Callback) :
    runWhile (fun _ => true) target (fuel + 1) w done =
      runWhile (fun _ => true) target fuel v (w.trail m ++ done) := by
  simp [runWhile, hn, hm]

/-- A loop that has ended only lets time pass. -/
theorem runWhile_ended (h : w.phase = .ended) (fuel : Nat) (done : List Callback) :
    ∃ now, runWhile (fun _ => true) target fuel w done = ({ w with now }, done) := by
  cases fuel with
  | zero => exact ⟨w.now, rfl⟩
  | succ fuel =>
    by_cases hlt : w.now < target
    · have hn : w.next target = some (.pass (target - w.now)) := by simp [next, h, hlt]
      have hm : w.move? (.pass (target - w.now)) = some { w with now := target } := by
        simp [move?, due, h, Nat.add_sub_of_le (Nat.le_of_lt hlt)]
      have hstop : next { w with now := target } target = none := by simp [next, h]
      rw [runWhile_step hn hm, runWhile_stop hstop]
      exact ⟨target, rfl⟩
    · exact ⟨w.now, runWhile_stop (by simp [next, h, hlt]) _ _⟩

section

variable (hp : w.phase = .waiting) (hh : w.handle = .held) (hq : w.queue = [])
include hp hh hq

private theorem next_waiting (hd : w.now < w.deadline) (target : Nat) :
    w.next target = if w.now < min w.deadline target
      then some (.pass (min w.deadline target - w.now)) else none := by
  have hr : w.ready = [] := by simp [ready, hh, hq, hd]
  simp only [next, hp, hr]

private theorem pass_waiting {t : Nat} (hd : w.now < w.deadline) (hnow : w.now ≤ t)
    (ht : t ≤ w.deadline) : w.move? (.pass (t - w.now)) = some { w with now := t } := by
  have hr : w.ready = [] := by simp [ready, hh, hq, hd]
  simp [move?, due, hp, hr, Nat.add_sub_of_le hnow, ht]

/-- No tick is due up to the instant: the loop waits until then. -/
theorem runWhile_waiting (hd : w.now < w.deadline) (ht : target < w.deadline) (fuel : Nat)
    (done : List Callback) :
    runWhile (fun _ => true) target (fuel + 1) w done =
      ({ w with now := max w.now target }, done) := by
  have hmin : min w.deadline target = target := by omega
  have hn := next_waiting hp hh hq hd target
  rw [hmin] at hn
  by_cases hlt : w.now < target
  · have hmax : max w.now target = target := by omega
    have hstop : next { w with now := target } target = none := by
      rw [next_waiting (w := { w with now := target }) hp hh hq ht]
      dsimp only
      rw [hmin, if_neg (Nat.lt_irrefl _)]
    rw [if_pos hlt] at hn
    rw [runWhile_step hn (pass_waiting hp hh hq hd (Nat.le_of_lt hlt) (Nat.le_of_lt ht)),
      runWhile_stop hstop, hmax]
    rfl
  · have hmax : max w.now target = w.now := by omega
    rw [if_neg hlt] at hn
    rw [runWhile_stop hn, hmax]

/-- The next tick is due by the instant: it is served, and the one after it awaited. -/
theorem runWhile_tick (hd : w.now < w.deadline) (ht : w.deadline ≤ target) (fuel : Nat)
    (done : List Callback) :
    runWhile (fun _ => true) target (fuel + 3) w done =
      runWhile (fun _ => true) target fuel
        { w with now := w.deadline, deadline := w.deadline + w.interval } (.tick :: done) := by
  -- Three moves: time passes until the tick is due, the callback begins, and it takes no time.
  let due : Worker := { w with now := w.deadline }
  let busy : Worker := { due with
    phase := .calling .tick w.deadline, deadline := w.deadline + w.interval }
  have hpass : w.next target = some (.pass (w.deadline - w.now)) := by
    have hn := next_waiting hp hh hq hd target
    rwa [Nat.min_eq_left ht, if_pos hd] at hn
  have hwaiting : due.phase = .waiting := hp
  have hready : due.ready = [.tick] := by simp [due, ready, hh, hq]
  have hbegin : due.next target = some (.begin .tick 0) := by
    simp only [next, hready, hwaiting]
    rfl
  have hbegun : due.begin .tick 0 = busy := by simp [begin, nextDeadline, due, busy]
  have hbusy : due.move? (.begin .tick 0) = some busy := by
    simp [move?, hready, hwaiting, hbegun]
  have hfinish : busy.next target = some .finish := by simp [busy, next, due, Callback.crashes]
  have hdone : busy.move? .finish =
      some { w with now := w.deadline, deadline := w.deadline + w.interval } := by
    simp [busy, move?, due, hp]
  rw [runWhile_step hpass (pass_waiting hp hh hq hd (Nat.le_of_lt hd) (Nat.le_refl _)),
    runWhile_step hbegin hbusy, runWhile_step hfinish hdone]
  rfl

end

private theorem rested_waiting (hw : w.Rested) (hp : w.phase = .waiting) (hh : w.handle = .held)
    (hd : w.now < w.deadline) (ht : target < w.deadline) {fuel : Nat} (hfuel : 0 < fuel)
    (done : List Callback) : (runWhile (fun _ => true) target fuel w done).1.Rested := by
  obtain ⟨fuel, rfl⟩ := Nat.exists_eq_add_of_lt hfuel
  rw [Nat.zero_add, runWhile_waiting hp hh hw.queue hd ht]
  exact ⟨hw.interval_pos, hw.queue, .inr ⟨hp, hh, Nat.max_lt.mpr ⟨hd, ht⟩⟩⟩

/-- A loop at rest that is left alone, with three moves for every tick to come, is at rest again. -/
theorem rested_runWhile (hw : w.Rested) {n fuel : Nat} (hn : target < w.deadline + n * w.interval)
    (hfuel : 3 * n < fuel) (done : List Callback) :
    (runWhile (fun _ => true) target fuel w done).1.Rested := by
  obtain hended | ⟨hp, hh, hd⟩ := hw.phase
  · obtain ⟨now, h⟩ := runWhile_ended hended fuel done
    rw [h]
    exact ⟨hw.interval_pos, hw.queue, .inl hended⟩
  -- By the number of ticks that are still to come.
  · induction n generalizing w fuel done with
    | zero =>
      rw [Nat.zero_mul] at hn
      exact rested_waiting hw hp hh hd hn hfuel done
    | succ n ih =>
      by_cases ht : target < w.deadline
      · exact rested_waiting hw hp hh hd ht (by omega) done
      · obtain ⟨fuel, rfl⟩ : ∃ k, fuel = k + 3 := ⟨fuel - 3, by omega⟩
        have hnext : w.deadline < w.deadline + w.interval := Nat.lt_add_of_pos_right hw.interval_pos
        have hv : Rested { w with now := w.deadline, deadline := w.deadline + w.interval } :=
          ⟨hw.interval_pos, hw.queue, .inr ⟨hp, hh, hnext⟩⟩
        rw [runWhile_tick hp hh hw.queue hd (Nat.le_of_not_lt ht)]
        rw [Nat.succ_mul, ← Nat.add_assoc, Nat.add_right_comm] at hn
        exact ih hv hn (by omega) _ hp hh hnext

end

theorem rested_advance {w : Worker} (hw : w.Rested) (ms : Nat) : (w.advance ms).1.Rested := by
  have hn : w.now + ms <
      w.deadline + ((w.now + ms - w.deadline) / w.interval + 1) * w.interval := by
    have h := Nat.lt_mul_div_succ (w.now + ms - w.deadline) hw.interval_pos
    rw [Nat.mul_comm] at h
    omega
  have hfuel : 3 * ((w.now + ms - w.deadline) / w.interval + 1) < w.movesUntil (w.now + ms) := by
    simp only [movesUntil]
    omega
  exact rested_runWhile hw hn hfuel []

/-- In no time a loop at rest does nothing. -/
theorem advance_zero {w : Worker} (hw : w.Rested) : w.advance 0 = (w, []) := by
  have hstop : w.next w.now = none := by
    obtain hended | ⟨hp, hh, hd⟩ := hw.phase
    · simp [next, hended]
    · rw [next_waiting hp hh hw.queue hd, if_neg (by omega)]
  simp only [advance, run, Nat.add_zero, runWhile_stop hstop, List.reverse_nil]

theorem rested_stop {w : Worker} (hw : w.Rested) : w.stop.1.Rested := by
  by_cases hh : w.handle = .held
  · obtain hended | ⟨hp, -, hd⟩ := hw.phase
    · have hstop : w.stop.1 = { w with handle := .stopped } := by
        simp [stop, move?, hh, run, runWhile, alive, hended]
      rw [hstop]
      exact ⟨hw.interval_pos, hw.queue, .inl hended⟩
    · have hstop : w.stop.1 = { w with handle := .stopped, phase := .ended } := by
        simp [stop, move?, hh, run, runWhile, alive, hp, next, ready, hw.queue, begin,
          Callback.takes, Callback.crashes]
      rw [hstop]
      exact ⟨hw.interval_pos, hw.queue, .inl rfl⟩
  · have hmove : w.move? .stop = none := if_neg hh
    simp only [stop, hmove]
    exact hw

end Worker

namespace Monitor

theorem advance_zero {m : Monitor} (hm : m.worker.Rested) (probe : Probe) :
    m.advance 0 probe = (m, []) := by
  simp [advance, Worker.advance_zero hm]

theorem stop_eq (m : Monitor) : m.stop = { m with worker := m.worker.stop.1 } := by
  unfold stop halt? windDown Worker.stop
  cases m.worker.move? .stop <;> rfl

theorem worker_checkNow (m : Monitor) (probe : Probe) :
    (m.checkNow probe).1.worker = m.worker := by
  unfold checkNow
  split <;> rfl

end Monitor

@[simp] theorem Channel.drain_drain (c : Channel) : c.drain.1.drain.1 = c.drain.1 := by
  simp [drain, Function.comp_def]

namespace Server

/-- The store answers at once, no probe is due, and nothing is left to deliver. -/
structure Resting (s : Server) : Prop where
  core : s.core = .users
  latency : s.latency = 0
  channel : s.channel.drain.1 = s.channel
  monitor : s.monitor.worker.Rested

theorem Started.resting {s : Server} (hs : s.Started) : s.Resting where
  core := hs.core
  latency := hs.latency
  channel := by
    simp only [Channel.drain, hs.subscribers, List.map_nil]
    rw [← hs.subscribers]
  monitor := by
    obtain ⟨dependency, now, interval, h⟩ := hs.monitor
    obtain ⟨worker, hw, hm⟩ := Option.map_eq_some_iff.mp h
    rw [← hm]
    exact Worker.rested_of_start? hw

theorem Resting.after {s : Server} (hs : s.Resting) (a : Action) : (s.after a).Resting := by
  have hcore : (s.after a).core = .users := by rw [after_core, hs.core]
  have hlatency : (s.after a).latency = 0 := by rw [after_latency, hs.latency]
  cases a with
  | call c => exact ⟨hcore, hlatency, Channel.drain_drain _, Worker.rested_advance hs.monitor _⟩
  | channel action => exact ⟨hcore, hlatency, Channel.drain_drain _, hs.monitor⟩
  | advance ms => exact ⟨hcore, hlatency, hs.channel, Worker.rested_advance hs.monitor _⟩
  | checkNow =>
    refine ⟨hcore, hlatency, hs.channel, ?_⟩
    have hw : (s.after .checkNow).monitor.worker = s.monitor.worker := Monitor.worker_checkNow _ _
    rw [hw]
    exact hs.monitor
  | closeRepository =>
    refine ⟨hcore, hlatency, hs.channel, ?_⟩
    have hw : (s.after .closeRepository).monitor.worker = s.monitor.worker.stop.1 := by
      rw [after_closeRepository, Monitor.stop_eq]
    rw [hw]
    exact Worker.rested_stop hs.monitor
  | setFailing _ | setReachable _ | shutDown => exact ⟨hcore, hlatency, hs.channel, hs.monitor⟩

theorem Reachable.resting {s : Server} (hs : s.Reachable) : s.Resting := by
  obtain ⟨t, run, ht, rfl⟩ := hs
  exact course_induction (fun _ a h => h.after a) ht.resting run

end Server

end Roster
