import Mathlib.Data.List.Basic
import Roster.Postgres.Repository
import Roster.Proofs.Exchanges
import Roster.Proofs.Observers
import Roster.Proofs.Orders
import Roster.Proofs.Rest
import Roster.Proofs.Watch
/-! # Probes alone move readiness

A server over accounts in memory is a store under watch, and so is a pair of databases with the two
pings of its probe. -/
namespace Roster

namespace Worker

/-- No job waits or is run. -/
structure Idle (w : Worker) : Prop where
  queue : w.queue = []
  calls : ∀ {c t}, w.phase = .calling c t → c.job? = none

theorem Rested.idle {w : Worker} (hw : w.Rested) : w.Idle := by
  refine ⟨hw.queue, fun h => ?_⟩
  obtain hp | ⟨hp, -⟩ := hw.phase <;> rw [hp] at h <;> cases h

theorem Moves.idle {w v : Worker} {m : Move} (h : w.Moves m v) (hm : m.own = true) (hw : w.Idle) :
    v.Idle := by
  cases h with
  | submit | stop | drop => cases hm
  | pass => exact ⟨hw.queue, hw.calls⟩
  | run _ hqueue =>
    rw [hw.queue] at hqueue
    cases hqueue
  | tick | shutdown =>
    refine ⟨hw.queue, fun h => ?_⟩
    obtain ⟨rfl, -⟩ := Phase.calling.inj h
    rfl
  | finish | finishLast => exact ⟨hw.queue, nofun⟩
  | crash => exact ⟨rfl, nofun⟩

theorem Rested.timely {w : Worker} (hw : w.Rested) : w.Timely := by
  refine ⟨by simp [hw.queue], fun {c t} hcalling => ?_⟩
  obtain hended | ⟨hwaiting, -⟩ := hw.phase
  · rw [hended] at hcalling
    cases hcalling
  · rw [hwaiting] at hcalling
    cases hcalling

end Worker

namespace Monitor

theorem advance_eq (m : Monitor) (ms : Nat) (probe : Probe) :
    (m.advance ms probe).1 =
      { m with
        worker := (m.worker.advance ms).1
        ready := if .tick ∈ (m.worker.advance ms).2 then probe.toBool else m.ready } := by
  have hfold {f : Monitor × List Event → Callback → Monitor × List Event}
      (hf : ∀ told c, (f told c).1 =
        if c = .tick then { told.1 with ready := probe.toBool } else told.1)
      (trail : List Callback) (told : Monitor × List Event) :
      (trail.foldl f told).1 =
        { told.1 with ready := if .tick ∈ trail then probe.toBool else told.1.ready } := by
    induction trail generalizing told with
    | nil => rfl
    | cons c trail ih =>
      rw [List.foldl_cons, ih, hf]
      cases c <;> simp
  refine congrArg (fun n : Monitor => { n with worker := (m.worker.advance ms).1 })
    (hfold ?_ _ (m, []))
  intro told c
  cases c <;> rfl

end Monitor

namespace Watch

section

variable {σ : Type} {r : Repository σ} {pings : List (Ping σ)} {w : Watch σ} {v : Worker}

/-- While the loop makes moves with some callbacks, nobody asks for a probe, and the store stays. -/
def Leads (r : Repository σ) (pings : List (Ping σ)) (w : Watch σ) (v : Worker)
    (trail : List Callback) : Prop :=
  ∃ ds u, w.course? r pings ds = some u ∧ u.store = w.store ∧ u.met = [] ∧ u.told = w.told ∧
    u.monitor =
      { w.monitor with
        worker := v
        ready := if .tick ∈ trail then (inTurn pings w.store).1.toBool else w.monitor.ready }

theorem leads_move {m : Worker.Move} (hpings : (inTurn pings w.store).2 = w.store)
    (hmet : w.met = []) (hidle : w.monitor.worker.Idle) (hm : w.monitor.worker.move? m = some v) :
    w.Leads r pings v (w.monitor.worker.trail m) := by
  have hmoves := Worker.moves_of_move? hm
  have hquiet (hconclude : w.conclude? pings (w.monitor.worker.trail m) = some w)
      (htick : .tick ∉ w.monitor.worker.trail m) :
      w.Leads r pings v (w.monitor.worker.trail m) := by
    refine ⟨[.loop m], { w with monitor := { w.monitor with worker := v } }, ?_, rfl, hmet, rfl, ?_⟩
    · simp [course?, act?, hm, hconclude]
    · simp [htick]
  cases hmoves with
  | finish hphase hc =>
    rename_i c
    obtain ⟨ds, met, hcourse⟩ := exists_probe r pings hphase hc hmet
    have hjob := hidle.calls hphase
    refine ⟨ds, _, hcourse, hpings, rfl, by simp [hjob], ?_⟩
    have htrail : w.monitor.worker.trail .finish = [.tick] := by
      cases c with
      | run => cases hjob
      | tick => simp [Worker.trail, hphase]
      | shutdown => exact absurd rfl hc
    simp [htrail]
  | finishLast hphase =>
    have htrail : w.monitor.worker.trail .finish = [.shutdown] := by simp [Worker.trail, hphase]
    exact hquiet (by rw [htrail]; rfl) (by simp [htrail])
  | _ => exact hquiet rfl List.not_mem_nil

theorem leads_moves {ms : List Worker.Move} (hpings : (inTurn pings w.store).2 = w.store)
    (hmet : w.met = []) (hidle : w.monitor.worker.Idle) (hown : ∀ m ∈ ms, m.own = true)
    (hms : w.monitor.worker.moves? ms = some v) :
    w.Leads r pings v (w.monitor.worker.trails ms) := by
  induction ms generalizing w with
  | nil =>
    obtain rfl := Option.some.inj hms
    exact ⟨[], w, rfl, rfl, hmet, rfl, by simp [Worker.trails]⟩
  | cons m ms ih =>
    obtain ⟨hfirst, hrest⟩ := List.forall_mem_cons.mp hown
    obtain ⟨x, hx, hms⟩ := Option.bind_eq_some_iff.mp hms
    obtain ⟨ds, u, hcourse, hstore, hmet', htold, hmonitor⟩ :=
      leads_move (r := r) hpings hmet hidle hx
    have hworker : u.monitor.worker = x := by rw [hmonitor]
    rw [← hworker] at hms
    have hidle' : u.monitor.worker.Idle := by
      rw [hworker]
      exact (Worker.moves_of_move? hx).idle hfirst hidle
    rw [← hstore] at hpings
    obtain ⟨more, y, hmore, hstore', hmet'', htold', hmonitor'⟩ := ih hpings hmet' hidle' hrest hms
    refine ⟨ds ++ more, y, ?_, hstore'.trans hstore, hmet'', htold'.trans htold, ?_⟩
    · rw [course?_append, hcourse, Option.bind_some, hmore]
    · rw [hmonitor', hmonitor, hstore]
      by_cases hlater : .tick ∈ x.trails ms <;> simp [Worker.trails, hx, hlater]

/-- The monitor is left alone for some time. -/
theorem exists_advance {probe : Probe} (hpings : inTurn pings w.store = (probe, w.store))
    (hmet : w.met = []) (hidle : w.monitor.worker.Idle) (ms : Nat) :
    ∃ ds u, w.course? r pings ds = some u ∧ u.monitor = (w.monitor.advance ms probe).1 ∧
      u.store = w.store ∧ u.met = [] ∧ u.told = w.told := by
  obtain ⟨moves, hown, hmoves, hrun⟩ := Worker.follows_run (fun _ => true)
    (w.monitor.worker.now + ms) (w.monitor.worker.movesUntil (w.monitor.worker.now + ms))
    w.monitor.worker
  have htrails : w.monitor.worker.trails moves = (w.monitor.worker.advance ms).2 := by
    rw [← Worker.completed_moves]
    exact hrun.done
  obtain ⟨ds, u, hcourse, hstore, hmet', htold, hmonitor⟩ :=
    leads_moves (r := r) (by rw [hpings]) hmet hidle hown hmoves
  rw [htrails, hpings] at hmonitor
  exact ⟨ds, u, hcourse, hmonitor.trans (Monitor.advance_eq ..).symm, hstore, hmet', htold⟩

variable (r pings) in
/-- A monitor at rest that still runs is asked for a probe. -/
theorem exists_ask (job : Job) (hw : w.monitor.worker.Rested) (hrunning : w.monitor.running = true)
    (hmet : w.met = []) :
    ∃ ds u, w.course? r pings ds = some u ∧
      u.monitor = { w.monitor with ready := (inTurn pings w.store).1.toBool } ∧
      u.store = (inTurn pings w.store).2 ∧ u.met = [] ∧
      u.told = w.told ++ [(job, some (inTurn pings w.store).1.toBool)] := by
  obtain hended | ⟨hphase, hheld, -⟩ := hw.phase
  · simp [Monitor.running, Worker.alive, hended] at hrunning
  let busy : Worker :=
    { w.monitor.worker with phase := .calling (.run job) w.monitor.worker.now }
  have hbegun : w.course? r pings [.loop (.submit job), .loop (.begin (.run job) 0)] =
      some { w with monitor := { w.monitor with worker := busy } } := by
    have hroom : 0 < Worker.queueDepth := by decide
    simp [course?, act?, Worker.move?, Worker.alive, Worker.ready, Worker.begin, Worker.trail,
      conclude?, hheld, hphase, hw.queue, hroom, busy]
  obtain ⟨ds, met, hcourse⟩ := exists_probe r pings
    (w := { w with monitor := { w.monitor with worker := busy } }) rfl (fun h => by cases h) hmet
  refine ⟨_, _, by rw [course?_append, hbegun, Option.bind_some, hcourse], ?_, rfl, rfl, rfl⟩
  simp [busy, ← hphase]

variable (pings) in
/-- A repository is closed whose monitor is at rest, which does nothing if it was closed before. -/
theorem exists_close (hr : r.Monitored) (hw : w.monitor.worker.Rested) :
    ∃ ds, w.course? r pings ds = some { w with monitor := w.monitor.stop } := by
  by_cases hheld : w.monitor.worker.handle = .held
  · obtain hended | ⟨hwaiting, -⟩ := hw.phase
    · refine ⟨[.close], ?_⟩
      simp [course?, act?, hr.close, Monitor.halt?, Monitor.windDown, Monitor.stop, Worker.move?,
        Worker.run, Worker.runWhile, Worker.alive, hheld, hended]
    · refine ⟨[.close, .loop (.begin .shutdown 0), .loop .finish], ?_⟩
      simp [course?, act?, hr.close, Worker.move?, Worker.ready, Worker.begin, Worker.trail, conclude?,
        Monitor.halt?, Monitor.windDown, Monitor.stop, Worker.run, Worker.runWhile, Worker.alive,
        Worker.next, Callback.takes, Callback.crashes, hheld, hwaiting, hw.queue]
  · refine ⟨[.close], ?_⟩
    simp [course?, act?, hr.close, Monitor.halt?, Monitor.stop, Worker.move?, hheld]

end

end Watch

/-- The one ping of a store in memory. -/
def MemoryStore.pings : List (Ping MemoryStore) := [fun s => (s.probe, s)]

theorem MemoryStore.inTurn_pings (s : MemoryStore) : inTurn pings s = (s.probe, s) := by
  cases h : s.probe <;> simp [pings, inTurn, h]

namespace Server

/-- What asking for a probe comes to. -/
def checked? (s : Server) : Action → Option (Option Bool)
  | .checkNow => some s.checkNow.value
  | _ => none

/-- What those are told in a run that ask for a probe. -/
def checks (s : Server) : List Action → List (Option Bool)
  | [] => []
  | a :: rest => (s.checked? a).toList ++ (s.after a).checks rest

theorem after_repository (s : Server) (a : Action) : (s.after a).repository = s.repository := by
  cases a <;> rfl

/-- Every call comes to one attempt at most. -/
theorem exists_attempt (s : Server) (c : ClientCall) :
    ∃ a, (s.call c).server.store = (s.repository a s.store).state := by
  have hkeeps : (s.repository ⟨c.draw, .delete "", false⟩ s.store).state = s.store :=
    congrArg Run.state (s.repository_alike _ s.store)
  have hstate : (s.call c).server.store =
      ((s.entering c).innermost c.draw (s.operation c) s.store).state :=
    (Service.pipeline_alike _ _ (s.entering c).innermost).state ..
  have hcore : (s.entering c).innermost = s.innermost := rfl
  rw [hstate, hcore]
  unfold innermost
  cases s.core with
  | fixed answer => exact ⟨_, hkeeps.symm⟩
  | users =>
    dsimp only [Service.users]
    split
    · exact ⟨_, hkeeps.symm⟩
    · rename_i command _
      split
      exact ⟨_, rfl⟩
      exact ⟨_, hkeeps.symm⟩

theorem rested_after {s : Server} (hs : s.monitor.worker.Rested) (a : Action) :
    (s.after a).monitor.worker.Rested := by
  cases a with
  | call | advance => exact Worker.rested_advance hs _
  | checkNow =>
    have hw : (s.after .checkNow).monitor.worker = s.monitor.worker := Monitor.worker_checkNow _ _
    rw [hw]
    exact hs
  | closeRepository =>
    rw [after_closeRepository, Monitor.stop_eq]
    exact Worker.rested_stop hs
  | channel | setFailing | setReachable | shutDown => exact hs

/-- The watch shows a server, and what was told in some run of it. -/
structure Watched (w : Watch MemoryStore) (s : Server) (told : List (Option Bool)) : Prop where
  monitor : w.monitor = s.monitor
  store : w.store = s.store
  met : w.met = []
  told : w.told.map (·.2) = told

section

variable {w : Watch MemoryStore} {s : Server} {told : List (Option Bool)}

theorem Watched.after_checkNow (hw : Watched w s told) (hs : s.monitor.worker.Rested) :
    ∃ ds v, w.course? s.repository MemoryStore.pings ds = some v ∧
      Watched v (s.after .checkNow) (told ++ [s.checkNow.value]) := by
  obtain ⟨hmonitor, hstore, hmet, htold⟩ := hw
  rw [← hmonitor] at hs
  let job : Job := { label := "check now" }
  cases hrunning : w.monitor.running with
  | true =>
    obtain ⟨ds, u, hcourse, hmonitor', hstore', hmet', htold'⟩ :=
      Watch.exists_ask s.repository MemoryStore.pings job hs hrunning hmet
    rw [MemoryStore.inTurn_pings] at hmonitor' hstore' htold'
    rw [hmonitor] at hrunning
    refine ⟨ds, u, hcourse, ?_, hstore'.trans hstore, hmet', ?_⟩
    · rw [hmonitor', hmonitor, hstore]
      simp [Server.after, Server.checkNow, Monitor.checkNow, hrunning, Monitor.record]
    · rw [htold', hstore]
      simp [Server.checkNow, Monitor.checkNow, hrunning, Monitor.record, htold]
  | false =>
    refine ⟨[.deny job], { w with told := w.told ++ [(job, none)] }, ?_, ?_, hstore, hmet, ?_⟩
    · simp [Watch.course?, Watch.act?, hrunning]
    · simp [Server.after, Server.checkNow, Monitor.checkNow, ← hmonitor, hrunning]
    · simp [Server.checkNow, Monitor.checkNow, ← hmonitor, hrunning, htold]

theorem Watched.after (hw : Watched w s told) (hs : s.monitor.worker.Rested) (a : Action) :
    ∃ ds v, w.course? s.repository MemoryStore.pings ds = some v ∧
      Watched v (s.after a) (told ++ (s.checked? a).toList) := by
  obtain ⟨hmonitor, hstore, hmet, htold⟩ := hw
  have hrested : w.monitor.worker.Rested := hmonitor ▸ hs
  have hpings : inTurn MemoryStore.pings w.store = (s.store.probe, w.store) := by
    rw [MemoryStore.inTurn_pings, hstore]
  have hadvance (ms : Nat) := Watch.exists_advance (r := s.repository) hpings hmet hrested.idle ms
  cases a with
  | call c =>
    let op := s.operation c
    obtain ⟨ds, u, hcourse, hmonitor', hstore', hmet', htold'⟩ :=
      hadvance ((s.entering c).stack c.draw op s.store).elapsed
    obtain ⟨attempt, hattempt⟩ := s.exists_attempt c
    refine ⟨ds ++ [.data attempt], { u with store := (s.call c).server.store }, ?_, ?_⟩
    · rw [Watch.course?_append, hcourse, Option.bind_some, hattempt]
      simp [Watch.course?, Watch.act?, hstore', hstore]
    · refine ⟨?_, rfl, hmet', by simp [checked?, htold', htold]⟩
      rw [hmonitor', hmonitor]
      rfl
  | setFailing failing =>
    refine ⟨[.change fun store => { store with failing }], _, rfl, hmonitor, ?_, hmet, ?_⟩
    · rw [hstore]
      rfl
    · simp [checked?, htold]
  | setReachable reachable =>
    refine ⟨[.change fun store => { store with reachable }], _, rfl, hmonitor, ?_, hmet, ?_⟩
    · rw [hstore]
      rfl
    · simp [checked?, htold]
  | channel action => exact ⟨[], w, rfl, hmonitor, hstore, hmet, by simp [checked?, htold]⟩
  | shutDown => exact ⟨[], w, rfl, hmonitor, hstore, hmet, by simp [checked?, htold]⟩
  | advance ms =>
    obtain ⟨ds, u, hcourse, hmonitor', hstore', hmet', htold'⟩ := hadvance ms
    refine ⟨ds, u, hcourse, ?_, hstore'.trans hstore, hmet', by simp [checked?, htold', htold]⟩
    rw [hmonitor', hmonitor]
    rfl
  | checkNow => exact Watched.after_checkNow ⟨hmonitor, hstore, hmet, htold⟩ hs
  | closeRepository =>
    obtain ⟨ds, hcourse⟩ :=
      Watch.exists_close MemoryStore.pings s.repository_monitored hrested
    rw [after_closeRepository]
    refine ⟨ds, _, hcourse, ?_, hstore, hmet, by simp [checked?, htold]⟩
    rw [hmonitor]

theorem Watched.course (hw : Watched w s told) (hs : s.monitor.worker.Rested)
    (run : List Action) :
    ∃ ds v, w.course? s.repository MemoryStore.pings ds = some v ∧
      Watched v (s.course run) (told ++ s.checks run) := by
  induction run generalizing w s told with
  | nil =>
    refine ⟨[], w, rfl, ?_⟩
    rw [checks, List.append_nil]
    exact hw
  | cons a run ih =>
    obtain ⟨ds, u, hcourse, hu⟩ := hw.after hs a
    obtain ⟨more, v, hmore, hv⟩ := ih hu (rested_after hs a)
    rw [after_repository] at hmore
    refine ⟨ds ++ more, v, ?_, ?_⟩
    · rw [Watch.course?_append, hcourse, Option.bind_some, hmore]
    · rw [List.append_assoc] at hv
      exact hv

end

theorem down_after_close {s : Server} (hs : s.monitor.worker.Rested) :
    (s.after .closeRepository).monitor.worker.alive = false := by
  rw [after_closeRepository, Monitor.stop_eq]
  by_cases hheld : s.monitor.worker.handle = .held
  · exact Worker.ended_of_stop hs.timely hheld
  · obtain hended | ⟨-, h, -⟩ := hs.phase
    · simp [Worker.stop, Worker.move?, hheld, Worker.alive, hended]
    · exact absurd h hheld

/-- A server whose repository was closed is not probed any more. -/
theorem closed_course {s : Server} (hs : s.monitor.worker.Rested)
    (hdown : s.monitor.worker.alive = false) (run : List Action) :
    (s.course run).monitor.worker.alive = false ∧
      (s.course run).monitor.ready = s.monitor.ready ∧ ∀ b ∈ s.checks run, b = none := by
  let w : Watch MemoryStore := { monitor := s.monitor, store := s.store }
  have hw : Watched w s [] := ⟨rfl, rfl, rfl, rfl⟩
  obtain ⟨ds, v, hcourse, hv⟩ := hw.course hs run
  obtain ⟨hdown', hready, -, later, htold, hlater⟩ :=
    Watch.silent_of_down s.repository_monitored hdown hcourse
  rw [← hv.monitor]
  refine ⟨hdown', hready, fun b hb => ?_⟩
  have hchecks : later.map (·.2) = s.checks run := by simpa [htold, w] using hv.told
  rw [← hchecks] at hb
  obtain ⟨t, ht, rfl⟩ := List.mem_map.mp hb
  exact hlater t ht

end Server

namespace Postgres

variable {σ : Type} (peers : Peers σ)

/-- Asks one side of a pair for a sign of life. -/
def ping (context : String) (side : Side) : Ping (Pair σ) := fun p =>
  let (result, p) := (Exchange.within context (execute peers side .ping)).exec p
  (result.map fun _ => (), p)

def pings : List (Ping (Pair σ)) :=
  [ping peers "ping master" .master, ping peers "ping replica" .replica]

theorem exec_probe (p : Pair σ) : (probe peers).exec p = inTurn (pings peers) p := by
  simp only [probe, Exchange.exec_bind, pings, inTurn, ping, Exchange.exec_pure]
  rcases (Exchange.within "ping master" (execute peers .master .ping)).exec p with ⟨_ | _, q⟩
  · rfl
  · rcases hreplica : (Exchange.within "ping replica" (execute peers .replica .ping)).exec q with
      ⟨_ | _, q⟩
    · simp [Except.map, hreplica]
    · simp [Except.map, hreplica]

theorem succeeds_iff {met : List (Pair σ)} :
    Succeeds (pings peers) met ↔ ∃ p q, met = [p, q] ∧
      (ping peers "ping master" .master p).1.toBool = true ∧
      (ping peers "ping replica" .replica q).1.toBool = true := by
  constructor
  · rintro ⟨hcomplete, hwell⟩
    obtain ⟨p, q, rfl⟩ := List.length_eq_two.mp hcomplete
    exact ⟨p, q, rfl, hwell _ (by simp [answers, pings]), hwell _ (by simp [answers, pings])⟩
  · rintro ⟨p, q, rfl, hmaster, hreplica⟩
    refine ⟨rfl, ?_⟩
    simp [answers, pings, hmaster, hreplica]

end Postgres

theorem Postgres.repository_monitored {σ : Type} (peers : Peers σ) :
    (repository peers).Monitored :=
  ⟨fun _ => rfl, fun _ => rfl⟩

/-- A server whose readiness is moved by its probes alone, and reported by its repository. -/
structure Server.FollowsProbes (s : Server) : Prop where
  watched : ∀ run, ∃ ds w,
    Watch.course? s.repository MemoryStore.pings { monitor := s.monitor, store := s.store } ds =
        some w ∧
      Watched w (s.course run) (s.checks run) ∧
      (s.course run).repository.isReady (s.course run).monitor = w.lastAnswer
  closed : ∀ {run}, .closeRepository ∈ run → (s.course run).monitor.worker.alive = false ∧
    ∀ more, ((s.course run).course more).monitor.ready = (s.course run).monitor.ready ∧
      ∀ b ∈ (s.course run).checks more, b = none
  observed : ∀ {t : Server}, s.bare = t.bare → ∀ run,
    (s.course run).monitor = (t.course run).monitor ∧
      (s.course run).repository.isReady (s.course run).monitor =
        (t.course run).repository.isReady (t.course run).monitor

theorem Server.followsProbes {s : Server} {dependency : String} {now interval : Nat}
    (hs : Monitor.start? dependency now interval = some s.monitor) : s.FollowsProbes := by
  have hstarted : s.monitor.worker.Rested := by
    obtain ⟨worker, hworker, hmonitor⟩ := Option.map_eq_some_iff.mp hs
    rw [← hmonitor]
    exact Worker.rested_of_start? hworker
  have hrested {s : Server} (hs : s.monitor.worker.Rested) (run : List Action) :
      (s.course run).monitor.worker.Rested :=
    course_induction (P := fun t => t.monitor.worker.Rested) (fun _ a h => rested_after h a) hs run
  refine ⟨fun run => ?_, fun {run} hclose => ?_, fun {t} h run => ?_⟩
  · have hw : Watched { monitor := s.monitor, store := s.store } s [] := ⟨rfl, rfl, rfl, rfl⟩
    obtain ⟨ds, w, hcourse, hwatched⟩ := hw.course hstarted run
    have hgoverned := (Watch.governed_of_start? s.store hs).course? s.repository_monitored hcourse
    refine ⟨ds, w, hcourse, hwatched, ?_⟩
    rw [(s.course run).repository_monitored.isReady, ← hwatched.monitor, hgoverned.flag]
  · obtain ⟨pre, post, rfl⟩ := List.append_of_mem hclose
    have hpre := hrested hstarted pre
    have hclosed := rested_after hpre .closeRepository
    have hdown := (closed_course hclosed (down_after_close hpre) post).1
    rw [course_append]
    exact ⟨hdown, fun more => (closed_course (hrested hclosed post) hdown more).2⟩
  · have hbare := congrArg Server.monitor (course_eq_of_bare_eq h run).2
    have hmonitor : (s.course run).monitor = (t.course run).monitor := hbare
    refine ⟨hmonitor, ?_⟩
    rw [(s.course run).repository_monitored.isReady, (t.course run).repository_monitored.isReady,
      hmonitor]

/-- Readiness follows the probes of a monitor, whatever happens between these, and a repository over
the monitor reports it. Observers around a repository report what it reports, and change nothing. A
server over accounts in memory behaves like this, and a pair of databases is probed by two pings. -/
theorem readiness_follows_probes {dependency : String} {now interval : Nat} {monitor : Monitor}
    (h₀ : Monitor.start? dependency now interval = some monitor) :
    (∀ {σ : Type} {r : Repository σ}, r.Monitored → ∀ (pings : List (Ping σ)) (store : σ) {ds w},
      Watch.course? r pings { monitor, store } ds = some w →
        w.Decides r pings ∧
          ∀ {o}, r.Observed o → o.isReady w.monitor = r.isReady w.monitor ∧ w.Decides o pings ∧
            Watch.course? o pings { monitor, store } ds = some w) ∧
    (∀ {σ : Type} {r o : Repository σ}, r.Observed o → ∀ m,
      o.isReady m = r.isReady m ∧ o.close m = r.close m) ∧
    MemoryStore.repository.Monitored ∧
    (∀ {s : Server}, s.monitor = monitor →
      MemoryStore.repository.Observed s.repository ∧ s.FollowsProbes) ∧
    ∀ {σ : Type} (peers : Postgres.Peers σ),
      (Postgres.repository peers).Monitored ∧
      (∀ p, (Postgres.probe peers).exec p = inTurn (Postgres.pings peers) p) ∧
      ∀ {met}, Succeeds (Postgres.pings peers) met ↔ ∃ p q, met = [p, q] ∧
        (Postgres.ping peers "ping master" .master p).1.toBool = true ∧
        (Postgres.ping peers "ping replica" .replica q).1.toBool = true := by
  refine ⟨fun {_ r} hr pings store {ds w} hw => ?_, fun h m => ⟨h.isReady m, h.close m⟩,
    MemoryStore.repository_monitored, fun {s} hs => ⟨s.repository_observed, ?_⟩,
    fun {_} peers => ⟨Postgres.repository_monitored peers, Postgres.exec_probe peers,
      Postgres.succeeds_iff peers⟩⟩
  · have hgoverned := (Watch.governed_of_start? store h₀).course? hr hw
    refine ⟨hgoverned.decides hr, fun {o} ho => ⟨ho.isReady _, ?_, ?_⟩⟩
    · exact hgoverned.decides (ho.monitored hr)
    · rw [Watch.course?_of_observed ho, hw]
  · rw [← hs] at h₀
    exact Server.followsProbes h₀

/-- A store that is lost is found out by the next tick, and not before. A traced repository that is
closed then is as little ready as the one inside. -/
theorem readiness_follows_probes_of_lost_store :
    let monitor : Monitor :=
      { dependency := "memory", worker := { interval := 10, now := 0, deadline := 10 } }
    let course? := Watch.course? MemoryStore.repository MemoryStore.pings { monitor, store := {} }
    let lost : List (Deed MemoryStore) :=
      [.change fun s => { s with reachable := false }, .data ⟨⟨"", .epoch⟩, .delete "a", true⟩,
        .loop (.pass 10)]
    Monitor.start? "memory" 0 10 = some monitor ∧
      (course? lost).map (·.monitor.ready) = some true ∧
      (∃ w, course? (lost ++ [.loop (.begin .tick 0), .ping, .loop .finish, .close]) = some w ∧
        MemoryStore.repository.traced.isReady w.monitor = false ∧ w.monitor.running = false ∧
        w.Decides MemoryStore.repository.traced MemoryStore.pings) ∧
      Server.FollowsProbes { monitor, tracedRepository := true } := by
  intro monitor course? lost
  have hstart : Monitor.start? "memory" 0 10 = some monitor := by decide
  obtain ⟨hwatch, -, hmonitored, hserver, -⟩ := readiness_follows_probes hstart
  have hticked : (course? (lost ++ [.loop (.begin .tick 0), .ping, .loop .finish, .close])).map
      (fun w => (MemoryStore.repository.traced.isReady w.monitor, w.monitor.running)) =
        some (false, false) := rfl
  obtain ⟨w, hw, hready⟩ := Option.map_eq_some_iff.mp hticked
  obtain ⟨hready, hrunning⟩ := Prod.mk.inj hready
  obtain ⟨-, hobserved⟩ := hwatch hmonitored _ _ hw
  exact ⟨hstart, rfl, ⟨w, hw, hready, hrunning, (hobserved (.traced .bare)).2.1⟩, (hserver rfl).2⟩

end Roster
