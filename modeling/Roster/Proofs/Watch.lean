import Roster.Monitor
import Roster.Proofs.Loop
import Roster.Proofs.Transparency
/-! # A store under watch

A monitor watches a store while calls of the repository, whoever else changes the store, the loop
and calls that ask for a probe at once come in any order, also between the pings of one probe. -/
namespace Roster

/-- Asks a store for a sign of life. -/
abbrev Ping (σ : Type) := σ → Probe × σ

/-- What the pings of a probe were answered by the stores that they met. -/
def answers {σ : Type} (pings : List (Ping σ)) (met : List σ) : List Probe :=
  List.zipWith (fun ping s => (ping s).1) pings met

/-- What a probe comes to: the first failure. There is nothing yet while a ping is to be made. -/
def verdict? {σ : Type} (pings : List (Ping σ)) (met : List σ) : Option Probe :=
  match (answers pings met).find? fun a => !a.toBool with
  | some failure => some failure
  | none => if met.length = pings.length then some (.ok ()) else none

/-- Every ping was made, and every one was answered well. -/
structure Succeeds {σ : Type} (pings : List (Ping σ)) (met : List σ) : Prop where
  complete : met.length = pings.length
  well : ∀ a ∈ answers pings met, a.toBool = true

/-- A probe while nothing else happens to the store. -/
def inTurn {σ : Type} : List (Ping σ) → σ → Probe × σ
  | [], s => (.ok (), s)
  | ping :: rest, s =>
    match ping s with
    | (.ok _, s) => inTurn rest s
    | (.error cause, s) => (.error cause, s)

/-- A probe that has come to its end. -/
structure Probing (σ : Type) where
  /-- The job of the call that asked for the probe, if it was no tick. -/
  asker : Option Job
  /-- The stores that the pings met. -/
  met : List σ
  answer : Probe

/-- A store and its monitor, with what has been seen of the two. -/
structure Watch (σ : Type) where
  monitor : Monitor
  store : σ
  /-- The stores that the pings of the probe under way have met. -/
  met : List σ := []
  probes : List (Probing σ) := []
  /-- What those were told that asked for a probe. -/
  told : List (Job × Option Bool) := []

/-- What happens to a store under watch. -/
inductive Deed (σ : Type)
  /-- A call of the repository. -/
  | data (a : Attempt)
  /-- Somebody changes the store, or one of its switches. -/
  | change (f : σ → σ)
  /-- The repository is closed. -/
  | close
  | loop (m : Worker.Move)
  | ping
  /-- Who asks for a probe is turned away, or is no longer waited on. -/
  | deny (job : Job)

/-- It is a call of the repository, or a change of the store by somebody else. -/
def Deed.aside {σ : Type} : Deed σ → Bool
  | data _ | change _ => true
  | _ => false

namespace Watch

variable {σ : Type}

/-- A callback other than the shutdown is a probe, and ends with it. -/
def conclude? (pings : List (Ping σ)) (w : Watch σ) : List Callback → Option (Watch σ)
  | [] | .shutdown :: _ => some w
  | c :: _ =>
    (verdict? pings w.met).map fun answer =>
      { w with
        monitor := (w.monitor.record answer).1
        met := []
        probes := w.probes ++ [⟨c.job?, w.met, answer⟩]
        told := w.told ++ c.job?.toList.map fun job => (job, some answer.toBool) }

/-- The store under watch after a deed, if it can be done. A callback ends when its probe does. -/
def act? (r : Repository σ) (pings : List (Ping σ)) (w : Watch σ) : Deed σ → Option (Watch σ)
  | .data a => some { w with store := (r a w.store).state }
  | .change f => some { w with store := f w.store }
  | .close => some { w with monitor := (r.close w.monitor).getD w.monitor }
  | .loop m =>
    (w.monitor.worker.move? m).bind fun worker =>
      (w.conclude? pings (w.monitor.worker.trail m)).map fun v =>
        { v with monitor := { v.monitor with worker } }
  | .ping =>
    match w.monitor.worker.phase, pings[w.met.length]? with
    | .calling c _, some ping =>
      if c ≠ .shutdown ∧ verdict? pings w.met = none then
        some { w with store := (ping w.store).2, met := w.met ++ [w.store] }
      else none
    | _, _ => none
  | .deny job =>
    if w.monitor.running then none else some { w with told := w.told ++ [(job, none)] }

def course? (r : Repository σ) (pings : List (Ping σ)) (w : Watch σ) :
    List (Deed σ) → Option (Watch σ)
  | [] => some w
  | d :: rest => (w.act? r pings d).bind fun v => v.course? r pings rest

/-- The answer to the last probe; a store that was never probed is taken to be ready. -/
def lastAnswer (w : Watch σ) : Bool := w.probes.getLast?.elim true (·.answer.toBool)

end Watch

section

variable {σ : Type} {r : Repository σ} {pings : List (Ping σ)} {w v : Watch σ} {met : List σ}

theorem succeeds_iff_of_verdict? {answer : Probe} (h : verdict? pings met = some answer) :
    answer.toBool = true ↔ Succeeds pings met := by
  unfold verdict? at h
  split at h
  · rename_i failure hfind
    obtain rfl := Option.some.inj h
    have hfails := List.find?_some hfind
    constructor
    · intro hsucceeds
      simp [hsucceeds] at hfails
    · intro hs
      exact hs.well _ (List.mem_of_find?_eq_some hfind)
  · rename_i hnone
    obtain ⟨hlength, h⟩ := Option.ite_none_right_eq_some.mp h
    obtain rfl := Option.some.inj h
    refine ⟨fun _ => ⟨hlength, fun a ha => ?_⟩, fun _ => rfl⟩
    simpa using List.find?_eq_none.mp hnone a ha

namespace Watch

/-- All that a deed can do. -/
inductive Acts (pings : List (Ping σ)) (w : Watch σ) : Watch σ → Prop
  | aside {store : σ} {met : List σ} : Acts pings w { w with store, met }
  | moved {m : Worker.Move} {worker : Worker} (hm : w.monitor.worker.Moves m worker) :
      Acts pings w { w with monitor := { w.monitor with worker } }
  | probed {worker : Worker} {asker : Option Job} {answer : Probe}
      (hm : w.monitor.worker.Moves .finish worker) (hanswer : verdict? pings w.met = some answer) :
      Acts pings w
        { w with
          monitor := { w.monitor with worker, ready := answer.toBool }
          met := []
          probes := w.probes ++ [⟨asker, w.met, answer⟩]
          told := w.told ++ asker.toList.map fun job => (job, some answer.toBool) }
  | denied {job : Job} (hdown : w.monitor.running = false) :
      Acts pings w { w with told := w.told ++ [(job, none)] }

theorem finish_of_trail {worker : Worker} {m : Worker.Move} (h : worker.trail m ≠ []) :
    m = .finish := by
  cases m with
  | finish => rfl
  | _ => exact absurd rfl h

theorem acts_of_act? (hr : r.Monitored) {d : Deed σ} (h : w.act? r pings d = some v) :
    w.Acts pings v := by
  cases d with
  | data a | change f =>
    obtain rfl := Option.some.inj h
    exact .aside
  | close =>
    obtain rfl := Option.some.inj h
    rw [hr.close]
    cases hstop : w.monitor.worker.move? .stop with
    | none =>
      simp only [Monitor.halt?, hstop, Option.map_none, Option.getD_none]
      exact .aside
    | some worker =>
      simp only [Monitor.halt?, hstop, Option.map_some, Option.getD_some]
      exact .moved (Worker.moves_of_move? hstop)
  | ping =>
    simp only [act?] at h
    split at h
    · obtain ⟨-, h⟩ := Option.ite_none_right_eq_some.mp h
      obtain rfl := Option.some.inj h
      exact .aside
    · cases h
  | deny job =>
    obtain ⟨hdown, h⟩ := Option.ite_none_left_eq_some.mp h
    obtain rfl := Option.some.inj h
    exact .denied (by simpa using hdown)
  | loop m =>
    obtain ⟨worker, hmove, h⟩ := Option.bind_eq_some_iff.mp h
    obtain ⟨u, hu, rfl⟩ := Option.map_eq_some_iff.mp h
    have hm := Worker.moves_of_move? hmove
    unfold conclude? at hu
    split at hu
    · obtain rfl := Option.some.inj hu
      exact .moved hm
    · obtain rfl := Option.some.inj hu
      exact .moved hm
    · rename_i htrail
      have hends : w.monitor.worker.trail m ≠ [] := by simp [htrail]
      obtain rfl := finish_of_trail hends
      obtain ⟨answer, hanswer, rfl⟩ := Option.map_eq_some_iff.mp hu
      exact .probed hm hanswer

theorem course?_append {ds more : List (Deed σ)} :
    w.course? r pings (ds ++ more) = (w.course? r pings ds).bind (·.course? r pings more) := by
  induction ds generalizing w with
  | nil => rfl
  | cons d ds ih => simp only [List.cons_append, course?, Option.bind_assoc, ih]

/-- Whatever every deed keeps holds after every course. -/
theorem course?_induction (hr : r.Monitored) {P : Watch σ → Prop}
    (hstep : ∀ {w v : Watch σ}, P w → w.Acts pings v → P v) (hw : P w) {ds : List (Deed σ)}
    (hv : w.course? r pings ds = some v) : P v := by
  induction ds generalizing w with
  | nil =>
    obtain rfl := Option.some.inj hv
    exact hw
  | cons d ds ih =>
    obtain ⟨u, hu, hv⟩ := Option.bind_eq_some_iff.mp hv
    exact ih (hstep hw (acts_of_act? hr hu)) hv

/-- What those were told that were not turned away. -/
def heard (w : Watch σ) : List (Job × Bool) := w.told.filterMap fun t => t.2.map fun b => (t.1, b)

/-- The probes that somebody asked for. -/
def asked (w : Watch σ) : List (Job × Bool) :=
  w.probes.filterMap fun p => p.asker.map fun job => (job, p.answer.toBool)

/-- Readiness is the answer to the last probe, every probe comes to what its pings came to, and who
asked for a probe was told of this one. -/
structure Governed (pings : List (Ping σ)) (w : Watch σ) : Prop where
  flag : w.monitor.ready = w.lastAnswer
  decided : ∀ p ∈ w.probes, p.answer.toBool = true ↔ Succeeds pings p.met
  heard : w.heard = w.asked

theorem governed_of_start? {dependency : String} {now interval : Nat} {monitor : Monitor}
    (store : σ) (h : Monitor.start? dependency now interval = some monitor) :
    Governed pings { monitor, store } := by
  obtain ⟨worker, -, rfl⟩ := Option.map_eq_some_iff.mp h
  exact ⟨rfl, nofun, rfl⟩

theorem Governed.acts (hw : w.Governed pings) (h : w.Acts pings v) : v.Governed pings := by
  obtain ⟨hflag, hdecided, hheard⟩ := hw
  cases h with
  | aside | moved => exact ⟨hflag, hdecided, hheard⟩
  | probed hm hanswer =>
    refine ⟨?_, ?_, ?_⟩
    · simp [lastAnswer]
    · intro p hp
      rcases List.mem_append.mp hp with hp | hp
      · exact hdecided p hp
      · obtain rfl := List.mem_singleton.mp hp
        exact succeeds_iff_of_verdict? hanswer
    · rename_i asker answer
      unfold Watch.heard asked at hheard ⊢
      dsimp only
      rw [List.filterMap_append, List.filterMap_append, hheard]
      cases asker <;> rfl
  | denied => exact ⟨hflag, hdecided, by simpa [Watch.heard, asked] using hheard⟩

theorem Governed.course? (hr : r.Monitored) (hw : w.Governed pings) {ds : List (Deed σ)}
    (hv : w.course? r pings ds = some v) : v.Governed pings :=
  course?_induction hr (fun hw h => hw.acts h) hw hv

theorem Acts.probed_of_told (h : w.Acts pings v) {job : Job} {b : Bool}
    (htold : v.told = w.told ++ [(job, some b)]) :
    ∃ p, v.probes = w.probes ++ [p] ∧ p.asker = some job ∧ p.answer.toBool = b := by
  have hnone {more : List (Job × Option Bool)} (h : w.told ++ more = w.told ++ [(job, some b)]) :
      more = [(job, some b)] := List.append_cancel_left h
  cases h with
  | aside | moved => exact absurd (List.self_eq_append_right.mp htold) nofun
  | denied => exact absurd (hnone htold) (by simp)
  | probed hm hanswer =>
    rename_i asker answer
    refine ⟨_, rfl, ?_⟩
    have hmore := hnone htold
    cases asker with
    | none => cases hmore
    | some job' => simpa using hmore

/-- Nothing more is probed after the loop is down, and nobody is told of a probe. -/
structure Silent (w v : Watch σ) : Prop where
  down : v.monitor.worker.alive = false
  ready : v.monitor.ready = w.monitor.ready
  probes : v.probes = w.probes
  told : ∃ later, v.told = w.told ++ later ∧ ∀ t ∈ later, t.2 = none

theorem Silent.acts {u : Watch σ} (hv : w.Silent v) (h : v.Acts pings u) : w.Silent u := by
  obtain ⟨hdown, hready, hprobes, later, htold, hlater⟩ := hv
  cases h with
  | aside => exact ⟨hdown, hready, hprobes, later, htold, hlater⟩
  | moved hm =>
    have hphase := (hm.of_down hdown).1
    refine ⟨?_, hready, hprobes, later, htold, hlater⟩
    rw [← hdown, Worker.alive, hphase, Worker.alive]
  | probed hm =>
    cases hm with
    | finish hphase | finishLast hphase => simp [Worker.alive, hphase] at hdown
  | denied =>
    rename_i job _
    refine ⟨hdown, hready, hprobes, later ++ [(job, none)], ?_, ?_⟩
    · simp [htold]
    · simpa [or_imp, forall_and] using hlater

theorem silent_of_down (hr : r.Monitored) (hdown : w.monitor.worker.alive = false)
    {ds : List (Deed σ)} (hv : w.course? r pings ds = some v) : w.Silent v :=
  course?_induction hr (fun hw h => hw.acts h)
    ⟨hdown, rfl, rfl, [], (List.append_nil _).symm, nofun⟩ hv

theorem down_of_close (hr : r.Monitored) (hv : w.act? r pings .close = some v) :
    v.monitor.running = false ∧ v.monitor.ready = w.monitor.ready := by
  obtain rfl := Option.some.inj hv
  rw [hr.close]
  by_cases hheld : w.monitor.worker.handle = .held
  · simp [Monitor.halt?, Worker.move?, hheld, Monitor.running]
  · simp [Monitor.halt?, Worker.move?, hheld, Monitor.running]

/-- Probes decide on readiness, and nothing else does. Who asks for a probe is told what it came to.
A repository that is closed takes no more questions, and once its loop is down there are no more
answers. -/
structure Decides (r : Repository σ) (pings : List (Ping σ)) (w : Watch σ) : Prop where
  governed : w.Governed pings
  ready : r.isReady w.monitor = w.lastAnswer
  aside : ∀ {d v}, d.aside = true → w.act? r pings d = some v →
    v.monitor = w.monitor ∧ v.probes = w.probes ∧ v.told = w.told
  told : ∀ {d v job b}, w.act? r pings d = some v → v.told = w.told ++ [(job, some b)] →
    v.monitor.ready = b ∧ ∃ p, v.probes = w.probes ++ [p] ∧ p.asker = some job ∧ p.answer.toBool = b
  stays : ∀ {ds v}, w.course? r pings ds = some v → v.probes = w.probes →
    v.monitor.ready = w.monitor.ready
  close : ∀ {v}, w.act? r pings .close = some v →
    v.monitor.running = false ∧ v.monitor.ready = w.monitor.ready
  closed : w.monitor.worker.alive = false → ∀ {ds v}, w.course? r pings ds = some v →
    w.Silent v ∧ ∀ probe, (v.monitor.checkNow probe).2.1 = none

theorem Governed.decides (hr : r.Monitored) (hw : w.Governed pings) : w.Decides r pings := by
  refine ⟨hw, (hr.isReady _).trans hw.flag, fun {d v} hd hv => ?_, fun hv htold => ?_,
    fun hv hprobes => ?_, down_of_close hr, fun hdown ds v hv => ?_⟩
  · cases d with
    | data | change =>
      obtain rfl := Option.some.inj hv
      exact ⟨rfl, rfl, rfl⟩
    | close | loop | ping | deny => cases hd
  · have hacts := acts_of_act? hr hv
    obtain ⟨p, hprobes, hasker, hanswer⟩ := hacts.probed_of_told htold
    refine ⟨?_, p, hprobes, hasker, hanswer⟩
    simp [(hw.acts hacts).flag, lastAnswer, hprobes, hanswer]
  · rw [(hw.course? hr hv).flag, hw.flag, lastAnswer, hprobes, lastAnswer]
  · have hsilent := silent_of_down hr hdown hv
    exact ⟨hsilent, fun probe => by simp [Monitor.checkNow, Monitor.running, hsilent.down]⟩

theorem act?_of_observed {o : Repository σ} (h : r.Observed o) (d : Deed σ) :
    w.act? o pings d = w.act? r pings d := by
  cases d with
  | data a =>
    have hstate := congrArg Run.state (h.alike a w.store)
    dsimp only [Run.unobserved] at hstate
    simp only [act?, hstate]
  | close => simp only [act?, h.close]
  | _ => rfl

/-- Observers around a repository leave what happens to its store as it is. -/
theorem course?_of_observed {o : Repository σ} (h : r.Observed o) (ds : List (Deed σ)) :
    w.course? o pings ds = w.course? r pings ds := by
  induction ds generalizing w with
  | nil => rfl
  | cons d ds ih => simp only [course?, act?_of_observed h d, ih]

theorem answers_append {done : List (Ping σ)} (hmet : met.length = done.length)
    (rest : List (Ping σ)) (more : List σ) :
    answers (done ++ rest) (met ++ more) = answers done met ++ answers rest more :=
  List.zipWith_append hmet.symm

theorem find?_of_well {as : List Probe} (h : ∀ a ∈ as, a.toBool = true) :
    as.find? (fun a => !a.toBool) = none := by
  rw [List.find?_eq_none]
  simpa using h

theorem verdict?_eq_none {ping : Ping σ} {done rest : List (Ping σ)}
    (hmet : met.length = done.length) (hwell : ∀ a ∈ answers done met, a.toBool = true) :
    verdict? (done ++ ping :: rest) met = none := by
  have hsame := answers_append hmet (ping :: rest) []
  rw [List.append_nil] at hsame
  have hnone : (answers (done ++ ping :: rest) met).find? (fun a => !a.toBool) = none := by
    rw [hsame]
    exact find?_of_well (by simpa [answers] using hwell)
  simp [verdict?, hnone, hmet]

theorem exists_pings {c : Callback} {t : Nat} (done rest : List (Ping σ))
    (hphase : w.monitor.worker.phase = .calling c t) (hc : c ≠ .shutdown)
    (hmet : w.met.length = done.length) (hwell : ∀ a ∈ answers done w.met, a.toBool = true) :
    ∃ ds met,
      w.course? r (done ++ rest) ds = some { w with store := (inTurn rest w.store).2, met } ∧
      verdict? (done ++ rest) met = some (inTurn rest w.store).1 := by
  -- By the pings that are left; those in `done` were answered well.
  induction rest generalizing w done with
  | nil =>
    refine ⟨[], w.met, rfl, ?_⟩
    simp [verdict?, inTurn, find?_of_well hwell, hmet]
  | cons ping rest ih =>
    rcases hanswer : ping w.store with ⟨answer, after⟩
    let v : Watch σ := { w with store := after, met := w.met ++ [w.store] }
    have hping : w.act? r (done ++ ping :: rest) .ping = some v := by
      simp [act?, hphase, hmet, hc, verdict?_eq_none hmet hwell, hanswer, v]
    have hsame : answers (done ++ [ping]) v.met = answers done w.met ++ [answer] := by
      rw [answers_append hmet]
      simp [answers, hanswer]
    cases answer with
    | ok _ =>
      have hsplit : done ++ ping :: rest = done ++ [ping] ++ rest := by simp
      have hmet' : v.met.length = (done ++ [ping]).length := by simp [v, hmet]
      have hwell' : ∀ a ∈ answers (done ++ [ping]) v.met, a.toBool = true := by
        rw [hsame]
        simpa [or_imp, forall_and, Except.toBool] using hwell
      obtain ⟨ds, met, hcourse, hverdict⟩ := ih (w := v) (done ++ [ping]) hphase hmet' hwell'
      have hturn : inTurn (ping :: rest) w.store = inTurn rest after := by simp [inTurn, hanswer]
      rw [← hsplit] at hcourse hverdict
      rw [hturn]
      exact ⟨.ping :: ds, met, by simpa [course?, hping] using hcourse, hverdict⟩
    | error cause =>
      have hturn : inTurn (ping :: rest) w.store = (.error cause, after) := by
        simp [inTurn, hanswer]
      rw [hturn]
      refine ⟨[.ping], v.met, by simp [course?, hping, v], ?_⟩
      have hall : answers (done ++ ping :: rest) v.met = answers done w.met ++ [.error cause] := by
        rw [answers_append hmet]
        simp [answers, hanswer]
      simp only [verdict?, hall, List.find?_append, find?_of_well hwell]
      rfl

variable (r pings) in
/-- A callback that is due comes to its end with a probe that nothing comes between. -/
theorem exists_probe {c : Callback}
    (hphase : w.monitor.worker.phase = .calling c w.monitor.worker.now) (hc : c ≠ .shutdown)
    (hmet : w.met = []) :
    ∃ ds met, w.course? r pings ds = some
      { monitor := { w.monitor with
          worker := { w.monitor.worker with phase := .waiting }
          ready := (inTurn pings w.store).1.toBool }
        store := (inTurn pings w.store).2
        probes := w.probes ++ [⟨c.job?, met, (inTurn pings w.store).1⟩]
        told := w.told ++
          c.job?.toList.map fun job => (job, some (inTurn pings w.store).1.toBool) } := by
  obtain ⟨ds, met, hcourse, hverdict⟩ := exists_pings (r := r) [] pings hphase hc
    (by simp [hmet]) (by simp [answers])
  refine ⟨ds ++ [.loop .finish], met, ?_⟩
  rw [List.nil_append] at hcourse hverdict
  rw [course?_append, hcourse, Option.bind_some]
  have hmove : w.monitor.worker.move? .finish =
      some { w.monitor.worker with phase := .waiting } := by
    cases c <;> simp_all [Worker.move?]
  have htrail : w.monitor.worker.trail .finish = [c] := by simp [Worker.trail, hphase]
  have hconclude (v : Watch σ) : v.conclude? pings [c] =
      (verdict? pings v.met).map fun answer =>
        { v with
          monitor := (v.monitor.record answer).1
          met := []
          probes := v.probes ++ [⟨c.job?, v.met, answer⟩]
          told := v.told ++ c.job?.toList.map fun job => (job, some answer.toBool) } := by
    cases c with
    | shutdown => exact absurd rfl hc
    | _ => rfl
  simp [course?, act?, hmove, htrail, hconclude, hverdict, Monitor.record]

end Watch

end

end Roster
