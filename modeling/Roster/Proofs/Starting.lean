import Roster.Program
import Roster.Proofs.Exchanges
import Roster.Proofs.Loop
import Roster.Proofs.Passing
/-! # Whether the watch over the store can start

Every interval between probes that the command line takes is at least a second, and there is no
upper limit but that of the option's own number. The clock counts seconds in fewer bits, so the
longest intervals end the run where the first probe is planned. -/
namespace Roster

namespace CommandLine
open Json (ok_of_bind ok_of_map)

/-- A value that an option of a type can have. -/
def ValueType.Holds : ValueType → Value → Prop
  | .text, .text _ | .texts, .texts _ | .store, .store _ => True
  | .toggle, .flag _ | .switch, .flag _ => True
  | .number least greatest _, .number n => least ≤ n ∧ n ≤ greatest
  | _, _ => False

/-- All options have values of their types. -/
def Fitting (values : Values) : Prop := ∀ e ∈ values, e.1.valueType.Holds e.2

theorem holds_of_parseValue {t : ValueType} {raw : String} {v : Value}
    (h : parseValue t raw = .ok v) : t.Holds v := by
  cases t with
  | text | texts =>
    obtain rfl := Except.ok.inj h
    trivial
  | number least greatest signed =>
    simp only [parseValue] at h
    split at h
    · split at h
      · obtain rfl := Except.ok.inj h
        simp only [ValueType.Holds]
        omega
      · cases h
    · cases h
  | store =>
    simp only [parseValue] at h
    split at h
    · obtain rfl := Except.ok.inj h
      trivial
    · split at h
      · obtain rfl := Except.ok.inj h
        trivial
      · cases h
  | toggle | switch =>
    simp only [parseValue] at h
    split at h
    · obtain rfl := Except.ok.inj h
      trivial
    · cases h

theorem eq_texts_of_holds {t : ValueType} {l : List String} (h : t.Holds (.texts l)) :
    t = .texts := by
  cases t <;> first | rfl | cases h

section

variable {values values' : Values} {s : Setting} {v : Value} {pending pending' : Pending}

theorem Fitting.assign (hvalues : Fitting values) (hv : s.valueType.Holds v)
    (h : assign values s v = .ok values') : Fitting values' := by
  unfold CommandLine.assign at h
  split at h
  · obtain rfl := Except.ok.inj h
    intro e he
    rcases List.mem_append.mp he with he | he
    · exact hvalues e he
    · obtain rfl := List.mem_singleton.mp he
      exact hv
  · obtain rfl := Except.ok.inj h
    intro e he
    obtain ⟨d, hd, rfl⟩ := List.mem_map.mp he
    split
    · rw [eq_texts_of_holds hv]
      trivial
    · exact hvalues d hd
  · cases h

theorem Fitting.accept {raw : String} (hvalues : Fitting values)
    (h : accept values s raw = .ok values') : Fitting values' := by
  unfold CommandLine.accept at h
  split at h
  · cases h
  · obtain ⟨v, hv, h⟩ := ok_of_bind h
    exact hvalues.assign (holds_of_parseValue hv) h

theorem Fitting.settle (hvalues : Fitting values) (h : settle values pending = .ok values') :
    Fitting values' := by
  cases pending with
  | nothing => exact Except.ok.inj h ▸ hvalues
  | waiting => cases h
  | given => exact hvalues.accept h

theorem Fitting.stepLong {cs : List Char} (hvalues : Fitting values)
    (h : stepLong values pending cs = .ok (values', pending')) : Fitting values' := by
  -- Whoever asks for information is refused, so that these two cases give no values.
  have hasks {x : Except Refusal Values} {refusal : Refusal}
      (h : (x.bind fun _ => .error refusal) = .ok (values', pending')) : Fitting values' := by
    obtain ⟨_, -, h⟩ := ok_of_bind h
    cases h
  unfold CommandLine.stepLong at h
  split at h
  · split at h
    · cases h
    · exact hasks h
  · split at h
    · cases h
    · exact hasks h
  · split at h
    · cases h
    · rename_i s _
      split at h
      · rename_i hswitch
        split at h
        · cases h
        · obtain ⟨settled, hsettled, h⟩ := ok_of_bind h
          obtain ⟨assigned, hassigned, heq⟩ := ok_of_map h
          obtain ⟨rfl, -⟩ := Prod.mk.inj heq
          refine (hvalues.settle hsettled).assign ?_ hassigned
          rw [hswitch]
          trivial
      · obtain ⟨settled, hsettled, h⟩ := ok_of_bind h
        have hfitting := hvalues.settle hsettled
        split at h
        · obtain ⟨rfl, -⟩ := Prod.mk.inj (Except.ok.inj h)
          exact hfitting
        · obtain ⟨accepted, haccepted, heq⟩ := ok_of_map h
          obtain ⟨rfl, -⟩ := Prod.mk.inj heq
          exact hfitting.accept haccepted

theorem Fitting.step {arg : String} (hvalues : Fitting values)
    (h : step values pending arg = .ok (values', pending')) : Fitting values' := by
  have hasks {refusal : Refusal}
      (h : ((CommandLine.settle values pending).bind fun _ => .error refusal) =
        .ok (values', pending')) : Fitting values' := by
    obtain ⟨_, -, h⟩ := ok_of_bind h
    cases h
  unfold CommandLine.step at h
  split at h
  · exact hvalues.stepLong h
  · exact hasks h
  · exact hasks h
  · cases h
  · split at h
    · obtain ⟨rfl, -⟩ := Prod.mk.inj (Except.ok.inj h)
      exact hvalues
    · cases h

theorem Fitting.steps {args : List String} (hvalues : Fitting values)
    (h : steps values pending args = .ok values') : Fitting values' := by
  induction args generalizing values pending with
  | nil => exact hvalues.settle h
  | cons arg args ih =>
    rw [CommandLine.steps] at h
    split at h
    · split at h
      · exact hvalues.settle h
      · cases h
    · split at h
      · cases h
      · rename_i hstep
        exact ih (hvalues.step hstep) h

theorem Fitting.fromVariables {env : String → Option String} (hvalues : Fitting values)
    (h : fromVariables env values = .ok values') : Fitting values' := by
  unfold CommandLine.fromVariables at h
  generalize Setting.all = settings at h
  induction settings generalizing values with
  | nil => exact Except.ok.inj h ▸ hvalues
  | cons s rest ih =>
    rw [List.foldlM_cons] at h
    obtain ⟨next, hnext, h⟩ := ok_of_bind h
    refine ih ?_ h
    split at hnext
    · exact Except.ok.inj hnext ▸ hvalues
    · split at hnext
      · exact Except.ok.inj hnext ▸ hvalues
      · exact hvalues.accept hnext

theorem Fitting.lookup (hvalues : Fitting values) (h : values.lookup s = some v) :
    s.valueType.Holds v := by
  obtain ⟨before, after, rfl, -⟩ := List.lookup_eq_some_iff.mp h
  exact hvalues (s, v) (by simp)

end

theorem ofFlag?_flag (s : Setting) : Setting.ofFlag? s.flag = some s := by
  have hall : ∀ s ∈ Setting.all, Setting.ofFlag? s.flag = some s := by decide +kernel
  exact hall s (Setting.mem_all s)

/-- No flag is one of the two requests for information, and none contains an equals sign. -/
theorem flag_plain (s : Setting) :
    s.flag ≠ "help" ∧ s.flag ≠ "version" ∧ '=' ∉ s.flag.toList := by
  have hall : ∀ s ∈ Setting.all,
      s.flag ≠ "help" ∧ s.flag ≠ "version" ∧ '=' ∉ s.flag.toList := by decide +kernel
  exact hall s (Setting.mem_all s)

/-- An option with its value behind an equals sign. -/
def given (s : Setting) (raw : String) : String := "--" ++ s.flag ++ "=" ++ raw

theorem splitFlag_given (s : Setting) (raw : String) :
    splitFlag (s.flag.toList ++ '=' :: raw.toList) = (s.flag, some raw) := by
  have htake : (s.flag.toList ++ '=' :: raw.toList).takeWhile (· != '=') = s.flag.toList := by
    rw [List.takeWhile_append_of_pos]
    · simp
    · intro c hc
      have hne : c ≠ '=' := fun heq => (flag_plain s).2.2 (heq ▸ hc)
      simpa using hne
  simp [splitFlag, htake]

theorem step_given (values : Values) {s : Setting} (hs : s.valueType ≠ .switch) (raw : String) :
    step values .nothing (given s raw) =
      (accept values s raw).map fun values => (values, .nothing) := by
  have hlist : (given s raw).toList = '-' :: '-' :: (s.flag.toList ++ '=' :: raw.toList) := by
    simp [given]
  -- The cases of the two requests for information are closed with these.
  obtain ⟨hhelp, hversion, -⟩ := flag_plain s
  simp [step, hlist, stepLong, splitFlag_given, ofFlag?_flag, hs, settle, Except.bind]

/-- The variables of the environment matter to the options without a value only. -/
theorem fromVariables_none (values : Values) :
    fromVariables (fun _ => none) values = .ok values := by
  unfold fromVariables
  generalize Setting.all = settings
  induction settings with
  | nil => rfl
  | cons s rest ih =>
    rw [List.foldlM_cons]
    simpa [Bind.bind, Except.bind] using ih

/-- The last option gives its value to what was settled before. -/
theorem parse_given {s : Setting} (hs : s.valueType ≠ .switch) {raw : String} {v : Value}
    (hv : parseValue s.valueType raw = .ok v) :
    parse (fun _ => none) [given s raw] = .ok (settingsOf [(s, v)]) := by
  have hne : given s raw ≠ "--" := by
    intro h
    have hlength := congrArg (fun t : String => t.toList.length) h
    simp [given] at hlength
  simp [parse, steps, hne, step_given [] hs, accept, hv, assign, settle, fromVariables_none,
    Except.bind, Except.map]

theorem probeInterval_of_parse {env : String → Option String} {args : List String} {s : Settings}
    (h : parse env args = .ok s) : 0 < s.probeIntervalSecs.toNat := by
  obtain ⟨values, hvalues, rfl⟩ := ok_of_map h
  obtain ⟨used, hused, hvalues⟩ := ok_of_bind hvalues
  have hfitting : Fitting values :=
    (Fitting.steps (fun e he => absurd he List.not_mem_nil) hused).fromVariables hvalues
  simp only [settingsOf, numberOr]
  split
  · rename_i n hn
    obtain ⟨hleast, hgreatest⟩ : 1 ≤ n ∧ n ≤ 18446744073709551615 := hfitting.lookup hn
    rw [UInt64.toNat_ofNat_of_lt' (by simpa [UInt64.size] using Nat.lt_succ_of_le hgreatest)]
    exact hleast
  · decide

theorem probeInterval_given {n : Nat} (hpos : 0 < n) (hn : n < 2 ^ 64) :
    ∃ s, parse (fun _ => none) [given .probeInterval (toString n)] = .ok s ∧
      s.probeIntervalSecs.toNat = n := by
  refine ⟨_, parse_given (v := .number n) (by decide) ?_, ?_⟩
  · have hrange : (1 : Int) ≤ n ∧ (n : Int) ≤ 18446744073709551615 := by omega
    simp only [parseValue, Setting.valueType, Text.parseNatural?_toString, Option.map_some]
    exact if_pos hrange
  · exact UInt64.toNat_ofNat_of_lt' hn

end CommandLine

theorem Worker.isSome_start? {now interval : Nat} :
    (Worker.start? now interval).isSome ↔ 0 < interval ∧ now + interval < Worker.endOfTime := by
  rw [Worker.start?]
  split <;> simp <;> omega

namespace Program
open Postgres

section

variable {σ α β : Type}

theorem run_bind (x : Part σ α) (f : α → Part σ β) (c : Course σ) :
    (x >>= f).run c =
      match x.run c with
      | (.ok a, d) => (f a).run d
      | (.error ending, d) => (.error ending, d) := by
  change ((x >>= f).run.run c : Id _) = _
  rw [ExceptT.run_bind, StateT.run_bind]
  have h : StateT.run x.run c = x.run c := rfl
  rw [h]
  rcases x.run c with ⟨_ | _, d⟩ <;> rfl

/-- The part ends the run because the clock does not reach the first probe. -/
def Aborts (x : Part σ α) (c : Course σ) : Prop := (x.run c).1 = .error .aborted

/-- A part that lets the clock be. -/
def Steady (x : Part σ α) : Prop := ∀ c, ¬ Aborts x c

theorem aborts_bind {x : Part σ α} {f : α → Part σ β} {c : Course σ} :
    Aborts (x >>= f) c ↔
      Aborts x c ∨ ∃ a, (x.run c).1 = .ok a ∧ Aborts (f a) (x.run c).2 := by
  simp only [Aborts, run_bind]
  rcases x.run c with ⟨ending | a, d⟩ <;> simp

theorem Steady.bind {x : Part σ α} {f : α → Part σ β} (hx : Steady x) (hf : ∀ a, Steady (f a)) :
    Steady (x >>= f) := by
  intro c h
  rcases aborts_bind.mp h with h | ⟨a, -, h⟩
  · exact hx c h
  · exact hf a _ h

theorem Steady.aborts_bind {x : Part σ α} {f : α → Part σ β} (hf : ∀ a, Steady (f a))
    {c : Course σ} : Aborts (x >>= f) c ↔ Aborts x c := by
  rw [Program.aborts_bind, or_iff_left_iff_imp]
  rintro ⟨a, -, h⟩
  exact absurd h (hf a _)

theorem steady_pure (a : α) : Steady (pure a : Part σ α) := fun _ h => nomatch h

theorem steady_failed (cause : Chain) : Steady (throw (.failed cause) : Part σ α) :=
  fun _ h => nomatch h

theorem steady_get : Steady (get : Part σ (Course σ)) := fun _ h => nomatch h

theorem steady_set (c : Course σ) : Steady (set c : Part σ PUnit) := fun _ h => nomatch h

theorem steady_log (e : Event) : Steady (log e : Part σ Unit) := fun _ h => nomatch h

theorem steady_say (message : String) (fields : List Field) :
    Steady (say message fields : Part σ Unit) := steady_log _

theorem aborts_say_bind {message : String} {fields : List Field} {f : Unit → Part σ α}
    {c : Course σ} : Aborts (say message fields >>= f) c ↔
      Aborts (f ()) { c with events := c.events ++ [{ level := .info, message, fields }] } := by
  simp only [Aborts, run_bind]
  rfl

theorem run_exchange (x : Exchange σ α) (c : Course σ) :
    (exchange x).run c =
      ((x.exec c.pair).1.mapError .failed, { c with pair := (x.exec c.pair).2 }) := by
  have hget : (get : Part σ (Course σ)).run c = (.ok c, c) := rfl
  have hset (d : Course σ) : (set d : Part σ PUnit).run c = (.ok ⟨⟩, d) := rfl
  simp only [exchange, run_bind, hget, hset]
  rcases (x.exec c.pair).1 with _ | _ <;> rfl

/-- An exchange that fails ends the run in its own way. -/
theorem aborts_exchange_bind {x : Exchange σ α} {f : α → Part σ β} {c : Course σ} :
    Aborts (exchange x >>= f) c ↔
      ∃ a, (x.exec c.pair).1 = .ok a ∧ Aborts (f a) { c with pair := (x.exec c.pair).2 } := by
  rw [aborts_bind, Aborts, run_exchange]
  rcases (x.exec c.pair).1 with _ | _ <;> simp [Except.mapError]

theorem run_openListener (around : Surroundings σ) (host : String) (port : UInt16)
    (failure : String → Chain) (c : Course σ) :
    (openListener around host port failure).run c =
      match around.bind c.listening host port with
      | .error reason => (.error (.failed (failure reason)), c)
      | .ok got => (.ok got, { c with listening := c.listening ++ [(host, got)] }) := by
  have hget : (get : Part σ (Course σ)).run c = (.ok c, c) := rfl
  simp only [openListener, run_bind, hget]
  rcases around.bind c.listening host port with _ | _ <;> rfl

theorem steady_openListener (around : Surroundings σ) (host : String) (port : UInt16)
    (failure : String → Chain) : Steady (openListener around host port failure) := by
  intro c h
  rw [Aborts, run_openListener] at h
  split at h <;> cases h

/-- There is no exporter, or one that listens; the databases do not learn of it. -/
theorem aborts_exportMetrics_bind {s : Settings} {around : Surroundings σ} {f : Unit → Part σ α}
    {c : Course σ} {P : Prop} (hf : ∀ d : Course σ, d.pair = c.pair → (Aborts (f ()) d ↔ P)) :
    Aborts (exportMetrics s around >>= f) c ↔
      (s.service.metrics = true →
        ∃ port, around.bind c.listening "0.0.0.0" s.metricsPort = .ok port) ∧ P := by
  unfold exportMetrics
  cases s.service.metrics with
  | false => simpa using hf c rfl
  | true =>
    simp only [if_true, bind_assoc, forall_true_left]
    rw [aborts_bind, or_iff_right (steady_openListener _ _ _ _ c), run_openListener]
    rcases around.bind c.listening "0.0.0.0" s.metricsPort with reason | port
    · simp
    · simp [aborts_say_bind, hf]

theorem steady_listenForChanges (s : Settings) (around : Surroundings σ) :
    Steady (listenForChanges s around) := by
  unfold listenForChanges
  split
  · refine steady_get.bind fun c => (steady_set _).bind fun _ => ?_
    split
    · exact steady_failed _
    · exact steady_pure _
  · exact steady_pure _

theorem steady_stop : Steady (stop : Part σ Unit) :=
  (steady_say _ _).bind fun _ => (steady_log _).bind fun _ => steady_say _ _

/-- The store can be had: accounts in memory always, databases if they can be connected and have
their tables made. -/
def Opens (s : Settings) (around : Surroundings σ) (pair : Pair σ) : Prop :=
  s.store = .postgres →
    ((connect around.peers >>= fun _ => migrate around.peers).exec pair).1 = .ok ()

theorem aborts_openStore {s : Settings} {around : Surroundings σ} {c : Course σ} :
    Aborts (openStore s around) c ↔ Opens s around c.pair ∧
      (Monitor.start? s.store.name around.uptime (s.probeIntervalSecs.toNat * 1000)).isNone := by
  have hend (b : Bool) (d : Course σ) :
      Aborts (if b = true then throw .aborted else pure () : Part σ PUnit) d ↔ b = true := by
    cases b
    · exact iff_of_false (steady_pure _ d) Bool.false_ne_true
    · exact iff_of_true rfl rfl
  unfold openStore Opens
  generalize (Monitor.start? s.store.name around.uptime _).isNone = unreached
  cases s.store with
  | memory => simp only [aborts_say_bind, hend, reduceCtorEq, false_implies, true_and]
  | postgres =>
    simp only [aborts_exchange_bind, aborts_say_bind, hend, Exchange.exec_bind]
    rcases (connect around.peers).exec c.pair with ⟨_ | _, pair⟩ <;> simp [Unique.exists_iff]

/-- The program knows what to log, exports metrics if this is wanted, and has its store. -/
structure Ready (s : Settings) (around : Surroundings σ) : Prop where
  filter : ∃ filter, LogFilter.choose (around.environment "RUST_LOG") s.logLevel = .ok filter
  exporter : s.service.metrics = true →
    ∃ port, around.bind [] "0.0.0.0" s.metricsPort = .ok port
  store : Opens s around (pairOf s around.databases)

theorem aborts_start {s : Settings} {around : Surroundings σ} :
    Aborts (start s around) { pair := pairOf s around.databases } ↔ Ready s around ∧
      (Monitor.start? s.store.name around.uptime (s.probeIntervalSecs.toNat * 1000)).isNone := by
  have hserving : Steady (do
      let port ← openListener around s.http.host s.http.port
        (Http.bindingFailed s.http.host s.http.port)
      log (Http.boundEvent s.http.host (toString port))
      say "roster-server ready" [("port", toString port)]
      log Http.servingEvent : Part σ Unit) :=
    (steady_openListener _ _ _ _).bind fun _ =>
      (steady_log _).bind fun _ => (steady_say _ _).bind fun _ => steady_log _
  have hopen {c : Course σ} (hc : c.pair = pairOf s around.databases) := by
    have hbehind := Steady.aborts_bind (x := openStore s around) (c := c) fun _ =>
      (steady_listenForChanges s around).bind fun _ => hserving
    rw [aborts_openStore, hc] at hbehind
    exact hbehind
  unfold start
  rcases hfilter : LogFilter.choose (around.environment "RUST_LOG") s.logLevel with refused | filter
  · refine iff_of_false (fun h => by cases h) ?_
    rintro ⟨⟨⟨_, hok⟩, -, -⟩, -⟩
    rw [hfilter] at hok
    cases hok
  · have hready : Ready s around ↔
        (s.service.metrics = true → ∃ port, around.bind [] "0.0.0.0" s.metricsPort = .ok port) ∧
          Opens s around (pairOf s around.databases) :=
      ⟨fun h => ⟨h.exporter, h.store⟩, fun h => ⟨⟨filter, hfilter⟩, h.1, h.2⟩⟩
    rw [hready, and_assoc]
    exact aborts_say_bind.trans (aborts_exportMetrics_bind fun _ => hopen)

/-- Nothing but the first probe makes a run end like that. -/
theorem aborted_iff {args : List String} {around : Surroundings σ} {s : Settings}
    (hs : CommandLine.parse around.environment args = .ok s) :
    (idle args around).ending = .aborted ↔ Ready s around ∧
      (Monitor.start? s.store.name around.uptime (s.probeIntervalSecs.toNat * 1000)).isNone := by
  rw [← aborts_start, ← Steady.aborts_bind fun _ => steady_stop]
  simp only [idle, hs, Life.of, Aborts]
  generalize ExceptT.run (do start s around; stop) _ = outcome
  rcases outcome with ⟨_ | _, c⟩ <;> simp

end

theorem isSome_monitor {dependency : String} {uptime secs : Nat} (hpos : 0 < secs) :
    (Monitor.start? dependency uptime (secs * 1000)).isSome ↔
      uptime + secs * 1000 < Worker.endOfTime := by
  rw [Monitor.start?, Option.isSome_map, Worker.isSome_start?]
  omega

/-- The intervals that the command line takes are those from one second to the greatest number of
64 bits. -/
theorem probeInterval_taken_iff (n : Nat) :
    (∃ env args s, CommandLine.parse env args = .ok s ∧ s.probeIntervalSecs.toNat = n) ↔
      0 < n ∧ n < 2 ^ 64 := by
  constructor
  · rintro ⟨env, args, s, hs, rfl⟩
    exact ⟨CommandLine.probeInterval_of_parse hs, s.probeIntervalSecs.toNat_lt⟩
  · rintro ⟨hpos, hn⟩
    obtain ⟨s, hs, hsecs⟩ := CommandLine.probeInterval_given hpos hn
    exact ⟨_, _, s, hs, hsecs⟩

/-- Whatever the settings that a command line gives, the interval between probes is not zero, and the
watch over the store starts exactly if the clock reaches the first probe. If it does not, the run
ends there as soon as the store is at hand. -/
theorem first_probe_reached_iff {σ : Type} (args : List String) (around : Surroundings σ)
    {s : Settings} (hs : CommandLine.parse around.environment args = .ok s) :
    0 < s.probeIntervalSecs.toNat ∧
      ((Monitor.start? s.store.name around.uptime (s.probeIntervalSecs.toNat * 1000)).isSome ↔
        around.uptime + s.probeIntervalSecs.toNat * 1000 < Worker.endOfTime) ∧
      ((idle args around).ending = .aborted ↔ Ready s around ∧
        Worker.endOfTime ≤ around.uptime + s.probeIntervalSecs.toNat * 1000) := by
  have hpos := CommandLine.probeInterval_of_parse hs
  have hstart : (Monitor.start? s.store.name around.uptime
      (s.probeIntervalSecs.toNat * 1000)).isSome ↔ _ := isSome_monitor hpos
  refine ⟨hpos, hstart, ?_⟩
  rw [aborted_iff hs, ← Option.not_isSome_iff_eq_none.trans Option.isNone_iff_eq_none.symm,
    hstart, Nat.not_lt]

/-- Databases that admit everyone and find nothing. -/
def quiet : Surroundings Unit where
  environment := fun _ => none
  bind := fun _ _ port => .ok port
  peers := { refusal := fun _ _ => none, answer := fun _ _ state => (.ok {}, state) }
  databases := ()

/-- With two to the power of 63 seconds between probes the server over accounts in memory comes to
an end, with a second less it is served. -/
theorem first_probe_reached_of_memory :
    (idle ["--store", "memory", "--probe-interval-secs", "9223372036854775808"] quiet).ending =
        .aborted ∧
      (idle ["--store", "memory", "--probe-interval-secs", "9223372036854775807"] quiet).ending ≠
        .aborted := by
  refine ⟨?_, ?_⟩
  · refine (first_probe_reached_iff _ quiet (by rfl)).2.2.mpr ⟨⟨?_, ?_, ?_⟩, by decide +kernel⟩
    · exact ⟨"info", by decide +kernel⟩
    · exact fun _ => ⟨_, rfl⟩
    · exact fun h => absurd h (by decide +kernel)
  · rw [Ne, (first_probe_reached_iff _ quiet (by rfl)).2.2]
    exact fun h => absurd h.2 (by decide +kernel)

/-- An interval that the command line takes and with which no watch can start, however short the
clock has been running. -/
theorem first_probe_unreachable :
    ∃ s, CommandLine.parse (fun _ => none)
        ["--http-host", "192.0.2.1", "--http-port", "0", "--log-json", "--store", "memory",
          "--metrics-enabled", "false", "--probe-interval-secs", "9223372036854775808"] = .ok s ∧
      ∀ uptime, Monitor.start? s.store.name uptime (s.probeIntervalSecs.toNat * 1000) = none := by
  refine ⟨_, rfl, fun uptime => ?_⟩
  rw [← Option.not_isSome_iff_eq_none, isSome_monitor (by decide +kernel), Nat.not_lt]
  exact Nat.le_add_left_of_le (by decide +kernel)

end Program

end Roster
