import Mathlib.Data.List.Nodup
import Roster.Proofs.Denotations
/-! # Flags, variables and defaults

An option has the value behind its flag, without a flag that of its variable, and without either its
default. The settings show that value where it belongs, and no option has a say in another. -/
namespace Roster

/-- A parameter of an endpoint. -/
def Endpoint.value (e : Endpoint) : CommandLine.Parameter → CommandLine.Value
  | .host => .text e.host
  | .port => .number e.port.toNat
  | .user => .text e.user
  | .password => .text e.password
  | .database => .text e.database
  | .sslMode => .text e.sslMode
  | .maxConnections => .number e.maxConnections.toNat

/-- An endpoint is what its parameters are and how long it waits. -/
theorem Endpoint.eq_of_value {e e' : Endpoint} (h : ∀ p, e.value p = e'.value p)
    (hwait : e.acquireTimeoutMs = e'.acquireTimeoutMs) : e = e' := by
  have hhost := h .host
  have hport := h .port
  have huser := h .user
  have hpassword := h .password
  have hdatabase := h .database
  have hmode := h .sslMode
  have hmax := h .maxConnections
  simp only [value, CommandLine.Value.text.injEq, CommandLine.Value.number.injEq,
    UInt16.toNat_inj, UInt32.toNat_inj] at *
  cases e
  cases e'
  simp_all

namespace Settings
open CommandLine

/-- The endpoint of a role. -/
def endpoint (c : Settings) : Role → Endpoint
  | .master => c.master
  | .replica => c.replica

/-- The value of an option, from the place in the settings that it is meant for. -/
def value (c : Settings) : Setting → Value
  | .httpHost => .text c.http.host
  | .httpPort => .number c.http.port.toNat
  | .requestTimeout => .number c.http.requestTimeoutMs.toNat
  | .corsOrigins => .texts c.http.corsOrigins
  | .store => .store c.store
  | .notifyChannel => .text c.notifyChannel
  | .endpoint role parameter => (c.endpoint role).value parameter
  | .logLevel => .text c.logLevel
  | .logJson => .flag c.logJson
  | .logging => .flag c.service.logging
  | .tracing => .flag c.service.tracing
  | .metrics => .flag c.service.metrics
  | .metricsPort => .number c.metricsPort.toNat
  | .errorReporting => .flag c.service.errorReporting
  | .environment => .text c.environment
  | .maxPageLimit => .number c.service.maxPageLimit.toNat
  | .operationTimeout => .number c.service.operationTimeoutMs.toNat
  | .probeInterval => .number c.probeIntervalSecs.toNat

/-- The default of an option. -/
def default (s : Setting) : Value := ({} : Settings).value s

end Settings

namespace CommandLine

section

variable {values : Values}

theorem text_textOr (hvalues : Fitting values) {s : Setting} (hs : s.valueType = .text)
    (d : String) : Value.text (textOr values s d) = (values.lookup s).getD (.text d) := by
  unfold textOr
  rcases hv : values.lookup s with _ | v
  · rfl
  · have hholds := hvalues.lookup hv
    rw [hs] at hholds
    cases v <;> first | rfl | cases hholds

theorem flag_flagOr (hvalues : Fitting values) {s : Setting}
    (hs : s.valueType = .toggle ∨ s.valueType = .switch) (d : Bool) :
    Value.flag (flagOr values s d) = (values.lookup s).getD (.flag d) := by
  unfold flagOr
  rcases hv : values.lookup s with _ | v
  · rfl
  · have hholds := hvalues.lookup hv
    rcases hs with hs | hs <;> rw [hs] at hholds <;> cases v <;> first | rfl | cases hholds

theorem store_match (hvalues : Fitting values) {s : Setting} (hs : s.valueType = .store)
    (d : StoreKind) :
    Value.store (match values.lookup s with | some (.store k) => k | _ => d) =
      (values.lookup s).getD (.store d) := by
  rcases hv : values.lookup s with _ | v
  · rfl
  · have hholds := hvalues.lookup hv
    rw [hs] at hholds
    cases v <;> first | rfl | cases hholds

theorem texts_match (hvalues : Fitting values) {s : Setting} (hs : s.valueType = .texts)
    (d : List String) :
    Value.texts (match values.lookup s with | some (.texts l) => l | _ => d) =
      (values.lookup s).getD (.texts d) := by
  rcases hv : values.lookup s with _ | v
  · rfl
  · have hholds := hvalues.lookup hv
    rw [hs] at hholds
    cases v <;> first | rfl | cases hholds

/-- A number is not changed by whatever leaves the range of its option alone. -/
theorem number_numberOr (hvalues : Fitting values) {s : Setting} {least greatest : Nat}
    {signed : Bool} (hs : s.valueType = .number least greatest signed) {d : Nat}
    (hd : d ≤ greatest) {f : Nat → Nat} (hf : ∀ n ≤ greatest, f n = n) :
    Value.number (f (numberOr values s d)) = (values.lookup s).getD (.number d) := by
  unfold numberOr
  rcases hv : values.lookup s with _ | v
  · exact congrArg Value.number (hf d hd)
  · have hholds := hvalues.lookup hv
    rw [hs] at hholds
    cases v <;> first | exact congrArg Value.number (hf _ hholds.2) | cases hholds

theorem toNat_ofNat16 : ∀ n ≤ 65535, (UInt16.ofNat n).toNat = n :=
  fun _ hn => UInt16.toNat_ofNat_of_lt' (Nat.lt_succ_of_le hn)

theorem toNat_ofNat32 : ∀ n ≤ 4294967295, (UInt32.ofNat n).toNat = n :=
  fun _ hn => UInt32.toNat_ofNat_of_lt' (Nat.lt_succ_of_le hn)

theorem toNat_ofNat64 : ∀ n ≤ 18446744073709551615, (UInt64.ofNat n).toNat = n :=
  fun _ hn => UInt64.toNat_ofNat_of_lt' (Nat.lt_succ_of_le hn)

theorem value_endpointOf (hvalues : Fitting values) (role : Role) (parameter : Parameter) :
    (endpointOf values role).value parameter =
      (values.lookup (.endpoint role parameter)).getD (({} : Endpoint).value parameter) := by
  cases parameter with
  | port => exact number_numberOr hvalues rfl (by decide) toNat_ofNat16
  | maxConnections => exact number_numberOr hvalues rfl (by decide) toNat_ofNat32
  | host | user | password | database | sslMode => exact text_textOr hvalues rfl _

/-- The settings show the values that there are, and defaults for the others. -/
theorem value_settingsOf (hvalues : Fitting values) (s : Setting) :
    (settingsOf values).value s = (values.lookup s).getD (Settings.default s) := by
  cases s with
  | httpHost | notifyChannel | logLevel | environment => exact text_textOr hvalues rfl _
  | httpPort | metricsPort => exact number_numberOr hvalues rfl (by decide) toNat_ofNat16
  | maxPageLimit => exact number_numberOr hvalues rfl (by decide) toNat_ofNat32
  | requestTimeout | operationTimeout | probeInterval =>
    exact number_numberOr hvalues rfl (by decide) toNat_ofNat64
  | logging | tracing | metrics | errorReporting => exact flag_flagOr hvalues (.inl rfl) _
  | logJson => exact flag_flagOr hvalues (.inr rfl) _
  | endpoint role parameter => cases role <;> exact value_endpointOf hvalues _ parameter
  | store => exact store_match hvalues rfl _
  | corsOrigins => exact texts_match hvalues rfl _

end

/-- An argument that gives a value to an option: a flag with a text for the value, or the flag of a switch
alone. -/
inductive Gives : String → Setting × Value → Prop
  | value {s : Setting} {raw : String} {v : Value} (hs : s.valueType ≠ .switch)
      (hraw : s.valueType.Denotes raw v) : Gives (given s raw) (s, v)
  | bare {s : Setting} (hs : s.valueType = .switch) : Gives ("--" ++ s.flag) (s, .flag true)

/-- The values that an argument can give to an option. -/
def Setting.Takes (s : Setting) (v : Value) : Prop :=
  s.valueType.Admits v ∧ (s.valueType = .switch → v = .flag true)

theorem exists_gives_iff {s : Setting} {v : Value} : (∃ arg, Gives arg (s, v)) ↔ s.Takes v := by
  constructor
  · rintro ⟨_, h⟩
    cases h with
    | value hs hraw => exact ⟨exists_denotes_iff.mp ⟨_, hraw⟩, fun h => absurd h hs⟩
    | bare hs =>
      refine ⟨?_, fun _ => rfl⟩
      rw [hs]
      exact exists_denotes_iff.mp ⟨_, .switch true⟩
  · rintro ⟨hadmits, hswitch⟩
    by_cases hs : s.valueType = .switch
    · exact hswitch hs ▸ ⟨_, .bare hs⟩
    · obtain ⟨raw, hraw⟩ := exists_denotes_iff.mpr hadmits
      exact ⟨_, .value hs hraw⟩

/-- The options on a command line, each once, with the arguments that give their values. -/
structure Assigned (choices : Values) (args : List String) : Prop where
  once : (choices.map Prod.fst).Nodup
  given : List.Forall₂ Gives args choices

theorem lookup_eq_none_iff_not_mem {values : Values} {s : Setting} :
    values.lookup s = none ↔ s ∉ values.map Prod.fst := by
  rw [List.lookup_eq_none_iff, List.mem_map]
  constructor
  · rintro h ⟨e, he, rfl⟩
    exact bne_iff_ne.mp (h e he) rfl
  · exact fun h e he => bne_iff_ne.mpr fun heq => h ⟨e, he, heq.symm⟩

theorem lookup_of_mem {values : Values} (honce : (values.map Prod.fst).Nodup) {s : Setting}
    {v : Value} (h : (s, v) ∈ values) : values.lookup s = some v := by
  obtain ⟨before, after, rfl⟩ := List.append_of_mem h
  refine List.lookup_eq_some_iff.mpr ⟨before, after, rfl, fun e he => bne_iff_ne.mpr fun heq => ?_⟩
  rw [List.map_append, List.nodup_append] at honce
  exact honce.2.2 e.1 (List.mem_map_of_mem he) s (by simp) heq.symm

theorem mem_of_lookup {values : Values} {s : Setting} {v : Value}
    (h : values.lookup s = some v) : (s, v) ∈ values := by
  obtain ⟨before, after, rfl, -⟩ := List.lookup_eq_some_iff.mp h
  simp

section

variable {values : Values} {s : Setting} (hfresh : values.lookup s = none)
include hfresh

theorem assign_fresh (v : Value) : assign values s v = .ok (values ++ [(s, v)]) := by
  simp [assign, hfresh]

theorem accept_fresh {raw : String} {v : Value} (hraw : s.valueType.Denotes raw v) :
    accept values s raw = .ok (values ++ [(s, v)]) := by
  simp [accept, hfresh, parseValue_eq_ok_iff.mpr hraw, Except.bind, assign_fresh]

theorem step_bare (hs : s.valueType = .switch) :
    step values .nothing ("--" ++ s.flag) = .ok (values ++ [(s, .flag true)], .nothing) := by
  have hlist : ("--" ++ s.flag).toList = '-' :: '-' :: s.flag.toList := by simp
  have htake : s.flag.toList.takeWhile (· != '=') = s.flag.toList := by
    refine List.takeWhile_eq_self_iff.mpr fun c hc => ?_
    have hne : c ≠ '=' := fun heq => (flag_plain s).2.2 (heq ▸ hc)
    simpa using hne
  have hsplit : splitFlag s.flag.toList = (s.flag, none) := by simp [splitFlag, htake]
  obtain ⟨hhelp, hversion, -⟩ := flag_plain s
  simp [step, hlist, stepLong, hsplit, ofFlag?_flag, hs, settle, Except.bind, Except.map,
    assign_fresh hfresh]

theorem step_of_gives {arg : String} {v : Value} (h : Gives arg (s, v)) :
    step values .nothing arg = .ok (values ++ [(s, v)], .nothing) := by
  cases h with
  | value hs hraw =>
    rw [step_given values hs, accept_fresh hfresh hraw]
    rfl
  | bare hs => exact step_bare hfresh hs

end

/-- No argument that gives a value ends the options. -/
theorem ne_of_gives {arg : String} {choice : Setting × Value} (h : Gives arg choice) :
    arg ≠ "--" := by
  have hflag (s : Setting) : s.flag ≠ "" := by
    have hall : ∀ s ∈ Setting.all, s.flag ≠ "" := by decide +kernel
    exact hall s (Setting.mem_all s)
  intro heq
  rw [← String.toList_inj] at heq
  cases h with
  | value => simp [CommandLine.given] at heq
  | bare => simp [hflag] at heq

/-- The options get their values in the order of the arguments. -/
theorem steps_of_gives {values choices : Values} {args : List String}
    (hgiven : List.Forall₂ Gives args choices) (honce : ((values ++ choices).map Prod.fst).Nodup) :
    steps values .nothing args = .ok (values ++ choices) := by
  induction hgiven generalizing values with
  | nil => simp [steps, settle]
  | @cons arg choice args choices hgives hrest ih =>
    obtain ⟨s, v⟩ := choice
    have hfresh : values.lookup s = none := by
      rw [lookup_eq_none_iff_not_mem]
      rw [List.map_append, List.nodup_append] at honce
      exact fun hs => honce.2.2 s hs s (by simp) rfl
    rw [steps, if_neg (ne_of_gives hgives), step_of_gives hfresh hgives]
    have honce' : ((values ++ [(s, v)] ++ choices).map Prod.fst).Nodup := by simpa using honce
    simpa using ih honce'

theorem Assigned.steps {choices : Values} {args : List String} (h : Assigned choices args) :
    steps [] .nothing args = .ok choices := steps_of_gives h.given h.once

/-- The variable of an option, if there is one, has a value of the option. -/
def Readable (env : String → Option String) (s : Setting) : Prop :=
  ∀ raw, env s.envName = some raw → ∃ v, s.valueType.Denotes raw v

/-- The value of an option by its variable. -/
def ofVariable (env : String → Option String) (s : Setting) : Option Value :=
  (env s.envName).bind fun raw => (parseValue s.valueType raw).toOption

/-- Looks up the variable of an option that has no value. -/
def lookUp (env : String → Option String) (values : Values) (s : Setting) :
    Except Refusal Values :=
  if (values.lookup s).isSome then .ok values
  else
    match env s.envName with
    | none => .ok values
    | some raw => accept values s raw

/-- What a look-up can come to. -/
inductive LooksUp (env : String → Option String) (values : Values) (s : Setting) :
    Except Refusal Values → Prop
  | kept {v : Value} (h : values.lookup s = some v) : LooksUp env values s (.ok values)
  | unset (h : values.lookup s = none) (henv : env s.envName = none) :
      LooksUp env values s (.ok values)
  | set {raw : String} {v : Value} (h : values.lookup s = none) (henv : env s.envName = some raw)
      (hraw : s.valueType.Denotes raw v) : LooksUp env values s (.ok (values ++ [(s, v)]))
  | refused {e : Refusal} (h : values.lookup s = none) (henv : ¬ Readable env s) :
      LooksUp env values s (.error e)

section

variable {env : String → Option String}

theorem looksUp (values : Values) (s : Setting) : LooksUp env values s (lookUp env values s) := by
  rcases hvalue : values.lookup s with _ | v
  · rcases henv : env s.envName with _ | raw
    · have hunset : lookUp env values s = .ok values := by simp [lookUp, hvalue, henv]
      exact hunset ▸ .unset hvalue henv
    · have haccept : lookUp env values s = accept values s raw := by simp [lookUp, hvalue, henv]
      rcases hparse : parseValue s.valueType raw with e | v
      · have hrefused : accept values s raw = .error e := by
          simp [accept, hvalue, hparse, Except.bind]
        rw [haccept, hrefused]
        refine .refused hvalue fun hreadable => ?_
        obtain ⟨v, hraw⟩ := hreadable raw henv
        rw [parseValue_eq_ok_iff.mpr hraw] at hparse
        cases hparse
      · have hraw := parseValue_eq_ok_iff.mp hparse
        rw [haccept, accept_fresh hvalue hraw]
        exact .set hvalue henv hraw
  · have hkept : lookUp env values s = .ok values := by simp [lookUp, hvalue]
    exact hkept ▸ .kept hvalue

theorem ofVariable_of_denotes {s : Setting} {raw : String} {v : Value}
    (henv : env s.envName = some raw) (hraw : s.valueType.Denotes raw v) :
    ofVariable env s = some v := by
  simp [ofVariable, henv, parseValue_eq_ok_iff.mpr hraw, Except.toOption]

theorem ofVariable_of_none {s : Setting} (henv : env s.envName = none) :
    ofVariable env s = none := by
  simp [ofVariable, henv]

/-- A look-up settles its own option and no other. -/
theorem lookup_of_lookUp {values values' : Values} {s : Setting}
    (h : lookUp env values s = .ok values') (t : Setting) :
    values'.lookup t = (values.lookup t).or (if t = s then ofVariable env t else none) := by
  have hcases := @looksUp env values s
  rw [h] at hcases
  by_cases ht : t = s
  · subst ht
    rw [if_pos rfl]
    cases hcases with
    | kept hvalue => rw [hvalue, Option.some_or]
    | unset hvalue henv => rw [hvalue, ofVariable_of_none henv, Option.or_none]
    | set hvalue henv hraw =>
      rw [List.lookup_append, hvalue, ofVariable_of_denotes henv hraw, List.lookup_cons_self]
  · rw [if_neg ht, Option.or_none]
    cases hcases with
    | kept | unset => rfl
    | @set _ v =>
      have hother : List.lookup t [(s, v)] = none := by
        simp [List.lookup_cons, beq_eq_false_iff_ne.mpr ht]
      rw [List.lookup_append, hother, Option.or_none]

theorem exists_lookUp_iff {values : Values} {s : Setting} :
    (∃ values', lookUp env values s = .ok values') ↔ (values.lookup s = none → Readable env s) := by
  have hcases := @looksUp env values s
  constructor
  · rintro ⟨values', h⟩ hvalue
    rw [h] at hcases
    cases hcases with
    | kept hkept => exact absurd (hvalue.symm.trans hkept) nofun
    | unset _ henv => exact fun raw h => absurd (henv.symm.trans h) nofun
    | set _ henv hraw => exact fun raw h => ⟨_, Option.some.inj (henv.symm.trans h) ▸ hraw⟩
  · intro hreadable
    generalize lookUp env values s = outcome at hcases
    cases hcases with
    | kept | unset | set => exact ⟨_, rfl⟩
    | refused h henv => exact absurd (hreadable h) henv

/-- Options that are looked up one after the other get what their variables say, if they have no value. -/
theorem lookup_of_lookUps {settings : List Setting} {values values' : Values}
    (h : settings.foldlM (lookUp env) values = .ok values') (t : Setting) :
    values'.lookup t = (values.lookup t).or (if t ∈ settings then ofVariable env t else none) := by
  induction settings generalizing values with
  | nil =>
    obtain rfl := Except.ok.inj h
    simp
  | cons s settings ih =>
    rw [List.foldlM_cons] at h
    obtain ⟨next, hnext, h⟩ := Json.ok_of_bind h
    rw [ih h, lookup_of_lookUp hnext, Option.or_assoc]
    congr 1
    by_cases ht : t = s
    · subst ht
      rw [if_pos rfl, if_pos List.mem_cons_self]
      split <;> simp
    · simp [ht]

/-- All look-ups come to values just if all variables that are looked up can be read. -/
theorem exists_lookUps_iff {settings : List Setting} {values : Values} :
    (∃ values', settings.foldlM (lookUp env) values = .ok values') ↔
      ∀ s ∈ settings, values.lookup s = none → Readable env s := by
  induction settings generalizing values with
  | nil => exact iff_of_true ⟨values, rfl⟩ (by simp)
  | cons s settings ih =>
    rw [List.foldlM_cons]
    constructor
    · rintro ⟨values', h⟩
      obtain ⟨next, hnext, h⟩ := Json.ok_of_bind h
      have hfirst := exists_lookUp_iff.mp ⟨next, hnext⟩
      have hrest := ih.mp ⟨values', h⟩
      refine List.forall_mem_cons.mpr ⟨hfirst, fun t ht hvalue => ?_⟩
      by_cases heq : t = s
      · exact heq ▸ hfirst (heq ▸ hvalue)
      · refine hrest t ht ?_
        rw [lookup_of_lookUp hnext, hvalue, if_neg heq]
        rfl
    · intro hreadable
      obtain ⟨hfirst, hrest⟩ := List.forall_mem_cons.mp hreadable
      obtain ⟨next, hnext⟩ := exists_lookUp_iff.mpr hfirst
      obtain ⟨values', h⟩ := (@ih next).mpr fun t ht hvalue => by
        rw [lookup_of_lookUp hnext, Option.or_eq_none_iff] at hvalue
        exact hrest t ht hvalue.1
      exact ⟨values', by rw [hnext]; exact h⟩

end

/-- What an option has its value from. -/
inductive Source (choices : Values) (env : String → Option String) (s : Setting) : Value → Prop
  | flag {v : Value} (h : (s, v) ∈ choices) : Source choices env s v
  | environment {raw : String} {v : Value} (h : s ∉ choices.map Prod.fst)
      (henv : env s.envName = some raw) (hraw : s.valueType.Denotes raw v) : Source choices env s v
  | default (h : s ∉ choices.map Prod.fst) (henv : env s.envName = none) :
      Source choices env s (Settings.default s)

/-- Settings that show the value of every option, and nothing else that is not a default. -/
structure Shows (choices : Values) (env : String → Option String) (c : Settings) : Prop where
  value : ∀ s, Source choices env s (c.value s)
  serviceName : c.service.serviceName = ({} : ServiceSettings).serviceName
  acquireTimeout : ∀ role, (c.endpoint role).acquireTimeoutMs = ({} : Endpoint).acquireTimeoutMs

/-- Two command lines and environments that differ in the options of one endpoint at most. -/
structure AlikeBut (role : Role) (choices choices' : Values) (env env' : String → Option String) :
    Prop where
  choices : ∀ s, (∀ p, s ≠ .endpoint role p) → ∀ v, (s, v) ∈ choices ↔ (s, v) ∈ choices'
  env : ∀ name, (∀ p, name ≠ (Setting.endpoint role p).envName) → env name = env' name

theorem envName_inj {s t : Setting} (h : s.envName = t.envName) : s = t := by
  have hnames : (Setting.all.map Setting.envName).Nodup := by decide +kernel
  exact List.inj_on_of_nodup_map hnames (Setting.mem_all s) (Setting.mem_all t) h

section

variable {choices : Values} {args : List String} {env : String → Option String}

theorem Assigned.fitting (h : Assigned choices args) : Fitting choices :=
  Fitting.steps (fun _ he => absurd he List.not_mem_nil) h.steps

theorem Assigned.parse (h : Assigned choices args) :
    parse env args = (Setting.all.foldlM (lookUp env) choices).map settingsOf := by
  rw [CommandLine.parse, h.steps]
  rfl

theorem Assigned.exists_parse_iff (h : Assigned choices args) :
    (∃ c, CommandLine.parse env args = .ok c) ↔
      ∀ s, s ∉ choices.map Prod.fst → Readable env s := by
  have hall : (∃ values, Setting.all.foldlM (lookUp env) choices = .ok values) ↔
      ∀ s, s ∉ choices.map Prod.fst → Readable env s := by
    rw [exists_lookUps_iff]
    exact ⟨fun h s hs => h s (Setting.mem_all s) (lookup_eq_none_iff_not_mem.mpr hs),
      fun h s _ hs => h s (lookup_eq_none_iff_not_mem.mp hs)⟩
  rw [h.parse, ← hall]
  constructor
  · rintro ⟨c, hc⟩
    obtain ⟨values, hvalues, -⟩ := Json.ok_of_map hc
    exact ⟨values, hvalues⟩
  · rintro ⟨values, hvalues⟩
    exact ⟨settingsOf values, by rw [hvalues]; rfl⟩

/-- The value of an option depends on what the command line says of it, else on its variable. -/
theorem Assigned.value_eq (h : Assigned choices args) {c : Settings}
    (hc : CommandLine.parse env args = .ok c) (s : Setting) :
    c.value s = ((choices.lookup s).or (ofVariable env s)).getD (Settings.default s) := by
  rw [h.parse] at hc
  obtain ⟨values, hvalues, rfl⟩ := Json.ok_of_map hc
  have hfitting : Fitting values := @Fitting.fromVariables _ _ env h.fitting hvalues
  rw [value_settingsOf hfitting, lookup_of_lookUps hvalues, if_pos (Setting.mem_all s)]

theorem Assigned.shows (h : Assigned choices args) {c : Settings}
    (hc : CommandLine.parse env args = .ok c) : Shows choices env c := by
  have hreadable := h.exists_parse_iff.mp ⟨c, hc⟩
  refine ⟨fun s => ?_, ?_, ?_⟩
  · rw [h.value_eq hc]
    rcases hlookup : choices.lookup s with _ | v
    · have hs := lookup_eq_none_iff_not_mem.mp hlookup
      rw [Option.none_or]
      rcases henv : env s.envName with _ | raw
      · rw [ofVariable_of_none henv]
        exact .default hs henv
      · obtain ⟨v, hraw⟩ := hreadable s hs raw henv
        rw [ofVariable_of_denotes henv hraw]
        exact .environment hs henv hraw
    · exact .flag (mem_of_lookup hlookup)
  all_goals
    rw [h.parse] at hc
    obtain ⟨values, -, rfl⟩ := Json.ok_of_map hc
  · rfl
  · exact fun role => by cases role <;> rfl

/-- An endpoint is the same whatever the options of the other one are. -/
theorem Assigned.endpoint_eq (h : Assigned choices args) {c : Settings}
    (hc : CommandLine.parse env args = .ok c) {choices' : Values} {args' : List String}
    {env' : String → Option String} (h' : Assigned choices' args') {c' : Settings}
    (hc' : CommandLine.parse env' args' = .ok c') {role other : Role}
    (halike : AlikeBut role choices choices' env env') (hother : other ≠ role) :
    c'.endpoint other = c.endpoint other := by
  refine Endpoint.eq_of_value (fun p => ?_) ?_
  · have hne (q : Parameter) : Setting.endpoint other p ≠ .endpoint role q := fun heq =>
      hother (Setting.endpoint.inj heq).1
    have hlookup : choices'.lookup (.endpoint other p) = choices.lookup (.endpoint other p) :=
      Option.ext fun v =>
        ⟨fun hv => lookup_of_mem h.once ((halike.choices _ hne v).mpr (mem_of_lookup hv)),
          fun hv => lookup_of_mem h'.once ((halike.choices _ hne v).mp (mem_of_lookup hv))⟩
    have hvariable : ofVariable env' (.endpoint other p) = ofVariable env (.endpoint other p) := by
      rw [ofVariable, ofVariable, halike.env _ fun q heq => hne q (envName_inj heq)]
    exact (h'.value_eq hc' (.endpoint other p)).trans <|
      (hlookup ▸ hvariable ▸ h.value_eq hc (.endpoint other p)).symm
  · rw [(h.shows hc).acquireTimeout, (h'.shows hc').acquireTimeout]

end

/-- Every value of an option can be given by an argument. Options that are given so, each once and in any
order, are taken whatever their variables say, if the variables of the other options can be read. The
settings then show what was given, for the other options what their variables say or their defaults, and an
endpoint is the same whatever is given for the other one. -/
theorem settings_as_assigned {choices : Values} {args : List String} (h : Assigned choices args)
    (env : String → Option String) :
    (∀ s v, (∃ arg, Gives arg (s, v)) ↔ s.Takes v) ∧
      ((∃ c, parse env args = .ok c) ↔ ∀ s, s ∉ choices.map Prod.fst → Readable env s) ∧
      ∀ c, parse env args = .ok c → Shows choices env c ∧
        ∀ role other choices' args' env' c', other ≠ role → Assigned choices' args' →
          AlikeBut role choices choices' env env' → parse env' args' = .ok c' →
            c'.endpoint other = c.endpoint other :=
  ⟨fun _ _ => exists_gives_iff, h.exists_parse_iff, fun _ hc => ⟨h.shows hc,
    fun _ _ _ _ _ _ hother h' halike hc' => h.endpoint_eq hc h' hc' halike hother⟩⟩

/-- A port, a bare switch and a host with an equals sign on the command line, over a variable for the same
port that is no number, and a variable for the other host. -/
theorem settings_as_assigned_of_three :
    let choices : Values := [(.httpPort, .number 8081), (.logJson, .flag true),
      (.endpoint .master .host, .text "a=b")]
    let env : String → Option String := fun name =>
      if name = "ROSTER_HTTP_PORT" then some "none"
      else if name = "ROSTER_REPLICA_HOST" then some "b" else none
    ∃ c, parse env ["--http-port=08081", "--log-json", "--master-host=a=b"] = .ok c ∧
      Shows choices env c ∧ c.http.port = 8081 ∧ c.logJson = true ∧ c.master.host = "a=b" ∧
      c.replica.host = "b" ∧ c.replica.port = 5432 := by
  intro choices env
  have hassigned : Assigned choices ["--http-port=08081", "--log-json", "--master-host=a=b"] := by
    refine ⟨by decide, .cons ?_ (.cons ?_ (.cons ?_ .nil))⟩
    · have hport : Text.Numeral true "08081".toList 8081 :=
        .plain ⟨by decide, List.all_eq_true.mp rfl, by decide⟩
      exact .value (s := .httpPort) nofun (.number hport (by decide))
    · exact .bare (s := .logJson) rfl
    · exact .value (s := .endpoint .master .host) nofun (.text "a=b")
  refine ⟨_, rfl, ((settings_as_assigned hassigned env).2.2 _ rfl).1, ?_⟩
  decide +kernel

end CommandLine

end Roster
