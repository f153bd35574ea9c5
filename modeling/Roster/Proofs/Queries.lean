import Mathlib.Data.List.Forall2
import Mathlib.Data.List.Nodup
import Mathlib.Data.List.Pairwise
import Roster.Http.Demand
import Roster.Proofs.Decimals
import Roster.Proofs.Escapes
/-! # Queries say requests

A request for a page is said by parameters: the limit, the offset and the filters that are set, under
any of their names. In whatever order they stand in a query and however they are escaped there, they
are understood as the request. -/
namespace Roster

/-- The names that a filter has in queries. -/
def FilterKey.names : FilterKey → List String
  | id => ["id"]
  | country => ["country"]
  | nickname => ["nickname"]
  | firstName => ["firstName", "first_name"]
  | lastName => ["lastName", "last_name"]

theorem FilterKey.parse_name {k : FilterKey} {name : String} (h : name ∈ k.names) :
    parse name = .ok k := by
  have hall : ∀ k ∈ all, ∀ name ∈ k.names, parse name = .ok k := by decide
  exact hall k k.mem_all name h

theorem FilterKey.ne_of_mem_names {k : FilterKey} {name : String} (h : name ∈ k.names) :
    name ≠ "limit" ∧ name ≠ "offset" := by
  have hall : ∀ k ∈ all, ∀ name ∈ k.names, name ≠ "limit" ∧ name ≠ "offset" := by decide
  exact hall k k.mem_all name h

theorem FilterKey.exists_mem_names (k : FilterKey) : ∃ name, name ∈ k.names := by
  cases k <;> exact ⟨_, List.mem_cons_self⟩

/-- Filters under different keys may be set in any order. -/
theorem ListUsers.withFilter_comm {k k' : FilterKey} (h : k ≠ k') (r : ListUsers)
    (v v' : String) :
    (r.withFilter k v).withFilter k' v' = (r.withFilter k' v').withFilter k v := by
  cases k <;> cases k' <;> simp_all [withFilter]

namespace Http

/-- What one parameter of a query says. -/
inductive Parameter
  | limit (n : UInt32)
  | offset (n : UInt32)
  | filter (key : FilterKey) (value : String)
  deriving DecidableEq

namespace Parameter

def names : Parameter → List String
  | limit _ => ["limit"]
  | offset _ => ["offset"]
  | filter key _ => key.names

def text : Parameter → String
  | limit n | offset n => toString n.toNat
  | filter _ value => value

def apply (r : ListUsers) : Parameter → ListUsers
  | limit n => { r with limit := n }
  | offset n => { r with offset := n }
  | filter key value => r.withFilter key value

/-- Two parameters with no name in common may change places. -/
theorem apply_swap {p q : Parameter} (h : ∀ name ∈ p.names, name ∈ q.names → p = q)
    (r : ListUsers) : q.apply (p.apply r) = p.apply (q.apply r) := by
  by_cases heq : p = q
  · rw [heq]
  have hdisjoint : ∀ name ∈ p.names, name ∉ q.names := fun name hp hq => heq (h name hp hq)
  cases p with
  | limit _ =>
    cases q with
    | limit _ => exact absurd List.mem_cons_self (hdisjoint "limit" List.mem_cons_self)
    | offset _ => rfl
    | filter k _ => cases k <;> rfl
  | offset _ =>
    cases q with
    | limit _ => rfl
    | offset _ => exact absurd List.mem_cons_self (hdisjoint "offset" List.mem_cons_self)
    | filter k _ => cases k <;> rfl
  | filter k _ =>
    cases q with
    | limit _ | offset _ => cases k <;> rfl
    | filter k' _ =>
      obtain ⟨name, hname⟩ := k.exists_mem_names
      have hkey : k ≠ k' := fun hsame => hdisjoint name hname (hsame ▸ hname)
      exact r.withFilter_comm hkey _ _

end Parameter

end Http

open Http

/-- The parameters that say a request. -/
def ListUsers.parameters (r : ListUsers) : List Parameter :=
  .limit r.limit :: .offset r.offset ::
    (FilterKey.all.filter fun k => r.filter k != "").map fun k => .filter k (r.filter k)

namespace Http

open Text

theorem readCount_toString (key : String) (n : UInt32) :
    readCount key (toString n.toNat) = .ok n := by
  simp only [readCount, parseNatural?_toString, if_pos n.toNat_lt, UInt32.ofNat_toNat]

theorem addParameter_name (r : ListUsers) {p : Parameter} {name : String} (h : name ∈ p.names) :
    addParameter r (name, p.text) = .ok (p.apply r) := by
  cases p with
  | limit n =>
    obtain rfl := List.mem_singleton.mp h
    simp only [addParameter, Parameter.text, readCount_toString]
    rfl
  | offset n =>
    obtain rfl := List.mem_singleton.mp h
    simp only [addParameter, Parameter.text, readCount_toString]
    rfl
  | filter key value =>
    have hkey := FilterKey.parse_name h
    obtain ⟨hlimit, hoffset⟩ := FilterKey.ne_of_mem_names h
    simp only [addParameter, ListUsers.setFilter, hkey, Parameter.text]
    rfl

/-- Parameters are written under some of their names. -/
abbrev Named : Parameter → String × String → Prop := fun p f => f.1 ∈ p.names ∧ f.2 = p.text

theorem listOfParameters_named {ps : List Parameter} {fs : List (String × String)}
    (h : List.Forall₂ Named ps fs) (r : ListUsers) :
    fs.foldlM addParameter r = .ok (ps.foldl Parameter.apply r) := by
  induction h generalizing r with
  | nil => rfl
  | @cons p f ps fs hf hrest ih =>
    obtain ⟨name, text⟩ := f
    obtain ⟨hname, rfl⟩ := hf
    rw [List.foldlM_cons, addParameter_name r hname]
    exact ih (p.apply r)

/-- No two parameters of a request have a name in common. -/
theorem pairwise_parameters (r : ListUsers) :
    r.parameters.Pairwise fun p q => ∀ name ∈ p.names, name ∉ q.names := by
  have hkeys : FilterKey.all.Pairwise fun k k' => ∀ name ∈ k.names, name ∉ k'.names := by decide
  have hfilter {p : Parameter} (h : p ∈ (FilterKey.all.filter fun k => r.filter k != "").map
      fun k => .filter k (r.filter k)) : "limit" ∉ p.names ∧ "offset" ∉ p.names := by
    obtain ⟨k, -, rfl⟩ := List.mem_map.mp h
    exact ⟨fun hmem => (FilterKey.ne_of_mem_names hmem).1 rfl,
      fun hmem => (FilterKey.ne_of_mem_names hmem).2 rfl⟩
  refine .cons (fun p hp name hname => ?_) (.cons (fun p hp name hname => ?_) ?_)
  · obtain rfl := List.mem_singleton.mp hname
    rcases List.mem_cons.mp hp with rfl | hp
    · exact fun hmem => (by decide : "limit" ∉ ["offset"]) hmem
    · exact (hfilter hp).1
  · obtain rfl := List.mem_singleton.mp hname
    exact (hfilter hp).2
  · exact List.pairwise_map.mpr (hkeys.filter _)

/-- The parameters of one request may be taken in any order. -/
theorem apply_comm {r : ListUsers} {p q : Parameter} (hp : p ∈ r.parameters) (hq : q ∈ r.parameters)
    (r' : ListUsers) : q.apply (p.apply r') = p.apply (q.apply r') := by
  refine Parameter.apply_swap (fun name hname hname' => ?_) r'
  by_contra hne
  have : Std.Symm fun p q : Parameter => ∀ name ∈ p.names, name ∉ q.names :=
    ⟨fun p q h name hq hp => h name hp hq⟩
  exact (pairwise_parameters r).forall hp hq hne name hname hname'

/-- Setting a filter to no value leaves it as it is in the beginning. -/
private theorem foldl_filters (r : ListUsers) {keys : List FilterKey} {r' : ListUsers}
    (hnew : ∀ k ∈ keys, r'.filter k = "") (hnodup : keys.Nodup) :
    ((keys.filter fun k => r.filter k != "").map fun k => Parameter.filter k (r.filter k)).foldl
        Parameter.apply r' = keys.foldl (fun r' k => r'.withFilter k (r.filter k)) r' := by
  induction keys generalizing r' with
  | nil => rfl
  | cons k keys ih =>
    obtain ⟨hk, hkeys⟩ := List.nodup_cons.mp hnodup
    have hrest : ∀ k' ∈ keys, (r'.withFilter k (r.filter k)).filter k' = "" := by
      intro k' hk'
      have hne : k' ≠ k := fun heq => hk (heq ▸ hk')
      rw [ListUsers.filter_withFilter, if_neg hne]
      exact hnew k' (List.mem_cons_of_mem _ hk')
    rw [List.foldl_cons, ← ih hrest hkeys]
    by_cases hempty : r.filter k = ""
    · have hsame : r'.withFilter k (r.filter k) = r' := by
        have hold := hnew k List.mem_cons_self
        rw [hempty, ← hold]
        cases k <;> rfl
      rw [List.filter_cons_of_neg (by simp [hempty]), hsame]
    · rw [List.filter_cons_of_pos (by simp [hempty])]
      rfl

theorem foldl_parameters (r : ListUsers) : r.parameters.foldl Parameter.apply {} = r := by
  have hfilters := @foldl_filters r FilterKey.all { limit := r.limit, offset := r.offset }
    (fun k _ => by cases k <;> rfl) (by decide)
  exact hfilters.trans rfl

/-- The parameters of a request, in any order and under any of their names, are understood as the
request. -/
theorem listOfParameters_of_perm {r : ListUsers} {ps : List Parameter} {fs : List (String × String)}
    (hps : ps.Perm r.parameters) (hfs : List.Forall₂ Named ps fs) :
    listOfParameters fs = .ok r := by
  have hcomm : ∀ p ∈ ps, ∀ q ∈ ps, ∀ r', q.apply (p.apply r') = p.apply (q.apply r') :=
    fun p hp q hq => apply_comm (hps.subset hp) (hps.subset hq)
  rw [listOfParameters, listOfParameters_named hfs, hps.foldl_eq' hcomm, foldl_parameters]

theorem exists_named {ps : List Parameter} {fs : List (String × String)}
    (hfs : List.Forall₂ Named ps fs) {f : String × String} (hf : f ∈ fs) : ∃ p ∈ ps, Named p f := by
  induction hfs with
  | nil => exact absurd hf List.not_mem_nil
  | @cons p f' ps fs hfirst hrest ih =>
    rcases List.mem_cons.mp hf with rfl | hf
    · exact ⟨p, List.mem_cons_self, hfirst⟩
    · obtain ⟨q, hq, hnamed⟩ := ih hf
      exact ⟨q, List.mem_cons_of_mem _ hq, hnamed⟩

theorem nodup_names {ps : List Parameter} {fs : List (String × String)}
    (hps : ps.Pairwise fun p q => ∀ name ∈ p.names, name ∉ q.names)
    (hfs : List.Forall₂ Named ps fs) : (fs.map (·.1)).Nodup := by
  induction hfs with
  | nil => exact List.nodup_nil
  | @cons p f ps fs hf hrest ih =>
    obtain ⟨hfirst, hothers⟩ := List.pairwise_cons.mp hps
    refine List.nodup_cons.mpr ⟨fun hmem => ?_, ih hothers⟩
    obtain ⟨f', hf', heq⟩ := List.mem_map.mp hmem
    obtain ⟨q, hq, hnamed⟩ := exists_named hrest hf'
    have hsame : f'.1 = f.1 := heq
    exact hfirst q hq f.1 hf.1 (hsame ▸ hnamed.1)

/-- Where no key stands twice, all values count. -/
theorem lastValues_of_nodup {fs : List (String × String)} (h : (fs.map (·.1)).Nodup) :
    lastValues fs = fs := by
  have hfold (known fs : List (String × String)) (h : ((known ++ fs).map (·.1)).Nodup) :
      fs.foldl (fun known f => known.filter (fun k => k.1 != f.1) ++ [f]) known = known ++ fs := by
    induction fs generalizing known with
    | nil => exact (List.append_nil known).symm
    | cons f fs ih =>
      have hkept : known.filter (fun k => k.1 != f.1) = known := by
        apply List.filter_eq_self.mpr
        intro k hk
        rw [List.map_append, List.map_cons] at h
        exact bne_iff_ne.mpr ((List.nodup_append.mp h).2.2 _ (List.mem_map_of_mem hk) _
          List.mem_cons_self)
      rw [List.append_cons] at h
      rw [List.foldl_cons, hkept, ih _ h, ← List.append_cons]
  exact hfold [] fs h

/-- A field of a query, escaped. -/
def WritesField (f : String × String) (cs : List Char) : Prop :=
  ∃ key value, EscapesField f.1 key ∧ EscapesField f.2 value ∧ cs = key ++ '=' :: value

theorem EscapesField.ne_of_mem {s : String} {cs : List Char} (h : EscapesField s cs) :
    ∀ c ∈ cs, Uri.isQueryChar c = true ∧ c ≠ '&' ∧ c ≠ '=' := by
  obtain ⟨spaced, h, rfl⟩ := h
  intro c hc
  obtain ⟨d, hd, rfl⟩ := List.mem_map.mp hc
  split
  · decide
  · rename_i hspace
    have hall := h.forall_mem (P := fun c => c ≠ ' ' → Uri.isQueryChar c = true ∧ c ≠ '&' ∧ c ≠ '=')
      (fun c hc hne => by
        have hfield : isFieldChar c = true := by simpa [hne] using hc
        simp only [isFieldChar, Bool.and_eq_true, bne_iff_ne] at hfield
        exact ⟨hfield.1.1.1.1.2, hfield.1.1.2, hfield.1.2⟩) (by decide) (by decide)
    exact hall d hd hspace

theorem field_of_writes {f : String × String} {cs : List Char} (h : WritesField f cs) :
    field cs = f ∧ cs ≠ [] ∧ ∀ c ∈ cs, Uri.isQueryChar c = true ∧ c ≠ '&' := by
  obtain ⟨key, value, hkey, hvalue, rfl⟩ := h
  have hbefore : (key ++ '=' :: value).takeWhile (· != '=') = key := by
    have hall : ∀ c ∈ key, (c != '=') = true := fun c hc => bne_iff_ne.mpr (hkey.ne_of_mem c hc).2.2
    rw [List.takeWhile_append_of_pos hall, List.takeWhile_cons_of_neg (by decide), List.append_nil]
  have hbehind : (key ++ '=' :: value).drop (key.length + 1) = value := by
    rw [List.append_cons]
    exact List.drop_left' (by simp)
  refine ⟨?_, by simp, fun c hc => ?_⟩
  · rw [field, hbefore, hbehind, hkey.unescape, hvalue.unescape]
  · rcases List.mem_append.mp hc with hc | hc
    · exact ⟨(hkey.ne_of_mem c hc).1, (hkey.ne_of_mem c hc).2.1⟩
    · rcases List.mem_cons.mp hc with rfl | hc
      · decide
      · exact ⟨(hvalue.ne_of_mem c hc).1, (hvalue.ne_of_mem c hc).2.1⟩

theorem map_field_of_writes {fs : List (String × String)} {parts : List (List Char)}
    (h : List.Forall₂ WritesField fs parts) :
    parts.map field = fs ∧
      ∀ part ∈ parts, part ≠ [] ∧ ∀ c ∈ part, Uri.isQueryChar c = true ∧ c ≠ '&' := by
  induction h with
  | nil => exact ⟨rfl, fun part hpart => absurd hpart List.not_mem_nil⟩
  | @cons f part fs parts hf hrest ih =>
    obtain ⟨hfield, hpart⟩ := field_of_writes hf
    rw [List.map_cons, hfield, ih.1]
    exact ⟨rfl, List.forall_mem_cons.mpr ⟨hpart, ih.2⟩⟩

/-- The fields of a query are read back, in their order. -/
theorem fields_of_writes {fs : List (String × String)} {parts : List (List Char)} (hne : fs ≠ [])
    (h : List.Forall₂ WritesField fs parts) : fields (.ofList (['&'].intercalate parts)) = fs := by
  obtain ⟨hfields, hparts⟩ := map_field_of_writes h
  have hsome : parts ≠ [] := by
    intro hnone
    rw [hnone] at hfields
    exact hne hfields.symm
  have hsplit : (['&'].intercalate parts).splitOn '&' = parts :=
    List.splitOn_intercalate '&' (fun part hpart hmem => ((hparts part hpart).2 _ hmem).2 rfl) hsome
  have hkept : parts.filter (· != []) = parts :=
    List.filter_eq_self.mpr fun part hpart => bne_iff_ne.mpr (hparts part hpart).1
  rw [fields, String.toList_ofList, hsplit, hkept, hfields]

/-- The query consists of the parameters of a request, in any order, under any of their names and
escaped in any way. -/
def Asks (r : ListUsers) (query : String) : Prop :=
  ∃ ps fs parts, List.Perm ps r.parameters ∧ List.Forall₂ Named ps fs ∧
    List.Forall₂ WritesField fs parts ∧ query = .ofList (['&'].intercalate parts)

/-- Every request for a page can be asked for. -/
theorem exists_asks (r : ListUsers) : ∃ query, Asks r query := by
  have hall {α β : Type} {R : α → β → Prop} (h : ∀ a, ∃ b, R a b) (as : List α) :
      ∃ bs, List.Forall₂ R as bs := by
    induction as with
    | nil => exact ⟨[], .nil⟩
    | cons a as ih =>
      obtain ⟨b, hb⟩ := h a
      obtain ⟨bs, hbs⟩ := ih
      exact ⟨b :: bs, .cons hb hbs⟩
  have hnamed (p : Parameter) : ∃ f, Named p f := by
    cases p with
    | limit _ | offset _ => exact ⟨(_, _), List.mem_singleton_self _, rfl⟩
    | filter key value => cases key <;> exact ⟨(_, _), List.mem_cons_self, rfl⟩
  have hfield (s : String) : ∃ cs, EscapesField s cs := by
    obtain ⟨spaced, h⟩ := exists_escapes (fun c => c == ' ' || isFieldChar c) (encode s)
    exact ⟨_, spaced, h, rfl⟩
  have hwrites (f : String × String) : ∃ part, WritesField f part := by
    obtain ⟨key, hkey⟩ := hfield f.1
    obtain ⟨value, hvalue⟩ := hfield f.2
    exact ⟨_, key, value, hkey, hvalue, rfl⟩
  obtain ⟨fs, hfs⟩ := hall hnamed r.parameters
  obtain ⟨parts, hparts⟩ := hall hwrites fs
  exact ⟨_, r.parameters, fs, parts, .refl _, hfs, hparts, rfl⟩

theorem Asks.listOfParameters {r : ListUsers} {query : String} (h : Asks r query) :
    Http.listOfParameters (lastValues (fields query)) = .ok r := by
  obtain ⟨ps, fs, parts, hps, hfs, hparts, rfl⟩ := h
  have hdistinct : ps.Pairwise fun p q => ∀ name ∈ p.names, name ∉ q.names :=
    hps.symm.pairwise (pairwise_parameters r) fun h name hq hp => h name hp hq
  have hne : fs ≠ [] := by
    rintro rfl
    cases hfs
    exact absurd hps.length_eq (by simp [ListUsers.parameters])
  rw [fields_of_writes hne hparts, lastValues_of_nodup (nodup_names hdistinct hfs)]
  exact listOfParameters_of_perm hps hfs

theorem forall_mem_intercalate {P : Char → Prop} {sep : Char} (hsep : P sep)
    {parts : List (List Char)} (h : ∀ part ∈ parts, ∀ c ∈ part, P c) :
    ∀ c ∈ [sep].intercalate parts, P c := by
  induction parts with
  | nil => exact fun c hc => absurd hc List.not_mem_nil
  | cons part parts ih =>
    obtain ⟨hpart, hparts⟩ := List.forall_mem_cons.mp h
    cases parts with
    | nil => rwa [List.intercalate_singleton]
    | cons next parts =>
      intro c hc
      rw [List.intercalate_cons_cons] at hc
      rcases List.mem_append.mp hc with hc | hc
      · rcases List.mem_append.mp hc with hc | hc
        · exact hpart c hc
        · exact List.mem_singleton.mp hc ▸ hsep
      · exact ih hparts c hc

/-- Such a query may stand in a target. -/
theorem Asks.isQueryChar {r : ListUsers} {query : String} (h : Asks r query) :
    ∀ c ∈ query.toList, Uri.isQueryChar c = true := by
  obtain ⟨ps, fs, parts, -, -, hparts, rfl⟩ := h
  have hall := (map_field_of_writes hparts).2
  rw [String.toList_ofList]
  apply forall_mem_intercalate (P := fun c => Uri.isQueryChar c = true) (by decide)
  exact fun part hpart c hc => ((hall part hpart).2 c hc).1

end Http

end Roster
