import Roster.Proofs.Queries
/-! # Orders of the parameters of a query

The parameters of a query are a map, and may be gone through in any order. Each of them says
something by itself or is refused, and the first refusal is the answer. So the order makes no
difference exactly if no two parameters are refused and, where none is, no filter has two values
under its two names. -/
namespace Roster

theorem FilterKey.parse_unknown {raw : String} (h : ∀ k : FilterKey, raw ∉ k.names) :
    parse raw = .error (.unknownFilter raw) := by
  have hid : raw ≠ "id" := by simpa [names] using h id
  have hcountry : raw ≠ "country" := by simpa [names] using h country
  have hnickname : raw ≠ "nickname" := by simpa [names] using h nickname
  have hfirst : raw ≠ "firstName" ∧ raw ≠ "first_name" := by simpa [names] using h firstName
  have hlast : raw ≠ "lastName" ∧ raw ≠ "last_name" := by simpa [names] using h lastName
  simp [parse, hid, hcountry, hnickname, hfirst, hlast]

namespace Http

/-- The parameter that a field of a query is, if it is one. -/
def Parameter.ofField? (f : String × String) : Option Parameter :=
  match f.1 with
  | "limit" => (readCount "limit" f.2).toOption.map .limit
  | "offset" => (readCount "offset" f.2).toOption.map .offset
  | key => (FilterKey.parse key).toOption.map fun k => .filter k f.2

/-- What is answered to a field that is no parameter. -/
def refusalOf (key : String) : Response :=
  if key = "limit" ∨ key = "offset" then
    .failure 400 ("bad request: " ++ key ++ " must be a non-negative integer")
  else failed (.invalid (.unknownFilter key))

/-- The field is no parameter: its value is no number where one is called for, or its key is no name
of a filter. -/
def Refused (f : String × String) : Prop :=
  if f.1 = "limit" ∨ f.1 = "offset" then
    ∀ n, Text.parseNatural? f.2 = some n → 0x100000000 ≤ n
  else ∀ k : FilterKey, f.1 ∉ k.names

theorem readCount_cases (key value : String) :
    (∃ n, readCount key value = .ok n) ∧ (∃ n < 0x100000000, Text.parseNatural? value = some n) ∨
      (∀ n, Text.parseNatural? value = some n → 0x100000000 ≤ n) ∧
        readCount key value =
          .error (.failure 400 ("bad request: " ++ key ++ " must be a non-negative integer")) := by
  unfold readCount
  cases hn : Text.parseNatural? value with
  | none => exact .inr ⟨nofun, rfl⟩
  | some n =>
    by_cases hlt : n < 0x100000000
    · exact .inl ⟨⟨_, if_pos hlt⟩, n, hlt, rfl⟩
    · refine .inr ⟨fun m hm => ?_, if_neg hlt⟩
      obtain rfl := Option.some.inj hm
      exact Nat.le_of_not_lt hlt

/-- A field is a parameter or is refused, whatever the request is that it is added to. -/
inductive Field.Read (f : String × String) : Prop
  | parameter (p : Parameter) (hgives : Parameter.ofField? f = some p) (hname : f.1 ∈ p.names)
      (hread : ¬ Refused f) (hadd : ∀ r, addParameter r f = .ok (p.apply r))
  | refused (hgives : Parameter.ofField? f = none) (hread : Refused f)
      (hadd : ∀ r, addParameter r f = .error (refusalOf f.1))

private theorem count_read {key value : String} {make : UInt32 → Parameter}
    (hkey : key = "limit" ∨ key = "offset") (hname : ∀ n, key ∈ (make n).names)
    (hgives : Parameter.ofField? (key, value) = (readCount key value).toOption.map make)
    (hadd : ∀ r, addParameter r (key, value) =
      (readCount key value).map fun n => (make n).apply r) : Field.Read (key, value) := by
  obtain ⟨⟨n, hread⟩, m, hlt, hm⟩ | ⟨hbad, hread⟩ := readCount_cases key value
  · refine .parameter (make n) ?_ (hname n) (fun h => ?_) fun r => ?_
    · rw [hgives, hread]
      rfl
    · rw [Refused, if_pos hkey] at h
      exact absurd (h m hm) (Nat.not_le_of_lt hlt)
    · rw [hadd, hread]
      rfl
  · refine .refused ?_ ?_ fun r => ?_
    · rw [hgives, hread]
      rfl
    · rwa [Refused, if_pos hkey]
    · rw [hadd, hread, refusalOf, if_pos hkey]
      rfl

theorem field_read (f : String × String) : Field.Read f := by
  obtain ⟨key, value⟩ := f
  by_cases hlimit : key = "limit"
  · subst hlimit
    exact count_read (.inl rfl) (fun n => List.mem_singleton_self _) rfl fun r => by
      simp only [addParameter]
      rfl
  by_cases hoffset : key = "offset"
  · subst hoffset
    exact count_read (.inr rfl) (fun n => List.mem_singleton_self _) rfl fun r => by
      simp only [addParameter]
      rfl
  have hpage : ¬ (key = "limit" ∨ key = "offset") := not_or.mpr ⟨hlimit, hoffset⟩
  have hgives : Parameter.ofField? (key, value) =
      (FilterKey.parse key).toOption.map fun k => .filter k value := by
    simp only [Parameter.ofField?]
  have hadd (r : ListUsers) : addParameter r (key, value) =
      (r.setFilter key value).mapError fun e => failed (.invalid e) := by
    simp only [addParameter]
  by_cases h : ∃ k : FilterKey, key ∈ k.names
  · obtain ⟨k, hk⟩ := h
    have hparse := FilterKey.parse_name hk
    refine .parameter (.filter k value) ?_ hk (fun h => ?_) fun r => ?_
    · rw [hgives, hparse]
      rfl
    · rw [Refused, if_neg hpage] at h
      exact h k hk
    · rw [hadd, ListUsers.setFilter, hparse]
      rfl
  · have hnone (k : FilterKey) : key ∉ k.names := fun hk => h ⟨k, hk⟩
    have hparse := FilterKey.parse_unknown hnone
    refine .refused ?_ ?_ fun r => ?_
    · rw [hgives, hparse]
      rfl
    · rwa [Refused, if_neg hpage]
    · rw [hadd, ListUsers.setFilter, hparse, refusalOf, if_neg hpage]
      rfl

theorem refused_iff (f : String × String) : Refused f ↔ Parameter.ofField? f = none := by
  cases field_read f with
  | parameter p hgives hname hread hadd => exact iff_of_false hread (by rw [hgives]; exact nofun)
  | refused hgives hread hadd => exact iff_of_true hread hgives

instance (f : String × String) : Decidable (Refused f) := decidable_of_iff' _ (refused_iff f)

theorem refusalOf_injective : Function.Injective refusalOf := by
  intro key key' h
  -- What is refused is told apart by the words behind the common front of all refusals.
  let reason (key : String) : String :=
    if key = "limit" ∨ key = "offset" then key ++ " must be a non-negative integer"
    else "unknown filter key: " ++ key
  have hreason (key : String) : refusalOf key = .failure 400 ("bad request: " ++ reason key) := by
    unfold refusalOf
    by_cases hpage : key = "limit" ∨ key = "offset"
    · simp only [reason, if_pos hpage, String.append_assoc]
    · simp only [reason, if_neg hpage]
      rfl
  have hsame : reason key = reason key' := by
    rw [hreason, hreason] at h
    simpa [Response.failure, Response.ofBody] using congrArg Response.body h
  have hfirst {k k' : String} (hpage : k = "limit" ∨ k = "offset") :
      k ++ " must be a non-negative integer" ≠ "unknown filter key: " ++ k' := by
    intro heq
    have hchars := congrArg String.toList heq
    rcases hpage with rfl | rfl <;> simp at hchars
  by_cases hpage : key = "limit" ∨ key = "offset"
  · by_cases hpage' : key' = "limit" ∨ key' = "offset"
    · simp only [reason, if_pos hpage, if_pos hpage'] at hsame
      exact (String.append_left_inj _).mp hsame
    · simp only [reason, if_pos hpage, if_neg hpage'] at hsame
      exact absurd hsame (hfirst hpage)
  · by_cases hpage' : key' = "limit" ∨ key' = "offset"
    · simp only [reason, if_neg hpage, if_pos hpage'] at hsame
      exact absurd hsame.symm (hfirst hpage')
    · simp only [reason, if_neg hpage, if_neg hpage'] at hsame
      exact (String.append_right_inj _).mp hsame

theorem foldlM_refused_cons {f : String × String} (hf : Refused f) (fs : List (String × String))
    (r : ListUsers) : (f :: fs).foldlM addParameter r = .error (refusalOf f.1) := by
  rw [List.foldlM_cons]
  cases field_read f with
  | parameter p hgives hname hread hadd => exact absurd hf hread
  | refused hgives hread hadd =>
    rw [hadd]
    rfl

theorem foldlM_read {fs : List (String × String)} (h : ∀ f ∈ fs, ¬ Refused f) (r : ListUsers) :
    fs.foldlM addParameter r =
      .ok ((fs.filterMap Parameter.ofField?).foldl Parameter.apply r) := by
  induction fs generalizing r with
  | nil => rfl
  | cons f fs ih =>
    obtain ⟨hfirst, hrest⟩ := List.forall_mem_cons.mp h
    cases field_read f with
    | parameter p hgives hname hread hadd =>
      rw [List.foldlM_cons, hadd, List.filterMap_cons_some hgives, List.foldl_cons]
      exact ih hrest (p.apply r)
    | refused hgives hread hadd => exact absurd hread hfirst

/-- One field alone is refused, so that it decides the answer wherever it stands. -/
theorem foldlM_refused {fs : List (String × String)} {f : String × String} (hmem : f ∈ fs)
    (hf : Refused f) (honly : ∀ g ∈ fs, Refused g → g = f) (r : ListUsers) :
    fs.foldlM addParameter r = .error (refusalOf f.1) := by
  induction fs generalizing r with
  | nil => exact absurd hmem List.not_mem_nil
  | cons g fs ih =>
    obtain ⟨hfirst, hrest⟩ := List.forall_mem_cons.mp honly
    by_cases hg : Refused g
    · obtain rfl := hfirst hg
      exact foldlM_refused_cons hg fs r
    · have hne : f ≠ g := by
        rintro rfl
        exact hg hf
      have hlater : f ∈ fs := List.mem_of_ne_of_mem hne hmem
      cases field_read g with
      | parameter p hgives hname hread hadd =>
        rw [List.foldlM_cons, hadd]
        exact ih hlater hrest (p.apply r)
      | refused hgives hread hadd => exact absurd hread hg

theorem Parameter.ofField?_filter {f : String × String} {k : FilterKey} {value : String}
    (h : ofField? f = some (.filter k value)) : value = f.2 := by
  unfold ofField? at h
  split at h
  · simp at h
  · simp at h
  · obtain ⟨k', -, heq⟩ := Option.map_eq_some_iff.mp h
    injection heq with _ hvalue
    exact hvalue.symm

/-- No filter has two values under its names. -/
def Unambiguous (fs : List (String × String)) : Prop :=
  ∀ k : FilterKey, ∀ f ∈ fs, ∀ g ∈ fs, f.1 ∈ k.names → g.1 ∈ k.names → f.2 = g.2

theorem Parameter.mem_names_of_ofField? {f : String × String} {p : Parameter}
    (h : ofField? f = some p) : f.1 ∈ p.names := by
  cases field_read f with
  | parameter p' hgives hname hread hadd => exact Option.some.inj (hgives.symm.trans h) ▸ hname
  | refused hgives hread hadd => exact absurd (h.symm.trans hgives) nofun

theorem swap_of_unambiguous {fs : List (String × String)} (hkeys : (fs.map (·.1)).Nodup)
    (h : Unambiguous fs) {p q : Parameter} (hp : p ∈ fs.filterMap Parameter.ofField?)
    (hq : q ∈ fs.filterMap Parameter.ofField?) (r : ListUsers) :
    q.apply (p.apply r) = p.apply (q.apply r) := by
  obtain ⟨f, hf, hgives⟩ := List.mem_filterMap.mp hp
  obtain ⟨g, hg, hgives'⟩ := List.mem_filterMap.mp hq
  have hname := Parameter.mem_names_of_ofField? hgives
  have hname' := Parameter.mem_names_of_ofField? hgives'
  -- A count has one name, and no two fields have the same key.
  have hsame (hkey : f.1 = g.1) : p = q := by
    obtain rfl := List.inj_on_of_nodup_map hkeys hf hg hkey
    exact Option.some.inj (hgives.symm.trans hgives')
  have hapart : "limit" ≠ "offset" := by decide
  refine Parameter.apply_swap (fun name hp hq => ?_) r
  cases p with
  | limit _ =>
    cases q with
    | limit _ =>
      exact hsame ((List.mem_singleton.mp hname).trans (List.mem_singleton.mp hname').symm)
    | offset _ =>
      exact absurd ((List.mem_singleton.mp hp).symm.trans (List.mem_singleton.mp hq)) hapart
    | filter k _ => exact absurd (List.mem_singleton.mp hp) (FilterKey.ne_of_mem_names hq).1
  | offset _ =>
    cases q with
    | limit _ =>
      exact absurd ((List.mem_singleton.mp hq).symm.trans (List.mem_singleton.mp hp)) hapart
    | offset _ =>
      exact hsame ((List.mem_singleton.mp hname).trans (List.mem_singleton.mp hname').symm)
    | filter k _ => exact absurd (List.mem_singleton.mp hp) (FilterKey.ne_of_mem_names hq).2
  | filter k value =>
    cases q with
    | limit _ => exact absurd (List.mem_singleton.mp hq) (FilterKey.ne_of_mem_names hp).1
    | offset _ => exact absurd (List.mem_singleton.mp hq) (FilterKey.ne_of_mem_names hp).2
    | filter k' value' =>
      have hkey : k = k' :=
        Except.ok.inj ((FilterKey.parse_name hp).symm.trans (FilterKey.parse_name hq))
      subst hkey
      obtain rfl := Parameter.ofField?_filter hgives
      obtain rfl := Parameter.ofField?_filter hgives'
      rw [h k f hf g hg hname hname']

/-- Any two fields may come first. -/
theorem exists_perm_cons_cons {fs : List (String × String)} {f g : String × String} (hf : f ∈ fs)
    (hg : g ∈ fs) (hne : f ≠ g) :
    ∃ rest, (f :: g :: rest).Perm fs ∧ ∀ e ∈ rest, e ∈ fs := by
  have hlater : g ∈ fs.erase f := (List.mem_erase_of_ne hne.symm).mpr hg
  have hfront : fs.Perm (f :: g :: (fs.erase f).erase g) :=
    (List.perm_cons_erase hf).trans ((List.perm_cons_erase hlater).cons f)
  exact ⟨_, hfront.symm, fun e he => List.mem_of_mem_erase (List.mem_of_mem_erase he)⟩

section

variable {fs : List (String × String)}

/-- Of two refused fields the one that comes first is told. -/
theorem eq_of_refused (hkeys : (fs.map (·.1)).Nodup)
    (horder : ∀ gs, gs.Perm fs → listOfParameters gs = listOfParameters fs)
    {f g : String × String} (hf : f ∈ fs) (hg : g ∈ fs) (hbad : Refused f) (hbad' : Refused g) :
    f = g := by
  by_contra hne
  obtain ⟨rest, hperm, -⟩ := exists_perm_cons_cons hf hg hne
  have hone := (horder _ hperm).symm.trans (foldlM_refused_cons hbad _ {})
  have hother := (horder _ ((List.Perm.swap f g rest).trans hperm)).symm.trans
    (foldlM_refused_cons hbad' _ {})
  have hsame : f.1 = g.1 := refusalOf_injective (Except.error.inj (hone.symm.trans hother))
  exact hne (List.inj_on_of_nodup_map hkeys hf hg hsame)

/-- Of two values of a filter the one that comes last counts. -/
theorem exists_filter_last {rest : List (String × String)} (hgood : ∀ f ∈ rest, ¬ Refused f)
    {k : FilterKey} {name name' : String} (hname : name ∈ k.names) (hname' : name' ∈ k.names)
    (value value' : String) :
    ∃ r, listOfParameters (rest ++ [(name, value), (name', value')]) = .ok r ∧
      r.filter k = value' := by
  have hnamed : List.Forall₂ Named [.filter k value, .filter k value']
      [(name, value), (name', value')] := .cons ⟨hname, rfl⟩ (.cons ⟨hname', rfl⟩ .nil)
  rw [listOfParameters, List.foldlM_append, foldlM_read hgood]
  exact ⟨_, listOfParameters_named hnamed _, (ListUsers.filter_withFilter ..).trans (if_pos rfl)⟩

theorem unambiguous_of_order_immaterial
    (horder : ∀ gs, gs.Perm fs → listOfParameters gs = listOfParameters fs)
    (hgood : ∀ f ∈ fs, ¬ Refused f) : Unambiguous fs := by
  intro k f hf g hg hname hname'
  by_contra hne
  have hapart : f ≠ g := fun heq => hne (congrArg Prod.snd heq)
  obtain ⟨rest, hperm, hsub⟩ := exists_perm_cons_cons hf hg hapart
  have hrest : ∀ e ∈ rest, ¬ Refused e := fun e he => hgood e (hsub e he)
  have hback : (rest ++ [f, g]).Perm fs := List.perm_append_comm.trans hperm
  have hback' : (rest ++ [g, f]).Perm fs :=
    List.perm_append_comm.trans ((List.Perm.swap f g rest).trans hperm)
  obtain ⟨r, hr, hv⟩ := exists_filter_last hrest hname hname' f.2 g.2
  obtain ⟨r', hr', hv'⟩ := exists_filter_last hrest hname' hname g.2 f.2
  have hsame : (.ok r : Except Response ListUsers) = .ok r' := calc
    .ok r = listOfParameters (rest ++ [f, g]) := hr.symm
    _ = listOfParameters fs := horder _ hback
    _ = listOfParameters (rest ++ [g, f]) := (horder _ hback').symm
    _ = .ok r' := hr'
  obtain rfl := Except.ok.inj hsame
  exact hne (hv'.symm.trans hv)

theorem listOfParameters_perm (hkeys : (fs.map (·.1)).Nodup)
    (honly : ∀ f ∈ fs, ∀ g ∈ fs, Refused f → Refused g → f = g)
    (hclear : (∀ f ∈ fs, ¬ Refused f) → Unambiguous fs) {gs : List (String × String)}
    (hperm : gs.Perm fs) : listOfParameters gs = listOfParameters fs := by
  by_cases hbad : ∃ f ∈ fs, Refused f
  · obtain ⟨f, hf, hrefused⟩ := hbad
    have hall : ∀ g ∈ fs, Refused g → g = f := fun g hg hgbad => honly g hg f hf hgbad hrefused
    rw [listOfParameters, listOfParameters, foldlM_refused hf hrefused hall,
      foldlM_refused (hperm.mem_iff.mpr hf) hrefused fun g hg => hall g (hperm.mem_iff.mp hg)]
  · have hgood : ∀ f ∈ fs, ¬ Refused f := fun f hf hrefused => hbad ⟨f, hf, hrefused⟩
    rw [listOfParameters, listOfParameters, foldlM_read hgood,
      foldlM_read fun g hg => hgood g (hperm.mem_iff.mp hg)]
    have hswap := fun p hp q hq => swap_of_unambiguous (p := p) (q := q) hkeys (hclear hgood)
      ((hperm.filterMap _).mem_iff.mp hp) ((hperm.filterMap _).mem_iff.mp hq)
    rw [(hperm.filterMap Parameter.ofField?).foldl_eq' hswap]

end

/-- The order of the parameters makes no difference exactly if at most one is refused and, where
none is, no filter has two values. -/
theorem order_immaterial_iff {fs : List (String × String)} (hkeys : (fs.map (·.1)).Nodup) :
    (∀ gs, gs.Perm fs → listOfParameters gs = listOfParameters fs) ↔
      (∀ f ∈ fs, ∀ g ∈ fs, Refused f → Refused g → f = g) ∧
        ((∀ f ∈ fs, ¬ Refused f) → Unambiguous fs) := by
  constructor
  · intro horder
    exact ⟨fun f hf g hg => eq_of_refused hkeys horder hf hg,
      unambiguous_of_order_immaterial horder⟩
  · rintro ⟨honly, hclear⟩ gs hperm
    exact listOfParameters_perm hkeys honly hclear hperm

theorem order_immaterial_of_limit_firstName :
    (([("limit", "5"), ("first_name", "ann")] : List (String × String)).map (·.1)).Nodup ∧
      ∀ gs, gs.Perm [("limit", "5"), ("first_name", "ann")] →
        listOfParameters gs = .ok { limit := 5, firstName := "ann" } := by
  refine ⟨by decide, fun gs hperm => ?_⟩
  have hclear : ∀ k ∈ FilterKey.all, ∀ f ∈ [("limit", "5"), ("first_name", "ann")],
      ∀ g ∈ [("limit", "5"), ("first_name", "ann")],
        f.1 ∈ k.names → g.1 ∈ k.names → f.2 = g.2 := by decide
  exact (order_immaterial_iff (by decide)).mpr ⟨by decide, fun _ k => hclear k k.mem_all⟩ gs hperm

/-- Of one filter under both of its names the last value counts, of two bad counts the first is
told. -/
theorem order_material :
    (([("first_name", "ann"), ("firstName", "bob")] : List (String × String)).map (·.1)).Nodup ∧
    [("firstName", "bob"), ("first_name", "ann")].Perm
      [("first_name", "ann"), ("firstName", "bob")] ∧
    listOfParameters [("first_name", "ann"), ("firstName", "bob")] = .ok { firstName := "bob" } ∧
    listOfParameters [("firstName", "bob"), ("first_name", "ann")] = .ok { firstName := "ann" } ∧
    listOfParameters [("limit", "x"), ("offset", "x")] =
      .error (.failure 400 "bad request: limit must be a non-negative integer") ∧
    listOfParameters [("offset", "x"), ("limit", "x")] =
      .error (.failure 400 "bad request: offset must be a non-negative integer") :=
  ⟨by decide, .swap _ _ _, rfl, rfl, rfl, rfl⟩

end Http

end Roster
