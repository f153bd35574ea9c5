import Mathlib.Data.List.Induction
import Roster.Proofs.Ambiguity
import Roster.Proofs.Listing
/-! # Filters set one after the other

A caller sets filters step by step, each under some name. A step whose name is no key is refused and
changes nothing, every other step sets one filter. So of each filter the last value counts, under
whichever of its names it was given, and an empty one takes the condition away. -/
namespace Roster

namespace FilterKey

/-- The name is one of the names of a filter. -/
def isName (name : String) : Bool := all.any fun k => k.names.contains name

theorem isName_eq_true {name : String} : isName name = true ↔ ∃ k : FilterKey, name ∈ k.names := by
  simp only [isName, List.any_eq_true, List.contains_iff_mem]
  exact ⟨fun ⟨k, _, h⟩ => ⟨k, h⟩, fun ⟨k, h⟩ => ⟨k, k.mem_all, h⟩⟩

/-- No two filters share a name. -/
theorem eq_of_mem_names {k k' : FilterKey} {name : String} (h : name ∈ k.names)
    (h' : name ∈ k'.names) : k = k' :=
  Except.ok.inj ((parse_name h).symm.trans (parse_name h'))

end FilterKey

namespace ListUsers

/-- The request after a step, which names a filter and gives it a value. A step that is refused
leaves the request as it was. -/
def after (r : ListUsers) (step : String × String) : ListUsers :=
  match r.setFilter step.1 step.2 with
  | .ok changed => changed
  | .error _ => r

/-- What a step is answered. -/
def answer (r : ListUsers) (step : String × String) : Except Invalid Unit :=
  (r.setFilter step.1 step.2).map fun _ => ()

section

variable (r : ListUsers) {step : String × String}

theorem setFilter_name {k : FilterKey} {name : String} (h : name ∈ k.names) (value : String) :
    r.setFilter name value = .ok (r.withFilter k value) := by
  rw [setFilter, FilterKey.parse_name h]
  rfl

theorem setFilter_unknown {name : String} (h : ∀ k : FilterKey, name ∉ k.names) (value : String) :
    r.setFilter name value = .error (.unknownFilter name) := by
  rw [setFilter, FilterKey.parse_unknown h]
  rfl

theorem after_name {k : FilterKey} (h : step.1 ∈ k.names) :
    r.after step = r.withFilter k step.2 := by rw [after, r.setFilter_name h]

theorem after_unknown (h : ∀ k : FilterKey, step.1 ∉ k.names) : r.after step = r := by
  rw [after, r.setFilter_unknown h]

theorem answer_eq (step : String × String) :
    r.answer step =
      if FilterKey.isName step.1 then .ok () else .error (.unknownFilter step.1) := by
  by_cases h : ∃ k : FilterKey, step.1 ∈ k.names
  · obtain ⟨k, hk⟩ := h
    rw [if_pos (FilterKey.isName_eq_true.mpr ⟨k, hk⟩), answer, r.setFilter_name hk]
    rfl
  · rw [if_neg (mt FilterKey.isName_eq_true.mp h), answer, r.setFilter_unknown (not_exists.mp h)]
    rfl

/-- A step sets the filter that it names and no other. -/
theorem filter_after (step : String × String) (k : FilterKey) :
    (r.after step).filter k = if step.1 ∈ k.names then step.2 else r.filter k := by
  by_cases h : ∃ k' : FilterKey, step.1 ∈ k'.names
  · obtain ⟨k', hk'⟩ := h
    rw [r.after_name hk', filter_withFilter]
    refine if_congr ⟨fun heq => heq ▸ hk', fun hk => FilterKey.eq_of_mem_names hk hk'⟩ rfl rfl
  · have hnone := not_exists.mp h
    rw [r.after_unknown hnone, if_neg (hnone k)]

theorem window_after (step : String × String) :
    (r.after step).limit = r.limit ∧ (r.after step).offset = r.offset := by
  by_cases h : ∃ k : FilterKey, step.1 ∈ k.names
  · obtain ⟨k, hk⟩ := h
    rw [r.after_name hk]
    cases k <;> exact ⟨rfl, rfl⟩
  · rw [r.after_unknown (not_exists.mp h)]
    exact ⟨rfl, rfl⟩

end

/-- The request after several steps. -/
def afterAll (r : ListUsers) (steps : List (String × String)) : ListUsers := steps.foldl after r

/-- What each of several steps is answered. -/
def answers (r : ListUsers) : List (String × String) → List (Except Invalid Unit)
  | [] => []
  | step :: rest => r.answer step :: (r.after step).answers rest

/-- The value of the last step that names a filter. -/
def lastValue? (k : FilterKey) (steps : List (String × String)) : Option String :=
  (steps.filter fun s => s.1 ∈ k.names).getLast?.map (·.2)

theorem lastValue?_concat (k : FilterKey) (steps : List (String × String)) (s : String × String) :
    lastValue? k (steps ++ [s]) =
      if s.1 ∈ k.names then some s.2 else lastValue? k steps := by
  by_cases h : s.1 ∈ k.names <;> simp [lastValue?, List.filter_append, h]

theorem afterAll_concat (r : ListUsers) (steps : List (String × String)) (s : String × String) :
    r.afterAll (steps ++ [s]) = (r.afterAll steps).after s := List.foldl_concat ..

theorem filter_afterAll (r : ListUsers) (steps : List (String × String)) (k : FilterKey) :
    (r.afterAll steps).filter k = (lastValue? k steps).getD (r.filter k) := by
  induction steps using List.reverseRecOn with
  | nil => rfl
  | append_singleton steps s ih =>
    rw [afterAll_concat, filter_after, lastValue?_concat, ih]
    split <;> rfl

theorem window_afterAll (r : ListUsers) (steps : List (String × String)) :
    (r.afterAll steps).limit = r.limit ∧ (r.afterAll steps).offset = r.offset := by
  induction steps generalizing r with
  | nil => exact ⟨rfl, rfl⟩
  | cons s steps ih =>
    obtain ⟨hlimit, hoffset⟩ := ih (r.after s)
    obtain ⟨hlimit', hoffset'⟩ := r.window_after s
    exact ⟨hlimit.trans hlimit', hoffset.trans hoffset'⟩

theorem answers_eq (r : ListUsers) (steps : List (String × String)) :
    r.answers steps = steps.map fun s =>
      if FilterKey.isName s.1 then .ok () else .error (.unknownFilter s.1) := by
  induction steps generalizing r with
  | nil => rfl
  | cons s steps ih => rw [answers, answer_eq, ih, List.map_cons]

/-- The conditions stand in the order of the keys, one for each filter that is set. -/
theorem entries_conditions (r : ListUsers) :
    r.conditions.entries =
      (FilterKey.all.filter fun k => r.filter k ≠ "").map fun k => (k, r.filter k) := by
  rw [Conditions.entries, ← List.filterMap_eq_map, List.filterMap_filter]
  refine List.filterMap_congr fun k _ => ?_
  rw [get?_conditions]
  by_cases h : r.filter k = "" <;> simp [h]

/-- Whatever filters a caller sets one after the other, a step under a name that is no key is told
so and changes nothing. In the end a filter has the last value that it was given under any of its
names, and is a condition unless that value is empty. The window stays as it was, and the
conditions stand in one order, each key once. -/
theorem last_value_counts (r : ListUsers) (steps : List (String × String)) :
    (∀ pre s, (∀ k : FilterKey, s.1 ∉ k.names) →
      (r.afterAll pre).answer s = .error (.unknownFilter s.1) ∧
        r.afterAll (pre ++ [s]) = r.afterAll pre) ∧
    (r.answers steps = steps.map fun s =>
      if FilterKey.isName s.1 then .ok () else .error (.unknownFilter s.1)) ∧
    (∀ k, (r.afterAll steps).conditions.get? k =
      if (lastValue? k steps).getD (r.filter k) = "" then none
      else some ((lastValue? k steps).getD (r.filter k))) ∧
    (r.afterAll steps).limit = r.limit ∧ (r.afterAll steps).offset = r.offset ∧
    ((r.afterAll steps).conditions.entries.map (·.1.column)).Sublist
      ["id", "country", "nickname", "first_name", "last_name"] ∧
    ((r.afterAll steps).conditions.entries.map (·.1.column)).Nodup := by
  have hcolumns : ((r.afterAll steps).conditions.entries.map (·.1.column)).Sublist
      ["id", "country", "nickname", "first_name", "last_name"] := by
    rw [entries_conditions, List.map_map]
    exact List.filter_sublist.map FilterKey.column
  obtain ⟨hlimit, hoffset⟩ := r.window_afterAll steps
  refine ⟨fun pre s hs => ⟨?_, ?_⟩, r.answers_eq steps, fun k => ?_, hlimit, hoffset, hcolumns,
    hcolumns.nodup (by decide)⟩
  · rw [answer, setFilter_unknown _ hs]
    rfl
  · rw [afterAll_concat, after_unknown _ hs]
  · rw [get?_conditions, filter_afterAll]

/-- A filter is set under one of its names and cleared under the other, with a step between the two
that is refused. -/
theorem last_value_counts_of_cleared :
    let r : ListUsers := { limit := 5, country := "NL" }
    let steps := [("first_name", "ann"), ("email", "x"), ("firstName", ""), ("nickname", "a"),
      ("nickname", "b")]
    (∀ k : FilterKey, "email" ∉ k.names) ∧
      r.answers steps = [.ok (), .error (.unknownFilter "email"), .ok (), .ok (), .ok ()] ∧
      r.afterAll [("first_name", "ann"), ("email", "x")] = r.afterAll [("first_name", "ann")] ∧
      (r.afterAll steps).conditions.get? .firstName = none ∧
      (r.afterAll steps).conditions.get? .nickname = some "b" ∧
      (r.afterAll steps).conditions.get? .country = some "NL" := by
  intro r steps
  have hemail (k : FilterKey) : "email" ∉ k.names := by cases k <;> decide
  obtain ⟨hrefused, hanswers, hvalues, -⟩ := last_value_counts r steps
  exact ⟨hemail, hanswers, (hrefused [("first_name", "ann")] ("email", "x") hemail).2,
    hvalues .firstName, hvalues .nickname, hvalues .country⟩

end ListUsers

end Roster
