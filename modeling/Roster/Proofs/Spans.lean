import Roster.Notes
/-! # Notes that close the spans that they open

Whatever opens and closes spans in pairs leaves the spans around it alone: the notes before it and
behind it are read as if it were not there. -/
namespace Roster

/-- The span, inside others. -/
def Span.under (outer : List String) (s : Span) : Span := { s with path := outer ++ s.path }

@[simp] theorem Span.under_nil (s : Span) : s.under [] = s := rfl

@[simp] theorem Span.under_under (outer inner : List String) (s : Span) :
    (s.under inner).under outer = s.under (outer ++ inner) := by
  simp [under]

/-- It is no edge of a span. -/
def Note.plain : Note → Bool
  | .opened .. | .closed _ => false
  | _ => true

namespace Notes

/-- Whoever notes this closes every span that it opens. -/
inductive Bracketed : Notes → Prop
  | nil : Bracketed []
  | note {n : Note} {rest : Notes} (hn : n.plain = true) (hrest : Bracketed rest) :
      Bracketed (n :: rest)
  | span {name : String} {fields closing : List Field} {inner rest : Notes}
      (hinner : Bracketed inner) (hrest : Bracketed rest) :
      Bracketed (.opened name fields :: (inner ++ .closed closing :: rest))

/-- The notes but for the edges of spans, each with the names of the spans around it. -/
def placed (inside : List String) : Notes → List (List String × Note)
  | [] => []
  | .opened name _ :: rest => placed (inside ++ [name]) rest
  | .closed _ :: rest => placed inside.dropLast rest
  | n :: rest => (inside, n) :: placed inside rest

/-- The event that was noted at a place, if it was one. -/
def event? : List String × Note → Option Event
  | (inside, .event e) => some { e with spans := inside }
  | _ => none

theorem events_eq (inside : List String) (notes : Notes) :
    notes.events inside = (placed inside notes).filterMap event? := by
  induction notes generalizing inside with
  | nil => rfl
  | cons n notes ih =>
    cases n with
    | event e => exact congrArg _ (ih inside)
    | _ => exact ih _

theorem placed_note {n : Note} (hn : n.plain = true) (inside : List String) (rest : Notes) :
    placed inside (n :: rest) = (inside, n) :: placed inside rest := by
  cases n with
  | opened | closed => cases hn
  | _ => rfl

theorem spansFrom_note {n : Note} (hn : n.plain = true) (inside : List Open) (spans : Array Span)
    (rest : Notes) : spansFrom inside spans (n :: rest) = spansFrom inside spans rest := by
  cases n with
  | opened | closed => cases hn
  | _ => rfl

theorem modify_push_append {α : Type} (xs ys : Array α) (a : α) (f : α → α) :
    (xs.push a ++ ys).modify xs.size f = xs.push (f a) ++ ys := by
  apply Array.ext'
  rw [Array.toList_modify, List.modify_eq_take_cons_drop (by simp)]
  simp [List.drop_append]

namespace Bracketed

variable {a b : Notes}

theorem singleton {n : Note} (hn : n.plain = true) : Bracketed [n] := .note hn .nil

theorem of_plain {notes : Notes} (h : ∀ n ∈ notes, n.plain = true) : Bracketed notes := by
  induction notes with
  | nil => exact .nil
  | cons n notes ih =>
    obtain ⟨hn, hrest⟩ := List.forall_mem_cons.mp h
    exact .note hn (ih hrest)

theorem append (ha : Bracketed a) (hb : Bracketed b) : Bracketed (a ++ b) := by
  induction ha with
  | nil => exact hb
  | note hn _ ih => exact .note hn ih
  | span hinner _ _ ih =>
    rw [List.cons_append, List.append_assoc, List.cons_append]
    exact .span hinner ih

theorem placed_append (ha : Bracketed a) (inside : List String) (more : Notes) :
    placed inside (a ++ more) = placed inside a ++ placed inside more := by
  induction ha generalizing inside more with
  | nil => rfl
  | note hn _ ih => simp only [List.cons_append, placed_note hn, ih]
  | span hinner _ ih ih' =>
    simp only [List.cons_append, List.append_assoc, placed, ih, ih', List.dropLast_concat]

theorem placed_span {name : String} {fields closing : List Field} (ha : Bracketed a)
    (inside : List String) (more : Notes) :
    placed inside (.opened name fields :: (a ++ .closed closing :: more)) =
      placed (inside ++ [name]) a ++ placed inside more := by
  simp only [placed, ha.placed_append, List.dropLast_concat]

/-- The spans of notes come one after the other, below those that are open. -/
theorem exists_spans (ha : Bracketed a) : ∃ spans' : List Span, ∀ inside spans more,
    spansFrom inside spans (a ++ more) =
      spansFrom inside (spans ++ (spans'.map (·.under (inside.map (·.name)))).toArray) more := by
  induction ha with
  | nil => exact ⟨[], fun inside spans more => by simp⟩
  | note hn _ ih =>
    obtain ⟨spans', h⟩ := ih
    refine ⟨spans', fun inside spans more => ?_⟩
    rw [List.cons_append, spansFrom_note hn, h]
  | span hinner _ ih ih' =>
    rename_i name fields closing inner rest _
    obtain ⟨inners, hinners⟩ := ih
    obtain ⟨rests, hrests⟩ := ih'
    refine ⟨{ path := [name], fields := fields ++ closing, closed := true } ::
      (inners.map (·.under [name]) ++ rests), fun inside spans more => ?_⟩
    simp only [List.cons_append, List.append_assoc, spansFrom, hinners, List.getLast?_concat,
      List.dropLast_concat, modify_push_append, hrests]
    congr 1
    apply Array.ext'
    simp [Span.under]

theorem spansFrom_append (ha : Bracketed a) (inside : List Open) (spans : Array Span)
    (more : Notes) :
    spansFrom inside spans (a ++ more) =
      spansFrom inside (spans ++ (a.spans.map (·.under (inside.map (·.name)))).toArray) more := by
  obtain ⟨spans', h⟩ := ha.exists_spans
  have hspans : a.spans = spans' := by
    have hall := h [] #[] []
    rw [List.append_nil] at hall
    simp [Notes.spans, hall, spansFrom]
  rw [h, hspans]

theorem spans_append (ha : Bracketed a) (hb : Bracketed b) :
    (a ++ b).spans = a.spans ++ b.spans := by
  have hb' := hb.spansFrom_append [] (#[] ++ (a.spans.map (·.under [])).toArray) []
  rw [List.append_nil] at hb'
  rw [Notes.spans, ha.spansFrom_append, List.map_nil, hb']
  simp [spansFrom]

theorem spans_span {name : String} {fields closing : List Field} (ha : Bracketed a) :
    spans (.opened name fields :: (a ++ [.closed closing])) =
      { path := [name], fields := fields ++ closing, closed := true } ::
        a.spans.map (·.under [name]) := by
  simp only [Notes.spans, spansFrom, ha.spansFrom_append]
  simp

theorem spans_of_plain {notes : Notes} (h : ∀ n ∈ notes, n.plain = true) : notes.spans = [] := by
  have hall (inside : List Open) (spans : Array Span) : spansFrom inside spans notes = spans := by
    induction notes with
    | nil => rfl
    | cons n notes ih =>
      obtain ⟨hn, hrest⟩ := List.forall_mem_cons.mp h
      rw [spansFrom_note hn, ih hrest]
  simp [Notes.spans, hall]

/-- Every span was opened, and its path ends in its name. -/
theorem exists_opened (ha : Bracketed a) {s : Span} (hs : s ∈ a.spans) :
    ∃ name fields, .opened name fields ∈ a ∧ s.path.getLast? = some name := by
  induction ha generalizing s with
  | nil => exact absurd hs List.not_mem_nil
  | note hn hrest ih =>
    rename_i n rest
    have hsame : spans (n :: rest) = rest.spans :=
      congrArg Array.toList (spansFrom_note hn [] #[] rest)
    rw [hsame] at hs
    obtain ⟨name, fields, hopened, hlast⟩ := ih hs
    exact ⟨name, fields, List.mem_cons_of_mem _ hopened, hlast⟩
  | span hinner hrest ih ih' =>
    rename_i name fields closing inner rest
    have hsplit : Note.opened name fields :: (inner ++ .closed closing :: rest) =
        (.opened name fields :: (inner ++ [.closed closing])) ++ rest := by simp
    have hfirst : Bracketed (.opened name fields :: (inner ++ [.closed closing])) :=
      .span hinner .nil
    rw [hsplit, hfirst.spans_append hrest, hinner.spans_span, List.mem_append, List.mem_cons,
      List.mem_map] at hs
    rw [hsplit]
    obtain (rfl | ⟨s', hs', rfl⟩) | hs := hs
    · exact ⟨name, fields, by simp, rfl⟩
    · obtain ⟨name', fields', hopened, hlast⟩ := ih hs'
      exact ⟨name', fields', by simp [hopened], by simp [Span.under, List.getLast?_cons, hlast]⟩
    · obtain ⟨name', fields', hopened, hlast⟩ := ih' hs
      exact ⟨name', fields', by simp [hopened], hlast⟩

end Bracketed

end Notes

end Roster
