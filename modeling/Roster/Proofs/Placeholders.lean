import Roster.Proofs.Plans
/-! # The places of values in a statement

The text of a statement says where a value belongs and never what it is. Statements that are told
apart by their values alone have one text. The places in it are numbered from one without a gap, and
the value that is bound to a place is the one of the column, or of the bound of the window, beside
which the place stands. -/
namespace Roster

open Postgres Sql Text

namespace Sql

/-- What is left of a value if it is not known. -/
def Value.hollow : Value → Value
  | text _ => text ""
  | count _ => count 0
  | time _ => time .epoch

def Piece.hollow : Piece → Piece
  | words s => words s
  | value v => value v.hollow

namespace Statement

/-- The same statement without its values. The words of a statement to a channel hold a name, which
is no value. -/
def hollow : Statement → Statement
  | insert values => insert (values.map Value.hollow)
  | update changes _ => update (changes.map fun c => (c.1, c.2.hollow)) ""
  | delete _ => delete ""
  | select conditions _ _ => select (conditions.map fun c => (c.1, "")) 0 0
  | notify _ _ => notify "" ""
  | s => s

theorem wordsFrom_hollow (k : Nat) (ps : List Piece) :
    wordsFrom k (ps.map Piece.hollow) = wordsFrom k ps := by
  induction ps generalizing k with
  | nil => rfl
  | cons p ps ih =>
    cases p with
    | words s => exact congrArg (s ++ ·) (ih k)
    | value v => exact congrArg ("$" ++ toString k ++ ·) (ih (k + 1))

theorem map_intersperse {α β : Type} (f : α → β) (sep : α) (l : List α) :
    (l.intersperse sep).map f = (l.map f).intersperse (f sep) := by
  induction l with
  | nil => rfl
  | cons a l ih =>
    cases l with
    | nil => rfl
    | cons b l =>
      simp only [List.map_cons, List.intersperse_cons_cons] at ih ⊢
      rw [ih]

theorem map_pair (column : String) (v : Value) :
    (pair column v).map Piece.hollow = pair column v.hollow := rfl

theorem pieces_hollow (s : Statement) : s.hollow.pieces = s.pieces.map Piece.hollow := by
  cases s with
  | insert values =>
    simp [hollow, pieces, map_intersperse, Function.comp_def, Piece.hollow]
  | update changes id =>
    have hchanges : ([Piece.words ", "].intercalate (changes.map fun c => pair c.1.name c.2)).map
        Piece.hollow = [Piece.words ", "].intercalate
          (changes.map fun c => pair c.1.name c.2.hollow) := by
      rw [List.intercalate, List.map_flatten, map_intersperse, List.map_map]
      rfl
    simp only [hollow, pieces, List.map_cons, List.map_append, hchanges, List.map_map, map_pair]
    rfl
  | select conditions limit offset =>
    cases conditions with
    | nil => rfl
    | cons c cs =>
      simp only [hollow, pieces, conditionPieces, List.map_cons, List.map_append, List.map_flatMap,
        List.flatMap_map, map_pair]
      rfl
  | delete _ | notify _ _ | createTable | createIndex _ | ping | listen _ => rfl

theorem text_hollow (s : Statement) : s.hollow.text = s.text := by
  rw [text, text, pieces_hollow, wordsFrom_hollow]

/-- The digits behind each dollar of a text. -/
def placeholders : List Char → List (List Char)
  | [] => []
  | c :: cs => if c = '$' then cs.takeWhile Char.isDigit :: placeholders cs else placeholders cs

theorem placeholders_append {cs : List Char} (h : '$' ∉ cs) (rest : List Char) :
    placeholders (cs ++ rest) = placeholders rest := by
  induction cs with
  | nil => rfl
  | cons c cs ih =>
    obtain ⟨hc, hcs⟩ := not_or.mp (List.mem_cons.not.mp h)
    rw [List.cons_append, placeholders, if_neg (Ne.symm hc), ih hcs]

theorem placeholders_place {rest : List Char} (h : Opens rest) (n : Nat) :
    placeholders ('$' :: decimal n ++ rest) = decimal n :: placeholders rest := by
  have hdigits : ∀ c ∈ decimal n, c.isDigit = true := fun c hc => isDigit_of_mem_decimal hc
  have hdollar : '$' ∉ decimal n := fun hmem => absurd (hdigits _ hmem) (by decide)
  have hbehind : rest.takeWhile Char.isDigit = [] := by
    cases rest with
    | nil => rfl
    | cons c rest =>
      have hsep : separates c = true := h
      refine List.takeWhile_cons_of_neg fun hdigit => ?_
      rw [separates_of_isDigit hdigit] at hsep
      cases hsep
  rw [List.cons_append, placeholders, if_pos rfl, List.takeWhile_append_of_pos hdigits, hbehind,
    List.append_nil, placeholders_append hdollar]

/-- No dollar stands in the words, and something that is no digit follows each place. -/
def Spaced : List Piece → Prop
  | [] => True
  | .words s :: rest => '$' ∉ s.toList ∧ Spaced rest
  | .value _ :: rest => Apart rest ∧ Spaced rest

theorem placeholders_of_spaced {ps : List Piece} (h : Spaced ps) (k : Nat) :
    placeholders (wordsFrom k ps).toList =
      (List.range' k (valuesOf ps).length).map decimal := by
  induction ps generalizing k with
  | nil => rfl
  | cons p ps ih =>
    cases p with
    | words s => rw [toList_words, placeholders_append h.1, ih h.2, valuesOf_words]
    | value v =>
      rw [toList_value, placeholders_place (h.1.opens _), ih h.2, valuesOf_value,
        List.length_cons, List.range'_succ, List.map_cons]

theorem spaced_pair {rest : List Piece} (hapart : Apart rest) (hrest : Spaced rest) (c : Column)
    (v : Value) : Spaced (pair c.name v ++ rest) := by
  have hall : ∀ c ∈ Column.all, '$' ∉ (c.name ++ " = ").toList := by decide
  exact ⟨hall c (Column.mem_all c), hapart, hrest⟩

theorem spaced_chain {between : String} {t : Token} (h : Joins between t)
    (hbetween : '$' ∉ between.toList) {rest : List Piece} (hapart : Apart rest)
    (hrest : Spaced rest) (cs : List (Column × Value)) : Spaced (chain between cs ++ rest) := by
  induction cs with
  | nil => exact hrest
  | cons c cs ih =>
    have hchain : chain between (c :: cs) ++ rest =
        .words between :: (pair c.1.name c.2 ++ (chain between cs ++ rest)) := by
      simp [chain]
    rw [hchain]
    exact ⟨hbetween, spaced_pair (apart_chain h cs hapart) ih c.1 c.2⟩

theorem spaced_wherePieces {rest : List Piece} (hapart : Apart rest) (hrest : Spaced rest)
    (conditions : List (Column × Value)) : Spaced (wherePieces conditions ++ rest) := by
  cases conditions with
  | nil => exact hrest
  | cons c cs =>
    rw [wherePieces, List.cons_append, List.append_assoc]
    exact ⟨by decide, spaced_pair (apart_chain joins_and cs hapart)
      (spaced_chain joins_and (by decide) hapart hrest cs) c.1 c.2⟩

theorem spaced_places {rest : List Piece} (hapart : Apart rest) (hrest : Spaced rest)
    (values : List Value) : Spaced (places values ++ rest) := by
  induction values with
  | nil => exact hrest
  | cons v values ih =>
    cases values with
    | nil => exact ⟨hapart, hrest⟩
    | cons w values =>
      exact ⟨⟨joins_comma.ne_nil, joins_comma.opens⟩, by decide, ih⟩

/-- The places of a statement are numbered from one, in the order of the values it binds. -/
def Numbered (s : Statement) : Prop :=
  placeholders s.text.toList = (List.range' 1 s.binds.length).map decimal

theorem numbered_of_spaced {s : Statement} (h : Spaced s.pieces) : s.Numbered :=
  placeholders_of_spaced h 1

end Statement

end Sql

open Statement

namespace Command

theorem numbered_statement (draw : Draw) (command : Command) :
    (statement draw command).2.Numbered := by
  apply numbered_of_spaced
  cases command with
  | create profile =>
    have hwords : '$' ∉ ("INSERT INTO users (" ++ Column.list ++ ") VALUES (").toList := by
      decide +kernel
    have happart : Apart [.words ")"] := ⟨by decide, by decide⟩
    have hclose : Spaced [.words ")"] := ⟨by decide, trivial⟩
    have hpieces : (statement draw (create profile)).2.pieces = _ :=
      pieces_insert (newValues draw profile)
    rw [hpieces]
    exact ⟨hwords, spaced_places happart hclose _⟩
  | update id changes =>
    obtain ⟨c, cs, hc⟩ := exists_changesOf draw changes
    have hstatement : (statement draw (update id changes)).2 = .update (c :: cs) id :=
      congrArg (Statement.update · id) hc
    have hid : Spaced (wherePieces [(.id, .text id)]) :=
      spaced_wherePieces apart_nil trivial [(.id, .text id)]
    have hapart : Apart (wherePieces [(.id, .text id)]) := ⟨by decide, by decide⟩
    rw [hstatement, pieces_update]
    exact ⟨by decide, spaced_pair (apart_chain joins_comma cs hapart)
      (spaced_chain joins_comma (by decide) hapart hid cs) c.1 c.2⟩
  | delete id => exact ⟨by decide, spaced_pair apart_nil trivial .id (.text id)⟩
  | get conditions page =>
    have hwords : '$' ∉ ("SELECT " ++ Column.list ++ " FROM users").toList := by decide +kernel
    have hwindow : Spaced (windowPieces page.limit.toNat page.skip.toNat) :=
      ⟨by decide, ⟨by decide, by decide⟩, by decide, trivial, trivial⟩
    have hpieces : (statement draw (get conditions page)).2.pieces = _ := pieces_select _ _ _
    rw [hpieces]
    exact ⟨hwords, spaced_wherePieces (apart_windowPieces _ _) hwindow _⟩

/-- The commands differ in values alone: they change the same attributes, and compare the same
keys. -/
def SameKeys : Command → Command → Prop
  | create _, create _ => True
  | update _ p, update _ q => ∀ a, p.get a = "" ↔ q.get a = ""
  | delete _, delete _ => True
  | get c _, get c' _ => ∀ k, (c.get? k).isSome = (c'.get? k).isSome
  | _, _ => False

theorem keys_supplied (p : Profile) :
    p.supplied.map (·.1) = Attribute.all.filter (p.get · != "") := by
  rw [Profile.supplied, List.filter_map, List.map_map]
  exact List.map_id' _

theorem keys_entries (c : Conditions) :
    c.entries.map (·.1) = FilterKey.all.filter fun k => (c.get? k).isSome := by
  rw [Conditions.entries, List.map_filterMap, ← List.filterMap_eq_filter]
  refine List.filterMap_congr fun k _ => ?_
  cases hk : c.get? k <;> simp [Option.guard, hk]

theorem hollow_statement {command command' : Command} (h : command.SameKeys command')
    (draw draw' : Draw) :
    (statement draw command).2.hollow = (statement draw' command').2.hollow := by
  cases command <;> cases command' <;> try exact h.elim
  case create.create p q =>
    refine congrArg Statement.insert ?_
    simp [newValues, Value.hollow, Function.comp_def]
  case update.update _ p _ q =>
    have hchanges (draw : Draw) (p : Profile) :
        (changesOf draw p).map (fun c => (c.1, c.2.hollow)) =
          (p.supplied.map (·.1)).map (fun a => (Column.profile a, Value.text "")) ++
            [(.updatedAt, .time .epoch)] := by
      simp [changesOf, Value.hollow]
    have hkeys : p.supplied.map (·.1) = q.supplied.map (·.1) := by
      rw [keys_supplied, keys_supplied]
      refine List.filter_congr fun a _ => ?_
      rw [Bool.eq_iff_iff, bne_iff_ne, bne_iff_ne]
      exact not_congr (h a)
    have hchanged := hchanges draw p
    rw [hkeys] at hchanged
    exact congrArg (Statement.update · "") (hchanged.trans (hchanges draw' q).symm)
  case delete.delete => rfl
  case get.get c _ c' _ =>
    have hkeys : c.entries.map (·.1) = c'.entries.map (·.1) := by
      rw [keys_entries, keys_entries]
      exact List.filter_congr fun k _ => h k
    have hconditions (c : Conditions) : c.entries.map (fun e => (e.1, "")) =
        (c.entries.map (·.1)).map fun k => (k, "") := by
      simp
    refine congrArg (Statement.select · 0 0) ?_
    rw [hconditions, hkeys, hconditions]

/-- The values of a command make no difference to the text that is sent. -/
theorem text_of_sameKeys {command command' : Command} (h : command.SameKeys command')
    (draw draw' : Draw) :
    (statement draw command).2.text = (statement draw' command').2.text := by
  rw [← text_hollow, hollow_statement h draw draw', text_hollow]

end Command

/-- What the text of a statement puts beside a place. -/
inductive Slot
  /-- The column that is set. -/
  | cell (c : Column)
  /-- The column that is compared. -/
  | key (c : Column)
  | limit
  | offset
  deriving DecidableEq

/-- The values that a plan was read with, each with what it stands beside, in the order of their
places. -/
def Sql.Plan.slots : Plan → List (Slot × Value)
  | .insert row => row.map fun e => (.cell e.1, e.2)
  | .update changes conditions =>
    changes.map (fun e => (.cell e.1, e.2)) ++ conditions.map fun e => (.key e.1, e.2)
  | .delete conditions => conditions.map fun e => (.key e.1, e.2)
  | .select conditions _ limit offset =>
    conditions.map (fun e => (.key e.1, e.2)) ++
      [(.limit, .count limit), (.offset, .count offset)]

namespace Command

/-- The values that a command has, each with what it is for. -/
inductive Supplies (draw : Draw) : Command → Slot → Value → Prop
  | newId {profile : Profile} : Supplies draw (create profile) (.cell .id) (.text draw.id)
  | newAttribute {profile : Profile} (a : Attribute) :
      Supplies draw (create profile) (.cell (.profile a)) (.text (profile.get a))
  | newCreated {profile : Profile} :
      Supplies draw (create profile) (.cell .createdAt) (.time draw.now)
  | newUpdated {profile : Profile} :
      Supplies draw (create profile) (.cell .updatedAt) (.time draw.now)
  | changed {id : String} {changes : Profile} {a : Attribute} (h : changes.get a ≠ "") :
      Supplies draw (update id changes) (.cell (.profile a)) (.text (changes.get a))
  | changedAt {id : String} {changes : Profile} :
      Supplies draw (update id changes) (.cell .updatedAt) (.time draw.now)
  | changedRow {id : String} {changes : Profile} :
      Supplies draw (update id changes) (.key .id) (.text id)
  | deletedRow {id : String} : Supplies draw (delete id) (.key .id) (.text id)
  | condition {conditions : Conditions} {page : Page} {k : FilterKey} {value : String}
      (h : conditions.get? k = some value) :
      Supplies draw (get conditions page) (.key (.ofKey k)) (.text value)
  | limit {conditions : Conditions} {page : Page} :
      Supplies draw (get conditions page) .limit (.count page.limit.toNat)
  | offset {conditions : Conditions} {page : Page} :
      Supplies draw (get conditions page) .offset (.count page.skip.toNat)

/-- The places are for the values that are bound, one after another. -/
theorem slots_binds (draw : Draw) (command : Command) :
    (command.plan draw).slots.map (·.2) = (statement draw command).2.binds := by
  have hbinds (s : Statement) : s.binds = valuesOf s.pieces := rfl
  rw [hbinds]
  cases command with
  | create profile =>
    have hpieces : (statement draw (create profile)).2.pieces = _ :=
      pieces_insert (newValues draw profile)
    simp [hpieces, newValues_eq, plan, Plan.slots, Function.comp_def]
  | update id changes =>
    have hslots : ((update id changes).plan draw).slots.map (·.2) =
        (changesOf draw changes).map (·.2) ++ [.text id] := by
      simp [plan, Plan.slots, Function.comp_def]
    have hstatement : (statement draw (update id changes)).2 =
        .update (changesOf draw changes) id := rfl
    obtain ⟨c, cs, hc⟩ := exists_changesOf draw changes
    rw [hslots, hstatement, hc]
    simp [pieces_update]
  | delete id => rfl
  | get conditions page =>
    have hpieces : (statement draw (get conditions page)).2.pieces = _ := pieces_select _ _ _
    simp [hpieces, plan, Plan.slots, windowPieces, Function.comp_def]

/-- No two places are for the same. -/
theorem nodup_slots (draw : Draw) (command : Command) :
    ((command.plan draw).slots.map (·.1)).Nodup := by
  cases command with
  | create profile =>
    have hcells : ((create profile).plan draw).slots.map (·.1) = Column.all.map Slot.cell := by
      simp [plan, Plan.slots, Function.comp_def]
    rw [hcells]
    decide
  | update id changes =>
    have hslots : ((update id changes).plan draw).slots.map (·.1) =
        ((changesOf draw changes).map (·.1)).map Slot.cell ++ [.key .id] := by
      simp [plan, Plan.slots, Function.comp_def]
    have hcells := (sound_changesOf draw changes).1.map fun _ _ => Slot.cell.inj
    rw [hslots]
    refine hcells.append (List.nodup_singleton _) fun slot hslot hkey => ?_
    obtain ⟨c, -, rfl⟩ := List.mem_map.mp hslot
    cases List.mem_singleton.mp hkey
  | delete id => exact List.nodup_singleton _
  | get conditions page =>
    have hslots : ((get conditions page).plan draw).slots.map (·.1) =
        (conditions.entries.map (·.1)).map (fun k => Slot.key (.ofKey k)) ++ [.limit, .offset] := by
      simp [plan, Plan.slots, Function.comp_def]
    have hcolumns : ∀ k ∈ FilterKey.all, ∀ k' ∈ FilterKey.all,
        Column.ofKey k = Column.ofKey k' → k = k' := by decide
    have hinjective : Function.Injective fun k => Slot.key (Column.ofKey k) := fun k k' h =>
      hcolumns k k.mem_all k' k'.mem_all (Slot.key.inj h)
    have hall : FilterKey.all.Nodup := by decide
    rw [hslots, keys_entries]
    refine ((hall.filter _).map hinjective).append (by decide) fun slot hslot hwindow => ?_
    obtain ⟨k, -, rfl⟩ := List.mem_map.mp hslot
    simp at hwindow

theorem mem_slots_iff (draw : Draw) (command : Command) (slot : Slot) (v : Value) :
    (slot, v) ∈ (command.plan draw).slots ↔ Supplies draw command slot v := by
  cases command with
  | create profile =>
    simp only [plan, Plan.slots, List.mem_map, Prod.mk.injEq]
    constructor
    · rintro ⟨_, ⟨c, -, rfl⟩, rfl, rfl⟩
      cases c with
      | id => exact .newId
      | profile a => exact .newAttribute a
      | createdAt => exact .newCreated
      | updatedAt => exact .newUpdated
    · intro h
      cases h with
      | newId | newAttribute a | newCreated | newUpdated =>
        exact ⟨_, ⟨_, Column.mem_all _, rfl⟩, rfl, rfl⟩
  | update id changes =>
    simp only [plan, Plan.slots, List.mem_append, List.mem_map, Prod.mk.injEq, mem_changesOf,
      List.mem_singleton]
    constructor
    · rintro (⟨_, ⟨a, ha, rfl⟩ | rfl, rfl, rfl⟩ | ⟨_, rfl, rfl, rfl⟩)
      · exact .changed ha
      · exact .changedAt
      · exact .changedRow
    · intro h
      cases h with
      | changed ha => exact .inl ⟨_, .inl ⟨_, ha, rfl⟩, rfl, rfl⟩
      | changedAt => exact .inl ⟨_, .inr rfl, rfl, rfl⟩
      | changedRow => exact .inr ⟨_, rfl, rfl, rfl⟩
  | delete id =>
    simp only [plan, Plan.slots, List.mem_map, Prod.mk.injEq, List.mem_singleton]
    constructor
    · rintro ⟨_, rfl, rfl, rfl⟩
      exact .deletedRow
    · rintro ⟨⟩
      exact ⟨_, rfl, rfl, rfl⟩
  | get conditions page =>
    simp only [plan, Plan.slots, List.mem_append, List.mem_map, Prod.mk.injEq, List.mem_cons,
      List.not_mem_nil, or_false]
    constructor
    · rintro (⟨_, ⟨⟨k, value⟩, he, rfl⟩, rfl, rfl⟩ | ⟨rfl, rfl⟩ | ⟨rfl, rfl⟩)
      · exact .condition (Conditions.mem_entries.mp he)
      · exact .limit
      · exact .offset
    · intro h
      cases h with
      | condition h => exact .inl ⟨_, ⟨(_, _), Conditions.mem_entries.mpr h, rfl⟩, rfl, rfl⟩
      | limit => exact .inr (.inl ⟨rfl, rfl⟩)
      | offset => exact .inr (.inr ⟨rfl, rfl⟩)

/-- The text of a statement does not depend on the values of its command, but only on what they are
for. The places in it are numbered from one, one for each value that is bound, and the value bound
to a place is what the command has for the column or the bound of the window beside it. -/
theorem placeholders_exact (draw : Draw) (command : Command) :
    (∀ draw' command', command.SameKeys command' →
      (statement draw command).2.text = (statement draw' command').2.text) ∧
    placeholders (statement draw command).2.text.toList =
      (List.range' 1 (statement draw command).2.binds.length).map decimal ∧
    ∃ plan, planOf? (statement draw command).2.text (statement draw command).2.binds = some plan ∧
      plan.slots.map (·.2) = (statement draw command).2.binds ∧ (plan.slots.map (·.1)).Nodup ∧
      ∀ slot v, (slot, v) ∈ plan.slots ↔ Supplies draw command slot v :=
  ⟨fun draw' _ h => text_of_sameKeys h draw draw', numbered_statement draw command,
    command.plan draw, planOf?_statement draw command, slots_binds draw command,
    nodup_slots draw command, mem_slots_iff draw command⟩

theorem placeholders_exact_quote :
    let plain : Command := .update "a" { country := "de" }
    let hostile : Command := .update "$1' OR ''='" { country := "'; DROP TABLE users; --" }
    plain.SameKeys hostile ∧
      (statement ⟨"", .epoch⟩ plain).2.text = (statement ⟨"", .epoch⟩ hostile).2.text ∧
      placeholders (statement ⟨"", .epoch⟩ hostile).2.text.toList = [['1'], ['2'], ['3']] := by
  intro plain hostile
  have hkeys : plain.SameKeys hostile := by
    intro a
    cases a <;> decide
  have hnumbers := (placeholders_exact ⟨"", .epoch⟩ hostile).2.1
  exact ⟨hkeys, (placeholders_exact ⟨"", .epoch⟩ plain).1 _ _ hkeys, hnumbers.trans (by decide)⟩

end Command

end Roster
