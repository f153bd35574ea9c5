import Roster.Proofs.Tokens
/-! # How a database reads a statement

A database gets the text of a statement and the values beside it, and reads the lexemes of the text
by the grammar of the four statements about accounts. What it reads is what the statement was
written from, each value in its place. -/
namespace Roster.Sql

/-- The value that stands in a place; the first place has the number one. -/
def bound? (binds : List Value) : Token → Option Value
  | .place (n + 1) => binds[n]?
  | _ => none

def column? : Token → Option Column
  | .word name => Column.all.find? fun c => c.name == name
  | _ => none

/-- Items with commas between them, and the lexemes behind the last. -/
def readList {α : Type} (item? : Token → Option α) :
    List Token → Option (List α × List Token)
  | [] => none
  | t :: .mark ',' :: rest =>
    match item? t, readList item? rest with
    | some a, some (as, more) => some (a :: as, more)
    | _, _ => none
  | t :: rest => (item? t).map fun a => ([a], rest)

/-- Columns, each with the value that it is set to or compared with, and a lexeme between them. -/
def readPairs (binds : List Value) (between : Token) :
    List Token → Option (List (Column × Value) × List Token)
  | name :: .mark '=' :: place :: rest =>
    match column? name, bound? binds place with
    | some c, some v =>
      match rest with
      | [] => some ([(c, v)], [])
      | t :: more =>
        if t = between then (readPairs binds between more).map fun r => ((c, v) :: r.1, r.2)
        else some ([(c, v)], t :: more)
    | _, _ => none
  | _ => none

/-- The conditions of a statement, if it has some. -/
def readWhere (binds : List Value) :
    List Token → Option (List (Column × Value) × List Token)
  | .word "WHERE" :: rest => readPairs binds (.word "AND") rest
  | rest => some ([], rest)

/-- What a statement asks a database to do with the rows of the table. -/
inductive Plan
  | insert (row : List (Column × Value))
  | update (changes conditions : List (Column × Value))
  | delete (conditions : List (Column × Value))
  | select (conditions : List (Column × Value)) (keys : List Column) (limit offset : Nat)
  deriving DecidableEq

/-- The end of a query, from the sorting on. -/
def readOrder (binds : List Value) (conditions : List (Column × Value)) :
    List Token → Option Plan
  | .word "ORDER" :: .word "BY" :: rest =>
    match readList column? rest with
    | some (keys, [.word "LIMIT", limit, .word "OFFSET", offset]) =>
      match bound? binds limit, bound? binds offset with
      | some (.count limit), some (.count offset) => some (.select conditions keys limit offset)
      | _, _ => none
    | _ => none
  | _ => none

/-- What the lexemes of a statement ask for. The columns of a query are those of a whole row. -/
def plan? (binds : List Value) : List Token → Option Plan
  | .word "INSERT" :: .word "INTO" :: .word "users" :: .mark '(' :: rest =>
    match readList column? rest with
    | some (columns, .mark ')' :: .word "VALUES" :: .mark '(' :: rest) =>
      match readList (bound? binds) rest with
      | some (values, [.mark ')']) =>
        if columns.length = values.length then some (.insert (columns.zip values)) else none
      | _ => none
    | _ => none
  | .word "UPDATE" :: .word "users" :: .word "SET" :: rest =>
    match readPairs binds (.mark ',') rest with
    | some (changes, rest) =>
      match readWhere binds rest with
      | some (conditions, []) => some (.update changes conditions)
      | _ => none
    | none => none
  | .word "DELETE" :: .word "FROM" :: .word "users" :: rest =>
    match readWhere binds rest with
    | some (conditions, []) => some (.delete conditions)
    | _ => none
  | .word "SELECT" :: rest =>
    match readList column? rest with
    | some (columns, .word "FROM" :: .word "users" :: rest) =>
      if columns = Column.all then
        match readWhere binds rest with
        | some (conditions, rest) => readOrder binds conditions rest
        | none => none
      else none
    | _ => none
  | _ => none

/-- What a text asks for, with the values that are sent beside it. -/
def planOf? (text : String) (binds : List Value) : Option Plan := plan? binds (lex text.toList)

/-- The column that a key compares. -/
def Column.ofKey : FilterKey → Column
  | .id => .id
  | .country => .profile .country
  | .nickname => .profile .nickname
  | .firstName => .profile .firstName
  | .lastName => .profile .lastName

theorem Column.name_ofKey (k : FilterKey) : (Column.ofKey k).name = k.column := by cases k <;> rfl

theorem column?_name (c : Column) : column? (.word c.name) = some c := by
  cases c with
  | profile a => cases a <;> decide
  | _ => decide

theorem bound?_place {binds values : List Value} {v : Value} {n : Nat}
    (h : binds.drop n = v :: values) : bound? binds (.place (n + 1)) = some v := by
  have hn : (binds.drop n)[0]? = some v := by rw [h, List.getElem?_cons_zero]
  rwa [List.getElem?_drop, Nat.add_zero] at hn

namespace Statement

/-- More pairs, each behind the same words. -/
def chain (between : String) (cs : List (Column × Value)) : List Piece :=
  cs.flatMap fun c => .words between :: pair c.1.name c.2

/-- Words between pairs, and the lexeme that they are. -/
structure Joins (between : String) (t : Token) : Prop extends Spells between [t] where
  ne_nil : between.toList ≠ []
  opens : Opens between.toList

theorem apart_chain {between : String} {t : Token} (h : Joins between t)
    (cs : List (Column × Value)) {rest : List Piece} (hrest : Apart rest) :
    Apart (chain between cs ++ rest) := by
  cases cs with
  | nil => exact hrest
  | cons c cs => exact ⟨h.ne_nil, h.opens⟩

/-- Pairs are read back if what follows them is no further pair. -/
theorem readPairs_chain {between : String} {t : Token} (h : Joins between t)
    {rest : List Piece} (hrest : Apart rest)
    (hend : ∀ n u us, tokensFrom n rest = u :: us → u ≠ t) {binds more : List Value}
    (cs : List (Column × Value)) (c : Column × Value) (n : Nat)
    (hbinds : binds.drop n = (c :: cs).map (·.2) ++ more) :
    readPairs binds t (tokensFrom n (pair c.1.name c.2 ++ (chain between cs ++ rest))) =
      some (c :: cs, tokensFrom (n + (c :: cs).length) rest) := by
  have hvalue : bound? binds (.place (n + 1)) = some c.2 := bound?_place hbinds
  rw [tokensFrom_pair (apart_chain h cs hrest)]
  simp only [readPairs, column?_name, hvalue]
  induction cs generalizing c n with
  | nil =>
    cases hu : tokensFrom (n + 1) rest with
    | nil => simp [chain, hu]
    | cons u us => simp [chain, hu, hend _ _ _ hu]
  | cons d cs ih =>
    have hdrop : binds.drop (n + 1) = (d :: cs).map (·.2) ++ more := by
      rw [← List.drop_drop, hbinds]
      rfl
    have hd : bound? binds (.place (n + 1 + 1)) = some d.2 := bound?_place hdrop
    have hchain : chain between (d :: cs) ++ rest =
        .words between :: (pair d.1.name d.2 ++ (chain between cs ++ rest)) := by
      simp [chain]
    rw [hchain, h.tokensFrom, List.singleton_append]
    simp only [if_true]
    rw [tokensFrom_pair (apart_chain h cs hrest)]
    simp only [readPairs, column?_name, hd]
    rw [ih d (n + 1) hdrop hd]
    simp only [Option.map_some, List.length_cons]
    congr 3
    omega

theorem joins_comma : Joins ", " (.mark ',') := ⟨⟨by decide, by decide⟩, by decide, by decide⟩

theorem joins_and : Joins " AND " (.word "AND") := ⟨⟨by decide, by decide⟩, by decide, by decide⟩

theorem intercalate_pairs (c : Column × Value) (cs : List (Column × Value)) :
    [Piece.words ", "].intercalate ((c :: cs).map fun c => pair c.1.name c.2) =
      pair c.1.name c.2 ++ chain ", " cs := by
  induction cs generalizing c with
  | nil => simp [List.intercalate, chain]
  | cons d cs ih =>
    have hd := ih d
    rw [List.map_cons] at hd
    rw [List.map_cons, List.map_cons, List.intercalate_cons_cons, hd]
    simp [chain]

/-- The part of a statement that names its conditions. -/
def wherePieces : List (Column × Value) → List Piece
  | [] => []
  | c :: cs => .words " WHERE " :: (pair c.1.name c.2 ++ chain " AND " cs)

theorem spells_where : Spells " WHERE " [.word "WHERE"] := ⟨by decide, by decide⟩

theorem readWhere_pieces {rest : List Piece} (hrest : Apart rest)
    (hend : ∀ n u us, tokensFrom n rest = u :: us → u ≠ .word "WHERE" ∧ u ≠ .word "AND")
    {binds more : List Value} (conditions : List (Column × Value)) (n : Nat)
    (hbinds : binds.drop n = conditions.map (·.2) ++ more) :
    readWhere binds (tokensFrom n (wherePieces conditions ++ rest)) =
      some (conditions, tokensFrom (n + conditions.length) rest) := by
  cases conditions with
  | nil =>
    cases hu : tokensFrom n rest with
    | nil => simp [wherePieces, readWhere, hu]
    | cons u us =>
      have hne := (hend n u us hu).1
      simp only [wherePieces, List.nil_append, hu, readWhere]
      split
      · simp_all
      · rfl
  | cons c cs =>
    rw [wherePieces, List.cons_append, List.append_assoc, spells_where.tokensFrom]
    simp only [List.singleton_append, readWhere]
    exact readPairs_chain joins_and hrest (fun n u us hu => (hend n u us hu).2) cs c n hbinds

def valuesOf (pieces : List Piece) : List Value :=
  pieces.filterMap fun
    | .value v => some v
    | .words _ => none

@[simp] theorem valuesOf_nil : valuesOf [] = [] := rfl

@[simp] theorem valuesOf_words (s : String) (rest : List Piece) :
    valuesOf (.words s :: rest) = valuesOf rest := rfl

@[simp] theorem valuesOf_value (v : Value) (rest : List Piece) :
    valuesOf (.value v :: rest) = v :: valuesOf rest := rfl

@[simp] theorem valuesOf_append (ps qs : List Piece) :
    valuesOf (ps ++ qs) = valuesOf ps ++ valuesOf qs := List.filterMap_append

@[simp] theorem valuesOf_pair (name : String) (v : Value) : valuesOf (pair name v) = [v] := rfl

@[simp] theorem valuesOf_chain (between : String) (cs : List (Column × Value)) :
    valuesOf (chain between cs) = cs.map (·.2) := by
  induction cs with
  | nil => rfl
  | cons c cs ih =>
    have hchain : chain between (c :: cs) =
        .words between :: (pair c.1.name c.2 ++ chain between cs) := by simp [chain]
    simp [hchain, ih]

@[simp] theorem valuesOf_wherePieces (cs : List (Column × Value)) :
    valuesOf (wherePieces cs) = cs.map (·.2) := by
  cases cs <;> simp [wherePieces]

theorem planOf?_eq (s : Statement) :
    planOf? s.text s.binds = plan? (valuesOf s.pieces) (tokensFrom 0 s.pieces) := rfl

section

variable {binds values : List Value} {rest more : List Token} {columns : List Column}
  {changes conditions : List (Column × Value)}

theorem plan?_insert (hcolumns : readList column? rest =
      some (columns, .mark ')' :: .word "VALUES" :: .mark '(' :: more))
    (hvalues : readList (bound? binds) more = some (values, [.mark ')']))
    (hlength : columns.length = values.length) :
    plan? binds (.word "INSERT" :: .word "INTO" :: .word "users" :: .mark '(' :: rest) =
      some (.insert (columns.zip values)) := by
  simp only [plan?, hcolumns, hvalues, hlength, if_true]

theorem plan?_update (hchanges : readPairs binds (.mark ',') rest = some (changes, more))
    (hconditions : readWhere binds more = some (conditions, [])) :
    plan? binds (.word "UPDATE" :: .word "users" :: .word "SET" :: rest) =
      some (.update changes conditions) := by
  simp only [plan?, hchanges, hconditions]

theorem plan?_delete (hconditions : readWhere binds rest = some (conditions, [])) :
    plan? binds (.word "DELETE" :: .word "FROM" :: .word "users" :: rest) =
      some (.delete conditions) := by
  simp only [plan?, hconditions]

theorem plan?_select {order : List Token}
    (hcolumns : readList column? rest = some (Column.all, .word "FROM" :: .word "users" :: more))
    (hconditions : readWhere binds more = some (conditions, order)) :
    plan? binds (.word "SELECT" :: rest) = readOrder binds conditions order := by
  simp only [plan?, hcolumns, hconditions, if_true]

end

/-- The last item of a list is read up to what follows it. -/
theorem readList_last {α : Type} {item? : Token → Option α} {t : Token} {a : α}
    (ha : item? t = some a) {rest : List Token} (hrest : ∀ us, rest ≠ .mark ',' :: us) :
    readList item? (t :: rest) = some ([a], rest) := by
  unfold readList
  split
  · rename_i heq
    cases heq
  · rename_i us heq
    exact absurd (List.cons.inj heq).2 (hrest us)
  · rename_i heq
    obtain ⟨rfl, rfl⟩ := List.cons.inj heq
    rw [ha, Option.map_some]

theorem readList_cons {α : Type} {item? : Token → Option α} {t : Token} {a : α}
    (ha : item? t = some a) {rest more : List Token} {as : List α}
    (h : readList item? rest = some (as, more)) :
    readList item? (t :: .mark ',' :: rest) = some (a :: as, more) := by
  simp only [readList, ha, h]

/-- The places of a list of values. -/
def places (values : List Value) : List Piece := (values.map .value).intersperse (.words ", ")

theorem readList_places {rest : List Piece} (hrest : Apart rest)
    (hend : ∀ n us, tokensFrom n rest ≠ .mark ',' :: us) {binds more values : List Value}
    (hne : values ≠ []) (n : Nat) (hbinds : binds.drop n = values ++ more) :
    readList (bound? binds) (tokensFrom n (places values ++ rest)) =
      some (values, tokensFrom (n + values.length) rest) := by
  obtain ⟨v, vs, rfl⟩ := List.exists_cons_of_ne_nil hne
  have hvalue : bound? binds (.place (n + 1)) = some v := bound?_place hbinds
  induction vs generalizing v n with
  | nil =>
    have hplaces : places [v] ++ rest = .value v :: rest := rfl
    rw [hplaces, tokensFrom_value hrest]
    exact readList_last hvalue (hend (n + 1))
  | cons w vs ih =>
    have hdrop : binds.drop (n + 1) = w :: vs ++ more := by
      rw [← List.drop_drop, hbinds]
      rfl
    have hplaces : places (v :: w :: vs) ++ rest =
        .value v :: .words ", " :: (places (w :: vs) ++ rest) := rfl
    have happart : Apart (.words ", " :: (places (w :: vs) ++ rest)) :=
      ⟨joins_comma.ne_nil, joins_comma.opens⟩
    have hbehind := ih (n + 1) w (List.cons_ne_nil w vs) hdrop (bound?_place hdrop)
    rw [hplaces, tokensFrom_value happart, joins_comma.tokensFrom, List.singleton_append,
      readList_cons hvalue hbehind]
    simp only [List.length_cons]
    congr 3
    omega

@[simp] theorem valuesOf_places (values : List Value) : valuesOf (places values) = values := by
  induction values with
  | nil => rfl
  | cons v values ih =>
    cases values with
    | nil => rfl
    | cons w values =>
      have hplaces : places (v :: w :: values) =
          .value v :: .words ", " :: places (w :: values) := rfl
      rw [hplaces, valuesOf_value, valuesOf_words, ih]

/-- The names of columns, with commas between them. -/
def nameTokens (columns : List Column) : List Token :=
  (columns.map fun c => Token.word c.name).intersperse (.mark ',')

theorem readList_nameTokens {rest : List Token} (hrest : ∀ us, rest ≠ .mark ',' :: us)
    {columns : List Column} (hne : columns ≠ []) :
    readList column? (nameTokens columns ++ rest) = some (columns, rest) := by
  obtain ⟨c, cs, rfl⟩ := List.exists_cons_of_ne_nil hne
  induction cs generalizing c with
  | nil => exact readList_last (column?_name c) hrest
  | cons d cs ih => exact readList_cons (column?_name c) (ih d (List.cons_ne_nil d cs))

theorem lex_list : lex Column.list.toList = nameTokens Column.all := by decide +kernel

theorem spells_insert :
    Spells ("INSERT INTO users (" ++ Column.list ++ ") VALUES (")
      ([.word "INSERT", .word "INTO", .word "users", .mark '('] ++
        (nameTokens Column.all ++ [.mark ')', .word "VALUES", .mark '('])) where
  closes := by decide +kernel
  lex := by
    have hfront : Spells "INSERT INTO users ("
        [.word "INSERT", .word "INTO", .word "users", .mark '('] := ⟨by decide, by decide⟩
    have hback : Spells ") VALUES (" [.mark ')', .word "VALUES", .mark '('] :=
      ⟨by decide, by decide⟩
    have hopens : Opens ") VALUES (".toList := by decide
    rw [String.append_assoc, String.toList_append, String.toList_append,
      lex_append_of_closes hfront.closes, lex_append_of_opens hopens, hfront.lex, hback.lex,
      lex_list]

theorem tokensFrom_close (n : Nat) : tokensFrom n [.words ")"] = [.mark ')'] := by
  have hclose : Spells ")" [.mark ')'] := ⟨by decide, by decide⟩
  rw [hclose.tokensFrom, tokensFrom_nil, List.append_nil]

theorem pieces_insert (values : List Value) :
    (insert values).pieces =
      .words ("INSERT INTO users (" ++ Column.list ++ ") VALUES (") ::
        (places values ++ [.words ")"]) := rfl

/-- A new row is read back if there are as many values as columns: each column has the value that
stands where it does. -/
theorem planOf?_insert {values : List Value} (hlength : values.length = Column.all.length) :
    planOf? (insert values).text (insert values).binds = some (.insert (Column.all.zip values)) := by
  have hne : Column.all ≠ [] := by decide
  have hvalues : values ≠ [] := by
    rintro rfl
    exact absurd hlength (by decide)
  have hbinds : valuesOf (places values ++ [.words ")"]) = values := by simp
  have hcolumns (rest : List Token) :
      readList column? (nameTokens Column.all ++ .mark ')' :: rest) =
        some (Column.all, .mark ')' :: rest) :=
    readList_nameTokens (by simp) hne
  have happart : Apart [.words ")"] := ⟨by decide, by decide⟩
  have hread := readList_places happart (by simp [tokensFrom_close]) hvalues 0
    (List.append_nil values).symm
  rw [tokensFrom_close] at hread
  rw [planOf?_eq, pieces_insert, spells_insert.tokensFrom, valuesOf_words, hbinds]
  simp only [List.append_assoc, List.cons_append, List.nil_append]
  exact plan?_insert (hcolumns _) hread hlength.symm

theorem tokensFrom_whereId (n : Nat) (id : String) :
    tokensFrom n (wherePieces [(.id, .text id)]) =
      [.word "WHERE", .word "id", .mark '=', .place (n + 1)] := by
  have hpair := tokensFrom_pair apart_nil n .id (.text id)
  rw [List.append_nil] at hpair
  rw [wherePieces, spells_where.tokensFrom]
  simp only [chain, List.flatMap_nil, List.append_nil, hpair]
  rfl

theorem pieces_update (c : Column × Value) (cs : List (Column × Value)) (id : String) :
    (update (c :: cs) id).pieces = .words "UPDATE users SET " ::
      (pair c.1.name c.2 ++ (chain ", " cs ++ wherePieces [(.id, .text id)])) := by
  simp only [pieces, intercalate_pairs]
  simp [wherePieces, chain, Column.name]

theorem planOf?_update (c : Column × Value) (cs : List (Column × Value)) (id : String) :
    planOf? (update (c :: cs) id).text (update (c :: cs) id).binds =
      some (.update (c :: cs) [(.id, .text id)]) := by
  let rest : List Piece := wherePieces [(.id, .text id)]
  have hvalues : valuesOf (update (c :: cs) id).pieces = (c :: cs).map (·.2) ++ [.text id] := by
    simp [pieces_update]
  have hrest : Apart rest := ⟨by decide, by decide⟩
  have hend (n : Nat) (u : Token) (us : List Token) (hu : tokensFrom n rest = u :: us) :
      u ≠ .mark ',' := by
    rw [tokensFrom_whereId] at hu
    obtain ⟨rfl, -⟩ := List.cons.inj hu
    decide
  have hfront : Spells "UPDATE users SET " [.word "UPDATE", .word "users", .word "SET"] :=
    ⟨by decide, by decide⟩
  have hbinds : ((c :: cs).map (·.2) ++ [Value.text id]).drop 0 =
      (c :: cs).map (·.2) ++ [.text id] := rfl
  have hchanges := readPairs_chain joins_comma hrest hend cs c 0 hbinds
  have hid : ((c :: cs).map (·.2) ++ [Value.text id]).drop (0 + (c :: cs).length) =
      [((Column.id, Value.text id) : Column × Value)].map (·.2) ++ [] := by
    simp
  have hwhere := readWhere_pieces apart_nil (by simp [tokensFrom_nil]) [(.id, .text id)]
    (0 + (c :: cs).length) hid
  rw [List.append_nil] at hwhere
  rw [planOf?_eq, hvalues, pieces_update, hfront.tokensFrom]
  exact plan?_update hchanges hwhere

theorem pieces_delete (id : String) :
    (delete id).pieces =
      .words "DELETE FROM users WHERE " :: (pair Column.id.name (.text id) ++ []) := rfl

theorem planOf?_delete (id : String) :
    planOf? (delete id).text (delete id).binds = some (.delete [(.id, .text id)]) := by
  have hfront : Spells "DELETE FROM users WHERE "
      [.word "DELETE", .word "FROM", .word "users", .word "WHERE"] := ⟨by decide, by decide⟩
  rw [planOf?_eq, pieces_delete, hfront.tokensFrom, tokensFrom_pair apart_nil]
  exact plan?_delete rfl

theorem conditionPieces_eq (conditions : List (FilterKey × String)) :
    conditionPieces conditions =
      wherePieces (conditions.map fun c => (.ofKey c.1, .text c.2)) := by
  cases conditions with
  | nil => rfl
  | cons c cs =>
    simp [conditionPieces, wherePieces, chain, List.flatMap_map, Column.name_ofKey]

/-- The end of a query: the order of its rows and their window. -/
def windowPieces (limit offset : Nat) : List Piece :=
  [.words " ORDER BY created_at, id LIMIT ", .value (.count limit), .words " OFFSET ",
    .value (.count offset)]

theorem apart_windowPieces (limit offset : Nat) : Apart (windowPieces limit offset) :=
  ⟨by decide, by decide⟩

theorem tokensFrom_windowPieces (n limit offset : Nat) :
    tokensFrom n (windowPieces limit offset) =
      [.word "ORDER", .word "BY", .word "created_at", .mark ',', .word "id", .word "LIMIT",
        .place (n + 1), .word "OFFSET", .place (n + 2)] := by
  have horder : Spells " ORDER BY created_at, id LIMIT "
      [.word "ORDER", .word "BY", .word "created_at", .mark ',', .word "id", .word "LIMIT"] :=
    ⟨by decide, by decide⟩
  have hoffset : Spells " OFFSET " [.word "OFFSET"] := ⟨by decide, by decide⟩
  have hbehind : Apart [.words " OFFSET ", .value (.count offset)] := ⟨by decide, by decide⟩
  rw [windowPieces, horder.tokensFrom, tokensFrom_value hbehind, hoffset.tokensFrom,
    tokensFrom_value apart_nil, tokensFrom_nil]
  rfl

theorem readOrder_window {binds : List Value} {limit offset n : Nat}
    (hbinds : binds.drop n = [.count limit, .count offset])
    (conditions : List (Column × Value)) :
    readOrder binds conditions (tokensFrom n (windowPieces limit offset)) =
      some (.select conditions [.createdAt, .id] limit offset) := by
  have hkeys : readList column? [.word Column.createdAt.name, .mark ',', .word Column.id.name,
      .word "LIMIT", .place (n + 1), .word "OFFSET", .place (n + 2)] =
      some ([.createdAt, .id], [.word "LIMIT", .place (n + 1), .word "OFFSET", .place (n + 2)]) :=
    readList_cons (column?_name .createdAt) (readList_last (column?_name .id) (by simp))
  have hlimit : bound? binds (.place (n + 1)) = some (.count limit) := bound?_place hbinds
  have hoffset : bound? binds (.place (n + 2)) = some (.count offset) := by
    have hdrop : binds.drop (n + 1) = [.count offset] := by
      rw [← List.drop_drop, hbinds]
      rfl
    exact bound?_place hdrop
  rw [tokensFrom_windowPieces]
  simp only [Column.name] at hkeys
  simp only [readOrder, hkeys, hlimit, hoffset]

theorem lex_select : lex ("SELECT " ++ Column.list ++ " FROM users").toList =
    .word "SELECT" :: (nameTokens Column.all ++ [.word "FROM", .word "users"]) := by
  have hfront : Spells "SELECT " [.word "SELECT"] := ⟨by decide, by decide⟩
  have hopens : Opens " FROM users".toList := by decide
  have hlast : lex " FROM users".toList = [.word "FROM", .word "users"] := by decide
  rw [String.append_assoc, String.toList_append, String.toList_append,
    lex_append_of_closes hfront.closes, lex_append_of_opens hopens, hfront.lex, hlast, lex_list]
  rfl

theorem apart_wherePieces {rest : List Piece} (h : Apart rest)
    (conditions : List (Column × Value)) :
    Apart (wherePieces conditions ++ rest) := by
  cases conditions with
  | nil => exact h
  | cons c cs => exact ⟨by decide, by decide⟩

theorem pieces_select (conditions : List (FilterKey × String)) (limit offset : Nat) :
    (select conditions limit offset).pieces =
      .words ("SELECT " ++ Column.list ++ " FROM users") ::
        (wherePieces (conditions.map fun c => (.ofKey c.1, .text c.2)) ++
          windowPieces limit offset) := by
  rw [← conditionPieces_eq]
  rfl

theorem planOf?_select (conditions : List (FilterKey × String)) (limit offset : Nat) :
    planOf? (select conditions limit offset).text (select conditions limit offset).binds =
      some (.select (conditions.map fun c => (.ofKey c.1, .text c.2)) [.createdAt, .id]
        limit offset) := by
  let cs : List (Column × Value) := conditions.map fun c => (.ofKey c.1, .text c.2)
  let window := windowPieces limit offset
  have hwindow : Apart window := apart_windowPieces limit offset
  have hbinds : valuesOf (select conditions limit offset).pieces =
      cs.map (·.2) ++ [.count limit, .count offset] := by
    simp [pieces_select, cs, windowPieces]
  have hend (n : Nat) (u : Token) (us : List Token) (hu : tokensFrom n window = u :: us) :
      u ≠ .word "WHERE" ∧ u ≠ .word "AND" := by
    rw [tokensFrom_windowPieces] at hu
    obtain ⟨rfl, -⟩ := List.cons.inj hu
    decide
  have hdrop : (cs.map (·.2) ++ [Value.count limit, .count offset]).drop (0 + cs.length) =
      [.count limit, .count offset] := by
    simp
  have hcolumns (rest : List Token) :
      readList column? (nameTokens Column.all ++ .word "FROM" :: rest) =
        some (Column.all, .word "FROM" :: rest) :=
    readList_nameTokens (by simp) (by decide)
  have hvalues : (cs.map (·.2) ++ [Value.count limit, .count offset]).drop 0 =
      cs.map (·.2) ++ [.count limit, .count offset] := rfl
  have hwhere := readWhere_pieces hwindow hend cs 0 hvalues
  rw [planOf?_eq, hbinds, pieces_select, tokensFrom_words_of_apart (apart_wherePieces hwindow cs),
    lex_select]
  simp only [List.append_assoc, List.cons_append, List.nil_append]
  exact (plan?_select (hcolumns _) hwhere).trans (readOrder_window hdrop cs)

end Statement

end Roster.Sql
