import Roster.Proofs.Decimals
import Roster.Sql.Statement
/-! # The lexemes of a statement

A database takes the text of a statement apart at blanks and marks. The text of one part after the
other is taken apart part by part, as long as something separates a place from what follows it. -/
namespace Roster.Sql
open Text

inductive Token
  | word (s : String)
  | place (n : Nat)
  | mark (c : Char)
  deriving DecidableEq, Repr

def isMark (c : Char) : Bool := c == '(' || c == ')' || c == ',' || c == '='

/-- The character ends the lexeme before it. -/
def separates (c : Char) : Bool := c == ' ' || isMark c

/-- The lexeme of a run of characters without separators. -/
def lexeme : List Char → List Token
  | [] => []
  | '$' :: ds =>
    match natOfDigits? ds with
    | some n => [.place n]
    | none => [.word (.ofList ('$' :: ds))]
  | cs => [.word (.ofList cs)]

/-- The lexemes of a text behind the beginning of one. -/
def lexOnto (seen : List Char) : List Char → List Token
  | [] => lexeme seen
  | c :: cs =>
    if isMark c then lexeme seen ++ .mark c :: lexOnto [] cs
    else if c = ' ' then lexeme seen ++ lexOnto [] cs
    else lexOnto (seen ++ [c]) cs

def lex (cs : List Char) : List Token := lexOnto [] cs

/-- The text begins with a separator or is empty. -/
def Opens (cs : List Char) : Prop := cs.head?.all separates = true

/-- The text ends in a separator or is empty. -/
def Closes (cs : List Char) : Prop := cs.getLast?.all separates = true

instance (cs : List Char) : Decidable (Opens cs) :=
  inferInstanceAs (Decidable (cs.head?.all separates = true))

instance (cs : List Char) : Decidable (Closes cs) :=
  inferInstanceAs (Decidable (cs.getLast?.all separates = true))

theorem lexOnto_separator {c : Char} (h : separates c = true) (seen cs : List Char) :
    lexOnto seen (c :: cs) = lexeme seen ++ lex (c :: cs) := by
  by_cases hm : isMark c = true
  · simp only [lex, lexOnto, hm, if_true]
    rfl
  · obtain rfl : c = ' ' := by simpa [separates, hm] using h
    rfl

theorem lexOnto_append {rest : List Char} (h : Opens rest) (seen cs : List Char) :
    lexOnto seen (cs ++ rest) = lexOnto seen cs ++ lex rest := by
  induction cs generalizing seen with
  | nil =>
    cases rest with
    | nil => simp [lex, lexOnto, lexeme]
    | cons c rest => exact lexOnto_separator h seen rest
  | cons c cs ih =>
    simp only [List.cons_append, lexOnto, ih]
    split
    · simp
    · split <;> simp

theorem lex_append_of_opens {rest : List Char} (h : Opens rest) (cs : List Char) :
    lex (cs ++ rest) = lex cs ++ lex rest := lexOnto_append h [] cs

theorem lex_separator_append {c : Char} (h : separates c = true) (cs : List Char) :
    lex (c :: cs) = lex [c] ++ lex cs := by
  by_cases hm : isMark c = true
  · simp only [lex, lexOnto, hm, if_true]
    rfl
  · obtain rfl : c = ' ' := by simpa [separates, hm] using h
    rfl

theorem lex_append_of_closes {cs : List Char} (h : Closes cs) (rest : List Char) :
    lex (cs ++ rest) = lex cs ++ lex rest := by
  rcases List.eq_nil_or_concat cs with rfl | ⟨front, c, rfl⟩
  · rfl
  · have hc : separates c = true := by simpa [Closes] using h
    have hopens (cs : List Char) : Opens (c :: cs) := hc
    rw [List.concat_eq_append]
    calc lex (front ++ [c] ++ rest)
        = lex (front ++ c :: rest) := by rw [List.append_assoc, List.singleton_append]
      _ = lex front ++ (lex [c] ++ lex rest) := by
        rw [lex_append_of_opens (hopens rest), lex_separator_append hc]
      _ = lex (front ++ [c]) ++ lex rest := by
        rw [lex_append_of_opens (hopens []), List.append_assoc]

theorem lexOnto_of_plain {cs : List Char} (h : ∀ c ∈ cs, separates c = false)
    (seen : List Char) :
    lexOnto seen cs = lexeme (seen ++ cs) := by
  induction cs generalizing seen with
  | nil => simp [lexOnto]
  | cons c cs ih =>
    obtain ⟨hc, hcs⟩ := List.forall_mem_cons.mp h
    have hplain : isMark c = false ∧ c ≠ ' ' := by simpa [separates, and_comm] using hc
    simp [lexOnto, hplain, ih hcs]

theorem separates_of_isDigit {c : Char} (h : c.isDigit = true) : separates c = false := by
  have hne (d : Char) (hd : d.isDigit = false) : c ≠ d := ne_of_isDigit h hd
  simp [separates, isMark, hne ' ' rfl, hne '(' rfl, hne ')' rfl, hne ',' rfl, hne '=' rfl]

theorem lex_place (n : Nat) : lex ('$' :: decimal n) = [.place n] := by
  have hplain : ∀ c ∈ '$' :: decimal n, separates c = false := by
    rw [List.forall_mem_cons]
    exact ⟨rfl, fun c hc => separates_of_isDigit (isDigit_of_mem_decimal hc)⟩
  simp [lex, lexOnto_of_plain hplain, lexeme, natOfDigits?_decimal]

namespace Statement

/-- The lexemes of parts of a statement, whose places are numbered from one behind `n` on. -/
def tokensFrom (n : Nat) (pieces : List Piece) : List Token := lex (wordsFrom (n + 1) pieces).toList

theorem toList_words (n : Nat) (s : String) (rest : List Piece) :
    (wordsFrom n (.words s :: rest)).toList = s.toList ++ (wordsFrom n rest).toList := by
  simp [wordsFrom]

theorem toList_value (n : Nat) (v : Value) (rest : List Piece) :
    (wordsFrom n (.value v :: rest)).toList =
      '$' :: decimal n ++ (wordsFrom (n + 1) rest).toList := by
  simp [wordsFrom, decimal]

/-- A separator follows, or nothing at all. -/
def Apart : List Piece → Prop
  | [] => True
  | .words s :: _ => s.toList ≠ [] ∧ Opens s.toList
  | .value _ :: _ => False

theorem apart_nil : Apart [] := trivial

theorem Apart.opens {rest : List Piece} (h : Apart rest) (n : Nat) :
    Opens (wordsFrom n rest).toList := by
  cases rest with
  | nil => rfl
  | cons piece rest =>
    cases piece with
    | value v => exact h.elim
    | words s =>
      obtain ⟨hne, hs⟩ := h
      rw [toList_words]
      cases hcs : s.toList with
      | nil => exact absurd hcs hne
      | cons c cs =>
        rw [hcs] at hs
        exact hs

theorem tokensFrom_nil (n : Nat) : tokensFrom n [] = [] := rfl

theorem tokensFrom_value {rest : List Piece} (h : Apart rest) (n : Nat) (v : Value) :
    tokensFrom n (.value v :: rest) = .place (n + 1) :: tokensFrom (n + 1) rest := by
  rw [tokensFrom, toList_value, lex_append_of_opens (h.opens _), lex_place]
  rfl

theorem tokensFrom_words_of_apart {rest : List Piece} (h : Apart rest) (n : Nat) (s : String) :
    tokensFrom n (.words s :: rest) = lex s.toList ++ tokensFrom n rest := by
  rw [tokensFrom, toList_words, lex_append_of_opens (h.opens _)]
  rfl

/-- The words are these lexemes, whatever follows. -/
structure Spells (s : String) (ts : List Token) : Prop where
  closes : Closes s.toList
  lex : lex s.toList = ts

theorem Spells.tokensFrom {s : String} {ts : List Token} (h : Spells s ts) (n : Nat)
    (rest : List Piece) : tokensFrom n (.words s :: rest) = ts ++ tokensFrom n rest := by
  rw [Statement.tokensFrom, toList_words, lex_append_of_closes h.closes, h.lex]
  rfl

theorem spells_column (c : Column) : Spells (c.name ++ " = ") [.word c.name, .mark '='] := by
  cases c with
  | profile a => cases a <;> exact ⟨by decide, by decide⟩
  | _ => exact ⟨by decide, by decide⟩

theorem tokensFrom_pair {rest : List Piece} (h : Apart rest) (n : Nat) (c : Column) (v : Value) :
    tokensFrom n (pair c.name v ++ rest) =
      .word c.name :: .mark '=' :: .place (n + 1) :: tokensFrom (n + 1) rest := by
  rw [pair, List.cons_append, List.cons_append, List.nil_append, (spells_column c).tokensFrom,
    tokensFrom_value h]
  rfl

end Statement

end Roster.Sql
