import Roster.Proofs.Passing
/-! # How strings and numbers are written

A grammar for the two lexemes that have one. What the grammar allows is read, if a number is not too
large, and whatever is read or passed over is what the grammar allows: the characters of a string may
be escaped as one likes, and passing over does not ask whether a code unit stands for a
character. -/
namespace Roster.Json
open Text

/-- Four hexadecimal digits with a value. -/
inductive Hex : List Char → Nat → Prop
  | digits {w x y z : Char} {a b c d : Nat} (hw : digitValue? w = some a)
      (hx : digitValue? x = some b) (hy : digitValue? y = some c) (hz : digitValue? z = some d) :
      Hex [w, x, y, z] (((a * 16 + b) * 16 + c) * 16 + d)

/-- How a character may stand between quotes. -/
inductive Spells : Char → List Char → Prop
  | plain {c : Char} (hplain : 32 ≤ c.toNat) (hquote : c ≠ '"') (hbackslash : c ≠ '\\') :
      Spells c [c]
  | letter {x c : Char} (hx : shortEscape? x = some c) : Spells c ['\\', x]
  | unit {ds : List Char} {n : Nat} (hds : Hex ds n) (hn : n < 0xD800 ∨ 0xDFFF < n) :
      Spells (charOfUnit n) ('\\' :: 'u' :: ds)
  | pair {ds es : List Char} {m n : Nat} (hds : Hex ds m) (hes : Hex es n)
      (hhigh : 0xD800 ≤ m ∧ m ≤ 0xDBFF) (hlow : 0xDC00 ≤ n ∧ n ≤ 0xDFFF) :
      Spells (charOfUnit ((m - 0xD800) * 1024 + (n - 0xDC00) + 0x10000))
        ('\\' :: 'u' :: (ds ++ '\\' :: 'u' :: es))

/-- How a text may stand between quotes. -/
inductive Spelling : List Char → List Char → Prop
  | nil : Spelling [] []
  | cons {c : Char} {cs mark marks : List Char} (hc : Spells c mark) (hcs : Spelling cs marks) :
      Spelling (c :: cs) (mark ++ marks)

/-- What may stand between quotes if it is only passed over. -/
inductive Marks : List Char → Prop
  | nil : Marks []
  | plain {c : Char} {marks : List Char} (hplain : 32 ≤ c.toNat) (hquote : c ≠ '"')
      (hbackslash : c ≠ '\\') (hmarks : Marks marks) : Marks (c :: marks)
  | letter {x : Char} {marks : List Char} (hx : (shortEscape? x).isSome) (hmarks : Marks marks) :
      Marks ('\\' :: x :: marks)
  | unit {ds marks : List Char} {n : Nat} (hds : Hex ds n) (hmarks : Marks marks) :
      Marks ('\\' :: 'u' :: (ds ++ marks))

section

variable {cs ds mark marks rest : List Char} {c : Char} {n : Nat}

theorem readHex_append (h : Hex ds n) (rest : List Char) : readHex (ds ++ rest) = .ok (n, rest) := by
  cases h with
  | @digits w x y z a b c d hw hx hy hz =>
    have hbytes : ¬ byteLength [w, x, y, z] < 4 := by
      have hw := w.utf8Size_pos
      have hx := x.utf8Size_pos
      have hy := y.utf8Size_pos
      have hz := z.utf8Size_pos
      simp only [byteLength, List.foldl_cons, List.foldl_nil]
      omega
    have hvalues : [w, x, y, z].mapM digitValue? = some [a, b, c, d] := by simp [hw, hx, hy, hz]
    simp [readHex, hbytes, hvalues]

/-- As many digits have values as there are values. -/
theorem digits_of_mapM {ds : List Char} {a b c d : Nat}
    (h : ds.mapM digitValue? = some [a, b, c, d]) :
    Hex ds (((a * 16 + b) * 16 + c) * 16 + d) := by
  rcases ds with _ | ⟨w, _ | ⟨x, _ | ⟨y, _ | ⟨z, _ | ⟨_, _⟩⟩⟩⟩⟩ <;>
    simp [Option.bind_eq_some_iff] at h
  obtain ⟨hw, hx, hy, hz⟩ := h
  exact .digits hw hx hy hz

theorem hex_of_readHex (h : readHex cs = .ok (n, rest)) : ∃ ds, Hex ds n ∧ cs = ds ++ rest := by
  unfold readHex at h
  split at h
  · cases h
  · split at h
    · rename_i a b c d hvalues
      obtain ⟨rfl, rfl⟩ := Prod.mk.inj (Except.ok.inj h)
      exact ⟨cs.take 4, digits_of_mapM hvalues, (List.take_append_drop 4 cs).symm⟩
    · cases h

theorem readTextOnto_spells (h : Spells c mark) (seen rest : List Char) :
    readTextOnto seen (mark ++ rest) = readTextOnto (c :: seen) rest := by
  cases h with
  | plain hplain hquote hbackslash => exact readTextOnto_plain hplain hquote hbackslash seen rest
  | @letter x c hx =>
    have hread : readEscape (x :: rest) = .ok (c, rest) := by simp [readEscape, hx]
    exact readTextOnto_backslash hread seen
  | @unit ds n hds hn =>
    have hlow : ¬ (0xDC00 ≤ n ∧ n ≤ 0xDFFF) := by omega
    have hsingle : n < 0xD800 ∨ 0xDBFF < n := by omega
    have hread : readEscape ('u' :: (ds ++ rest)) = .ok (charOfUnit n, rest) := by
      change readUnits (ds ++ rest) = _
      simp only [readUnits, readHex_append hds, if_neg hlow, if_pos hsingle]
    exact readTextOnto_backslash hread seen
  | @pair ds es m n hds hes hhigh hlow =>
    have hfirst : ¬ (0xDC00 ≤ m ∧ m ≤ 0xDFFF) := by omega
    have hdouble : ¬ (m < 0xD800 ∨ 0xDBFF < m) := by omega
    have hsecond : ¬ (n < 0xDC00 ∨ 0xDFFF < n) := by omega
    have hread : readEscape ('u' :: (ds ++ '\\' :: 'u' :: (es ++ rest))) =
        .ok (charOfUnit ((m - 0xD800) * 1024 + (n - 0xDC00) + 0x10000), rest) := by
      change readUnits (ds ++ '\\' :: 'u' :: (es ++ rest)) = _
      simp only [readUnits, readHex_append hds, if_neg hfirst, if_neg hdouble, readHex_append hes,
        if_neg hsecond]
    simpa using readTextOnto_backslash hread seen

/-- A character that stands for itself. -/
def isPlain (c : Char) : Bool := 32 ≤ c.toNat && c != '"' && c != '\\'

theorem spelling_plain (h : cs.all isPlain = true) : Spelling cs cs := by
  induction cs with
  | nil => exact .nil
  | cons c cs ih =>
    rw [List.all_cons, Bool.and_eq_true] at h
    obtain ⟨⟨hplain, hquote⟩, hbackslash⟩ : (32 ≤ c.toNat ∧ c ≠ '"') ∧ c ≠ '\\' := by
      simpa [isPlain] using h.1
    exact .cons (.plain hplain hquote hbackslash) (ih h.2)

theorem readTextOnto_spelling (h : Spelling cs marks) (seen rest : List Char) :
    readTextOnto seen (marks ++ '"' :: rest) = .ok (seen.reverse ++ cs, rest) := by
  induction h generalizing seen with
  | nil => simp [readTextOnto]
  | cons hc _ ih =>
    rw [List.append_assoc, readTextOnto_spells hc, ih]
    simp

/-- A text is read however its characters are spelled. -/
theorem readText_spelling {s : String} (h : Spelling s.toList marks) (rest : List Char) :
    readText (marks ++ '"' :: rest) = .ok (s, rest) := by
  rw [readText, readTextOnto_spelling h]
  simp [Except.map]

/-- A character takes one code unit or two. -/
theorem spells_of_readUnits (h : readUnits cs = .ok (c, rest)) :
    ∃ ds, Spells c ('\\' :: 'u' :: ds) ∧ cs = ds ++ rest := by
  unfold readUnits at h
  split at h
  · cases h
  · rename_i n behind hn
    obtain ⟨ds, hds, rfl⟩ := hex_of_readHex hn
    split at h
    · cases h
    · rename_i hlow
      split at h
      · rename_i hsingle
        obtain ⟨rfl, rfl⟩ := Prod.mk.inj (Except.ok.inj h)
        exact ⟨ds, .unit hds (by omega), rfl⟩
      · rename_i hdouble
        split at h
        · cases h
        · cases h
        · split at h
          · cases h
          · rename_i m _ hm
            obtain ⟨es, hes, rfl⟩ := hex_of_readHex hm
            split at h
            · cases h
            · obtain ⟨rfl, rfl⟩ := Prod.mk.inj (Except.ok.inj h)
              exact ⟨ds ++ '\\' :: 'u' :: es, .pair hds hes (by omega) (by omega), by simp⟩
        · cases h
        · cases h

theorem spells_of_readEscape (h : readEscape cs = .ok (c, rest)) :
    ∃ mark, Spells c ('\\' :: mark) ∧ cs = mark ++ rest := by
  cases cs with
  | nil => cases h
  | cons x cs =>
    rw [readEscape] at h
    split at h
    · rename_i hx
      obtain ⟨rfl, rfl⟩ := Prod.mk.inj (Except.ok.inj h)
      exact ⟨[x], .letter hx, rfl⟩
    · split at h
      · rename_i hu
        obtain ⟨ds, hds, rfl⟩ := spells_of_readUnits h
        exact ⟨'u' :: ds, hds, by rw [hu]; rfl⟩
      · cases h

theorem spelling_of_readTextOnto {seen out : List Char}
    (h : readTextOnto seen cs = .ok (out, rest)) :
    ∃ text marks, Spelling text marks ∧ cs = marks ++ '"' :: rest ∧ out = seen.reverse ++ text := by
  fun_induction readTextOnto seen cs with
  | case1 => cases h
  | case2 seen rest' =>
    obtain ⟨rfl, rfl⟩ := Prod.mk.inj (Except.ok.inj h)
    exact ⟨[], [], .nil, rfl, by simp⟩
  | case3 => cases h
  | case4 seen rest' c more hescape _ ih =>
    obtain ⟨text, marks, hspelling, rfl, rfl⟩ := ih h
    obtain ⟨mark, hmark, rfl⟩ := spells_of_readEscape hescape
    exact ⟨c :: text, '\\' :: mark ++ marks, .cons hmark hspelling, by simp, by simp⟩
  | case5 => cases h
  | case6 seen c rest' hquote hbackslash hcontrol ih =>
    obtain ⟨text, marks, hspelling, rfl, rfl⟩ := ih h
    have hspells : Spells c [c] := .plain (Nat.le_of_not_lt hcontrol) hquote hbackslash
    exact ⟨c :: text, [c] ++ marks, .cons hspells hspelling, by simp, by simp⟩

/-- A text that is read is spelled. -/
theorem spelling_of_readText {s : String} (h : readText cs = .ok (s, rest)) :
    ∃ marks, Spelling s.toList marks ∧ cs = marks ++ '"' :: rest := by
  obtain ⟨⟨out, _⟩, hread, heq⟩ := ok_of_map h
  obtain ⟨rfl, rfl⟩ := Prod.mk.inj heq
  obtain ⟨text, marks, hspelling, rfl, rfl⟩ := spelling_of_readTextOnto hread
  exact ⟨marks, by simpa using hspelling, rfl⟩

theorem passText_marks (h : Marks marks) (rest : List Char) :
    passText (marks ++ '"' :: rest) = .ok rest := by
  induction h with
  | nil => simp [passText]
  | plain hplain hquote hbackslash _ ih =>
    rw [List.cons_append, passText_plain hplain hquote hbackslash, ih]
  | @letter x marks hx _ ih =>
    have hescape : passEscape (x :: (marks ++ '"' :: rest)) = .ok (marks ++ '"' :: rest) := by
      simp [passEscape, hx]
    exact (passText_backslash hescape).trans ih
  | @unit ds marks n hds _ ih =>
    have hescape := passEscape_unit (readHex_append hds (marks ++ '"' :: rest))
    rw [List.cons_append, List.cons_append, List.append_assoc, passText_backslash hescape, ih]

/-- A string that is passed over has nothing but such marks. -/
theorem marks_of_passText (h : passText cs = .ok rest) :
    ∃ marks, Marks marks ∧ cs = marks ++ '"' :: rest := by
  fun_induction passText cs with
  | case1 => cases h
  | case2 rest' =>
    obtain rfl := Except.ok.inj h
    exact ⟨[], .nil, rfl⟩
  | case3 => cases h
  | case4 rest' more hescape hlt ih =>
    obtain ⟨marks, hmarks, rfl⟩ := ih h
    cases rest' with
    | nil => cases hescape
    | cons x rest' =>
      rw [passEscape] at hescape
      split at hescape
      · rename_i hx
        obtain rfl := Except.ok.inj hescape
        exact ⟨'\\' :: x :: marks, .letter hx hmarks, rfl⟩
      · split at hescape
        · rename_i hu
          obtain ⟨⟨n, _⟩, hhex, rfl⟩ := ok_of_map hescape
          obtain ⟨ds, hds, rfl⟩ := hex_of_readHex hhex
          exact ⟨'\\' :: 'u' :: (ds ++ marks), .unit hds hmarks, by simp [hu]⟩
        · cases hescape
  | case5 => cases h
  | case6 c rest' hquote hbackslash hcontrol ih =>
    obtain ⟨marks, hmarks, rfl⟩ := ih h
    exact ⟨c :: marks, .plain (Nat.le_of_not_lt hcontrol) hquote hbackslash hmarks, rfl⟩

theorem marks_of_spelling (h : Spelling cs marks) : Marks marks := by
  obtain ⟨marks', hmarks', heq⟩ :=
    marks_of_passText (passText_of_readTextOnto (readTextOnto_spelling h [] []))
  exact List.append_cancel_right heq ▸ hmarks'

end

/-- An exponent. -/
structure Exponent where
  letter : Char
  sign : List Char
  digits : List Char
  letter_eq : letter = 'e' ∨ letter = 'E'
  sign_eq : sign = [] ∨ sign = ['+'] ∨ sign = ['-']
  digits_ne : digits ≠ []
  isDigit : ∀ c ∈ digits, c.isDigit = true

def Exponent.text (e : Exponent) : List Char := e.letter :: (e.sign ++ e.digits)

/-- The power of ten that an exponent adds. -/
def Exponent.power (e : Exponent) : Int :=
  if e.sign = ['-'] then -exponentValue e.digits else exponentValue e.digits

/-- A number without its sign: whole digits, those of a fraction if there is one, and an
exponent. -/
structure Numeral where
  whole : List Char
  fraction : List Char := []
  exponent : Option Exponent := none
  whole_ne : whole ≠ []
  isDigit : ∀ c ∈ whole ++ fraction, c.isDigit = true
  /-- Only a zero alone begins with a zero. -/
  zero : whole.head? = some '0' → whole.length = 1

namespace Numeral

def text (n : Numeral) : List Char :=
  n.whole ++ ((if n.fraction = [] then [] else '.' :: n.fraction) ++
    (n.exponent.elim [] Exponent.text))

/-- The text behind the number does not belong to it. -/
structure Stops (n : Numeral) (rest : List Char) : Prop where
  digit : NoDigit rest
  letter : n.exponent = none → ∀ c ∈ rest.head?, c ≠ 'e' ∧ c ≠ 'E'
  point : n.fraction = [] → n.exponent = none → ∀ c ∈ rest.head?, c ≠ '.'

/-- The number of whole digits behind those that 64 bits hold. -/
def dropped (n : Numeral) : Nat := n.whole.length - (takeDigits 0 n.whole).2

/-- The digits that count and the power of ten with which they do. -/
def scale (n : Numeral) : Nat × Int :=
  let digits := takeDigits (takeDigits 0 n.whole).1 n.fraction
  (digits.1, n.dropped - digits.2 + n.exponent.elim 0 Exponent.power)

/-- A whole number of at most 64 bits. -/
def isWord (n : Numeral) : Bool := n.fraction = [] && n.exponent = none && n.dropped = 0

/-- The number is a word, or within the range of floating point. -/
def InRange (n : Numeral) : Prop := n.isWord = true ∨ outOfRange n.scale.1 n.scale.2 = false

/-- The value of a number in range. -/
def value? (n : Numeral) (isNegative : Bool) : Option Number :=
  if n.isWord then some (wholeNumber isNegative n.scale.1)
  else if outOfRange n.scale.1 n.scale.2 then none
  else some (.scaled isNegative n.scale.1 n.scale.2)

end Numeral

theorem stops_of_ends {rest : List Char} (h : Ends rest) (n : Numeral) : n.Stops rest where
  digit c hc := (h c hc).1
  letter _ c hc := (h c hc).2.2
  point _ _ c hc := (h c hc).2.1

/-- What comes of a number, depending on its size. -/
def sized (n? : Option Number) (rest : List Char) : Except Fault (Number × List Char) :=
  match n? with
  | some n => .ok (n, rest)
  | none => .error ⟨.numberOutOfRange, rest, false⟩

theorem readExponent_text (e : Exponent) (isNegative : Bool) (significand : Nat) (start : Int)
    {rest : List Char} (hrest : NoDigit rest) :
    readExponent isNegative significand start (e.sign ++ (e.digits ++ rest)) =
      scaledNumber isNegative significand (start + e.power) rest := by
  have htake := takeWhile_isDigit e.isDigit hrest
  have hdrop := dropWhile_isDigit e.isDigit hrest
  obtain ⟨d, ds, hds⟩ := List.exists_cons_of_ne_nil e.digits_ne
  have hd : d.isDigit = true := e.isDigit d (hds ▸ List.mem_cons_self)
  have hplus : d ≠ '+' := ne_of_isDigit hd rfl
  have hminus : d ≠ '-' := ne_of_isDigit hd rfl
  rw [Exponent.power]
  rw [hds, List.cons_append] at htake hdrop ⊢
  rcases e.sign_eq with hsign | hsign | hsign <;>
    simp [hsign, readExponent, hplus, hminus, hd, htake, hdrop, Int.sub_eq_add_neg]

theorem passExponent_text (e : Exponent) {rest : List Char} (hrest : NoDigit rest) :
    passExponent (e.sign ++ (e.digits ++ rest)) = .ok rest := by
  have hdrop := dropWhile_isDigit e.isDigit hrest
  obtain ⟨d, ds, hds⟩ := List.exists_cons_of_ne_nil e.digits_ne
  have hd : d.isDigit = true := e.isDigit d (hds ▸ List.mem_cons_self)
  have hplus : d ≠ '+' := ne_of_isDigit hd rfl
  have hminus : d ≠ '-' := ne_of_isDigit hd rfl
  rw [hds, List.cons_append] at hdrop ⊢
  rw [List.dropWhile_cons_of_pos hd] at hdrop
  rcases e.sign_eq with hsign | hsign | hsign <;>
    simp [hsign, passExponent, hplus, hminus, hd, hdrop]

namespace Numeral

variable (n : Numeral)

theorem whole_digit {c : Char} (h : c ∈ n.whole) : c.isDigit = true :=
  n.isDigit c (List.mem_append_left _ h)

theorem fraction_digit {c : Char} (h : c ∈ n.fraction) : c.isDigit = true :=
  n.isDigit c (List.mem_append_right _ h)

variable {n} in
theorem Stops.noDigit_exponent {rest : List Char} (h : n.Stops rest) :
    NoDigit (n.exponent.elim [] Exponent.text ++ rest) := by
  cases hn : n.exponent with
  | none => exact h.digit
  | some e =>
    refine noDigit_cons ?_ _
    rcases e.letter_eq with hletter | hletter <;> rw [hletter] <;> rfl

variable {n} in
theorem Stops.noDigit_fraction {rest : List Char} (h : n.Stops rest) :
    NoDigit ((if n.fraction = [] then [] else '.' :: n.fraction) ++
      (n.exponent.elim [] Exponent.text ++ rest)) := by
  split
  · exact h.noDigit_exponent
  · exact noDigit_cons rfl _

end Numeral

section

variable {n : Numeral} {isNegative : Bool} {rest : List Char}

theorem Numeral.exists_whole (n : Numeral) : ∃ c ws, n.whole = c :: ws ∧ c.isDigit = true ∧
    ¬ (c = '0' ∧ 1 < n.whole.length) := by
  obtain ⟨c, ws, hws⟩ := List.exists_cons_of_ne_nil n.whole_ne
  refine ⟨c, ws, hws, n.whole_digit (hws ▸ List.mem_cons_self), ?_⟩
  rintro ⟨rfl, hlong⟩
  have hone := n.zero (by rw [hws]; rfl)
  omega

theorem scaledNumber_scale (h : n.isWord = false) :
    scaledNumber isNegative n.scale.1 n.scale.2 rest = sized (n.value? isNegative) rest := by
  rw [scaledNumber, Numeral.value?, h]
  split <;> rfl

theorem readNumber_whole (hrest : n.Stops rest) (hfraction : n.fraction = [])
    (hexponent : n.exponent = none) :
    readNumber isNegative (n.text ++ rest) = sized (n.value? isNegative) rest := by
  obtain ⟨c, ws, hws, hc, hzero⟩ := n.exists_whole
  have htake := takeWhile_isDigit (fun _ => n.whole_digit) hrest.digit
  have hdrop := dropWhile_isDigit (fun _ => n.whole_digit) hrest.digit
  have hscale : n.scale = ((takeDigits 0 n.whole).1, (n.dropped : Int)) := by
    simp [Numeral.scale, hfraction, hexponent, takeDigits]
  have hread : readNumber isNegative (n.text ++ rest) = if n.dropped = 0 then
      .ok (wholeNumber isNegative n.scale.1, rest)
      else scaledNumber isNegative n.scale.1 n.scale.2 rest := by
    simp only [hscale, Numeral.dropped, Numeral.text, hfraction, hexponent, if_true, Option.elim,
      List.append_nil]
    rw [hws, List.cons_append] at htake hdrop
    rw [hws] at hzero
    rw [hws, List.cons_append, readNumber]
    simp only [hc, htake, hdrop, if_neg hzero, Bool.not_true, Bool.false_eq_true, if_false]
    split
    · exact absurd rfl (hrest.point hfraction hexponent '.' rfl)
    · exact absurd rfl (hrest.letter hexponent 'e' rfl).1
    · exact absurd rfl (hrest.letter hexponent 'E' rfl).2
    · rfl
  have hword : n.isWord = true ↔ n.dropped = 0 := by simp [Numeral.isWord, hfraction, hexponent]
  rw [hread]
  split
  · rename_i hdropped
    rw [Numeral.value?, if_pos (hword.mpr hdropped)]
    rfl
  · rename_i hdropped
    exact scaledNumber_scale (by simpa [hdropped] using hword)

theorem readNumber_exponent (hrest : n.Stops rest) (hfraction : n.fraction = []) {e : Exponent}
    (hexponent : n.exponent = some e) :
    readNumber isNegative (n.text ++ rest) = sized (n.value? isNegative) rest := by
  obtain ⟨c, ws, hws, hc, hzero⟩ := n.exists_whole
  have hbehind := hrest.noDigit_exponent
  rw [hexponent] at hbehind
  have htake := takeWhile_isDigit (fun _ => n.whole_digit) hbehind
  have hdrop := dropWhile_isDigit (fun _ => n.whole_digit) hbehind
  have hscale : n.scale = ((takeDigits 0 n.whole).1, n.dropped + e.power) := by
    simp [Numeral.scale, hfraction, hexponent, takeDigits]
  rw [← scaledNumber_scale (by simp [Numeral.isWord, hexponent]), hscale,
    ← readExponent_text e _ _ _ hrest.digit, Numeral.dropped]
  simp only [Numeral.text, hfraction, hexponent, if_true, Option.elim, List.nil_append,
    List.append_assoc]
  simp only [hws, List.cons_append, Option.elim] at htake hdrop
  rw [hws] at hzero
  rw [hws, List.cons_append, readNumber]
  simp only [hc, htake, hdrop, if_neg hzero, Bool.not_true, Bool.false_eq_true, if_false]
  rcases e.letter_eq with hletter | hletter <;> simp [Exponent.text, hletter]

theorem readNumber_fraction (hrest : n.Stops rest) (hfraction : n.fraction ≠ []) :
    readNumber isNegative (n.text ++ rest) = sized (n.value? isNegative) rest := by
  obtain ⟨c, ws, hws, hc, hzero⟩ := n.exists_whole
  have htake := takeWhile_isDigit (fun _ => n.whole_digit) hrest.noDigit_fraction
  have hdrop := dropWhile_isDigit (fun _ => n.whole_digit) hrest.noDigit_fraction
  have htake' := takeWhile_isDigit (fun _ => n.fraction_digit) hrest.noDigit_exponent
  have hdrop' := dropWhile_isDigit (fun _ => n.fraction_digit) hrest.noDigit_exponent
  rw [← scaledNumber_scale (by simp [Numeral.isWord, hfraction])]
  simp only [hws, if_neg hfraction, List.cons_append] at htake hdrop
  rw [hws] at hzero
  simp only [Numeral.text, if_neg hfraction, List.append_assoc, List.cons_append, Numeral.scale,
    Numeral.dropped]
  rw [hws, List.cons_append, readNumber]
  simp only [hc, htake, hdrop, htake', hdrop', if_neg hzero, if_neg hfraction, Bool.not_true,
    Bool.false_eq_true, if_false]
  cases hexponent : n.exponent with
  | none =>
    simp only [Option.elim, List.nil_append, Int.add_zero]
    split
    · exact absurd rfl (hrest.letter hexponent 'e' rfl).1
    · exact absurd rfl (hrest.letter hexponent 'E' rfl).2
    · rfl
  | some e =>
    simp only [Option.elim]
    rw [← readExponent_text e _ _ _ hrest.digit]
    rcases e.letter_eq with hletter | hletter <;> simp [Exponent.text, hletter]

/-- A number is read by its value, whatever follows it. -/
theorem readNumber_text (hrest : n.Stops rest) :
    readNumber isNegative (n.text ++ rest) = sized (n.value? isNegative) rest := by
  by_cases hfraction : n.fraction = []
  · cases hexponent : n.exponent with
    | none => exact readNumber_whole hrest hfraction hexponent
    | some e => exact readNumber_exponent hrest hfraction hexponent
  · exact readNumber_fraction hrest hfraction

end

theorem any_head?_of_noDigit {rest : List Char} (h : NoDigit rest) :
    rest.head?.any Char.isDigit = false := by
  cases rest with
  | nil => rfl
  | cons c rest => exact h c rfl

section

variable {n : Numeral} {rest : List Char}

/-- Digits follow a zero at the start only behind a point or in an exponent. -/
theorem Numeral.Stops.alone (hrest : n.Stops rest) {c : Char} {ws : List Char}
    (hws : n.whole = c :: ws) : ¬ (c = '0' ∧ (ws ++ ((if n.fraction = [] then []
      else '.' :: n.fraction) ++ (n.exponent.elim [] Exponent.text ++ rest))).head?.any
        Char.isDigit) := by
  rintro ⟨rfl, hhead⟩
  obtain rfl : ws = [] := by
    have hone := n.zero (by rw [hws]; rfl)
    simpa [hws] using hone
  rw [List.nil_append, any_head?_of_noDigit hrest.noDigit_fraction] at hhead
  cases hhead

theorem passNumber_whole (hrest : n.Stops rest) (hfraction : n.fraction = []) :
    passNumber (n.text ++ rest) = .ok rest := by
  obtain ⟨c, ws, hws, hc, -⟩ := n.exists_whole
  have halone := hrest.alone hws
  have hdrop := dropWhile_isDigit (fun _ => n.whole_digit) hrest.noDigit_fraction
  simp only [hws, List.cons_append, hfraction, if_true, List.nil_append] at halone hdrop
  simp only [Numeral.text, hws, List.cons_append, List.append_assoc, hfraction, if_true,
    List.nil_append, passNumber, hc, if_neg halone, hdrop, Bool.not_true, Bool.false_eq_true,
    if_false]
  cases hexponent : n.exponent with
  | none =>
    simp only [Option.elim, List.nil_append]
    split
    · exact absurd rfl (hrest.point hfraction hexponent '.' rfl)
    · exact absurd rfl (hrest.letter hexponent 'e' rfl).1
    · exact absurd rfl (hrest.letter hexponent 'E' rfl).2
    · rfl
  | some e =>
    have hpass := passExponent_text e hrest.digit
    rcases e.letter_eq with hletter | hletter <;> simp [Exponent.text, hletter, hpass]

theorem passNumber_fraction (hrest : n.Stops rest) (hfraction : n.fraction ≠ []) :
    passNumber (n.text ++ rest) = .ok rest := by
  obtain ⟨c, ws, hws, hc, -⟩ := n.exists_whole
  have halone := hrest.alone hws
  have hdrop := dropWhile_isDigit (fun _ => n.whole_digit) hrest.noDigit_fraction
  have hdrop' := dropWhile_isDigit (fun _ => n.fraction_digit) hrest.noDigit_exponent
  have hnext : (n.fraction ++ (n.exponent.elim [] Exponent.text ++ rest)).head?.any
      Char.isDigit = true := by
    obtain ⟨d, ds, hds⟩ := List.exists_cons_of_ne_nil hfraction
    rw [hds]
    exact n.fraction_digit (hds ▸ List.mem_cons_self)
  simp only [hws, List.cons_append, if_neg hfraction] at halone hdrop
  simp only [Numeral.text, hws, List.cons_append, List.append_assoc, if_neg hfraction, passNumber,
    hc, if_neg halone, hdrop, hnext, hdrop', Bool.not_true, Bool.false_eq_true, if_false]
  cases hexponent : n.exponent with
  | none =>
    simp only [Option.elim, List.nil_append]
    split
    · exact absurd rfl (hrest.letter hexponent 'e' rfl).1
    · exact absurd rfl (hrest.letter hexponent 'E' rfl).2
    · rfl
  | some e =>
    have hpass := passExponent_text e hrest.digit
    rcases e.letter_eq with hletter | hletter <;> simp [Exponent.text, hletter, hpass]

theorem passNumber_text (hrest : n.Stops rest) : passNumber (n.text ++ rest) = .ok rest := by
  by_cases hfraction : n.fraction = []
  · exact passNumber_whole hrest hfraction
  · exact passNumber_fraction hrest hfraction

end

theorem noDigit_dropWhile (cs : List Char) : NoDigit (cs.dropWhile Char.isDigit) := by
  intro c hc
  have hhead := List.head?_dropWhile_not Char.isDigit cs
  rw [Option.mem_def.mp hc] at hhead
  simpa using hhead

theorem isDigit_of_mem_takeWhile {cs : List Char} {c : Char}
    (h : c ∈ cs.takeWhile Char.isDigit) : c.isDigit = true := List.mem_takeWhile_imp h

theorem exponent_of_passExponent {cs rest : List Char} {letter : Char}
    (hletter : letter = 'e' ∨ letter = 'E') (h : passExponent cs = .ok rest) :
    ∃ e : Exponent, letter :: cs = e.text ++ rest ∧ NoDigit rest := by
  obtain ⟨sign, d, ds, hsign, rfl, hd, rfl⟩ : ∃ sign d ds,
      (sign = [] ∨ sign = ['+'] ∨ sign = ['-']) ∧ cs = sign ++ d :: ds ∧ d.isDigit = true ∧
        rest = ds.dropWhile Char.isDigit := by
    unfold passExponent at h
    dsimp only at h
    split at h
    · rename_i d ds hcs
      split at h
      · rename_i hd
        obtain rfl := Except.ok.inj h
        split at hcs
        · exact ⟨['+'], d, ds, .inr (.inl rfl), by rw [hcs]; rfl, hd, rfl⟩
        · exact ⟨['-'], d, ds, .inr (.inr rfl), by rw [hcs]; rfl, hd, rfl⟩
        · exact ⟨[], d, ds, .inl rfl, hcs, hd, rfl⟩
      · cases h
    · cases h
  refine ⟨⟨letter, sign, d :: ds.takeWhile Char.isDigit, hletter, hsign, by simp, ?_⟩, ?_,
    noDigit_dropWhile ds⟩
  · exact List.forall_mem_cons.mpr ⟨hd, fun c => isDigit_of_mem_takeWhile⟩
  · simp [Exponent.text]

theorem ne_of_mem_head? {cs : List Char} {c d : Char} (h : ∀ rest, cs = d :: rest → False)
    (hc : c ∈ cs.head?) : c ≠ d := by
  rintro rfl
  obtain ⟨rest, hrest⟩ := List.head?_eq_some_iff.mp (Option.mem_def.mp hc)
  exact h rest hrest

/-- Behind a number without an exponent an exponent may stand. -/
theorem numeral_of_exponent {n : Numeral} (hnone : n.exponent = none) {letter : Char}
    {more rest : List Char} (hletter : letter = 'e' ∨ letter = 'E')
    (h : passExponent more = .ok rest) :
    ∃ n' : Numeral, n.text ++ letter :: more = n'.text ++ rest ∧ n'.Stops rest := by
  obtain ⟨e, htext, hstop⟩ := exponent_of_passExponent hletter h
  refine ⟨{ n with exponent := some e }, ?_, hstop, nofun, nofun⟩
  simp [Numeral.text, hnone, htext]

/-- A text with a digit in front has whole digits in front, of which a zero is the only one. -/
theorem exists_wholeNumeral {c : Char} {tail : List Char} (hc : c.isDigit = true)
    (hzero : ¬ (c = '0' ∧ tail.head?.any Char.isDigit)) :
    ∃ n : Numeral, n.fraction = [] ∧ n.exponent = none ∧
      c :: tail = n.text ++ (c :: tail).dropWhile Char.isDigit := by
  have hwhole : (c :: tail).takeWhile Char.isDigit = c :: tail.takeWhile Char.isDigit :=
    List.takeWhile_cons_of_pos hc
  refine ⟨{ whole := (c :: tail).takeWhile Char.isDigit, whole_ne := by simp [hwhole],
            isDigit := fun d hd => isDigit_of_mem_takeWhile (by simpa using hd),
            zero := ?_ }, rfl, rfl, ?_⟩
  · rw [hwhole, List.head?_cons, Option.some.injEq]
    rintro rfl
    simpa [any_head?_isDigit] using hzero
  · simp [Numeral.text, List.takeWhile_append_dropWhile]

/-- What is passed over as a number is one. -/
theorem numeral_of_passNumber {cs rest : List Char} (h : passNumber cs = .ok rest) :
    ∃ n : Numeral, cs = n.text ++ rest ∧ n.Stops rest := by
  unfold passNumber at h
  split at h
  · cases h
  · rename_i c tail
    split at h
    · cases h
    · rename_i hc
      split at h
      · cases h
      · rename_i hzero
        obtain ⟨n, hfraction, hnone, hsplit⟩ := exists_wholeNumeral (by simpa using hc) hzero
        rw [hsplit]
        -- The rest is behind the whole digits, behind a fraction or behind an exponent.
        split at h
        · rename_i behind hbehind
          split at h
          · cases h
          · rename_i hnext
            have hne : behind.takeWhile Char.isDigit ≠ [] := by
              simpa [any_head?_isDigit] using hnext
            let n' : Numeral := { n with
              fraction := behind.takeWhile Char.isDigit
              isDigit := List.forall_mem_append.mpr
                ⟨fun _ => n.whole_digit, fun _ => isDigit_of_mem_takeWhile⟩ }
            have htext : n.text ++ '.' :: behind = n'.text ++ behind.dropWhile Char.isDigit := by
              simp [Numeral.text, n', hfraction, hnone, hne, List.takeWhile_append_dropWhile]
            rw [hbehind, htext]
            split at h
            · rename_i more hmore
              rw [hmore]
              exact numeral_of_exponent (n := n') hnone (.inl rfl) h
            · rename_i more hmore
              rw [hmore]
              exact numeral_of_exponent (n := n') hnone (.inr rfl) h
            · rename_i hsmall hcapital
              obtain rfl := Except.ok.inj h
              exact ⟨n', rfl, noDigit_dropWhile _,
                fun _ d hd => ⟨ne_of_mem_head? hsmall hd, ne_of_mem_head? hcapital hd⟩,
                fun hnil => absurd hnil hne⟩
        · rename_i more hmore
          rw [hmore]
          exact numeral_of_exponent hnone (.inl rfl) h
        · rename_i more hmore
          rw [hmore]
          exact numeral_of_exponent hnone (.inr rfl) h
        · rename_i hpoint hsmall hcapital
          obtain rfl := Except.ok.inj h
          exact ⟨n, rfl, noDigit_dropWhile _,
            fun _ d hd => ⟨ne_of_mem_head? hsmall hd, ne_of_mem_head? hcapital hd⟩,
            fun _ _ d hd => ne_of_mem_head? hpoint hd⟩

/-- The numbers in range are those that have a value. -/
theorem Numeral.exists_value_iff {n : Numeral} {isNegative : Bool} :
    (∃ a, n.value? isNegative = some a) ↔ n.InRange := by
  rw [Numeral.value?, Numeral.InRange]
  cases n.isWord <;> cases outOfRange n.scale.1 n.scale.2 <;> simp

theorem readNumber_value {n : Numeral} {isNegative : Bool} {a : Number}
    (h : n.value? isNegative = some a) {rest : List Char} (hrest : Ends rest) :
    readNumber isNegative (n.text ++ rest) = .ok (a, rest) := by
  rw [readNumber_text (stops_of_ends hrest n), h]
  rfl

/-- A number that is read has a value, and it is what is read. -/
theorem numeral_of_readNumber {isNegative : Bool} {cs rest : List Char} {a : Number}
    (h : readNumber isNegative cs = .ok (a, rest)) :
    ∃ n : Numeral, cs = n.text ++ rest ∧ n.value? isNegative = some a := by
  obtain ⟨n, rfl, hstops⟩ := numeral_of_passNumber (passNumber_of_readNumber h)
  rw [readNumber_text hstops] at h
  refine ⟨n, rfl, ?_⟩
  cases hn : n.value? isNegative with
  | none =>
    rw [hn] at h
    cases h
  | some b =>
    rw [hn] at h
    rw [(Prod.mk.inj (Except.ok.inj h)).1]

end Roster.Json
