import Mathlib.Data.List.TakeWhile
import Roster.Json.Read
import Roster.Proofs.Lexemes
/-! # Lexemes that are read can be passed over

Passing over asks less of a lexeme than reading does: a code unit may be any, and a number may be of
any size. Whatever is read, then, is passed over as well, up to the same place. -/
namespace Roster.Json

section

variable {ε α β : Type} {x : Except ε α} {b : β}

theorem ok_of_map {f : α → β} (h : x.map f = .ok b) : ∃ a, x = .ok a ∧ f a = b := by
  cases x with
  | error _ => cases h
  | ok a => exact ⟨a, rfl, Except.ok.inj h⟩

theorem map_eq_ok_iff {f : α → β} : x.map f = .ok b ↔ ∃ a, x = .ok a ∧ f a = b := by
  refine ⟨ok_of_map, ?_⟩
  rintro ⟨a, rfl, rfl⟩
  rfl

theorem ok_of_toOption {a : α} (h : x.toOption = some a) : x = .ok a := by
  cases x with
  | error _ => cases h
  | ok _ => exact congrArg Except.ok (Option.some.inj h)

/-- A word has its value by itself. -/
theorem ok_of_map_word {x : Except Fault (List Char)} {v w : β} {rest : List Char}
    (h : x.map (v, ·) = .ok (w, rest)) : x = .ok rest := by
  obtain ⟨_, hx, heq⟩ := ok_of_map h
  exact (Prod.mk.inj heq).2 ▸ hx

theorem ok_of_map_lexeme {x : Except Fault (α × List Char)} {f : α → β} {rest : List Char}
    (h : (x.map fun r => (f r.1, r.2)) = .ok (b, rest)) : ∃ a, x = .ok (a, rest) := by
  obtain ⟨r, hx, heq⟩ := ok_of_map h
  exact ⟨r.1, (Prod.mk.inj heq).2 ▸ hx⟩

theorem ok_of_bind {f : α → Except ε β} (h : x.bind f = .ok b) :
    ∃ a, x = .ok a ∧ f a = .ok b := by
  cases x with
  | error _ => cases h
  | ok a => exact ⟨a, rfl, h⟩

end

theorem passText_backslash {cs more : List Char} (h : passEscape cs = .ok more) :
    passText ('\\' :: cs) = passText more := by
  rw [passText]
  split
  · rename_i f hf
    rw [h] at hf
    cases hf
  · rename_i rest hrest
    rw [h] at hrest
    cases hrest
    rfl

theorem passText_plain {c : Char} (hplain : 32 ≤ c.toNat) (hquote : c ≠ '"')
    (hbackslash : c ≠ '\\') (rest : List Char) : passText (c :: rest) = passText rest := by
  rw [passText.eq_def]
  split
  · rename_i heq
    cases heq
  · rename_i heq
    exact absurd (List.cons.inj heq).1 hquote
  · rename_i heq
    exact absurd (List.cons.inj heq).1 hbackslash
  · rename_i heq
    obtain ⟨rfl, rfl⟩ := List.cons.inj heq
    exact if_neg (Nat.not_lt.mpr hplain)

theorem passEscape_unit {cs rest : List Char} {n : Nat} (h : readHex cs = .ok (n, rest)) :
    passEscape ('u' :: cs) = .ok rest := by
  have hnone : shortEscape? 'u' = none := rfl
  simp [passEscape, hnone, h, Except.map]

/-- A character may take two code units, each of which is passed over by itself. -/
theorem passText_units {cs rest : List Char} {c : Char} (h : readUnits cs = .ok (c, rest)) :
    passText ('\\' :: 'u' :: cs) = passText rest := by
  unfold readUnits at h
  split at h
  · cases h
  · rename_i n behind hn
    rw [passText_backslash (passEscape_unit hn)]
    split at h
    · cases h
    · split at h
      · rw [(Prod.mk.inj (Except.ok.inj h)).2]
      · split at h
        · cases h
        · cases h
        · split at h
          · cases h
          · rename_i m _ hm
            split at h
            · cases h
            · rw [← (Prod.mk.inj (Except.ok.inj h)).2]
              exact passText_backslash (passEscape_unit hm)
        · cases h
        · cases h

theorem passText_escape {cs rest : List Char} {c : Char} (h : readEscape cs = .ok (c, rest)) :
    passText ('\\' :: cs) = passText rest := by
  cases cs with
  | nil => cases h
  | cons x cs =>
    rw [readEscape] at h
    split at h
    · rename_i hshort
      cases h
      exact passText_backslash (by simp [passEscape, hshort])
    · split at h
      · rename_i hu
        exact hu ▸ passText_units h
      · cases h

theorem passText_of_readTextOnto {seen cs out rest : List Char}
    (h : readTextOnto seen cs = .ok (out, rest)) : passText cs = .ok rest := by
  fun_induction readTextOnto seen cs with
  | case1 => cases h
  | case2 seen rest' =>
    cases h
    simp [passText]
  | case3 => cases h
  | case4 seen rest' c more hescape _ ih => rw [passText_escape hescape, ih h]
  | case5 => cases h
  | case6 seen c rest' hquote hbackslash hcontrol ih =>
    rw [passText_plain (Nat.le_of_not_lt hcontrol) hquote hbackslash, ih h]

theorem passText_of_readText {cs rest : List Char} {s : String} (h : readText cs = .ok (s, rest)) :
    passText cs = .ok rest := by
  obtain ⟨_, hread⟩ := ok_of_map_lexeme h
  exact passText_of_readTextOnto hread

/-- A digit comes next if the digits that come next are not none. -/
theorem any_head?_isDigit (cs : List Char) :
    cs.head?.any Char.isDigit = !(cs.takeWhile Char.isDigit).isEmpty := by
  cases cs with
  | nil => rfl
  | cons c cs => cases hc : c.isDigit <;> simp [List.takeWhile, hc]

theorem rest_of_scaledNumber {isNegative : Bool} {significand : Nat} {exponent : Int}
    {cs rest : List Char} {n : Number}
    (h : scaledNumber isNegative significand exponent cs = .ok (n, rest)) : rest = cs := by
  unfold scaledNumber at h
  split at h
  · cases h
  · exact (Prod.mk.inj (Except.ok.inj h)).2.symm

theorem passExponent_of_readExponent {isNegative : Bool} {significand : Nat} {start : Int}
    {cs rest : List Char} {n : Number}
    (h : readExponent isNegative significand start cs = .ok (n, rest)) :
    passExponent cs = .ok rest := by
  unfold readExponent at h
  split at h
  rename_i down behind hsign
  obtain ⟨c, more, rfl, hc, rfl⟩ : ∃ c more, behind = c :: more ∧ c.isDigit = true ∧
      rest = more.dropWhile Char.isDigit := by
    split at h
    · cases h
    · rename_i c more
      cases hc : c.isDigit with
      | false => simp [hc] at h
      | true =>
        simp only [hc, Bool.not_true, Bool.false_eq_true, if_false] at h
        exact ⟨c, more, rfl, hc, (rest_of_scaledNumber h).trans (List.dropWhile_cons_of_pos hc)⟩
  unfold passExponent
  split at hsign <;> obtain ⟨-, rfl⟩ := Prod.mk.inj hsign <;> simp [hc]

theorem passNumber_of_readNumber {isNegative : Bool} {cs rest : List Char} {n : Number}
    (h : readNumber isNegative cs = .ok (n, rest)) : passNumber cs = .ok rest := by
  unfold readNumber at h
  unfold passNumber
  cases cs with
  | nil => cases h
  | cons c tail =>
    cases hc : c.isDigit with
    | false => simp [hc] at h
    | true =>
      have hlong : 1 < ((c :: tail).takeWhile Char.isDigit).length ↔
          tail.head?.any Char.isDigit = true := by
        rw [List.takeWhile_cons_of_pos hc, any_head?_isDigit]
        simp [List.length_pos_iff]
      simp only [hc, hlong, Bool.not_true, Bool.false_eq_true, if_false] at h ⊢
      split at h
      · cases h
      · rename_i hzero
        rw [if_neg hzero]
        split at h
        · rename_i fraction _
          split at h
          · cases h
          · rename_i hfraction
            have hnext : (!fraction.head?.any Char.isDigit) = false := by
              simp [any_head?_isDigit, hfraction]
            simp only [hnext, Bool.false_eq_true, if_false]
            split at h
            · exact passExponent_of_readExponent h
            · exact passExponent_of_readExponent h
            · exact congrArg Except.ok (rest_of_scaledNumber h).symm
        · exact passExponent_of_readExponent h
        · exact passExponent_of_readExponent h
        · split at h
          · exact congrArg Except.ok (Prod.mk.inj (Except.ok.inj h)).2
          · exact congrArg Except.ok (rest_of_scaledNumber h).symm
theorem passScalar_of_readScalar {cs rest : List Char} {v : Json}
    (h : readScalar cs = .ok (v, rest)) : passScalar cs = .ok rest := by
  unfold readScalar at h
  unfold passScalar
  split at h
  · exact ok_of_map_word h
  · exact ok_of_map_word h
  · exact ok_of_map_word h
  · obtain ⟨_, htext⟩ := ok_of_map_lexeme h
    exact passText_of_readText htext
  · obtain ⟨_, hnumber⟩ := ok_of_map_lexeme h
    exact passNumber_of_readNumber hnumber
  · split at h
    · rename_i hc
      obtain ⟨_, hnumber⟩ := ok_of_map_lexeme h
      simp only [hc, if_true]
      exact passNumber_of_readNumber hnumber
    · cases h
  · cases h

theorem length_dropWhile_isDigit_le (cs : List Char) :
    (cs.dropWhile Char.isDigit).length ≤ cs.length := (List.dropWhile_sublist _).length_le

theorem length_of_readWord {word cs rest : List Char} (h : readWord word cs = .ok rest) :
    rest.length ≤ cs.length := by
  fun_induction readWord word cs with
  | case1 => exact (congrArg List.length (Except.ok.inj h)).ge
  | case2 => cases h
  | case3 _ _ _ ih => exact (ih h).trans (Nat.le_succ _)
  | case4 => cases h

theorem length_of_passText {cs rest : List Char} (h : passText cs = .ok rest) :
    rest.length < cs.length := by
  fun_induction passText cs with
  | case1 => cases h
  | case2 rest' =>
    cases h
    exact Nat.lt_succ_self _
  | case3 => cases h
  | case4 rest' more hescape hlt ih =>
    have hmore := ih h
    rw [List.length_cons]
    omega
  | case5 => cases h
  | case6 c rest' _ _ _ ih => exact (ih h).trans (Nat.lt_succ_self _)

theorem length_of_passExponent {cs rest : List Char} (h : passExponent cs = .ok rest) :
    rest.length ≤ cs.length := by
  unfold passExponent at h
  dsimp only at h
  split at h
  · rename_i c more hsign
    have hsigned : (c :: more).length ≤ cs.length := by
      rw [← hsign]
      split
      · exact Nat.le_succ _
      · exact Nat.le_succ _
      · exact le_rfl
    split at h
    · have hmore := length_dropWhile_isDigit_le more
      rw [Except.ok.inj h] at hmore
      exact hmore.trans ((Nat.le_succ _).trans hsigned)
    · cases h
  · cases h

theorem length_of_passNumber {cs rest : List Char} (h : passNumber cs = .ok rest) :
    rest.length < cs.length := by
  unfold passNumber at h
  split at h
  · cases h
  · rename_i c tail
    have hwhole := length_dropWhile_isDigit_le tail
    -- The letter of an exponent may follow the whole digits or the fraction.
    have hexponent {letter : Char} {behind more : List Char} (hle : behind.length ≤ tail.length)
        (hbehind : behind = letter :: more) (h : passExponent more = .ok rest) :
        rest.length ≤ tail.length := by
      have hmore := length_of_passExponent h
      rw [hbehind, List.length_cons] at hle
      omega
    split at h
    · cases h
    · rename_i hc
      rw [List.dropWhile_cons_of_pos (by simpa using hc)] at h
      rw [List.length_cons, Nat.lt_succ_iff]
      split at h
      · cases h
      · split at h
        · rename_i fraction hpoint
          have hfraction : (fraction.dropWhile Char.isDigit).length ≤ tail.length := by
            have hdigits := length_dropWhile_isDigit_le fraction
            rw [hpoint, List.length_cons] at hwhole
            omega
          split at h
          · cases h
          · split at h
            · rename_i hletter
              exact hexponent hfraction hletter h
            · rename_i hletter
              exact hexponent hfraction hletter h
            · exact Except.ok.inj h ▸ hfraction
        · rename_i hletter
          exact hexponent hwhole hletter h
        · rename_i hletter
          exact hexponent hwhole hletter h
        · exact Except.ok.inj h ▸ hwhole

theorem length_of_passScalar {cs rest : List Char} (h : passScalar cs = .ok rest) :
    rest.length < cs.length := by
  unfold passScalar at h
  split at h
  · exact Nat.lt_succ_of_le (length_of_readWord h)
  · exact Nat.lt_succ_of_le (length_of_readWord h)
  · exact Nat.lt_succ_of_le (length_of_readWord h)
  · exact (length_of_passText h).trans (Nat.lt_succ_self _)
  · exact (length_of_passNumber h).trans (Nat.lt_succ_self _)
  · split at h
    · exact length_of_passNumber h
    · cases h
  · cases h

end Roster.Json
