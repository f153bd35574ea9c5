import Mathlib.Tactic.Ring
import Roster.Json.Scan
import Roster.Json.Written
import Roster.Proofs.Decimals
/-! # Written lexemes are read back

A string is read back character by character, whichever way each of them is escaped. A number is
read back if what follows it cannot belong to it. -/
namespace Roster.Json
open Text

theorem digitValue?_digitChar {d : Nat} (h : d < 16) : digitValue? (Nat.digitChar d) = some d := by
  have hall : ∀ d < 16, digitValue? (Nat.digitChar d) = some d := by decide
  exact hall d h

/-- A control is read back from the two digits of its code. -/
theorem readHex_control {n : Nat} (h : n < 32) (rest : List Char) :
    readHex ('0' :: '0' :: Nat.digitChar (n / 16) :: Nat.digitChar (n % 16) :: rest) =
      .ok (n, rest) := by
  have hzero : digitValue? '0' = some 0 := by decide
  have hhigh := digitValue?_digitChar (by omega : n / 16 < 16)
  have hlow := digitValue?_digitChar (by omega : n % 16 < 16)
  have hbytes : ¬ byteLength ['0', '0', Nat.digitChar (n / 16), Nat.digitChar (n % 16)] < 4 := by
    have hfirst := (Nat.digitChar (n / 16)).utf8Size_pos
    have hsecond := (Nat.digitChar (n % 16)).utf8Size_pos
    have hone : '0'.utf8Size = 1 := rfl
    simp only [byteLength, List.foldl_cons, List.foldl_nil]
    omega
  have hvalue : ((0 * 16 + 0) * 16 + n / 16) * 16 + n % 16 = n := by omega
  simp only [readHex, List.take_succ_cons, List.take_zero, if_neg hbytes, List.mapM_cons,
    List.mapM_nil, hzero, hhigh, hlow, List.drop_succ_cons, List.drop_zero]
  exact congrArg (fun n => Except.ok (n, rest)) hvalue

theorem charOfUnit_toNat (c : Char) : charOfUnit c.toNat = c := by
  have hvalid : c.toNat.isValidChar := c.valid
  rw [charOfUnit, charOfCode?, dif_pos hvalid]
  rfl

/-- A character is escaped by a letter, by its code, or not at all. -/
theorem escape_cases (c : Char) :
    (∃ x, escape c = ['\\', x] ∧ shortEscape? x = some c) ∨
      (c.toNat < 32 ∧ escape c = ['\\', 'u', '0', '0', Nat.digitChar (c.toNat / 16),
        Nat.digitChar (c.toNat % 16)]) ∨
      (32 ≤ c.toNat ∧ c ≠ '"' ∧ c ≠ '\\' ∧ escape c = [c]) := by
  unfold escape
  split
  all_goals try exact .inl ⟨_, rfl, rfl⟩
  rename_i hquote hbackslash _ _ _ _ _
  by_cases hcontrol : c.toNat < 32
  · exact .inr (.inl ⟨hcontrol, if_pos hcontrol⟩)
  · exact .inr (.inr ⟨Nat.le_of_not_lt hcontrol, hquote, hbackslash, if_neg hcontrol⟩)

theorem readTextOnto_backslash {c : Char} {cs more : List Char}
    (h : readEscape cs = .ok (c, more)) (seen : List Char) :
    readTextOnto seen ('\\' :: cs) = readTextOnto (c :: seen) more := by
  rw [readTextOnto]
  split
  · rename_i f hf
    rw [h] at hf
    cases hf
  · rename_i d rest hrest
    rw [h] at hrest
    cases hrest
    rfl

theorem readTextOnto_plain {c : Char} (hplain : 32 ≤ c.toNat) (hquote : c ≠ '"')
    (hbackslash : c ≠ '\\') (seen rest : List Char) :
    readTextOnto seen (c :: rest) = readTextOnto (c :: seen) rest := by
  rw [readTextOnto.eq_def]
  split
  · rename_i heq
    cases heq
  · rename_i heq
    exact absurd (List.cons.inj heq).1 hquote
  · rename_i heq
    exact absurd (List.cons.inj heq).1 hbackslash
  · rename_i heq
    obtain ⟨rfl, rfl⟩ := List.cons.inj heq
    exact if_neg (Nat.not_lt.mpr hplain)

theorem readTextOnto_escape (seen : List Char) (c : Char) (rest : List Char) :
    readTextOnto seen (escape c ++ rest) = readTextOnto (c :: seen) rest := by
  rcases escape_cases c with ⟨x, hx, hshort⟩ | ⟨hcontrol, hx⟩ | ⟨hplain, hquote, hbackslash, hx⟩
  · have hread : readEscape (x :: rest) = .ok (c, rest) := by simp [readEscape, hshort]
    rw [hx]
    exact readTextOnto_backslash hread seen
  · have hunits : readUnits ('0' :: '0' :: Nat.digitChar (c.toNat / 16) ::
        Nat.digitChar (c.toNat % 16) :: rest) = .ok (c, rest) := by
      have hlow : ¬ (0xDC00 ≤ c.toNat ∧ c.toNat ≤ 0xDFFF) := by omega
      have hsingle : c.toNat < 0xD800 ∨ 0xDBFF < c.toNat := by omega
      simp only [readUnits, readHex_control hcontrol, if_neg hlow, if_pos hsingle,
        charOfUnit_toNat]
    have hread : readEscape ('u' :: '0' :: '0' :: Nat.digitChar (c.toNat / 16) ::
        Nat.digitChar (c.toNat % 16) :: rest) = .ok (c, rest) := hunits
    rw [hx]
    exact readTextOnto_backslash hread seen
  · rw [hx]
    exact readTextOnto_plain hplain hquote hbackslash seen rest

theorem readTextOnto_escaped (seen cs rest : List Char) :
    readTextOnto seen (cs.flatMap escape ++ '"' :: rest) = .ok (seen.reverse ++ cs, rest) := by
  induction cs generalizing seen with
  | nil => simp [readTextOnto]
  | cons c cs ih =>
    rw [List.flatMap_cons, List.append_assoc, readTextOnto_escape, ih]
    simp

/-- A string is read back from its text. -/
theorem readText_writeText (s : String) (rest : List Char) :
    readText (s.toList.flatMap escape ++ '"' :: rest) = .ok (s, rest) := by
  rw [readText, readTextOnto_escaped]
  simp [Except.map]

theorem takeDigits_eq (n : Nat) (ds : List Char)
    (h : n * 10 ^ ds.length + digitsValue ds ≤ maxWord) :
    takeDigits n ds = (n * 10 ^ ds.length + digitsValue ds, ds.length) := by
  induction ds generalizing n with
  | nil => simp [takeDigits, digitsValue]
  | cons d ds ih =>
    obtain ⟨v, hv⟩ : ∃ v, v = d.toNat - 0x30 := ⟨_, rfl⟩
    have hvalue : digitsValue (d :: ds) = v * 10 ^ ds.length + digitsValue ds := by
      have happend := digitsValue_append [d] ds
      rw [hv]
      simpa [digitsValue] using happend
    have hnext : n * 10 ^ (d :: ds).length + digitsValue (d :: ds) =
        (n * 10 + v) * 10 ^ ds.length + digitsValue ds := by
      rw [hvalue, List.length_cons, Nat.pow_succ]
      ring
    rw [hnext] at h ⊢
    have hfits : ¬ maxWord < n * 10 + v := by
      have hone : n * 10 + v ≤ (n * 10 + v) * 10 ^ ds.length :=
        Nat.le_mul_of_pos_right _ (Nat.pow_pos (by decide))
      omega
    simp only [takeDigits, ← hv, if_neg hfits, ih _ h, List.length_cons]

/-- The text does not go on with what could belong to a number. -/
def Ends (rest : List Char) : Prop :=
  ∀ c ∈ rest.head?, c.isDigit = false ∧ c ≠ '.' ∧ c ≠ 'e' ∧ c ≠ 'E'

theorem readNumber_decimal {n : Nat} (h : n ≤ maxWord) {rest : List Char} (hrest : Ends rest) :
    readNumber false (decimal n ++ rest) = .ok (.natural n, rest) := by
  have hdigits : ∀ c ∈ decimal n, c.isDigit = true := fun c => isDigit_of_mem_decimal
  have hno : NoDigit rest := fun c hc => (hrest c hc).1
  have hwhole := takeWhile_isDigit hdigits hno
  have hbehind := dropWhile_isDigit hdigits hno
  have htaken : takeDigits 0 (decimal n) = (n, (decimal n).length) := by
    have hvalue := digitsValue_decimal n
    rw [takeDigits_eq 0 _ (by omega)]
    simp [hvalue]
  obtain ⟨c, cs, hcs⟩ := List.exists_cons_of_ne_nil (decimal_ne_nil n)
  have hc : c.isDigit = true := hdigits c (hcs ▸ List.mem_cons_self)
  have hzero : ¬ (c = '0' ∧ 1 < (decimal n).length) := by
    rintro ⟨rfl, hlong⟩
    have hpos : 0 < n := by
      rcases Nat.eq_zero_or_pos n with rfl | hpos
      · exact absurd hlong (by decide)
      · exact hpos
    exact head?_decimal hpos (by rw [hcs, List.head?_cons])
  rw [hcs, List.cons_append] at hwhole hbehind ⊢
  rw [hcs] at hzero htaken
  simp only [readNumber, hc, hwhole, htaken, hbehind, if_neg hzero, Nat.sub_self]
  simp only [Bool.not_true, Bool.false_eq_true, if_false]
  split
  · exact absurd rfl (hrest '.' rfl).2.1
  · exact absurd rfl (hrest 'e' rfl).2.2.1
  · exact absurd rfl (hrest 'E' rfl).2.2.2
  · rfl

end Roster.Json
