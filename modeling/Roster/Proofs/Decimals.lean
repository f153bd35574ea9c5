import Mathlib.Data.List.Basic
import Roster.Text.Integer
/-! # Numbers are read as they are written

The digits of a number, with or without zeros in front, are read back to it from whatever text they
begin, as long as no further digit follows or no more digits are wanted. -/
namespace Roster.Text

theorem digitsValue_eq (cs : List Char) : digitsValue cs = Nat.ofDigitChars 10 cs 0 := by
  rw [Nat.ofDigitChars_eq_foldl]
  simp only [digitsValue, Nat.mul_comm]
  rfl

theorem digitsValue_append (cs ds : List Char) :
    digitsValue (cs ++ ds) = digitsValue cs * Nat.pow 10 ds.length + digitsValue ds := by
  rw [digitsValue_eq, digitsValue_eq, digitsValue_eq, Nat.ofDigitChars_append,
    Nat.ofDigitChars_eq_ofDigitChars_zero, Nat.mul_comm]
  rfl

@[simp] theorem digitsValue_replicate_zero (n : Nat) : digitsValue (List.replicate n '0') = 0 := by
  rw [digitsValue_eq, Nat.ofDigitChars_replicate_zero, Nat.mul_zero]

theorem digitsValue_decimal (n : Nat) : digitsValue (decimal n) = n := by
  rw [digitsValue_eq]
  exact Nat.ofDigitChars_ten_toDigits

theorem isDigit_of_mem_decimal {n : Nat} {c : Char} (h : c ∈ decimal n) : c.isDigit = true :=
  Nat.isDigit_of_mem_toDigits (by decide) (by decide) h

theorem ne_of_isDigit {c d : Char} (hc : c.isDigit = true) (hd : d.isDigit = false) : c ≠ d := by
  rintro rfl
  rw [hc] at hd
  cases hd

theorem decimal_ne_nil (n : Nat) : decimal n ≠ [] := Nat.toDigits_ne_nil

theorem decimal_of_lt {n : Nat} (h : n < 10) : decimal n = [Nat.digitChar n] :=
  Nat.toDigits_of_lt_base h

theorem decimal_of_le {n : Nat} (h : 10 ≤ n) :
    decimal n = decimal (n / 10) ++ [Nat.digitChar (n % 10)] :=
  Nat.toDigits_of_base_le (by decide) h

/-- Only zero itself is written with a zero in front. -/
theorem head?_decimal {n : Nat} (h : 0 < n) : (decimal n).head? ≠ some '0' := by
  induction n using Nat.strongRecOn with
  | _ n ih =>
    by_cases hn : n < 10
    · have hall : ∀ d < 10, Nat.digitChar d = '0' → d = 0 := by decide
      rw [decimal_of_lt hn, List.head?_cons]
      intro hzero
      exact absurd (hall n hn (Option.some.inj hzero)) (by omega)
    · rw [decimal_of_le (Nat.le_of_not_lt hn), List.head?_append_of_ne_nil _ (decimal_ne_nil _)]
      exact ih (n / 10) (by omega) (by omega)

theorem natOfDigits?_decimal (n : Nat) : natOfDigits? (decimal n) = some n := by
  have hdigits : (decimal n).any (fun c => !c.isDigit) = false := by
    rw [List.any_eq_false]
    intro c hc
    simp [isDigit_of_mem_decimal hc]
  simp [natOfDigits?, decimal_ne_nil, hdigits, digitsValue_decimal]

/-- A number is read back from its digits, before which a sign might have stood. -/
theorem parseNatural?_toString (n : Nat) : parseNatural? (toString n) = some n := by
  have hlist : (toString n).toList = decimal n := String.toList_ofList
  have hplus (ds : List Char) : decimal n ≠ '+' :: ds := by
    intro h
    have hdigit := isDigit_of_mem_decimal (n := n) (h ▸ List.mem_cons_self)
    cases hdigit
  unfold parseNatural?
  rw [hlist]
  split
  · exact absurd ‹_› (hplus _)
  · exact natOfDigits?_decimal n

theorem digitsValue_padded (width n : Nat) : digitsValue (padded width n) = n := by
  rw [padded, digitsValue_append, digitsValue_replicate_zero, digitsValue_decimal]
  omega

theorem isDigit_of_mem_padded {width n : Nat} {c : Char} (h : c ∈ padded width n) :
    c.isDigit = true := by
  rcases List.mem_append.mp h with h | h
  · obtain ⟨-, rfl⟩ := List.mem_replicate.mp h
    decide
  · exact isDigit_of_mem_decimal h

theorem padded_ne_nil (width n : Nat) : padded width n ≠ [] :=
  List.append_ne_nil_of_right_ne_nil _ (decimal_ne_nil n)

theorem length_decimal_le {n width : Nat} (hw : 0 < width) (h : n < Nat.pow 10 width) :
    (decimal n).length ≤ width := (Nat.length_toDigits_le_iff (by decide) hw).mpr h

theorem length_padded {n width : Nat} (hw : 0 < width) (h : n < Nat.pow 10 width) :
    (padded width n).length = width := by
  have hle := length_decimal_le hw h
  simp only [padded, List.length_append, List.length_replicate]
  omega

/-- The text does not go on with a digit. -/
def NoDigit (rest : List Char) : Prop := ∀ c ∈ rest.head?, c.isDigit = false

theorem noDigit_nil : NoDigit [] := by simp [NoDigit]

theorem noDigit_cons {c : Char} (h : c.isDigit = false) (rest : List Char) : NoDigit (c :: rest) := by
  simpa [NoDigit] using h

section

variable {ds rest : List Char} (hds : ∀ c ∈ ds, c.isDigit = true)
include hds

theorem takeWhile_isDigit (hrest : NoDigit rest) : (ds ++ rest).takeWhile Char.isDigit = ds := by
  rw [List.takeWhile_append_of_pos hds]
  cases rest with
  | nil => simp
  | cons c rest => simp [hrest c rfl]

theorem dropWhile_isDigit (hrest : NoDigit rest) : (ds ++ rest).dropWhile Char.isDigit = rest := by
  rw [List.dropWhile_append_of_pos hds]
  cases rest with
  | nil => rfl
  | cons c rest => simp [hrest c rfl]

theorem spanDigits_of_noDigit {width : Nat} (hw : ds.length ≤ width) (hrest : NoDigit rest) :
    spanDigits width (ds ++ rest) = (ds, rest) := by
  simp only [spanDigits, takeWhile_isDigit hds hrest, List.take_of_length_le hw, List.drop_left']

theorem readNumber?_of_noDigit {width : Nat} (hne : ds ≠ []) (hw : ds.length ≤ width)
    (hrest : NoDigit rest) : readNumber? width (ds ++ rest) = some (digitsValue ds, rest) := by
  cases ds with
  | nil => exact absurd rfl hne
  | cons d ds => simp only [readNumber?, spanDigits_of_noDigit hds hw hrest]

end

end Roster.Text
