import Roster.Proofs.Starting
/-! # The texts that stand for a value

A number may have zeros or a plus sign in front, a list has commas between its pieces, all else has one
spelling. An option takes exactly the texts that stand for one of its values. -/
namespace Roster

namespace Text

theorem not_mem_of_mem_splitOn {sep : Char} {cs piece : List Char} (h : piece ∈ cs.splitOn sep) :
    sep ∉ piece := by
  induction cs generalizing piece with
  | nil =>
    rw [List.splitOn_nil, List.mem_singleton] at h
    exact h ▸ List.not_mem_nil
  | cons c cs ih =>
    rw [List.splitOn_cons_eq_if_modifyHead] at h
    split at h
    · rcases List.mem_cons.mp h with rfl | h
      · exact List.not_mem_nil
      · exact ih h
    · rename_i hc
      obtain ⟨first, others, hsplit⟩ := List.exists_cons_of_ne_nil (List.splitOn_ne_nil sep cs)
      rw [hsplit, List.modifyHead_cons] at h
      rw [hsplit] at ih
      rcases List.mem_cons.mp h with rfl | h
      · have hfirst : sep ∉ first := ih List.mem_cons_self
        simp only [List.mem_cons, not_or]
        exact ⟨fun heq => hc (heq ▸ beq_self_eq_true _), hfirst⟩
      · exact ih (List.mem_cons_of_mem _ h)

/-- The pieces of a text make it up with commas between them, and have none themselves. -/
theorem splitCommas_eq_iff {s : String} {pieces : List String} :
    splitCommas s = pieces ↔
      s = ",".intercalate pieces ∧ pieces ≠ [] ∧ ∀ piece ∈ pieces, ',' ∉ piece.toList := by
  have hback (l : List (List Char)) : (l.map String.ofList).map String.toList = l := by
    simp [Function.comp_def]
  have hlist : (",".intercalate pieces).toList = [','].intercalate (pieces.map String.toList) :=
    String.toList_intercalate
  constructor
  · rintro rfl
    refine ⟨?_, ?_, ?_⟩
    · rw [← String.toList_inj, hlist, splitCommas, hback, List.intercalate_splitOn]
    · simp [splitCommas]
    · intro piece hpiece
      obtain ⟨cs, hcs, rfl⟩ := List.mem_map.mp hpiece
      rw [String.toList_ofList]
      exact not_mem_of_mem_splitOn hcs
  · rintro ⟨rfl, hne, hpieces⟩
    have hsplit : ([','].intercalate (pieces.map String.toList)).splitOn ',' =
        pieces.map String.toList :=
      List.splitOn_intercalate ',' (by simpa using hpieces) (by simpa using hne)
    rw [splitCommas, hlist, hsplit]
    simp [Function.comp_def]

/-- At least one digit, and the value of them all. -/
structure Digits (ds : List Char) (n : Nat) : Prop where
  ne_nil : ds ≠ []
  isDigit : ∀ c ∈ ds, c.isDigit = true
  value : digitsValue ds = n

theorem natOfDigits?_eq_some_iff {ds : List Char} {n : Nat} :
    natOfDigits? ds = some n ↔ Digits ds n := by
  have hany : ds.any (fun c => !c.isDigit) = true ↔ ¬ ∀ c ∈ ds, c.isDigit = true := by simp
  unfold natOfDigits?
  split
  · rename_i h
    refine iff_of_false (fun h => by cases h) fun hdigits => ?_
    exact h.elim hdigits.ne_nil fun hother => hany.mp hother hdigits.isDigit
  · rename_i h
    obtain ⟨hne, hdigits⟩ := not_or.mp h
    rw [hany, not_not] at hdigits
    rw [Option.some_inj]
    exact ⟨fun hvalue => ⟨hne, hdigits, hvalue⟩, Digits.value⟩

/-- Digits behind a sign or none. Behind a minus sign, if there may be one, is a zero. -/
inductive Numeral (signed : Bool) : List Char → Nat → Prop
  | plain {ds : List Char} {n : Nat} (h : Digits ds n) : Numeral signed ds n
  | plus {ds : List Char} {n : Nat} (h : Digits ds n) : Numeral signed ('+' :: ds) n
  | zero {ds : List Char} (hsigned : signed = true) (h : Digits ds 0) : Numeral signed ('-' :: ds) 0

/-- A sign is no digit. -/
theorem Digits.head_ne {sign : Char} {ds : List Char} {n : Nat} (hsign : sign.isDigit = false) :
    ¬ Digits (sign :: ds) n := by
  intro h
  have hdigit := h.isDigit sign List.mem_cons_self
  rw [hsign] at hdigit
  cases hdigit

theorem parseNatural?_eq_some_iff {s : String} {n : Nat} :
    parseNatural? s = some n ↔ Numeral false s.toList n := by
  unfold parseNatural?
  generalize s.toList = cs
  split
  · rw [natOfDigits?_eq_some_iff]
    refine ⟨.plus, fun h => ?_⟩
    cases h with
    | plain h => exact absurd h (Digits.head_ne rfl)
    | plus h => exact h
  · rename_i hplus
    rw [natOfDigits?_eq_some_iff]
    refine ⟨.plain, fun h => ?_⟩
    cases h with
    | plain h => exact h
    | plus => exact absurd rfl (hplus _)
    | zero hsigned => cases hsigned

theorem parseInteger?_eq_some_iff {s : String} {n : Nat} :
    parseInteger? s = some (n : Int) ↔ Numeral true s.toList n := by
  have hpositive {ds : List Char} :
      (natOfDigits? ds).map Int.ofNat = some (n : Int) ↔ Digits ds n := by
    rw [← natOfDigits?_eq_some_iff]
    rcases natOfDigits? ds with _ | m <;> simp
  have hnegative {ds : List Char} :
      (natOfDigits? ds).map (fun m => -(m : Int)) = some (n : Int) ↔ Digits ds 0 ∧ n = 0 := by
    rw [← natOfDigits?_eq_some_iff]
    rcases natOfDigits? ds with _ | m
    · simp
    · change some (-(m : Int)) = some (n : Int) ↔ some m = some 0 ∧ n = 0
      rw [Option.some_inj, Option.some_inj]
      omega
  unfold parseInteger?
  generalize s.toList = cs
  split
  · rw [hpositive]
    refine ⟨.plus, fun h => ?_⟩
    cases h with
    | plain h => exact absurd h (Digits.head_ne rfl)
    | plus h => exact h
  · rw [hnegative]
    constructor
    · rintro ⟨h, rfl⟩
      exact .zero rfl h
    · intro h
      cases h with
      | plain h => exact absurd h (Digits.head_ne rfl)
      | zero _ h => exact ⟨h, rfl⟩
  · rename_i hplus hminus
    rw [hpositive]
    refine ⟨.plain, fun h => ?_⟩
    cases h with
    | plain h => exact h
    | plus => exact absurd rfl (hplus _)
    | zero => exact absurd rfl (hminus _)

theorem numeral_toString (signed : Bool) (n : Nat) : Numeral signed (toString n).toList n := by
  have hlist : (toString n).toList = decimal n := String.toList_ofList
  rw [hlist]
  exact .plain (natOfDigits?_eq_some_iff.mp (natOfDigits?_decimal n))

end Text

namespace CommandLine
open Text

/-- A text that stands for a value of a type. -/
inductive ValueType.Denotes : ValueType → String → Value → Prop
  | text (s : String) : Denotes .text s (.text s)
  | texts {pieces : List String} (hne : pieces ≠ [])
      (hpieces : ∀ piece ∈ pieces, ',' ∉ piece.toList) :
      Denotes .texts (",".intercalate pieces) (.texts pieces)
  | number {least greatest : Nat} {signed : Bool} {raw : String} {n : Nat}
      (hraw : Numeral signed raw.toList n) (hn : least ≤ n ∧ n ≤ greatest) :
      Denotes (.number least greatest signed) raw (.number n)
  | store (k : StoreKind) : Denotes .store k.name (.store k)
  | toggle (b : Bool) : Denotes .toggle (toString b) (.flag b)
  | switch (b : Bool) : Denotes .switch (toString b) (.flag b)

section

variable {raw : String} {v : Value}

theorem parseValue_texts_iff :
    parseValue .texts raw = .ok v ↔ ValueType.Denotes .texts raw v := by
  constructor
  · intro h
    obtain rfl := Except.ok.inj h
    obtain ⟨heq, hne, hpieces⟩ := splitCommas_eq_iff.mp (rfl : splitCommas raw = _)
    have hdenotes := ValueType.Denotes.texts hne hpieces
    rwa [← heq] at hdenotes
  · intro h
    cases h with
    | texts hne hpieces => rw [parseValue, splitCommas_eq_iff.mpr ⟨rfl, hne, hpieces⟩]

/-- The number that a text is read as is not negative, so nothing is lost of it. -/
theorem parseValue_number_iff {least greatest : Nat} {signed : Bool} :
    parseValue (.number least greatest signed) raw = .ok v ↔
      ValueType.Denotes (.number least greatest signed) raw v := by
  obtain ⟨read, hread⟩ : ∃ read, read =
      if signed then parseInteger? raw else (parseNatural? raw).map Int.ofNat := ⟨_, rfl⟩
  have hnumeral (n : Nat) : read = some (n : Int) ↔ Numeral signed raw.toList n := by
    cases signed with
    | true => exact hread ▸ parseInteger?_eq_some_iff
    | false =>
      rw [← parseNatural?_eq_some_iff, hread, if_neg Bool.false_ne_true, Option.map_eq_some_iff]
      exact ⟨fun ⟨m, hm, heq⟩ => Int.ofNat.inj heq ▸ hm, fun h => ⟨n, h, rfl⟩⟩
  simp only [parseValue, ← hread]
  constructor
  · intro h
    split at h
    · rename_i z
      split at h
      · rename_i hz
        obtain ⟨n, rfl⟩ := Int.eq_ofNat_of_zero_le (show 0 ≤ z by omega)
        obtain rfl := Except.ok.inj h
        exact .number ((hnumeral n).mp rfl) (by omega)
      · cases h
    · cases h
  · intro h
    cases h with
    | number hraw hn =>
      rw [(hnumeral _).mpr hraw]
      exact if_pos (by omega)

theorem parseValue_store_iff : parseValue .store raw = .ok v ↔ ValueType.Denotes .store raw v := by
  constructor
  · intro h
    simp only [parseValue] at h
    split at h
    · rename_i hraw
      obtain rfl := Except.ok.inj h
      exact hraw ▸ .store .memory
    · split at h
      · rename_i hraw
        obtain rfl := Except.ok.inj h
        exact hraw ▸ .store .postgres
      · cases h
  · intro h
    cases h with
    | store k => cases k <;> rfl

theorem parseToggle?_eq_some_iff {b : Bool} : parseToggle? raw = some b ↔ raw = toString b := by
  have htrue : toString true = "true" := rfl
  have hfalse : toString false = "false" := rfl
  unfold parseToggle?
  cases b
  · rw [hfalse]
    split <;> simp_all
  · rw [htrue]
    split <;> simp_all

/-- The word for a toggle is the same on the command line and in the environment. -/
theorem parseValue_flag_iff {t : ValueType} (ht : t = .toggle ∨ t = .switch) :
    parseValue t raw = .ok v ↔ ∃ b, raw = toString b ∧ v = .flag b := by
  simp only [← parseToggle?_eq_some_iff]
  rcases ht with rfl | rfl
  all_goals
    rw [parseValue]
    rcases parseToggle? raw with _ | b <;> simp [eq_comm]

/-- An option takes the texts that stand for its values, and no others. -/
theorem parseValue_eq_ok_iff {t : ValueType} : parseValue t raw = .ok v ↔ t.Denotes raw v := by
  cases t with
  | text => exact ⟨fun h => Except.ok.inj h ▸ .text raw, fun h => by cases h; rfl⟩
  | texts => exact parseValue_texts_iff
  | number => exact parseValue_number_iff
  | store => exact parseValue_store_iff
  | toggle =>
    rw [parseValue_flag_iff (.inl rfl)]
    exact ⟨fun ⟨b, hraw, hv⟩ => hraw ▸ hv ▸ .toggle b, fun h => by cases h; exact ⟨_, rfl, rfl⟩⟩
  | switch =>
    rw [parseValue_flag_iff (.inr rfl)]
    exact ⟨fun ⟨b, hraw, hv⟩ => hraw ▸ hv ▸ .switch b, fun h => by cases h; exact ⟨_, rfl, rfl⟩⟩

end

/-- The values of a type for which there is a text. -/
def ValueType.Admits (t : ValueType) (v : Value) : Prop :=
  t.Holds v ∧ ∀ pieces, v = .texts pieces → pieces ≠ [] ∧ ∀ piece ∈ pieces, ',' ∉ piece.toList

theorem exists_denotes_iff {t : ValueType} {v : Value} : (∃ raw, t.Denotes raw v) ↔ t.Admits v := by
  constructor
  · rintro ⟨raw, h⟩
    refine ⟨holds_of_parseValue (parseValue_eq_ok_iff.mpr h), ?_⟩
    rintro pieces rfl
    cases h with
    | texts hne hpieces => exact ⟨hne, hpieces⟩
  · rintro ⟨hholds, hpieces⟩
    cases t <;> cases v <;> try exact False.elim hholds
    · exact ⟨_, .text _⟩
    · exact ⟨_, .texts (hpieces _ rfl).1 (hpieces _ rfl).2⟩
    · exact ⟨_, .number (numeral_toString _ _) hholds⟩
    · exact ⟨_, .store _⟩
    · exact ⟨_, .toggle _⟩
    · exact ⟨_, .switch _⟩

end CommandLine

end Roster
