import Mathlib.Data.List.TakeWhile
import Roster.Message
import Roster.Proofs.Calendar
import Roster.Proofs.Decimals
/-! # A written timestamp stands for one instant

Each part of a written timestamp is read back with what follows it. The date gives the day, the time
of day its second, and the fraction gets back the zeros that it lost. -/
namespace Roster.Text

theorem toNat_of_isDigit {c : Char} (h : c.isDigit = true) : 48 ≤ c.toNat ∧ c.toNat ≤ 57 := by
  simp only [Char.isDigit, Bool.and_eq_true, decide_eq_true_eq, ge_iff_le,
    UInt32.le_iff_toNat_le] at h
  exact h

theorem isBlank_of_isDigit {c : Char} (h : c.isDigit = true) : isBlank c = false := by
  obtain ⟨hlow, hhigh⟩ := toNat_of_isDigit h
  simp [isBlank]
  omega

/-- Nothing is trimmed from a text that begins with a digit. -/
theorem trimLeft_of_isDigit {ds : List Char} (hds : ∀ c ∈ ds, c.isDigit = true) (hne : ds ≠ [])
    (rest : List Char) : trimLeft (ds ++ rest) = ds ++ rest := by
  obtain ⟨c, cs, rfl⟩ := List.exists_cons_of_ne_nil hne
  have hc : isBlank c = false := isBlank_of_isDigit (hds c List.mem_cons_self)
  simp [trimLeft, hc]

/-- A text is what remains of it without the zeros at its end, and as many zeros. -/
theorem exists_trailing_zeros (ds : List Char) :
    ∃ k, ds = (ds.reverse.dropWhile (· == '0')).reverse ++ List.replicate k '0' := by
  refine ⟨(ds.reverse.takeWhile (· == '0')).length, ?_⟩
  have hzeros : ds.reverse.takeWhile (· == '0') =
      List.replicate (ds.reverse.takeWhile (· == '0')).length '0' := by
    refine List.eq_replicate_of_mem fun c hc => ?_
    simpa using List.mem_takeWhile_imp hc
  have hsplit := congrArg List.reverse
    (List.takeWhile_append_dropWhile (p := fun c => c == '0') (l := ds.reverse)).symm
  rw [List.reverse_reverse, List.reverse_append, hzeros, List.reverse_replicate] at hsplit
  exact hsplit

end Roster.Text

namespace Roster.Time
open Text

theorem readPart?_padded {n : Nat} (h : n < 100) {rest : List Char} (hrest : NoDigit rest) :
    readPart? (padded 2 n ++ rest) = some (n, rest) := by
  have hdigits : ∀ c ∈ padded 2 n, c.isDigit = true := fun c => isDigit_of_mem_padded
  have hlength : (padded 2 n).length = 2 := length_padded (by decide) h
  rw [readPart?, trimLeft_of_isDigit hdigits (padded_ne_nil 2 n),
    readNumber?_of_noDigit hdigits (padded_ne_nil 2 n) (Nat.le_of_eq hlength) hrest, digitsValue_padded]

/-- A sign is followed by all digits of the year. -/
theorem readNumber?_signed (n : Nat) {rest : List Char} (hrest : NoDigit rest) :
    readNumber? (padded 4 n ++ rest).length (padded 4 n ++ rest) = some (n, rest) := by
  have hlength : (padded 4 n).length ≤ (padded 4 n ++ rest).length := by simp
  rw [readNumber?_of_noDigit (fun c => isDigit_of_mem_padded) (padded_ne_nil 4 n) hlength hrest,
    digitsValue_padded]

theorem readYear?_writeYear (y : Int) {rest : List Char} (hrest : NoDigit rest) :
    readYear? (writeYear y ++ rest) = some (y, rest) := by
  by_cases hfour : 0 ≤ y ∧ y ≤ 9999
  · have hdigits : ∀ c ∈ padded 4 y.toNat, c.isDigit = true := fun c => isDigit_of_mem_padded
    have hne := padded_ne_nil 4 y.toNat
    have hsmall : y.toNat < 10000 := by omega
    have hlength : (padded 4 y.toNat).length = 4 := length_padded (by decide) hsmall
    have hread : readNumber? 4 (padded 4 y.toNat ++ rest) = some (y.toNat, rest) := by
      rw [readNumber?_of_noDigit hdigits hne (Nat.le_of_eq hlength) hrest, digitsValue_padded]
    rw [writeYear, if_pos hfour, readYear?, trimLeft_of_isDigit hdigits hne]
    obtain ⟨c, cs, hcs⟩ := List.exists_cons_of_ne_nil hne
    have hc : c.isDigit = true := hdigits c (hcs ▸ List.mem_cons_self)
    split
    · rename_i heq
      rw [hcs] at heq
      exact absurd (List.cons.inj heq).1 (ne_of_isDigit hc rfl)
    · rename_i heq
      rw [hcs] at heq
      exact absurd (List.cons.inj heq).1 (ne_of_isDigit hc rfl)
    · have hvalue : (y.toNat : Int) = y := Int.toNat_of_nonneg hfour.1
      rw [hread, Option.map_some]
      simp only [hvalue]
  · rw [writeYear, if_neg hfour]
    by_cases hsign : y < 0
    · have hvalue : -(y.natAbs : Int) = y := by omega
      rw [if_pos hsign]
      have htrim : trimLeft ('-' :: padded 4 y.natAbs ++ rest) = '-' :: (padded 4 y.natAbs ++ rest) := rfl
      simp only [readYear?, htrim, readNumber?_signed y.natAbs hrest, Option.map_some, hvalue]
    · have hvalue : (y.natAbs : Int) = y := by omega
      rw [if_neg hsign]
      have htrim : trimLeft ('+' :: padded 4 y.natAbs ++ rest) = '+' :: (padded 4 y.natAbs ++ rest) := rfl
      simp only [readYear?, htrim, readNumber?_signed y.natAbs hrest, Option.map_some, hvalue]

theorem readFraction?_writeFraction {nanos : Nat} (h : nanos < 1000000000) :
    readFraction? (writeFraction nanos) = some (nanos, []) := by
  by_cases hzero : nanos = 0
  · subst hzero
    rfl
  · obtain ⟨k, hk⟩ := exists_trailing_zeros (padded 9 nanos)
    obtain ⟨run, hrun⟩ : ∃ run, run = ((padded 9 nanos).reverse.dropWhile (· == '0')).reverse :=
      ⟨_, rfl⟩
    rw [← hrun] at hk
    have hlength : run.length + k = 9 := by
      have hpadded : (padded 9 nanos).length = 9 := length_padded (by decide) h
      rwa [hk, List.length_append, List.length_replicate] at hpadded
    have hvalue : digitsValue run * Nat.pow 10 (9 - run.length) = nanos := by
      have hall := digitsValue_padded 9 nanos
      have hk9 : 9 - run.length = k := by omega
      rwa [hk, digitsValue_append, digitsValue_replicate_zero, List.length_replicate,
        Nat.add_zero, ← hk9] at hall
    have hdigits : ∀ c ∈ run, c.isDigit = true := by
      intro c hc
      refine isDigit_of_mem_padded (?_ : c ∈ padded 9 nanos)
      rw [hk]
      exact List.mem_append_left _ hc
    have hspan : spanDigits 9 run = (run, []) := by
      have hread := spanDigits_of_noDigit hdigits (by omega : run.length ≤ 9) noDigit_nil
      rwa [List.append_nil] at hread
    rw [writeFraction, if_neg hzero, ← hrun]
    cases run with
    | nil =>
      rw [digitsValue_eq] at hvalue
      exact absurd hvalue.symm (by simpa using hzero)
    | cons c cs =>
      simp only [readFraction?, hspan, List.dropWhile_nil]
      exact congrArg (fun n => some (n, [])) hvalue

namespace Timestamp

theorem secondOfDay_lt (t : Timestamp) : t.secondOfDay < 86400 := by
  unfold secondOfDay
  omega

/-- The second of the day and the day are the seconds of the instant. -/
theorem seconds_eq (t : Timestamp) : t.date.toDays * 86400 + t.secondOfDay = t.seconds := by
  rw [date, Date.toDays_ofDays, secondOfDay]
  omega

theorem nanos_bounds (t : Timestamp) :
    t.nanos < 2000000000 ∧ (1000000000 ≤ t.nanos → t.secondOfDay % 60 = 59) := by
  have hvalid := t.valid
  simp only [validInstant, Bool.and_eq_true, decide_eq_true_eq, Bool.or_eq_true, beq_iff_eq] at hvalid
  refine ⟨hvalid.1.2, fun hleap => ?_⟩
  have hsecond : t.seconds % 60 = 59 := hvalid.2.resolve_left (by omega)
  unfold secondOfDay
  omega

theorem ofCivil?_date (t : Timestamp) :
    ofCivil? t.date (t.secondOfDay / 3600) (t.secondOfDay / 60 % 60)
      (t.secondOfDay % 60 + t.nanos / 1000000000) (t.nanos % 1000000000) = some t := by
  obtain ⟨s, hs⟩ : ∃ s, s = t.secondOfDay := ⟨_, rfl⟩
  have hday : s < 86400 := hs ▸ t.secondOfDay_lt
  obtain ⟨hnanos, hleap⟩ := t.nanos_bounds
  rw [← hs] at hleap ⊢
  have hexists : t.date.Valid ∧ s / 3600 ≤ 23 ∧ s / 60 % 60 ≤ 59 ∧
      s % 60 + t.nanos / 1000000000 ≤ 60 := ⟨Date.valid_ofDays _, by omega, by omega, by omega⟩
  have hwhole : min (s % 60 + t.nanos / 1000000000) 59 = s % 60 := by omega
  have hsum : s / 3600 * 3600 + s / 60 % 60 * 60 + s % 60 = s := by omega
  have hfraction : (s % 60 + t.nanos / 1000000000 - s % 60) * 1000000000 +
      t.nanos % 1000000000 = t.nanos := by
    rw [Nat.add_sub_cancel_left, Nat.div_add_mod']
  rw [ofCivil?, if_pos hexists]
  simp only [hwhole, hsum, hfraction]
  rw [hs, t.seconds_eq, of?_self]

theorem noDigit_writeFraction (nanos : Nat) : NoDigit (writeFraction nanos) := by
  unfold writeFraction
  split
  · exact noDigit_nil
  · exact noDigit_cons rfl _

theorem ofChars?_toChars (t : Timestamp) : ofChars? t.toChars = some t := by
  have hdash (cs : List Char) : NoDigit ('-' :: cs) := noDigit_cons rfl cs
  have hcolon (cs : List Char) : NoDigit (':' :: cs) := noDigit_cons rfl cs
  have htime (cs : List Char) : NoDigit ('T' :: cs) := noDigit_cons rfl cs
  have hmark (c : Char) (cs : List Char) : readMark? c (c :: cs) = some cs := by simp [readMark?]
  have hsecond := t.secondOfDay_lt
  obtain ⟨hnanos, hleap⟩ := t.nanos_bounds
  obtain ⟨-, hmonth, -, hday⟩ := Date.valid_ofDays (t.seconds / 86400)
  have hdays : t.date.day < 100 :=
    Nat.lt_of_le_of_lt (hday.trans (daysInMonth_le _ _)) (by decide)
  have hmonths : t.date.month < 100 := Nat.lt_of_le_of_lt hmonth (by decide)
  have hhour : t.secondOfDay / 3600 < 100 := by omega
  have hminute : t.secondOfDay / 60 % 60 < 100 := by omega
  have hsec : t.secondOfDay % 60 + t.nanos / 1000000000 < 100 := by omega
  have hfraction : t.nanos % 1000000000 < 1000000000 := Nat.mod_lt _ (by decide)
  simp only [ofChars?, toChars, List.append_assoc, List.cons_append,
    readYear?_writeYear _ (hdash _), Option.bind_eq_bind, Option.bind_some, hmark,
    readPart?_padded hmonths (hdash _), readPart?_padded hdays (htime _),
    readPart?_padded hhour (hcolon _), readPart?_padded hminute (hcolon _),
    readPart?_padded hsec (noDigit_writeFraction _), readFraction?_writeFraction hfraction, if_true]
  exact t.ofCivil?_date

theorem parse?_format (t : Timestamp) : parse? t.format = some t := by
  rw [parse?, format, String.toList_ofList, ofChars?_toChars]

/-- Timestamps written alike are the same instant. -/
theorem format_inj {s t : Timestamp} : s.format = t.format ↔ s = t := by
  constructor
  · intro h
    have hparse := congrArg parse? h
    rw [parse?_format, parse?_format] at hparse
    exact Option.some.inj hparse
  · rintro rfl
    rfl

/-- The instants are those of the years from -262143 to 262142. -/
example : firstSecond = Date.toDays ⟨-262143, 1, 1⟩ * 86400 ∧
    lastSecond = Date.toDays ⟨262142, 12, 31⟩ * 86400 + 86399 := by decide

end Timestamp

end Roster.Time

namespace Roster
open Time

/-- Every instant is read back from its text, so the texts of a view tell the instants that are
stored. -/
theorem UserView.instants_of_texts :
    (∀ t : Timestamp, Timestamp.parse? t.format = some t) ∧
      Function.Injective Timestamp.format ∧
      ∀ u v : User,
        ((UserView.ofUser u).createdAt = (UserView.ofUser v).createdAt ↔
          u.createdAt = v.createdAt) ∧
        ((UserView.ofUser u).updatedAt = (UserView.ofUser v).updatedAt ↔
          u.updatedAt = v.updatedAt) :=
  ⟨Timestamp.parse?_format, fun _ _ => Timestamp.format_inj.mp,
    fun _ _ => ⟨Timestamp.format_inj, Timestamp.format_inj⟩⟩

end Roster
