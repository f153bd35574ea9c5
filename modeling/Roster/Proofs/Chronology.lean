import Mathlib.Data.List.DropRight
import Roster.Proofs.Characters
import Roster.Proofs.Timestamps
/-! # Written timestamps sort in time

Parts of a timestamp have a fixed width, so the first part that differs decides. The fraction has
none, but what it lacks at its end are zeros, and no digit comes before a zero. -/
namespace Roster.Text

theorem lt_of_toNat_lt {c d : Char} (h : c.toNat < d.toNat) : c < d := h

/-- Of two texts that begin with runs of one length, the runs decide if they differ. -/
theorem append_lt_append {ds es : List Char} (hlength : ds.length = es.length) (h : ds < es)
    (r s : List Char) : ds ++ r < es ++ s := by
  induction ds generalizing es with
  | nil => exact absurd (List.length_eq_zero_iff.mp hlength.symm ▸ h) (List.not_lt_nil _)
  | cons d ds ih =>
    cases es with
    | nil => cases hlength
    | cons e es =>
      rw [List.cons_append, List.cons_append, List.cons_lt_cons_iff]
      exact (List.cons_lt_cons_iff.mp h).imp_right (And.imp_right (ih (Nat.succ.inj hlength)))

/-- Texts of one-byte characters sort as their bytes do. -/
theorem encode_lt_encode {ds es : List Char} (hds : ∀ c ∈ ds, c.toNat < 0x80)
    (hes : ∀ c ∈ es, c.toNat < 0x80) (h : ds < es) :
    encode (.ofList ds) < encode (.ofList es) := by
  rw [encode_ofList hds, encode_ofList hes]
  induction ds generalizing es with
  | nil =>
    cases es with
    | nil => exact absurd h (List.not_lt_nil _)
    | cons e es => exact List.nil_lt_cons _ _
  | cons d ds ih =>
    cases es with
    | nil => exact absurd h (List.not_lt_nil _)
    | cons e es =>
      obtain ⟨hd, hds⟩ := List.forall_mem_cons.mp hds
      obtain ⟨he, hes⟩ := List.forall_mem_cons.mp hes
      rw [List.map_cons, List.map_cons, List.cons_lt_cons_iff]
      rcases List.cons_lt_cons_iff.mp h with h | ⟨heq, h⟩
      · refine .inl (UInt8.lt_iff_toNat_lt.mpr ?_)
        rw [toNat_ofNat (by omega), toNat_ofNat (by omega)]
        exact h
      · exact .inr ⟨by rw [heq], ih hds hes h⟩

theorem digitChar_lt_digitChar {m n : Nat} (h : m < n) (hn : n < 10) :
    Nat.digitChar m < Nat.digitChar n := by
  have hall : ∀ n < 10, ∀ m < n, (Nat.digitChar m).toNat < (Nat.digitChar n).toNat := by decide
  exact lt_of_toNat_lt (hall n hn m h)

theorem padded_one {n : Nat} (h : n < 10) : padded 1 n = [Nat.digitChar n] := by
  rw [padded, decimal_of_lt h]
  rfl

/-- The last digit of a number stands behind the others, in one place more. -/
theorem padded_succ {width : Nat} (hw : 0 < width) (n : Nat) :
    padded (width + 1) n = padded width (n / 10) ++ [Nat.digitChar (n % 10)] := by
  by_cases h : n < 10
  · obtain ⟨w, rfl⟩ : ∃ w, width = w + 1 := ⟨width - 1, by omega⟩
    have hzero : decimal 0 = ['0'] := rfl
    rw [padded, padded, decimal_of_lt h, Nat.div_eq_of_lt h, Nat.mod_eq_of_lt h, hzero]
    exact congrArg (· ++ _) List.replicate_succ'
  · rw [padded, padded, decimal_of_le (Nat.le_of_not_lt h), List.length_append, List.length_singleton,
      Nat.add_sub_add_right, List.append_assoc]

theorem padded_lt_padded {width m n : Nat} (hw : 0 < width) (h : m < n)
    (hn : n < Nat.pow 10 width) : padded width m < padded width n := by
  induction width, hw using Nat.le_induction generalizing m n with
  | base =>
    have hn : n < 10 := hn
    rw [padded_one hn, padded_one (h.trans hn), List.cons_lt_cons_iff]
    exact .inl (digitChar_lt_digitChar h hn)
  | succ width hw ih =>
    have hn : n < Nat.pow 10 width * 10 := hn
    have hrest : n / 10 < Nat.pow 10 width := by omega
    rw [padded_succ hw, padded_succ hw]
    rcases Nat.lt_or_eq_of_le (Nat.div_le_div_right (c := 10) h.le) with hlt | heq
    · refine append_lt_append ?_ (ih hlt hrest) _ _
      rw [length_padded hw (hlt.trans hrest), length_padded hw hrest]
    · have hlast : m % 10 < n % 10 := by omega
      rw [heq]
      refine List.append_left_lt (List.cons_lt_cons_iff.mpr (.inl ?_))
      exact digitChar_lt_digitChar hlast (Nat.mod_lt _ (by decide))

section

variable {width m n : Nat} (hw : 0 < width) (hm : m < Nat.pow 10 width) (hn : n < Nat.pow 10 width)
  {rest : Prop} (h : m < n ∨ m = n ∧ rest) {r s : List Char} (hrest : rest → r < s)
include hw hm hn h hrest

/-- A field of fixed width decides, and where it is the same the rest does. -/
theorem padded_append_lt : padded width m ++ r < padded width n ++ s := by
  rcases h with h | ⟨rfl, h⟩
  · exact append_lt_append ((length_padded hw hm).trans (length_padded hw hn).symm)
      (padded_lt_padded hw h hn) r s
  · exact List.append_left_lt (hrest h)

/-- The same with a mark behind the field. -/
theorem padded_append_cons_lt (mark : Char) :
    padded width m ++ mark :: r < padded width n ++ mark :: s :=
  padded_append_lt hw hm hn h fun h => List.cons_lt_cons_iff.mpr (.inr ⟨rfl, hrest h⟩)

end

theorem rdropWhile_cons (p : Char → Bool) (c : Char) (cs : List Char) :
    (c :: cs).rdropWhile p =
      if cs.rdropWhile p = [] ∧ p c = true then [] else c :: cs.rdropWhile p := by
  simp only [List.rdropWhile, List.reverse_cons, List.dropWhile_append, List.reverse_eq_nil_iff,
    List.isEmpty_iff, List.dropWhile_cons, List.dropWhile_nil]
  by_cases hcs : cs.reverse.dropWhile p = []
  · by_cases hc : p c = true <;> simp [hcs, hc]
  · simp [hcs]

/-- The digit that is greater is no zero, so it is not left out, nor is what stands before it. -/
theorem rdropWhile_lt_rdropWhile {ds es : List Char} (hlength : ds.length = es.length)
    (hds : ∀ c ∈ ds, c.isDigit = true) (h : ds < es) :
    ds.rdropWhile (· == '0') < es.rdropWhile (· == '0') := by
  induction ds generalizing es with
  | nil => exact absurd (List.length_eq_zero_iff.mp hlength.symm ▸ h) (List.not_lt_nil _)
  | cons d ds ih =>
    cases es with
    | nil => cases hlength
    | cons e es =>
      obtain ⟨hd, hds⟩ := List.forall_mem_cons.mp hds
      -- What is left of the first text is nothing or begins with its own first digit.
      suffices hkept : (e :: es).rdropWhile (· == '0') = e :: es.rdropWhile (· == '0') ∧
          d :: ds.rdropWhile (· == '0') < e :: es.rdropWhile (· == '0') by
        rw [hkept.1, rdropWhile_cons _ d]
        split
        · exact List.nil_lt_cons _ _
        · exact hkept.2
      rcases List.cons_lt_cons_iff.mp h with h | ⟨heq, h⟩
      · have he : e ≠ '0' := by
          rintro rfl
          exact absurd (toNat_of_isDigit hd).1 (Nat.not_le_of_lt h)
        rw [rdropWhile_cons, if_neg (fun hzero => he (by simpa using hzero.2))]
        exact ⟨rfl, List.cons_lt_cons_iff.mpr (.inl h)⟩
      · have hlt := ih (Nat.succ.inj hlength) hds h
        have hne : es.rdropWhile (· == '0') ≠ [] := fun hnil => List.not_lt_nil _ (hnil ▸ hlt)
        rw [rdropWhile_cons, if_neg (fun hzero => hne hzero.1)]
        exact ⟨rfl, List.cons_lt_cons_iff.mpr (.inr ⟨heq, hlt⟩)⟩

end Roster.Text

namespace Roster.Time
open Text

theorem writeFraction_lt_writeFraction {m n : Nat} (h : m < n) (hn : n < 1000000000) :
    writeFraction m < writeFraction n := by
  have hwidth {k : Nat} (hk : k < 1000000000) : (padded 9 k).length = 9 := length_padded (by decide) hk
  have hdigits := rdropWhile_lt_rdropWhile ((hwidth (h.trans hn)).trans (hwidth hn).symm)
    (fun c => isDigit_of_mem_padded) (padded_lt_padded (by decide) h hn)
  rw [writeFraction, writeFraction, if_neg (Nat.ne_zero_of_lt h)]
  split
  · exact List.nil_lt_cons _ _
  · exact List.cons_lt_cons_iff.mpr (.inr ⟨rfl, hdigits⟩)

namespace Date

/-- The year decides, then the month, then the day. -/
def Before (d e : Date) : Prop :=
  d.year < e.year ∨ d.year = e.year ∧ (d.month < e.month ∨ d.month = e.month ∧ d.day < e.day)

/-- The leap days before a year that begins in March. -/
def leapDays (year : Int) : Int := year / 4 - year / 100 + year / 400

theorem leapDays_mono {x y : Int} (h : x ≤ y) : leapDays x ≤ leapDays y := by
  unfold leapDays
  omega

theorem leapDays_succ {year : Int} (h : isLeapYear (year + 1) = true) :
    leapDays (year + 1) = leapDays year + 1 := by
  simp only [isLeapYear, Bool.or_eq_true, Bool.and_eq_true, beq_iff_eq, bne_iff_ne, ne_eq] at h
  unfold leapDays
  omega

/-- The day that lies a number of days after the first of March of a year. -/
theorem toDays_ofMarch_eq {year day : Int} (h0 : 0 ≤ day) (h1 : day ≤ 365) :
    (ofMarch year day).toDays = 365 * year + leapDays year + day - 719468 := by
  rw [toDays_ofMarch h0 h1]
  unfold leapDays
  omega

/-- A year is over before the next one begins. -/
theorem ofMarch_year_lt {x y day : Int} (hleap : day = 365 → isLeapYear (x + 1) = true)
    (h1 : day ≤ 365) (h : x < y) :
    365 * x + leapDays x + day < 365 * y + leapDays y := by
  have hmono : leapDays (x + 1) ≤ leapDays y := leapDays_mono h
  have hstep : leapDays x ≤ leapDays (x + 1) := leapDays_mono (by omega)
  by_cases hlast : day = 365
  · have hsucc := leapDays_succ (hleap hlast)
    omega
  · omega

theorem before_ofMarch {x y day day' : Int} (h0 : 0 ≤ day) (h1 : day ≤ 365) (h0' : 0 ≤ day')
    (h1' : day' ≤ 365) (h : x < y ∨ x = y ∧ day < day') :
    (ofMarch x day).Before (ofMarch y day') := by
  obtain ⟨m, hm⟩ : ∃ m, m = (5 * day + 2) / 153 := ⟨_, rfl⟩
  obtain ⟨m', hm'⟩ : ∃ m', m' = (5 * day' + 2) / 153 := ⟨_, rfl⟩
  simp only [ofMarch, Before, ← hm, ← hm']
  by_cases hmarch : m < 10 <;> by_cases hmarch' : m' < 10
  all_goals
    simp only [hmarch, hmarch', if_true, if_false]
    omega

/-- Days in order have dates in order. -/
theorem before_ofDays {x y : Int} (h : x < y) : (ofDays x).Before (ofDays y) := by
  obtain ⟨year, day, heq, h0, h1, hleap, hback⟩ := exists_ofMarch x
  obtain ⟨year', day', heq', h0', h1', hleap', hback'⟩ := exists_ofMarch y
  rw [toDays_ofMarch_eq h0 h1] at hback
  rw [toDays_ofMarch_eq h0' h1'] at hback'
  rw [heq, heq']
  refine before_ofMarch h0 h1 h0' h1' ?_
  rcases Int.lt_trichotomy year year' with hyear | rfl | hyear
  · exact .inl hyear
  · exact .inr ⟨rfl, by omega⟩
  · have hover := ofMarch_year_lt hleap' h1' hyear
    omega

end Date

namespace Timestamp

/-- The year of the instant is written with four digits and no sign. -/
def HasPlainYear (t : Timestamp) : Prop := 0 ≤ t.date.year ∧ t.date.year ≤ 9999

instance (t : Timestamp) : Decidable t.HasPlainYear := by unfold HasPlainYear; infer_instance

/-- A time of day is written before another: the hour decides, then the minute, the second, the
fraction. -/
def Earlier (s n s' n' : Nat) : Prop :=
  s / 3600 < s' / 3600 ∨ s / 3600 = s' / 3600 ∧
    (s / 60 % 60 < s' / 60 % 60 ∨ s / 60 % 60 = s' / 60 % 60 ∧
      (s % 60 + n / 1000000000 < s' % 60 + n' / 1000000000 ∨
        s % 60 + n / 1000000000 = s' % 60 + n' / 1000000000 ∧ n % 1000000000 < n' % 1000000000))

/-- Second 60 of a minute follows its last, so that it comes after the others and before the next
minute. -/
theorem earlier_of_lt {s n s' n' : Nat} (hleap : 1000000000 ≤ n → s % 60 = 59)
    (hn : n < 2000000000) (h : s < s' ∨ s = s' ∧ n < n') : Earlier s n s' n' := by
  unfold Earlier
  rcases h with h | ⟨rfl, h⟩
  · rcases Nat.lt_or_eq_of_le (Nat.div_le_div_right (c := 60) h.le) with hminute | hminute
    · omega
    · have hsecond : s % 60 < s' % 60 := by omega
      have hwhole : n / 1000000000 = 0 := by omega
      omega
  · omega

/-- The date and the time of day decide one after the other. -/
theorem before_or_earlier {a b : Timestamp} (h : a < b) :
    a.date.Before b.date ∨
      a.date = b.date ∧ Earlier a.secondOfDay a.nanos b.secondOfDay b.nanos := by
  have horder : a.seconds < b.seconds ∨ a.seconds = b.seconds ∧ a.nanos < b.nanos := h
  have hday : a.seconds / 86400 ≤ b.seconds / 86400 := by omega
  rcases Int.lt_or_eq_of_le hday with hday | hday
  · exact .inl (Date.before_ofDays hday)
  · obtain ⟨hnanos, hleap⟩ := a.nanos_bounds
    refine .inr ⟨congrArg Date.ofDays hday, earlier_of_lt hleap hnanos ?_⟩
    unfold secondOfDay
    omega

theorem parts_lt (t : Timestamp) :
    t.date.month < 100 ∧ t.date.day < 100 ∧ t.secondOfDay / 3600 < 100 ∧
      t.secondOfDay / 60 % 60 < 100 ∧ t.secondOfDay % 60 + t.nanos / 1000000000 < 100 := by
  have hsecond := t.secondOfDay_lt
  obtain ⟨hnanos, -⟩ := t.nanos_bounds
  obtain ⟨-, hmonth, -, hday⟩ := Date.valid_ofDays (t.seconds / 86400)
  have hmax := daysInMonth_le t.date.year t.date.month
  have hdate : Date.ofDays (t.seconds / 86400) = t.date := rfl
  rw [hdate] at hmonth hday
  omega

/-- The parts of a timestamp with a plain year, each before the mark that ends it. -/
theorem toChars_eq {t : Timestamp} (ht : t.HasPlainYear) :
    t.toChars = padded 4 t.date.year.toNat ++ '-' :: (padded 2 t.date.month ++
      '-' :: (padded 2 t.date.day ++ 'T' :: (padded 2 (t.secondOfDay / 3600) ++
        ':' :: (padded 2 (t.secondOfDay / 60 % 60) ++
          ':' :: (padded 2 (t.secondOfDay % 60 + t.nanos / 1000000000) ++
            writeFraction (t.nanos % 1000000000)))))) := by
  have hyear : writeYear t.date.year = padded 4 t.date.year.toNat := if_pos ht
  simp only [toChars, hyear, List.append_assoc, List.cons_append]

theorem toNat_lt_of_mem_toChars {t : Timestamp} (ht : t.HasPlainYear) {c : Char}
    (h : c ∈ t.toChars) : c.toNat < 0x80 := by
  have hdigit {c : Char} {width n : Nat} (hc : c ∈ padded width n) : c.toNat < 0x80 :=
    Nat.lt_of_le_of_lt (toNat_of_isDigit (isDigit_of_mem_padded hc)).2 (by decide)
  have hfraction (n : Nat) : ∀ c ∈ writeFraction n, c.toNat < 0x80 := by
    unfold writeFraction
    split
    · simp
    · refine List.forall_mem_cons.mpr ⟨by decide, fun c hc => @hdigit c 9 n ?_⟩
      exact List.mem_reverse.mp ((List.dropWhile_sublist _).mem (List.mem_reverse.mp hc))
  rw [toChars_eq ht] at h
  simp only [List.mem_append, List.mem_cons] at h
  rcases h with h | rfl | h | rfl | h | rfl | h | rfl | h | rfl | h | h
  all_goals first | exact hdigit h | decide | exact hfraction _ _ h

theorem toChars_lt_toChars {a b : Timestamp} (ha : a.HasPlainYear) (hb : b.HasPlainYear)
    (h : a < b) : a.toChars < b.toChars := by
  obtain ⟨hmonth, hday, hhour, hminute, hsecond⟩ := a.parts_lt
  obtain ⟨hmonth', hday', hhour', hminute', hsecond'⟩ := b.parts_lt
  have hyear {t : Timestamp} (ht : t.HasPlainYear) : t.date.year.toNat < 10000 := by
    have hlast : t.date.year ≤ 9999 := ht.2
    omega
  have hnanos : b.nanos % 1000000000 < 1000000000 := Nat.mod_lt _ (by decide)
  have horder : a.date.year.toNat < b.date.year.toNat ∨ a.date.year.toNat = b.date.year.toNat ∧
      (a.date.month < b.date.month ∨ a.date.month = b.date.month ∧
        (a.date.day < b.date.day ∨ a.date.day = b.date.day ∧
          Earlier a.secondOfDay a.nanos b.secondOfDay b.nanos)) := by
    rcases before_or_earlier h with hdate | ⟨hdate, htime⟩
    · have hfirst : 0 ≤ a.date.year ∧ 0 ≤ b.date.year := ⟨ha.1, hb.1⟩
      unfold Date.Before at hdate
      omega
    · rw [hdate]
      exact .inr ⟨rfl, .inr ⟨rfl, .inr ⟨rfl, htime⟩⟩⟩
  rw [toChars_eq ha, toChars_eq hb]
  refine padded_append_cons_lt (by decide) (hyear ha) (hyear hb) horder (fun horder => ?_) _
  refine padded_append_cons_lt (by decide) hmonth hmonth' horder (fun horder => ?_) _
  refine padded_append_cons_lt (by decide) hday hday' horder (fun horder => ?_) _
  refine padded_append_cons_lt (by decide) hhour hhour' horder (fun horder => ?_) _
  refine padded_append_cons_lt (by decide) hminute hminute' horder (fun horder => ?_) _
  refine padded_append_lt (by decide) hsecond hsecond' horder fun horder => ?_
  exact writeFraction_lt_writeFraction horder hnanos

theorem encode_format_lt {a b : Timestamp} (ha : a.HasPlainYear) (hb : b.HasPlainYear)
    (h : a < b) : encode a.format < encode b.format :=
  encode_lt_encode (fun _ => toNat_lt_of_mem_toChars ha) (fun _ => toNat_lt_of_mem_toChars hb)
    (toChars_lt_toChars ha hb h)

/-- The texts of instants in the years from 0 to 9999 sort byte by byte as the instants do, and no two
instants share a text. -/
theorem format_in_order (a b : Timestamp) (ha : a.HasPlainYear) (hb : b.HasPlainYear) :
    (encode a.format < encode b.format ↔ a < b) ∧ (a.format = b.format ↔ a = b) := by
  refine ⟨⟨fun h => ?_, encode_format_lt ha hb⟩, format_inj⟩
  rcases lt_trichotomy a b with hlt | rfl | hgt
  · exact hlt
  · exact absurd h (List.lt_irrefl _)
  · exact absurd h (List.lt_asymm (encode_format_lt hb ha hgt))

/-- Half of the leap second at the end of 2016, and the midnight after it. -/
theorem format_in_order_of_leap_second :
    ∃ a b : Timestamp, a.format = "2016-12-31T23:59:60.5" ∧ b.format = "2017-01-01T00:00:00" ∧
      a.HasPlainYear ∧ b.HasPlainYear ∧ a < b ∧ encode a.format < encode b.format ∧
      a.format ≠ b.format := by
  refine ⟨⟨1483228799, 1500000000, by decide⟩, ⟨1483228800, 0, by decide⟩, by decide +kernel,
    by decide +kernel, by decide, by decide, by decide, ?_, ?_⟩
  · exact (format_in_order _ _ (by decide) (by decide)).1.mpr (by decide)
  · exact fun h => absurd ((format_in_order _ _ (by decide) (by decide)).2.mp h) (by decide)

/-- Beyond the year 9999 the sign comes before all digits. -/
example : ∃ a b : Timestamp, a < b ∧ encode b.format < encode a.format :=
  ⟨⟨253402300799, 0, by decide⟩, ⟨253402300800, 0, by decide⟩, by decide, by decide +kernel⟩

end Timestamp

end Roster.Time
