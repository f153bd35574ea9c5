import Roster.Time.Calendar
/-! # Every day is a date of the calendar

A day is counted back from its date, and the date exists. An era of 400 years is four centuries; a
century is 25 times four years, of which the last may be a leap year. Years begin in March. -/
namespace Roster.Time

theorem daysInMonth_le (y : Int) (m : Nat) : daysInMonth y m ≤ 31 := by
  unfold daysInMonth
  split
  · split <;> decide
  all_goals decide

/-- The century `c`, the four years `q` and the year `r` in which a day of an era lies, and the days
of that year before it. -/
structure EraDay (dayOfEra c q r day : Int) : Prop where
  century : 0 ≤ c ∧ c ≤ 3
  fourYears : 0 ≤ q ∧ q ≤ 24
  year : 0 ≤ r ∧ r ≤ 3
  dayOfYear : 0 ≤ day ∧ day ≤ 365
  leap : day = 365 → r = 3 ∧ (q = 24 → c = 3)
  sum : dayOfEra = 36524 * c + 1461 * q + 365 * r + day

theorem exists_eraDay {dayOfEra : Int} (h0 : 0 ≤ dayOfEra) (h1 : dayOfEra ≤ 146096) :
    ∃ c q r day, EraDay dayOfEra c q r day := by
  obtain ⟨c, hc⟩ : ∃ c, c = min 3 (dayOfEra / 36524) := ⟨_, rfl⟩
  obtain ⟨q, hq⟩ : ∃ q, q = (dayOfEra - 36524 * c) / 1461 := ⟨_, rfl⟩
  obtain ⟨r, hr⟩ : ∃ r, r = min 3 ((dayOfEra - 36524 * c - 1461 * q) / 365) := ⟨_, rfl⟩
  refine ⟨c, q, r, dayOfEra - 36524 * c - 1461 * q - 365 * r, ?_, ?_, ?_, ?_, ?_, ?_⟩
  all_goals omega

namespace EraDay

variable {dayOfEra c q r day : Int}

/-- The correction by leap days finds the year of the era. -/
theorem yearOfEra_eq (h : EraDay dayOfEra c q r day) :
    (dayOfEra - dayOfEra / 1460 + dayOfEra / 36524 - dayOfEra / 146096) / 365 =
      100 * c + 4 * q + r := by
  obtain ⟨hc, hq, hr, hday, hleap, hsum⟩ := h
  -- Too many years are taken off only on the last day of a leap year, and there a day is missing.
  have hfour : dayOfEra / 1460 =
      25 * c + q + if 1460 ≤ 24 * c + q + 365 * r + day then 1 else 0 := by
    split <;> omega
  have hcentury : dayOfEra / 36524 - dayOfEra / 146096 = c := by
    have hrest : 0 ≤ 1461 * q + 365 * r + day ∧ 1461 * q + 365 * r + day ≤ 36524 := by omega
    have hlast : 1461 * q + 365 * r + day = 36524 → c = 3 := by omega
    have hcases : c = 0 ∨ c = 1 ∨ c = 2 ∨ c = 3 := by omega
    rcases hcases with rfl | rfl | rfl | rfl <;> omega
  have hboth : dayOfEra - dayOfEra / 1460 + dayOfEra / 36524 - dayOfEra / 146096 =
      dayOfEra - dayOfEra / 1460 + c := by
    omega
  rw [hboth, hfour]
  split <;> omega

theorem dayOfYear_eq (h : EraDay dayOfEra c q r day) :
    dayOfEra - (365 * (100 * c + 4 * q + r) + (100 * c + 4 * q + r) / 4 -
      (100 * c + 4 * q + r) / 100) = day := by
  obtain ⟨hc, hq, hr, hday, hleap, hsum⟩ := h
  omega

/-- A year has a 366th day only if it ends in a leap February. -/
theorem isLeapYear (h : EraDay dayOfEra c q r day) (hlast : day = 365) (era : Int) :
    isLeapYear (100 * c + 4 * q + r + era * 400 + 1) = true := by
  obtain ⟨hr, hq⟩ := h.leap hlast
  obtain ⟨hc, hfour, -, -, -, -⟩ := h
  have hdiv : (100 * c + 4 * q + r + era * 400 + 1) % 4 = 0 := by omega
  by_cases hlastQ : q = 24
  · have hall : (100 * c + 4 * q + r + era * 400 + 1) % 400 = 0 := by omega
    simp [Time.isLeapYear, hall]
  · have hcentury : (100 * c + 4 * q + r + era * 400 + 1) % 100 ≠ 0 := by omega
    simp [Time.isLeapYear, hdiv, hcentury]

end EraDay

namespace Date

/-- The date a number of days after the first of March of a year. -/
def ofMarch (year day : Int) : Date :=
  let m := (5 * day + 2) / 153
  let month := if m < 10 then m + 3 else m - 9
  ⟨if month ≤ 2 then year + 1 else year, month.toNat, (day - (153 * m + 2) / 5 + 1).toNat⟩

theorem ofDays_eq {days era dayOfEra c q r day : Int} (hdays : days + 719468 = era * 146097 + dayOfEra)
    (h : EraDay dayOfEra c q r day) :
    ofDays days = ofMarch (100 * c + 4 * q + r + era * 400) day := by
  have hera : (era * 146097 + dayOfEra) / 146097 = era := by
    obtain ⟨hc, hq, hr, hday, hleap, hsum⟩ := h
    omega
  have hrest : era * 146097 + dayOfEra - era * 146097 = dayOfEra := by omega
  simp only [ofDays, ofMarch, hdays, hera, hrest, h.yearOfEra_eq, h.dayOfYear_eq]

theorem toDays_ofMarch {year day : Int} (h0 : 0 ≤ day) (h1 : day ≤ 365) :
    (ofMarch year day).toDays =
      year / 400 * 146097 + ((year - year / 400 * 400) * 365 + (year - year / 400 * 400) / 4 -
        (year - year / 400 * 400) / 100 + day) - 719468 := by
  obtain ⟨m, hm⟩ : ∃ m, m = (5 * day + 2) / 153 := ⟨_, rfl⟩
  obtain ⟨d, hd⟩ : ∃ d, d = (day - (153 * m + 2) / 5 + 1).toNat := ⟨_, rfl⟩
  have hback : (153 * m + 2) / 5 + (d : Int) - 1 = day := by omega
  simp only [ofMarch, toDays, ← hm, ← hd]
  by_cases hm10 : m < 10
  · have hmonth : ¬ m + 3 ≤ 2 := by omega
    have hmonthNat : ¬ (m + 3).toNat ≤ 2 := by omega
    have hcast : ((m + 3).toNat : Int) - 3 = m := by omega
    simp only [if_pos hm10, if_neg hmonth, if_neg hmonthNat, hcast, hback]
  · have hmonth : m - 9 ≤ 2 := by omega
    have hmonthNat : (m - 9).toNat ≤ 2 := by omega
    have hcast : ((m - 9).toNat : Int) + 9 = m := by omega
    simp only [if_neg hm10, if_pos hmonth, if_pos hmonthNat, hcast, hback, Int.add_sub_cancel]

theorem valid_ofMarch {year day : Int} (h0 : 0 ≤ day) (h1 : day ≤ 365)
    (hleap : day = 365 → isLeapYear (year + 1) = true) : (ofMarch year day).Valid := by
  obtain ⟨m, hm⟩ : ∃ m, m = (5 * day + 2) / 153 := ⟨_, rfl⟩
  simp only [ofMarch, Valid, ← hm]
  by_cases hfebruary : m = 11
  · subst hfebruary
    by_cases hlast : day = 365
    · simp [daysInMonth, hleap hlast, hlast]
    · have hday : 337 ≤ day ∧ day ≤ 364 := by omega
      have hmax : 28 ≤ if isLeapYear (year + 1) = true then 29 else 28 := by split <;> decide
      simp [daysInMonth]
      omega
  · have hcases : m = 0 ∨ m = 1 ∨ m = 2 ∨ m = 3 ∨ m = 4 ∨ m = 5 ∨ m = 6 ∨ m = 7 ∨ m = 8 ∨
        m = 9 ∨ m = 10 := by
      omega
    rcases hcases with rfl | rfl | rfl | rfl | rfl | rfl | rfl | rfl | rfl | rfl | rfl <;>
      simp [daysInMonth] <;> omega

theorem exists_ofMarch (days : Int) :
    ∃ year day : Int, ofDays days = ofMarch year day ∧ 0 ≤ day ∧ day ≤ 365 ∧
      (day = 365 → isLeapYear (year + 1) = true) ∧ (ofMarch year day).toDays = days := by
  obtain ⟨era, hera⟩ : ∃ era, era = (days + 719468) / 146097 := ⟨_, rfl⟩
  obtain ⟨dayOfEra, hrest⟩ : ∃ d, d = days + 719468 - era * 146097 := ⟨_, rfl⟩
  have hbounds : 0 ≤ dayOfEra ∧ dayOfEra ≤ 146096 := by omega
  obtain ⟨c, q, r, day, h⟩ := exists_eraDay hbounds.1 hbounds.2
  have hdays : days + 719468 = era * 146097 + dayOfEra := by omega
  refine ⟨100 * c + 4 * q + r + era * 400, day, ofDays_eq hdays h, h.dayOfYear.1, h.dayOfYear.2,
    fun hlast => h.isLeapYear hlast era, ?_⟩
  obtain ⟨y, hy⟩ : ∃ y, y = 100 * c + 4 * q + r := ⟨_, rfl⟩
  have hday := h.dayOfYear_eq
  have hyear : (y + era * 400) / 400 = era := by
    have hyears : 0 ≤ y ∧ y ≤ 399 := by
      obtain ⟨hc, hq, hr, -, -, -⟩ := h
      omega
    omega
  rw [toDays_ofMarch h.dayOfYear.1 h.dayOfYear.2, ← hy, hyear, Int.add_sub_cancel]
  rw [← hy] at hday
  omega

/-- The date of a day is that of no other day. -/
theorem toDays_ofDays (days : Int) : (ofDays days).toDays = days := by
  obtain ⟨year, day, heq, -, -, -, hback⟩ := exists_ofMarch days
  rw [heq, hback]

theorem valid_ofDays (days : Int) : (ofDays days).Valid := by
  obtain ⟨year, day, heq, h0, h1, hleap, -⟩ := exists_ofMarch days
  rw [heq]
  exact valid_ofMarch h0 h1 hleap

example : ofDays 0 = ⟨1970, 1, 1⟩ ∧ toDays ⟨1970, 1, 1⟩ = 0 := by decide

end Date

end Roster.Time
