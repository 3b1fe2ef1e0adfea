/-
The calendar: what is counted back to a day is a day.

The year inside an era is found by one division.  It is right at the first and
at the last day of each of the four hundred years, and it never falls from one
day to the next, so it is right in between (`yearStart_le`, `inYear_le`).  With
that every number of days is a day of the calendar (`Date.isValid_ofDays`), and
every number of seconds a time of one; and the days and the seconds of what was
found are those it was found for (`Date.toDays_ofDays`, `Civil.toSeconds_ofSeconds`).
-/
import Enrollment.Time.Calendar
import Mathlib.Tactic.ByContra

namespace Enrollment.Time

-- ======================================================= years of an era

/-- The days from the start of an era to that of one of its years. -/
def yearStart (year : Int) : Int :=
  365 * year + year / 4 - year / 100

/-- The year of an era that a day of the era lies in. -/
def yearOf (inEra : Int) : Int :=
  (inEra - inEra / 1460 + inEra / 36524 - inEra / 146096) / 365

theorem yearOf_mono {d e : Int} (h : d ≤ e) : yearOf d ≤ yearOf e := by
  have hfours : d - d / 1460 ≤ e - e / 1460 := by omega
  have hcenturies : d / 36524 ≤ e / 36524 := by omega
  have hera : ∀ n : Int, n / 146096 = n / 36524 / 4 := by
    intro n
    omega
  unfold yearOf
  rw [hera, hera]
  omega

theorem yearOf_firstDay : ∀ year : Fin 400, yearOf (yearStart year) = year := by
  decide +kernel

theorem yearOf_lastDay : ∀ year : Fin 400, yearOf (yearStart (year + 1) - 1) = year := by
  decide +kernel

section

variable {e : Int}

theorem yearOf_bounds (h0 : 0 ≤ e) (h1 : e < Date.eraDays) : 0 ≤ yearOf e ∧ yearOf e < 400 := by
  unfold yearOf
  unfold Date.eraDays at h1
  omega

/-- The year of a day has begun: a day before it would lie in the year before. -/
theorem yearStart_le (h0 : 0 ≤ e) (h1 : e < Date.eraDays) : yearStart (yearOf e) ≤ e := by
  obtain ⟨hnonneg, hlt⟩ := yearOf_bounds h0 h1
  by_contra hbefore
  by_cases hzero : yearOf e = 0
  · rw [hzero] at hbefore
    exact hbefore h0
  · have hlast := yearOf_lastDay ⟨(yearOf e - 1).toNat, by omega⟩
    have hcast : (((yearOf e - 1).toNat : Nat) : Int) = yearOf e - 1 := by omega
    simp only [hcast, Int.sub_add_cancel] at hlast
    have hle := yearOf_mono (d := e) (e := yearStart (yearOf e) - 1) (by omega)
    omega

/-- The year after that of a day has not begun: a day in it would have it as its
year.  The last year of an era is left out, as none follows it. -/
theorem lt_yearStart_succ (h0 : 0 ≤ e) (h1 : yearOf e < 399) : e < yearStart (yearOf e + 1) := by
  have hnonneg : 0 ≤ yearOf e := by
    unfold yearOf
    omega
  by_contra hafter
  have hfirst := yearOf_firstDay ⟨(yearOf e + 1).toNat, by omega⟩
  have hcast : (((yearOf e + 1).toNat : Nat) : Int) = yearOf e + 1 := by omega
  simp only [hcast] at hfirst
  have hle := yearOf_mono (d := yearStart (yearOf e + 1)) (e := e) (by omega)
  omega

/-- Every fourth year is a leap year, but of the hundreds only every fourth. -/
theorem isLeap_iff {year : Int} :
    isLeap year = true ↔ year % 4 = 0 ∧ (year % 100 ≠ 0 ∨ year % 400 = 0) := by
  simp only [isLeap, Bool.and_eq_true, Bool.or_eq_true, decide_eq_true_eq]

/-- A year but the last of its era has 365 days, and one more if the February at its
end is that of a leap year. -/
theorem yearStart_succ {year : Int} (h0 : 0 ≤ year) (h1 : year < 399) :
    yearStart (year + 1) = yearStart year + 365 + if isLeap (year + 1) then 1 else 0 := by
  unfold yearStart
  split
  case isTrue hleap =>
    rw [isLeap_iff] at hleap
    omega
  case isFalse hcommon =>
    rw [isLeap_iff, not_and_or, not_or, not_not] at hcommon
    omega

/-- The day of a year that a day of an era is. -/
theorem inYear_le (h0 : 0 ≤ e) (h1 : e < Date.eraDays) :
    e - yearStart (yearOf e) ≤ if isLeap (yearOf e + 1) then 365 else 364 := by
  obtain ⟨hnonneg, hlt⟩ := yearOf_bounds h0 h1
  by_cases hend : yearOf e = 399
  · rw [hend, if_pos (by decide)]
    unfold Date.eraDays at h1
    have hstart : yearStart 399 = 145731 := by decide
    omega
  · have hnext := lt_yearStart_succ h0 (by omega)
    have hlength := yearStart_succ hnonneg (by omega)
    split at hlength
    case isTrue hleap =>
      rw [if_pos hleap]
      omega
    case isFalse hcommon =>
      rw [if_neg hcommon]
      omega

end

-- ======================================================== days of a year

/-- The month of a day of a year that begins in March. -/
def monthOf (inYear : Int) : Int :=
  let month := (5 * inYear + 2) / 153
  if month < 10 then month + 3 else month - 9

/-- The day of the month of a day of a year that begins in March. -/
def dayOf (inYear : Int) : Int :=
  inYear - (153 * ((5 * inYear + 2) / 153) + 2) / 5 + 1

/-- Which days a year has depends only on whether it is a leap year. -/
theorem Date.isValid_congr {year other : Int} (h : isLeap year = isLeap other) (month day : Nat) :
    isValid ⟨year, month, day⟩ = isValid ⟨other, month, day⟩ := by
  unfold isValid daysInMonth
  dsimp only
  rw [h]

/-- Which days a month has, other than February, does not depend on the year. -/
theorem Date.isValid_of_month_ne {month : Nat} (h : month ≠ 2) (year other : Int) (day : Nat) :
    isValid ⟨year, month, day⟩ = isValid ⟨other, month, day⟩ := by
  have hdays : daysInMonth year month = daysInMonth other month := by
    unfold daysInMonth
    split
    case h_1 => exact absurd rfl h
    all_goals rfl
  unfold isValid
  dsimp only
  rw [hdays]

/-- A day that there is in some year is there in any leap year. -/
theorem Date.isValid_of_leap {year other : Int} {month day : Nat} (hleap : isLeap other = true)
    (h : isValid ⟨year, month, day⟩ = true) : isValid ⟨other, month, day⟩ = true := by
  by_cases hmonth : month = 2
  · subst hmonth
    unfold isValid daysInMonth at h ⊢
    dsimp only at h ⊢
    rw [if_pos hleap]
    simp only [Bool.and_eq_true, decide_eq_true_eq] at h ⊢
    split at h <;> omega
  · rw [isValid_of_month_ne hmonth other year]
    exact h

/-- All days of a leap year are days of the calendar, and so are those of a common
year. -/
theorem Date.isValid_leap :
    ∀ d : Fin 366, isValid ⟨0, (monthOf d).toNat, (dayOf d).toNat⟩ = true := by
  decide +kernel

theorem Date.isValid_common :
    ∀ d : Fin 365, isValid ⟨1, (monthOf d).toNat, (dayOf d).toNat⟩ = true := by
  decide +kernel

/-- A day that is among those of its year is a day of the calendar. -/
theorem Date.isValid_inYear {year d : Int} (h0 : 0 ≤ d)
    (h1 : d ≤ if isLeap year then 365 else 364) :
    isValid ⟨year, (monthOf d).toNat, (dayOf d).toNat⟩ = true := by
  have hcast : ((d.toNat : Nat) : Int) = d := Int.toNat_of_nonneg h0
  cases hleap : isLeap year with
  | true =>
    rw [hleap, if_pos rfl] at h1
    have hday := isValid_leap ⟨d.toNat, by omega⟩
    simp only [hcast] at hday
    rw [isValid_congr (show isLeap year = isLeap 0 from hleap)]
    exact hday
  | false =>
    rw [hleap, if_neg (by decide)] at h1
    have hday := isValid_common ⟨d.toNat, by omega⟩
    simp only [hcast] at hday
    rw [isValid_congr (show isLeap year = isLeap 1 from hleap)]
    exact hday

-- =================================================================== days

namespace Date

/-- The day of its era that a day is. -/
def inEra (days : Int) : Int := (days + epochShift) % eraDays

/-- The year that begins in the March before a day. -/
def marchYear (days : Int) : Int :=
  yearOf (inEra days) + (days + epochShift) / eraDays * 400

/-- The day of that year that a day is. -/
def inYear (days : Int) : Int := inEra days - yearStart (yearOf (inEra days))

/-- A day is that of its month, in the year of its March or the one after it. -/
theorem ofDays_eq (days : Int) :
    ofDays days = ⟨if monthOf (inYear days) ≤ 2 then marchYear days + 1 else marchYear days,
      (monthOf (inYear days)).toNat, (dayOf (inYear days)).toNat⟩ :=
  rfl

theorem inEra_bounds (days : Int) : 0 ≤ inEra days ∧ inEra days < eraDays := by
  unfold inEra eraDays
  omega

theorem inYear_bounds (days : Int) :
    0 ≤ inYear days ∧ inYear days ≤ if isLeap (marchYear days + 1) then 365 else 364 := by
  obtain ⟨h0, h1⟩ := inEra_bounds days
  have hstart := yearStart_le h0 h1
  have hend := inYear_le h0 h1
  -- eras have whole cycles of leap years
  have hleap : isLeap (marchYear days + 1) = isLeap (yearOf (inEra days) + 1) := by
    rw [Bool.eq_iff_iff, isLeap_iff, isLeap_iff]
    unfold marchYear
    omega
  rw [hleap]
  exact ⟨by unfold inYear; omega, hend⟩

/-- Every number of days is a day of the calendar. -/
theorem isValid_ofDays (days : Int) : (ofDays days).isValid = true := by
  obtain ⟨h0, h1⟩ := inYear_bounds days
  have hvalid := isValid_inYear h0 h1
  rw [ofDays_eq]
  by_cases hmonth : monthOf (inYear days) ≤ 2
  · rw [if_pos hmonth]
    exact hvalid
  · rw [if_neg hmonth, ← hvalid]
    exact isValid_of_month_ne (by omega) _ _ _

/-- No day up to the end of the year 9999 lies in a later year. -/
theorem year_ofDays_le {days : Int} (h : days ≤ 2932896) : (ofDays days).year ≤ 9999 := by
  obtain ⟨he0, he1⟩ := inEra_bounds days
  obtain ⟨hnonneg, hlt⟩ := yearOf_bounds he0 he1
  rw [ofDays_eq]
  dsimp only
  -- only the last year of the last era comes near
  by_cases hlast : marchYear days < 9999
  · split <;> omega
  · have hera : (days + epochShift) / eraDays ≤ 24 := by
      unfold epochShift eraDays
      omega
    have hyear : yearOf (inEra days) = 399 := by
      unfold marchYear at hlast
      omega
    have hday : inYear days ≤ 305 := by
      unfold inYear
      rw [hyear]
      unfold marchYear at hlast
      have hstart : yearStart 399 = 145731 := by decide
      unfold inEra epochShift eraDays at *
      omega
    have hmonth : ¬monthOf (inYear days) ≤ 2 := by
      have hfirst := (inYear_bounds days).1
      unfold monthOf
      dsimp only
      split <;> omega
    rw [if_neg hmonth]
    unfold marchYear
    omega

/-- No day from the first of January 1970 on lies before the year 1969. -/
theorem le_year_ofDays {days : Int} (h : 0 ≤ days) : 1969 ≤ (ofDays days).year := by
  have hmarch : 1969 ≤ marchYear days := by
    obtain ⟨he0, he1⟩ := inEra_bounds days
    obtain ⟨hnonneg, -⟩ := yearOf_bounds he0 he1
    unfold marchYear
    -- that day lies in the era of the year 1600, and so do all days up to the next one
    by_cases hera : (days + epochShift) / eraDays = 4
    · have hfirst : yearOf 135080 = 369 := by decide
      have hle : (135080 : Int) ≤ inEra days := by
        unfold inEra epochShift eraDays at *
        omega
      have hmono := yearOf_mono hle
      omega
    · unfold epochShift eraDays at *
      omega
  rw [ofDays_eq]
  dsimp only
  split <;> omega

/-- The day that is found for a number of days is that many days away. -/
theorem toDays_ofDays (days : Int) : toDays (ofDays days) = days := by
  obtain ⟨he0, he1⟩ := inEra_bounds days
  obtain ⟨hyear0, hyear1⟩ := yearOf_bounds he0 he1
  obtain ⟨hday0, hday⟩ := inYear_bounds days
  have hday1 : inYear days ≤ 365 := by
    split at hday <;> omega
  -- the year is again counted from March, and so are its months
  have hmarch : (if (ofDays days).month ≤ 2 then (ofDays days).year - 1 else (ofDays days).year)
      = marchYear days := by
    rw [ofDays_eq]
    unfold monthOf
    dsimp only
    omega
  have hmonth : (if (ofDays days).month ≤ 2 then ((ofDays days).month : Int) + 9
      else (ofDays days).month - 3) = (5 * inYear days + 2) / 153 := by
    rw [ofDays_eq]
    unfold monthOf
    dsimp only
    omega
  have hdayOf : ((ofDays days).day : Int)
      = inYear days - (153 * ((5 * inYear days + 2) / 153) + 2) / 5 + 1 := by
    rw [ofDays_eq]
    unfold dayOf
    dsimp only
    omega
  have hera : marchYear days / 400 = (days + epochShift) / eraDays
      ∧ marchYear days % 400 = yearOf (inEra days) := by
    unfold marchYear
    omega
  unfold toDays
  dsimp only
  rw [hmarch, hmonth, hdayOf, hera.1, hera.2]
  unfold inYear yearStart inEra epochShift eraDays
  omega

end Date

-- ================================================================= clocks

namespace Civil

theorem isValid_ofSeconds (seconds : Int) : (ofSeconds seconds).isValid = true := by
  have hdate := Date.isValid_ofDays (seconds / 86400)
  have hrest : (seconds % 86400).toNat < 86400 := by omega
  unfold isValid ofSeconds
  dsimp only
  rw [hdate, Bool.true_and]
  simp only [Bool.and_eq_true, decide_eq_true_eq]
  omega

/-- No second up to the last one lies beyond the year 9999. -/
theorem year_ofSeconds_le {seconds : Int} (h : seconds ≤ lastSecond) :
    (ofSeconds seconds).date.year ≤ 9999 := by
  refine Date.year_ofDays_le ?_
  unfold lastSecond at h
  omega

theorem le_year_ofSeconds {seconds : Int} (h : 0 ≤ seconds) :
    1969 ≤ (ofSeconds seconds).date.year := by
  refine Date.le_year_ofDays ?_
  omega

/-- The time that is found for a number of seconds is that many seconds away. -/
theorem toSeconds_ofSeconds (seconds : Int) : (ofSeconds seconds).toSeconds = seconds := by
  unfold toSeconds ofSeconds
  dsimp only
  rw [Date.toDays_ofDays]
  omega

end Civil

end Enrollment.Time
