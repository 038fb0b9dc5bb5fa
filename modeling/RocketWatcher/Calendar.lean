import RocketWatcher.TimeUtils

/-!
# Civil dates

The dates of the proleptic Gregorian calendar, as `std::chrono::year_month_day` has them, and
their day counts. `civilFromDays` gives a valid date (`civilFromDays_valid`), and
`daysFromCivil` gives its day count back (`daysFromCivil_civilFromDays`).
-/

namespace RocketWatcher

def isLeap (year : Int) : Bool :=
  year % 4 = 0 && (year % 100 ≠ 0 || year % 400 = 0)

def daysInMonth (year month : Int) : Int :=
  if month = 2 then (if isLeap year then 29 else 28)
  else if month = 4 ∨ month = 6 ∨ month = 9 ∨ month = 11 then 30
  else 31

theorem daysInMonth_le (year month : Int) : daysInMonth year month ≤ 31 := by
  unfold daysInMonth
  split
  · split <;> omega
  · split <;> omega

/-- `year_month_day::ok`. -/
structure ValidDate (year month day : Int) : Prop where
  one_le_month : 1 ≤ month
  month_le : month ≤ 12
  one_le_day : 1 ≤ day
  day_le : day ≤ daysInMonth year month

instance (year month day : Int) : Decidable (ValidDate year month day) :=
  decidable_of_iff (1 ≤ month ∧ month ≤ 12 ∧ 1 ≤ day ∧ day ≤ daysInMonth year month)
    ⟨fun ⟨h₁, h₂, h₃, h₄⟩ => ⟨h₁, h₂, h₃, h₄⟩, fun ⟨h₁, h₂, h₃, h₄⟩ => ⟨h₁, h₂, h₃, h₄⟩⟩

/-- The days from 1970-01-01 to a date. Years are counted from March 1st. -/
def daysFromCivil (year month day : Int) : Int :=
  let shiftedYear := if month ≤ 2 then year - 1 else year
  let era := shiftedYear / 400
  let yearOfEra := shiftedYear % 400
  let shiftedMonth := if month ≤ 2 then month + 9 else month - 3
  let dayOfYear := (153 * shiftedMonth + 2) / 5 + day - 1
  era * 146097 + (365 * yearOfEra + yearOfEra / 4 - yearOfEra / 100 + dayOfYear) - 719468

example : daysFromCivil 2026 6 9 * 86400 + 18 * 3600 + 45 * 60 = 1781030700 := by decide

/-! ## Days of an era -/

/-- The year a day of an era is in. -/
def yearOfEra (dayOfEra : Int) : Int :=
  (dayOfEra - dayOfEra / 1460 + dayOfEra / 36524 - dayOfEra / 146096) / 365

/-- The day of that year. -/
def dayOfYear (dayOfEra : Int) : Int :=
  dayOfEra - (365 * yearOfEra dayOfEra + yearOfEra dayOfEra / 4 - yearOfEra dayOfEra / 100)

/-- A year of an era has at most 366 days, and 366 only when it ends with a leap day. -/
structure InEra (year day : Int) : Prop where
  year_nonneg : 0 ≤ year
  year_lt : year < 400
  day_nonneg : 0 ≤ day
  day_le : day ≤ 365
  leap : day = 365 → (year + 1) % 4 = 0 ∧ ((year + 1) % 100 ≠ 0 ∨ year = 399)

theorem inEra {dayOfEra : Int} (h₀ : 0 ≤ dayOfEra) (h₁ : dayOfEra < 146097) :
    InEra (yearOfEra dayOfEra) (dayOfYear dayOfEra) := by
  have hyear : yearOfEra dayOfEra =
    (dayOfEra - dayOfEra / 1460 + dayOfEra / 36524 - dayOfEra / 146096) / 365 := rfl
  have hday : dayOfYear dayOfEra = dayOfEra - (365 * yearOfEra dayOfEra +
    yearOfEra dayOfEra / 4 - yearOfEra dayOfEra / 100) := rfl
  generalize yearOfEra dayOfEra = year at *
  generalize dayOfYear dayOfEra = day at *
  -- omega needs the centuries one by one
  have hcentury : year / 100 = 0 ∨ year / 100 = 1 ∨ year / 100 = 2 ∨ year / 100 = 3 := by omega
  have hquarter : dayOfEra / 36524 = 0 ∨ dayOfEra / 36524 = 1 ∨ dayOfEra / 36524 = 2 ∨
    dayOfEra / 36524 = 3 ∨ dayOfEra / 36524 = 4 := by omega
  have hbounds : 0 ≤ year ∧ year < 400 ∧ 0 ≤ day ∧ day ≤ 365 := by
    rcases hquarter with hq | hq | hq | hq | hq <;>
      rcases hcentury with hc | hc | hc | hc <;> omega
  refine ⟨hbounds.1, hbounds.2.1, hbounds.2.2.1, hbounds.2.2.2, fun hlast => ?_⟩
  have hyears : year % 4 = 0 ∨ year % 4 = 1 ∨ year % 4 = 2 ∨ year % 4 = 3 := by omega
  have hfull : dayOfEra / 146096 = 0 ∨ dayOfEra / 146096 = 1 := by omega
  rcases hquarter with hq | hq | hq | hq | hq <;>
    rcases hcentury with hc | hc | hc | hc <;>
      rcases hyears with hy | hy | hy | hy <;>
        rcases hfull with hf | hf <;> omega

/-- The date of a day, with the year and month counted from March. -/
theorem civilFromDays_eq (days : Int) :
    let era := (days + 719468) / 146097
    let year := yearOfEra ((days + 719468) % 146097)
    let day := dayOfYear ((days + 719468) % 146097)
    let month := (5 * day + 2) / 153
    civilFromDays days =
      if month < 10 then (year + era * 400, month + 3, day - (153 * month + 2) / 5 + 1)
      else (year + era * 400 + 1, month - 9, day - (153 * month + 2) / 5 + 1) := by
  intro era year day month
  have hera : InEra year day := inEra (by omega) (by omega)
  have hmonth : 0 ≤ month ∧ month < 12 := by
    have h₀ := hera.day_nonneg
    have h₁ := hera.day_le
    omega
  show ((if (if month < 10 then month + 3 else month - 9) ≤ 2 then year + era * 400 + 1
    else year + era * 400), (if month < 10 then month + 3 else month - 9),
    day - (153 * month + 2) / 5 + 1) = _
  split
  · rw [if_neg (by omega)]
  · rw [if_pos (by omega)]

/-- Every day has a valid date. -/
theorem civilFromDays_valid (days : Int) :
    ValidDate (civilFromDays days).1 (civilFromDays days).2.1 (civilFromDays days).2.2 := by
  have hera := inEra (show 0 ≤ (days + 719468) % 146097 by omega) (by omega)
  rw [civilFromDays_eq]
  generalize yearOfEra ((days + 719468) % 146097) = year at *
  generalize dayOfYear ((days + 719468) % 146097) = day at *
  obtain ⟨hyear₀, hyear₁, hday₀, hday₁, hleap⟩ := hera
  split
  · dsimp only
    refine ⟨by omega, by omega, by omega, ?_⟩
    rw [daysInMonth, if_neg (by omega)]
    split <;> omega
  · dsimp only
    refine ⟨by omega, by omega, by omega, ?_⟩
    -- February ends the year that starts in March
    rw [daysInMonth]
    split
    · by_cases hlast : day = 365
      · have hisLeap : isLeap (year + (days + 719468) / 146097 * 400 + 1) = true := by
          simp only [isLeap, Bool.and_eq_true, Bool.or_eq_true, decide_eq_true_eq, ne_eq]
          have hyear := hleap hlast
          omega
        rw [if_pos hisLeap]
        omega
      · split <;> omega
    · split <;> omega

/-- The day count of the date of a day. -/
theorem daysFromCivil_civilFromDays (days : Int) :
    daysFromCivil (civilFromDays days).1 (civilFromDays days).2.1 (civilFromDays days).2.2 =
      days := by
  have hera := inEra (show 0 ≤ (days + 719468) % 146097 by omega) (by omega)
  have hday : dayOfYear ((days + 719468) % 146097) = (days + 719468) % 146097 -
    (365 * yearOfEra ((days + 719468) % 146097) + yearOfEra ((days + 719468) % 146097) / 4 -
      yearOfEra ((days + 719468) % 146097) / 100) := rfl
  rw [civilFromDays_eq]
  generalize yearOfEra ((days + 719468) % 146097) = year at *
  generalize dayOfYear ((days + 719468) % 146097) = day at *
  obtain ⟨hyear₀, hyear₁, hday₀, hday₁, -⟩ := hera
  have hdiv : (year + (days + 719468) / 146097 * 400) / 400 = (days + 719468) / 146097 := by omega
  have hmod : (year + (days + 719468) / 146097 * 400) % 400 = year := by omega
  split
  · simp only [daysFromCivil]
    rw [if_neg (by omega), if_neg (by omega), hdiv, hmod]
    omega
  · simp only [daysFromCivil]
    rw [if_pos (by omega), if_pos (by omega), Int.add_sub_cancel, hdiv, hmod]
    omega

end RocketWatcher
