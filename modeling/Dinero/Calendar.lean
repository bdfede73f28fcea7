import Dinero.Extern
import Mathlib.Tactic.Common

/-!
# Dinero.Calendar

The Gregorian calendar, in days since 1970.

Months are numbered from March of year 0 on, so that leap days end a year.
`monthOf_eq_iff` says that a month is an interval of days.
-/

namespace Dinero

/-- Year, month and day of a date in the Gregorian calendar. -/
def civil (date : Int) : Int × Int × Int :=
  -- 400 years have 146097 days; years begin in March, so that leap days end them
  let day := date + 719468
  let ofEra := day % 146097
  let yearOfEra := (ofEra - ofEra / 1460 + ofEra / 36524 - ofEra / 146096) / 365
  let ofYear := ofEra - (365 * yearOfEra + yearOfEra / 4 - yearOfEra / 100)
  let m := (5 * ofYear + 2) / 153
  let month := if m < 10 then m + 3 else m - 9
  let year := day / 146097 * 400 + yearOfEra
  (if month ≤ 2 then year + 1 else year, month, ofYear - (153 * m + 2) / 5 + 1)

/-- A calendar month. -/
structure Month where
  year : Int
  month : Int
deriving DecidableEq, Repr

def monthOf (t : Int) : Month := ⟨(civil (dateOf t)).1, (civil (dateOf t)).2.1⟩

/-! ## months as intervals -/

/-- There is such a month. -/
def Month.Valid (m : Month) : Prop := 1 ≤ m.month ∧ m.month ≤ 12

instance (m : Month) : Decidable m.Valid := inferInstanceAs (Decidable (_ ∧ _))

/-- The number of a month, counted from March of year 0. -/
def Month.serial (m : Month) : Int := 12 * m.year + m.month - 3

/-- The days from March of year 0 to March of another. -/
def daysBefore (year : Int) : Int := 365 * year + year / 4 - year / 100 + year / 400

/-- The first day of the month of that number. -/
def firstDay (serial : Int) : Int :=
  daysBefore (serial / 12) + (153 * (serial % 12) + 2) / 5 - 719468

theorem Month.serial_injective {m m' : Month} (h : m.Valid) (h' : m'.Valid)
    (heq : m.serial = m'.serial) : m = m' := by
  obtain ⟨year, month⟩ := m
  obtain ⟨year', month'⟩ := m'
  simp only [Valid, serial] at h h' heq
  have hyear : year = year' := by omega
  have hmonth : month = month' := by omega
  rw [hyear, hmonth]

/-- Every month has a day. -/
theorem firstDay_lt_succ (n : Int) : firstDay n < firstDay (n + 1) := by
  unfold firstDay daysBefore
  by_cases hlast : n % 12 = 11
  · have hnext : (n + 1) / 12 = n / 12 + 1 := by omega
    have hmarch : (n + 1) % 12 = 0 := by omega
    rw [hnext, hmarch, hlast]
    omega
  · have hsame : (n + 1) / 12 = n / 12 := by omega
    have hnext : (n + 1) % 12 = n % 12 + 1 := by omega
    rw [hsame, hnext]
    omega

theorem firstDay_mono {m n : Int} (h : m ≤ n) : firstDay m ≤ firstDay n := by
  obtain ⟨k, rfl⟩ : ∃ k : Nat, n = m + k := ⟨(n - m).toNat, by omega⟩
  clear h
  induction k with
  | zero => simp
  | succ k ih =>
    have hnext := firstDay_lt_succ (m + k)
    rw [Int.natCast_succ, ← Int.add_assoc]
    omega

/-- The year of a day of the era, as `civil` finds it. -/
theorem yearOfEra_spec {ofEra year : Int} (h₀ : 0 ≤ ofEra) (h₁ : ofEra < 146097)
    (hyear : year = (ofEra - ofEra / 1460 + ofEra / 36524 - ofEra / 146096) / 365) :
    0 ≤ year ∧ year ≤ 399 ∧ daysBefore year ≤ ofEra ∧ ofEra < daysBefore (year + 1) := by
  unfold daysBefore
  by_cases hlast : ofEra = 146096
  · have hend : year = 399 := by omega
    subst hlast hend
    decide
  · -- century, four years of it, and day of these
    obtain ⟨c, q, r, hday, hc₀, hc₃, hq₀, hq, hr₀, hr, hcentury⟩ : ∃ c q r : Int,
        ofEra = 36524 * c + 1461 * q + r ∧ 0 ≤ c ∧ c ≤ 3 ∧ 0 ≤ q ∧ q ≤ 24 ∧ 0 ≤ r ∧ r ≤ 1460 ∧
          (q = 24 → r ≤ 1459) :=
      ⟨ofEra / 36524, ofEra % 36524 / 1461, ofEra % 36524 % 1461, by omega⟩
    have hcenturies : ofEra / 36524 = c := by omega
    have hera : ofEra / 146096 = 0 := by omega
    obtain ⟨leap, hleap⟩ : ∃ leap, leap = (24 * c + q + r) / 1460 := ⟨_, rfl⟩
    have hfours : ofEra / 1460 = 25 * c + q + leap := by omega
    rw [hcenturies, hera, hfours, hday] at hyear
    obtain ⟨k, hk⟩ : ∃ k, k = (r - leap) / 365 := ⟨_, rfl⟩
    have hleap₁ : 0 ≤ leap ∧ leap ≤ 1 := by omega
    have hk₃ : 0 ≤ k ∧ k ≤ 3 := by omega
    have hsum : year = 100 * c + 4 * q + k := by omega
    have hwithin : 365 * k ≤ r ∧ r < 365 * (k + 1) + (if k = 3 ∧ q ≠ 24 then 1 else 0) := by
      clear hyear hday hcenturies hera hfours hlast h₀ h₁
      split <;> omega
    clear hyear hcenturies hera hfours hlast h₀ h₁ hk hleap hleap₁
    have hfour : year / 4 = 25 * c + q := by omega
    have hhundred : year / 100 = c := by omega
    have hera : year / 400 = 0 := by omega
    refine ⟨by omega, by omega, by omega, ?_⟩
    by_cases hk' : k = 3
    · have hfour' : (year + 1) / 4 = 25 * c + q + 1 := by omega
      by_cases hq' : q = 24
      · have hhundred' : (year + 1) / 100 = c + 1 := by omega
        have hera' : 0 ≤ (year + 1) / 400 := by omega
        simp only [hk', hq'] at hwithin
        omega
      · have hhundred' : (year + 1) / 100 = c := by omega
        have hera' : (year + 1) / 400 = 0 := by omega
        simp only [hk', hq', ne_eq, not_false_eq_true, and_self, if_true] at hwithin
        omega
    · have hfour' : (year + 1) / 4 = 25 * c + q := by omega
      have hhundred' : (year + 1) / 100 = c := by omega
      have hera' : (year + 1) / 400 = 0 := by omega
      simp only [hk', false_and, if_false] at hwithin
      omega

/-- Eras are alike. -/
theorem daysBefore_era (era year : Int) :
    daysBefore (era * 400 + year) = era * 146097 + daysBefore year := by
  unfold daysBefore
  have hfour : (era * 400 + year) / 4 = era * 100 + year / 4 := by omega
  have hhundred : (era * 400 + year) / 100 = era * 4 + year / 100 := by omega
  have hera : (era * 400 + year) / 400 = era + year / 400 := by omega
  rw [hfour, hhundred, hera]
  omega

theorem daysBefore_succ_le (year : Int) : daysBefore (year + 1) ≤ daysBefore year + 366 := by
  unfold daysBefore
  have hfours : ∀ y : Int, y / 100 = y / 4 / 25 := fun y => by omega
  have hhundreds : ∀ y : Int, y / 400 = y / 4 / 25 / 4 := fun y => by omega
  rw [hfours year, hhundreds year, hfours (year + 1), hhundreds (year + 1)]
  omega

/-- The month of a day of a year that begins in March. -/
theorem monthOfYear_spec {ofYear m : Int} (h₀ : 0 ≤ ofYear) (h₁ : ofYear ≤ 365)
    (hm : m = (5 * ofYear + 2) / 153) :
    0 ≤ m ∧ m ≤ 11 ∧ (153 * m + 2) / 5 ≤ ofYear ∧
      (m < 11 → ofYear < (153 * (m + 1) + 2) / 5) := by
  omega

/-- A date is a day of a month of a year that begins in March. -/
theorem civil_parts (date : Int) : ∃ years m ofYear : Int, 0 ≤ m ∧ m ≤ 11 ∧
    civil date = (if (if m < 10 then m + 3 else m - 9) ≤ 2 then years + 1 else years,
      if m < 10 then m + 3 else m - 9, ofYear - (153 * m + 2) / 5 + 1) ∧
    date = daysBefore years + ofYear - 719468 ∧ (153 * m + 2) / 5 ≤ ofYear ∧
    (m < 11 → ofYear < (153 * (m + 1) + 2) / 5) ∧
    daysBefore years + ofYear < daysBefore (years + 1) := by
  obtain ⟨day, hday⟩ : ∃ day, day = date + 719468 := ⟨_, rfl⟩
  obtain ⟨year, hyear⟩ : ∃ year, year = (day % 146097 - day % 146097 / 1460 +
    day % 146097 / 36524 - day % 146097 / 146096) / 365 := ⟨_, rfl⟩
  obtain ⟨ofYear, hofYear⟩ : ∃ ofYear, ofYear = day % 146097 -
    (365 * year + year / 4 - year / 100) := ⟨_, rfl⟩
  obtain ⟨m, hm⟩ : ∃ m, m = (5 * ofYear + 2) / 153 := ⟨_, rfl⟩
  obtain ⟨hyear₀, hyear₁, hfrom, hto⟩ := yearOfEra_spec (by omega) (by omega) hyear
  have hlong := daysBefore_succ_le year
  have hwhole : ofYear = day % 146097 - daysBefore year := by
    unfold daysBefore
    omega
  obtain ⟨hm₀, hm₁, hbegins, hends⟩ := monthOfYear_spec (by omega) (by omega) hm
  have hdays := daysBefore_era (day / 146097) year
  have hnext := daysBefore_era (day / 146097) (year + 1)
  rw [← Int.add_assoc] at hnext
  have hcivil : civil date = (if (if m < 10 then m + 3 else m - 9) ≤ 2 then
      day / 146097 * 400 + year + 1 else day / 146097 * 400 + year,
      if m < 10 then m + 3 else m - 9, ofYear - (153 * m + 2) / 5 + 1) := by
    rw [hm, hofYear, hyear, hday]
    rfl
  exact ⟨day / 146097 * 400 + year, m, ofYear, hm₀, hm₁, hcivil, by omega, hbegins, hends, by omega⟩

/-- The number of the month that `civil_parts` finds. -/
theorem serial_parts {years m : Int} (h₀ : 0 ≤ m) (h₁ : m ≤ 11) :
    Month.serial ⟨if (if m < 10 then m + 3 else m - 9) ≤ 2 then years + 1 else years,
      if m < 10 then m + 3 else m - 9⟩ = 12 * years + m := by
  unfold Month.serial
  dsimp only
  omega

theorem firstDay_parts {years m : Int} (h₀ : 0 ≤ m) (h₁ : m ≤ 11) :
    firstDay (12 * years + m) = daysBefore years + (153 * m + 2) / 5 - 719468 := by
  have hyears : (12 * years + m) / 12 = years := by omega
  have hmonth : (12 * years + m) % 12 = m := by omega
  rw [firstDay, hyears, hmonth]

/-- A day is in the month `civil` gives. -/
theorem civil_spec (t : Int) : (monthOf t).Valid ∧ firstDay (monthOf t).serial ≤ dateOf t ∧
    dateOf t < firstDay ((monthOf t).serial + 1) := by
  obtain ⟨years, m, ofYear, hm₀, hm₁, hcivil, hdate, hbegins, hends, hyear⟩ :=
    civil_parts (dateOf t)
  have hmonth : monthOf t = ⟨if (if m < 10 then m + 3 else m - 9) ≤ 2 then years + 1 else years,
      if m < 10 then m + 3 else m - 9⟩ := by rw [monthOf, hcivil]
  rw [hmonth, serial_parts hm₀ hm₁, firstDay_parts hm₀ hm₁]
  refine ⟨?_, by omega, ?_⟩
  · unfold Month.Valid
    dsimp only
    omega
  · by_cases hfebruary : m = 11
    · have hnext : 12 * years + m + 1 = 12 * (years + 1) + 0 := by omega
      rw [hnext, firstDay_parts (by omega) (by omega)]
      omega
    · rw [Int.add_assoc, firstDay_parts (by omega) (by omega)]
      omega

/-- The day of the month counts from the month's first day. -/
theorem civil_day (date : Int) :
    firstDay (Month.serial ⟨(civil date).1, (civil date).2.1⟩) + (civil date).2.2 - 1 = date := by
  obtain ⟨years, m, ofYear, hm₀, hm₁, hcivil, hdate, -, -, -⟩ := civil_parts date
  rw [hcivil, serial_parts hm₀ hm₁, firstDay_parts hm₀ hm₁]
  dsimp only
  omega

/-- **A month is an interval of days.** -/
theorem monthOf_eq_iff {m : Month} (hm : m.Valid) {t : Int} :
    monthOf t = m ↔ firstDay m.serial ≤ dateOf t ∧ dateOf t < firstDay (m.serial + 1) := by
  obtain ⟨hvalid, hfirst, hlast⟩ := civil_spec t
  constructor
  · rintro rfl
    exact ⟨hfirst, hlast⟩
  · rintro ⟨hfirst', hlast'⟩
    have hbefore : ¬ m.serial + 1 ≤ (monthOf t).serial := by
      intro h
      have hmono := firstDay_mono h
      omega
    have hafter : ¬ (monthOf t).serial + 1 ≤ m.serial := by
      intro h
      have hmono := firstDay_mono h
      omega
    exact Month.serial_injective hvalid hm (by omega)

/-! ## dates by year, month and day -/

/-- `NaiveDate::from_ymd_opt`. -/
def fromYmd (year month day : Int) : Option Int :=
  let m : Month := ⟨year, month⟩
  if -262143 ≤ year ∧ year ≤ 262142 ∧ m.Valid ∧ 1 ≤ day ∧
      firstDay m.serial + day - 1 < firstDay (m.serial + 1) then
    some (firstDay m.serial + day - 1)
  else none

theorem fromYmd_eq_some_iff {year month day date : Int} :
    fromYmd year month day = some date ↔
      -262143 ≤ year ∧ year ≤ 262142 ∧ civil date = (year, month, day) := by
  have hof : dateOf (date * 86400) = date := by
    unfold dateOf
    omega
  have hday := civil_day date
  have hspec := civil_spec (date * 86400)
  have hmonth : monthOf (date * 86400) = ⟨(civil date).1, (civil date).2.1⟩ := by
    rw [monthOf, hof]
  rw [hof, hmonth] at hspec
  rw [fromYmd]
  constructor
  · intro h
    split at h
    · rename_i hcond
      obtain ⟨hlow, hhigh, hvalid, hone, hlast⟩ := hcond
      have hdate := Option.some.inj h
      have hmonth' : monthOf (date * 86400) = ⟨year, month⟩ :=
        (monthOf_eq_iff hvalid).mpr ⟨by rw [hof]; omega, by rw [hof]; omega⟩
      rw [hmonth, Month.mk.injEq] at hmonth'
      rw [hmonth'.1, hmonth'.2] at hday
      have hthird : (civil date).2.2 = day := by omega
      exact ⟨hlow, hhigh, by rw [← hmonth'.1, ← hmonth'.2, ← hthird]⟩
    · exact absurd h (by simp)
  · rintro ⟨hlow, hhigh, hcivil⟩
    rw [hcivil] at hday hspec
    dsimp only at hday hspec
    rw [if_pos ⟨hlow, hhigh, hspec.1, by omega, by omega⟩, hday]

/-- No month has more than 31 days. -/
theorem firstDay_succ_le (n : Int) : firstDay (n + 1) ≤ firstDay n + 31 := by
  unfold firstDay
  by_cases hlast : n % 12 = 11
  · have hnext : (n + 1) / 12 = n / 12 + 1 := by omega
    have hmarch : (n + 1) % 12 = 0 := by omega
    have hyear := daysBefore_succ_le (n / 12)
    rw [hnext, hmarch, hlast]
    omega
  · have hsame : (n + 1) / 12 = n / 12 := by omega
    have hnext : (n + 1) % 12 = n % 12 + 1 := by omega
    rw [hsame, hnext]
    omega

theorem fromYmd_bounds {year month day date : Int} (h : fromYmd year month day = some date) :
    1 ≤ month ∧ month ≤ 12 ∧ 1 ≤ day ∧ day ≤ 31 := by
  rw [fromYmd] at h
  split at h
  · rename_i hcond
    obtain ⟨-, -, hvalid, hone, hlast⟩ := hcond
    have hlong := firstDay_succ_le (Month.serial ⟨year, month⟩)
    exact ⟨hvalid.1, hvalid.2, hone, by omega⟩
  · exact absurd h (by simp)

end Dinero
