import Dinero.Strftime

/-!
# Dinero.TimeTexts

Times as texts, `%Y-%m-%d %H:%M:%S`.

Fields of fixed width, the greatest first: the texts sort like the times as long
as the years have four digits.
-/

namespace Dinero.Strftime

open Numerals

/-! ## digits in order -/

theorem append_lt_append_iff {a b r s : List Char} (h : a.length = b.length) :
    a ++ r < b ++ s ↔ a < b ∨ a = b ∧ r < s := by
  induction a generalizing b with
  | nil =>
    obtain rfl : b = [] := List.length_eq_zero_iff.mp h.symm
    simp
  | cons c a ih =>
    obtain ⟨d, b, rfl⟩ := List.exists_cons_of_length_eq_add_one h.symm
    rw [List.cons_append, List.cons_append, List.cons_lt_cons_iff, List.cons_lt_cons_iff,
      ih (by simpa using h)]
    simp only [List.cons.injEq]
    tauto

/-- Digits of one width sort like the numbers they stand for. -/
theorem digits_lt_iff {ds es : List Char} (hds : ∀ c ∈ ds, c.isDigit = true)
    (hes : ∀ c ∈ es, c.isDigit = true) (h : ds.length = es.length) :
    ds < es ↔ number ds < number es := by
  induction ds generalizing es with
  | nil =>
    obtain rfl : es = [] := List.length_eq_zero_iff.mp h.symm
    simp
  | cons c ds ih =>
    obtain ⟨d, es, rfl⟩ := List.exists_cons_of_length_eq_add_one h.symm
    have hlength : ds.length = es.length := by simpa using h
    have hc := isDigit_range (hds c (.head ds))
    have hd := isDigit_range (hes d (.head es))
    have hrest := number_lt fun x hx => hds x (.tail c hx)
    have hrest' := number_lt fun x hx => hes x (.tail d hx)
    rw [List.cons_lt_cons_iff, ih (fun x hx => hds x (.tail c hx)) (fun x hx => hes x (.tail d hx))
      hlength, number_cons, number_cons, hlength]
    rw [hlength] at hrest
    have hchar : c < d ↔ c.toNat < d.toNat := Iff.rfl
    have hsame : c = d ↔ c.toNat = d.toNat := Char.toNat_inj.symm
    rw [hchar, hsame]
    obtain hlt | heq | hgt := Nat.lt_trichotomy c.toNat d.toNat
    · have hnext := Nat.mul_le_mul_right (10 ^ es.length)
        (show c.toNat - 48 + 1 ≤ d.toNat - 48 by omega)
      rw [Nat.succ_mul] at hnext
      omega
    · rw [heq]
      omega
    · have hnext := Nat.mul_le_mul_right (10 ^ es.length)
        (show d.toNat - 48 + 1 ≤ c.toNat - 48 by omega)
      rw [Nat.succ_mul] at hnext
      omega

theorem padded_append_lt {width n m : Nat} {r s : List Char} (hwidth : 0 < width)
    (hn : n < 10 ^ width) (hm : m < 10 ^ width) :
    padded width n ++ r < padded width m ++ s ↔ n < m ∨ n = m ∧ r < s := by
  obtain ⟨hdigits, hlength, hnumber⟩ := padded_spec hwidth hn
  obtain ⟨hdigits', hlength', hnumber'⟩ := padded_spec hwidth hm
  have hinj : padded width n = padded width m ↔ n = m := by
    constructor
    · intro h
      rw [← hnumber, ← hnumber', h]
    · rintro rfl
      rfl
  rw [append_lt_append_iff (hlength.trans hlength'.symm), digits_lt_iff hdigits.digits
    hdigits'.digits (hlength.trans hlength'.symm), hnumber, hnumber', hinj]

/-! ## the text of a time -/

/-- `%Y` with its sign. -/
def printedYear (y : Int) : List Char :=
  if 0 ≤ y ∧ y ≤ 9999 then padded 4 y.toNat
  else if y < 0 then '-' :: padded 4 (-y).toNat
  else '+' :: padded 4 y.toNat

/-- `%Y-%m-%d %H:%M:%S`. -/
def timeText (t : Int) : List Char :=
  let (y, m, d) := civil (dateOf t)
  let second := t % 86400
  printedYear y ++ '-' :: (padded 2 m.toNat ++ '-' :: (padded 2 d.toNat ++ ' ' ::
    (padded 2 (second / 3600).toNat ++ ':' :: (padded 2 (second / 60 % 60).toNat ++ ':' ::
      padded 2 (second % 60).toNat))))

example : String.ofList (timeText 951827696) = "2000-02-29 12:34:56" := by decide +kernel

/-- The fields of a time. -/
structure Fields (t y m d h i s : Int) : Prop where
  civil : civil (dateOf t) = (y, m, d)
  month : 1 ≤ m ∧ m ≤ 12
  day : 1 ≤ d ∧ d ≤ 31
  hour : 0 ≤ h ∧ h < 24
  minute : 0 ≤ i ∧ i < 60
  second : 0 ≤ s ∧ s < 60
  time : t = 86400 * (firstDay (Month.serial ⟨y, m⟩) + d - 1) + 3600 * h + 60 * i + s
  text : timeText t = printedYear y ++ '-' :: (padded 2 m.toNat ++ '-' :: (padded 2 d.toNat ++ ' ' ::
    (padded 2 h.toNat ++ ':' :: (padded 2 i.toNat ++ ':' :: padded 2 s.toNat))))

theorem exists_fields (t : Int) : ∃ y m d h i s : Int, Fields t y m d h i s := by
  have hmonth : monthOf t = ⟨(civil (dateOf t)).1, (civil (dateOf t)).2.1⟩ := rfl
  obtain ⟨hvalid, hfirst, hlast⟩ := civil_spec t
  have hday := civil_day (dateOf t)
  have hsucc := firstDay_succ_le (monthOf t).serial
  rw [hmonth] at hvalid hfirst hlast hsucc
  have hdate : dateOf t = t / 86400 := rfl
  refine ⟨(civil (dateOf t)).1, (civil (dateOf t)).2.1, (civil (dateOf t)).2.2, t % 86400 / 3600,
    t % 86400 / 60 % 60, t % 86400 % 60, rfl, hvalid, by omega, by omega, by omega, by omega, ?_,
    rfl⟩
  rw [hday, hdate]
  omega

section Fields

variable {t u y m d h i s y' m' d' h' i' s' : Int}

theorem Fields.monthOf_eq (ht : Fields t y m d h i s) : monthOf t = ⟨y, m⟩ := by
  rw [monthOf, ht.civil]

/-- Field by field, the greatest first. -/
theorem Fields.lt_iff (ht : Fields t y m d h i s) (hu : Fields u y' m' d' h' i' s') :
    t < u ↔ y < y' ∨ y = y' ∧ (m < m' ∨ m = m' ∧ (d < d' ∨ d = d' ∧ (h < h' ∨ h = h' ∧
      (i < i' ∨ i = i' ∧ s < s')))) := by
  obtain ⟨-, hfirst, hlast⟩ := civil_spec t
  obtain ⟨-, hfirst', hlast'⟩ := civil_spec u
  rw [ht.monthOf_eq] at hfirst hlast
  rw [hu.monthOf_eq] at hfirst' hlast'
  have ⟨hm, hm'⟩ := And.intro ht.month hu.month
  have ⟨hh, hh'⟩ := And.intro ht.hour hu.hour
  have ⟨hi, hi'⟩ := And.intro ht.minute hu.minute
  have ⟨hs, hs'⟩ := And.intro ht.second hu.second
  have htime := ht.time
  have htime' := hu.time
  have hserial : Month.serial ⟨y, m⟩ = 12 * y + m - 3 := rfl
  have hserial' : Month.serial ⟨y', m'⟩ = 12 * y' + m' - 3 := rfl
  unfold dateOf at hfirst hlast hfirst' hlast'
  obtain hlt | heq | hgt := Int.lt_trichotomy (Month.serial ⟨y, m⟩) (Month.serial ⟨y', m'⟩)
  · have hmono : firstDay (Month.serial ⟨y, m⟩ + 1) ≤ firstDay (Month.serial ⟨y', m'⟩) :=
      firstDay_mono hlt
    omega
  · rw [heq] at htime
    omega
  · have hmono : firstDay (Month.serial ⟨y', m'⟩ + 1) ≤ firstDay (Month.serial ⟨y, m⟩) :=
      firstDay_mono hgt
    omega

/-- **The texts sort like the times**, for years of four digits. -/
theorem timeText_lt_iff (ht : 0 ≤ (monthOf t).year ∧ (monthOf t).year ≤ 9999)
    (hu : 0 ≤ (monthOf u).year ∧ (monthOf u).year ≤ 9999) : timeText t < timeText u ↔ t < u := by
  obtain ⟨y, m, d, h, i, s, hf⟩ := exists_fields t
  obtain ⟨y', m', d', h', i', s', hf'⟩ := exists_fields u
  rw [hf.monthOf_eq] at ht
  rw [hf'.monthOf_eq] at hu
  dsimp only at ht hu
  have ⟨hm, hm'⟩ := And.intro hf.month hf'.month
  have ⟨hd, hd'⟩ := And.intro hf.day hf'.day
  have ⟨hh, hh'⟩ := And.intro hf.hour hf'.hour
  have ⟨hi, hi'⟩ := And.intro hf.minute hf'.minute
  have ⟨hs, hs'⟩ := And.intro hf.second hf'.second
  have hlast : padded 2 s.toNat < padded 2 s'.toNat ↔ s.toNat < s'.toNat := by
    have happ := @padded_append_lt 2 s.toNat s'.toNat [] [] (by decide) (by omega) (by omega)
    simpa using happ
  rw [hf.lt_iff hf', hf.text, hf'.text, printedYear, printedYear, if_pos ht, if_pos hu,
    padded_append_lt (by decide) (by omega) (by omega), List.cons_lt_cons_iff,
    padded_append_lt (by decide) (by omega) (by omega), List.cons_lt_cons_iff,
    padded_append_lt (by decide) (by omega) (by omega), List.cons_lt_cons_iff,
    padded_append_lt (by decide) (by omega) (by omega), List.cons_lt_cons_iff,
    padded_append_lt (by decide) (by omega) (by omega), List.cons_lt_cons_iff, hlast]
  simp only [Char.lt_irrefl, false_or, true_and]
  omega

end Fields

end Dinero.Strftime
