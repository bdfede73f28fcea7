import Dinero.RuleSynthesis
import Dinero.AmountReading
import Dinero.DateReading
import Mathlib.Tactic.IntervalCases

/-!
# Dinero.PrintedForms

Printed and read back: every form a rule may be learned from, and what the rule
reads in it later.  The forms of an amount without decimals lose its paise, and
three of the date formats are printed only.
-/

namespace Dinero

open Numerals Strftime

/-! ## groups of digits -/

/-- Groups with commas between them. -/
def joined (groups : List (List Char)) : List Char := (groups.intersperse [',']).flatten

@[simp] theorem joined_singleton (g : List Char) : joined [g] = g := by simp [joined]

@[simp] theorem joined_cons_cons (g h : List Char) (rest : List (List Char)) :
    joined (g :: h :: rest) = g ++ ',' :: joined (h :: rest) := by simp [joined]

theorem joined_concat (groups : List (List Char)) (hne : groups ≠ []) (g : List Char) :
    joined (groups ++ [g]) = joined groups ++ ',' :: g := by
  induction groups with
  | nil => exact absurd rfl hne
  | cons h rest ih =>
    cases rest with
    | nil => simp
    | cons h' rest =>
      have hrest := ih (by simp)
      rw [List.cons_append] at hrest
      simp [hrest]

theorem Grouped.of_digits {ds : List Char} (hds : ∀ c ∈ ds, c.isDigit = true) (hne : ds ≠ []) :
    Grouped ds := by
  induction ds with
  | nil => exact absurd rfl hne
  | cons d rest ih =>
    have hd := hds d (.head rest)
    have hrest : ∀ c ∈ rest, c.isDigit = true := fun c hc => hds c (.tail d hc)
    by_cases hnil : rest = []
    · rw [hnil]
      exact .digit hd
    · exact .cons hd (ih hrest hnil)

theorem Grouped.append_comma {ds w : List Char} (hds : ∀ c ∈ ds, c.isDigit = true) (hne : ds ≠ [])
    (hw : Grouped w) : Grouped (ds ++ ',' :: w) := by
  induction ds with
  | nil => exact absurd rfl hne
  | cons d rest ih =>
    have hd := hds d (.head rest)
    have hrest : ∀ c ∈ rest, c.isDigit = true := fun c hc => hds c (.tail d hc)
    by_cases hnil : rest = []
    · rw [hnil]
      exact .comma hd hw
    · exact .cons hd (ih hrest hnil)

/-- Groups of digits make a number, and keep the digits. -/
theorem joined_grouped {groups : List (List Char)} (hne : groups ≠ [])
    (hgroups : ∀ g ∈ groups, g ≠ [] ∧ ∀ c ∈ g, c.isDigit = true) :
    Grouped (joined groups) ∧ (joined groups).filter Char.isDigit = groups.flatten := by
  induction groups with
  | nil => exact absurd rfl hne
  | cons g rest ih =>
    obtain ⟨hg, hdigits⟩ := hgroups g (.head rest)
    have hfilter := List.filter_eq_self.mpr hdigits
    cases rest with
    | nil => simpa [hfilter] using Grouped.of_digits hdigits hg
    | cons h rest =>
      obtain ⟨hgrouped, hrest⟩ := ih (by simp) fun g' hg' => hgroups g' (.tail g hg')
      rw [joined_cons_cons]
      refine ⟨Grouped.append_comma hdigits hg hgrouped, ?_⟩
      simp [hfilter, hrest]

/-- Three digits last, then twos, and one or two digits first; or no more than three digits. -/
inductive IndianGroups : List (List Char) → Prop
  | short {g : List Char} : g.length ≤ 3 → IndianGroups [g]
  | long {first last : List Char} {twos : List (List Char)} : 1 ≤ first.length →
      first.length ≤ 2 → (∀ g ∈ twos, g.length = 2) → last.length = 3 →
      IndianGroups (first :: (twos ++ [last]))

/-- The groups that `indianGroup` makes. -/
def indianGroups (ds : List Char) : List (List Char) :=
  if ds.length ≤ 3 then [ds]
  else (pairGroups (ds.take (ds.length - 3)).reverse).reverse ++ [ds.drop (ds.length - 3)]

theorem pairGroups_spec (rev : List Char) (hne : rev ≠ []) :
    ∃ twos first, pairGroups rev = twos ++ [first] ∧ (∀ g ∈ twos, g.length = 2) ∧
      1 ≤ first.length ∧ first.length ≤ 2 ∧ (twos ++ [first]).reverse.flatten = rev.reverse := by
  fun_induction pairGroups rev with
  | case1 a b c rest ih =>
    obtain ⟨twos, first, heq, htwos, hlow, hhigh, hflatten⟩ := ih (by simp)
    refine ⟨[b, a] :: twos, first, by rw [heq]; rfl, by simpa using htwos, hlow, hhigh, ?_⟩
    have hrest : (twos ++ [first]).reverse.flatten ++ [b, a] = rest.reverse ++ [c] ++ [b, a] := by
      rw [hflatten, List.reverse_cons]
    simpa using hrest
  | case2 => exact absurd rfl hne
  | case3 short hlong hnil =>
    match short with
    | [] => exact absurd rfl hne
    | [a] => exact ⟨[], [a], rfl, by simp, by simp, by simp, rfl⟩
    | [a, b] => exact ⟨[], [b, a], rfl, by simp, by simp, by simp, rfl⟩
    | a :: b :: c :: rest => exact absurd rfl (hlong a b c rest)

theorem indianGroups_spec (ds : List Char) :
    IndianGroups (indianGroups ds) ∧ (indianGroups ds).flatten = ds ∧
      joined (indianGroups ds) = indianGroup ds := by
  rw [indianGroups, indianGroup]
  by_cases hshort : ds.length ≤ 3
  · simp [hshort, IndianGroups.short hshort]
  · have hne : (ds.take (ds.length - 3)).reverse ≠ [] := by
      intro h
      have hlength := congrArg List.length h
      rw [List.length_reverse, List.length_take, List.length_nil] at hlength
      omega
    obtain ⟨twos, first, heq, htwos, hlow, hhigh, hflatten⟩ := pairGroups_spec _ hne
    have hlast : (ds.drop (ds.length - 3)).length = 3 := by
      rw [List.length_drop]
      omega
    have hgroups : (twos ++ [first]).reverse = first :: twos.reverse := by simp
    have hsome : (twos ++ [first]).reverse ≠ [] := by simp
    rw [if_neg hshort, if_neg hshort]
    dsimp only
    rw [heq]
    refine ⟨?_, ?_, ?_⟩
    · rw [hgroups]
      exact .long hlow hhigh (by simpa using htwos) hlast
    · rw [List.flatten_append, hflatten]
      simp
    · exact joined_concat _ hsome _

/-! ## amounts -/

theorem IndianGroups.ne_nil {groups : List (List Char)} (h : IndianGroups groups)
    (hsome : groups.flatten ≠ []) : ∀ g ∈ groups, g ≠ [] := by
  cases h with
  | short hlength => simpa using hsome
  | @long first last twos hlow hhigh htwos hlast =>
    intro g hg hnil
    rw [hnil] at hg
    simp only [List.mem_cons, List.mem_append, List.not_mem_nil, or_false] at hg
    obtain hfirst | hmem | hmem := hg
    · rw [← hfirst] at hlow
      simp at hlow
    · exact absurd (htwos _ hmem) (by simp)
    · rw [← hmem] at hlast
      simp at hlast

/-- Grouping makes a number of digits, and keeps them. -/
theorem indianGroup_grouped {ds : List Char} (hds : ∀ c ∈ ds, c.isDigit = true) (hne : ds ≠ []) :
    Grouped (indianGroup ds) ∧ (indianGroup ds).filter Char.isDigit = ds := by
  obtain ⟨hgroups, hflatten, hjoined⟩ := indianGroups_spec ds
  have hsome : indianGroups ds ≠ [] := by
    intro h
    rw [h] at hflatten
    exact hne hflatten.symm
  have hall : ∀ g ∈ indianGroups ds, g ≠ [] ∧ ∀ c ∈ g, c.isDigit = true := by
    intro g hg
    refine ⟨hgroups.ne_nil (by rw [hflatten]; exact hne) g hg, fun c hc => hds c ?_⟩
    rw [← hflatten]
    exact List.mem_flatten_of_mem hg hc
  have hgrouped := joined_grouped hsome hall
  rwa [hjoined, hflatten] at hgrouped

/-- What a form of an amount has in front of its decimals, if it has any. -/
structure WholePart (n : Nat) (whole : List Char) : Prop where
  grouped : Grouped whole
  digits : whole.filter Char.isDigit = Nat.toDigits 10 (n / 100)

/-- The number that a form of an amount prints. -/
def WholePart.numeral {n : Nat} {whole decimals : List Char} (h : WholePart n whole)
    (hdecimals : ∀ c ∈ decimals, c.isDigit = true) : Numeral where
  whole := whole
  decimals := decimals
  grouped := .inr h.grouped
  digits := hdecimals
  nonempty := fun hnil => absurd hnil h.grouped.ne_nil

theorem WholePart.numeral_value {n : Nat} {whole decimals : List Char} (h : WholePart n whole)
    (hdecimals : ∀ c ∈ decimals, c.isDigit = true) : (h.numeral hdecimals).value =
      ((n / 100 : Nat) : ℚ) + number decimals / 10 ^ decimals.length := by
  have hwhole : (h.numeral hdecimals).wholeDigits = Nat.toDigits 10 (n / 100) := h.digits
  rw [Numeral.value, hwhole, number_toDigits]
  rfl

theorem mem_printedAmounts {n : Nat} {form : List Char} (h : form ∈ printedAmounts n) :
    ∃ whole, WholePart n whole ∧ (form = whole ∨ form =
      whole ++ '.' :: [Nat.digitChar (n % 100 / 10), Nat.digitChar (n % 100 % 10)]) := by
  have habs : absI64 n = n := by
    rw [absI64, if_neg (by omega)]
    rfl
  have hwhole : (n : Int).tdiv 100 = ((n / 100 : Nat) : Int) := rfl
  have hfrac : (n : Int).tmod 100 = ((n % 100 : Nat) : Int) := rfl
  have hlt : n % 100 < 100 := Nat.mod_lt n (by decide)
  have hdigits : ∀ c ∈ Nat.toDigits 10 (n / 100), c.isDigit = true :=
    fun c hc => Nat.isDigit_of_mem_toDigits (by decide) (by decide) hc
  have hne : Nat.toDigits 10 (n / 100) ≠ [] := Nat.toDigits_ne_nil
  have hplain : WholePart n (Nat.toDigits 10 (n / 100)) :=
    ⟨Grouped.of_digits hdigits hne, List.filter_eq_self.mpr hdigits⟩
  have hindian : WholePart n (indianGroup (Nat.toDigits 10 (n / 100))) :=
    ⟨(indianGroup_grouped hdigits hne).1, (indianGroup_grouped hdigits hne).2⟩
  rw [printedAmounts, habs, hwhole, hfrac, toList_natCast, pad2_natCast hlt] at h
  have hmem := (List.destutter_sublist _ _).subset h
  simp only [List.mem_cons, List.not_mem_nil, or_false] at hmem
  obtain rfl | rfl | rfl | rfl := hmem
  · exact ⟨_, hindian, .inr rfl⟩
  · exact ⟨_, hplain, .inr rfl⟩
  · exact ⟨_, hindian, .inl rfl⟩
  · exact ⟨_, hplain, .inl rfl⟩

section Amounts

variable [RuleTexts] [DigitsAreNoLetters]

/-- A form with its decimals is read as the amount, and one without as its whole rupees. -/
theorem readExact_form {n : Nat} (hmax : (n : ℚ) ≤ maxPlausibleAmountMinor) {form : List Char}
    (h : form ∈ printedAmounts n) :
    readExact form = some (if '.' ∈ form then (n : Int) else (n / 100 : Nat) * 100) := by
  obtain ⟨whole, hwhole, hform⟩ := mem_printedAmounts h
  have hlt : n % 100 < 100 := Nat.mod_lt n (by decide)
  have hdot : '.' ∉ whole := by
    intro hmem
    exact absurd (hwhole.grouped.mem _ hmem) (by decide)
  have hsplit : n / 100 * 100 + n % 100 = n := by omega
  have hcast : ((n / 100 : Nat) : ℚ) * 100 + ((n % 100 : Nat) : ℚ) = n := by exact_mod_cast hsplit
  have hrest : (0 : ℚ) ≤ ((n % 100 : Nat) : ℚ) := Nat.cast_nonneg _
  obtain rfl | rfl := hform
  · have hnone : ∀ c ∈ ([] : List Char), c.isDigit = true := by simp
    have htext : (hwhole.numeral hnone).text = form := List.append_nil form
    have hvalue : (hwhole.numeral hnone).value = ((n / 100 : Nat) : ℚ) := by
      rw [hwhole.numeral_value]
      simp
    have hread : readExact (hwhole.numeral hnone).text = _ :=
      readExact_text hwhole.grouped.ne_nil (by rw [hvalue]; linarith)
    rw [htext, hvalue, minorUnits_natCast] at hread
    rw [hread, if_neg hdot]
  · have htwo : ∀ c ∈ [Nat.digitChar (n % 100 / 10), Nat.digitChar (n % 100 % 10)],
        c.isDigit = true := by
      simp only [List.forall_mem_cons, List.not_mem_nil, false_implies, implies_true, and_true]
      exact ⟨digitChar_isDigit (by omega), digitChar_isDigit (by omega)⟩
    have hvalue : (hwhole.numeral htwo).value * 100 = ((n : Int) : ℚ) := by
      rw [hwhole.numeral_value, number_two hlt, List.length_cons, List.length_singleton]
      push_cast
      linarith
    have hread : readExact (hwhole.numeral htwo).text = _ :=
      readExact_text hwhole.grouped.ne_nil (by rw [hvalue]; exact hmax)
    rw [minorUnits_of_mul hvalue] at hread
    rw [if_pos (by simp)]
    exact hread

end Amounts

/-! ## dates -/

/-- A date of the years 2000 to 2068. -/
structure Modern (date : Int) : Prop where
  low : 2000 ≤ (civil date).1
  high : (civil date).1 ≤ 2068

/-! ### printed -/

def dayText (date : Int) : List Char := padded 2 (civil date).2.2.toNat

def monthText (date : Int) : List Char := padded 2 (civil date).2.1.toNat

def yearText (date : Int) : List Char := padded 4 (civil date).1.toNat

def shortYearText (date : Int) : List Char := padded 2 ((civil date).1 % 100).toNat

def nameText (date : Int) : List Char :=
  capitalized ((monthNames.getD ((civil date).2.1.toNat - 1) []).take 3)

section Printed

variable {date : Int} {pieces : List Item}

theorem formatDate_eq {format : List Char} (hitems : items format = some pieces) :
    Strftime.formatDate date format = printAll date pieces := by
  rw [Strftime.formatDate, hitems, Option.bind_some]

@[simp] theorem printAll_nil : printAll date [] = some [] := rfl

@[simp] theorem printAll_literal (c : Char) :
    printAll date (.literal c :: pieces) = (printAll date pieces).map (c :: ·) := rfl

@[simp] theorem printAll_space :
    printAll date (.space :: pieces) = (printAll date pieces).map (' ' :: ·) := rfl

@[simp] theorem printAll_day :
    printAll date (.day :: pieces) = (printAll date pieces).map (dayText date ++ ·) := rfl

@[simp] theorem printAll_month :
    printAll date (.month :: pieces) = (printAll date pieces).map (monthText date ++ ·) := rfl

@[simp] theorem printAll_year2 :
    printAll date (.year2 :: pieces) = (printAll date pieces).map (shortYearText date ++ ·) := rfl

@[simp] theorem printAll_shortMonth :
    printAll date (.shortMonth :: pieces) = (printAll date pieces).map (nameText date ++ ·) := rfl

theorem Modern.printAll_year (h : Modern date) :
    printAll date (.year :: pieces) = (printAll date pieces).map (yearText date ++ ·) := by
  have hlow := h.low
  have hhigh := h.high
  rw [printAll, Item.print]
  dsimp only
  rw [if_pos (by omega)]
  rfl

end Printed

/-! ### the parts of a date -/

namespace Modern

variable {date : Int}

/-- The date is that of its parts. -/
theorem parts (h : Modern date) : ∃ year month day : Nat,
    civil date = ((year : Int), (month : Int), (day : Int)) ∧ 2000 ≤ year ∧ year ≤ 2068 ∧ 1 ≤ month ∧ month ≤ 12 ∧ 1 ≤ day ∧ day ≤ 31 ∧
      fromYmd year month day = some date := by
  have hlow := h.low
  have hhigh := h.high
  obtain ⟨⟨y, m, d⟩, hcivil⟩ : ∃ ymd, civil date = ymd := ⟨_, rfl⟩
  rw [hcivil] at hlow hhigh
  dsimp only at hlow hhigh
  have hdate : fromYmd y m d = some date :=
    fromYmd_eq_some_iff.mpr ⟨by omega, by omega, hcivil⟩
  have hbounds := fromYmd_bounds hdate
  have hy : ((y.toNat : Nat) : Int) = y := Int.toNat_of_nonneg (by omega)
  have hm : ((m.toNat : Nat) : Int) = m := Int.toNat_of_nonneg (by omega)
  have hd : ((d.toNat : Nat) : Int) = d := Int.toNat_of_nonneg (by omega)
  refine ⟨y.toNat, m.toNat, d.toNat, ?_, by omega, by omega, by omega, by omega, by omega,
    by omega, ?_⟩
  · rw [hcivil, hy, hm, hd]
  · rw [hy, hm, hd]
    exact hdate

theorem day_digits (h : Modern date) : Digits 2 (dayText date) := by
  obtain ⟨year, month, day, hcivil, -, -, -, -, -, hday, -⟩ := h.parts
  rw [dayText, hcivil]
  exact (padded_spec (by decide) (by simp; omega)).1

theorem month_digits (h : Modern date) : Digits 2 (monthText date) := by
  obtain ⟨year, month, day, hcivil, -, -, -, hmonth, -, -, -⟩ := h.parts
  rw [monthText, hcivil]
  exact (padded_spec (by decide) (by simp; omega)).1

theorem year_digits (h : Modern date) :
    Digits 4 (yearText date) ∧ (yearText date).length = 4 := by
  obtain ⟨year, month, day, hcivil, -, hyear, -⟩ := h.parts
  have hspec := @padded_spec 4 year (by decide) (by omega)
  rw [yearText, hcivil]
  exact ⟨hspec.1, hspec.2.1⟩

theorem shortYear_digits (h : Modern date) :
    Digits 2 (shortYearText date) ∧ (shortYearText date).length = 2 := by
  obtain ⟨year, month, day, hcivil, -, hyear, -⟩ := h.parts
  have hspec := @padded_spec 2 (year % 100) (by decide) (by omega)
  rw [shortYearText, hcivil]
  exact ⟨hspec.1, hspec.2.1⟩

/-- Read with the year in two digits or in four, the parts are the date. -/
theorem toDate (h : Modern date) {y : List Char}
    (hy : y = yearText date ∨ y = shortYearText date) :
    ∃ year, (dayFirst (dayText date) (monthText date) y).fullYear = some year ∧
      fromYmd year (number (monthText date)) (number (dayText date)) = some date := by
  have hlong := h.year_digits.2
  have hshort := h.shortYear_digits.2
  obtain ⟨year, month, day, hcivil, hlow, hhigh, -, hmonth, -, hday, hdate⟩ := h.parts
  have hnumberDay : number (dayText date) = day := by
    rw [dayText, hcivil]
    exact (padded_spec (by decide) (by simp; omega)).2.2
  have hnumberMonth : number (monthText date) = month := by
    rw [monthText, hcivil]
    exact (padded_spec (by decide) (by simp; omega)).2.2
  refine ⟨year, ?_, by rw [hnumberDay, hnumberMonth]; exact hdate⟩
  obtain rfl | rfl := hy
  · have hnumber : number (yearText date) = year := by
      rw [yearText, hcivil]
      exact (padded_spec (by decide) (by simp; omega)).2.2
    rw [dayFirst, if_neg (by omega), hnumber]
    rfl
  · have hnumber : number (shortYearText date) = year - 2000 := by
      have hmod : ((year : Int) % 100).toNat = year - 2000 := by omega
      rw [shortYearText, hcivil]
      dsimp only
      rw [hmod]
      exact (padded_spec (by decide) (by omega)).2.2
    rw [dayFirst, if_pos hshort.le, hnumber, Parsed.fullYear]
    dsimp only
    rw [if_pos (by omega)]
    exact congrArg some (by omega)

/-- The short name begins with a letter and is read as its month. -/
theorem name_spec (h : Modern date) : (∃ c rest, nameText date = c :: rest ∧ c.isAlpha = true) ∧
    ∀ rest, name? monthNames (nameText date ++ rest) =
      some (number (monthText date) - 1, rest) := by
  obtain ⟨year, month, day, hcivil, -, -, hlow, hhigh, -⟩ := h.parts
  have hnumber : number (monthText date) = month := by
    rw [monthText, hcivil]
    exact (padded_spec (by decide) (by simp; omega)).2.2
  rw [hnumber, nameText, hcivil, Int.toNat_natCast]
  clear hnumber hcivil
  interval_cases month <;> exact ⟨⟨_, _, rfl, by decide⟩, fun rest => rfl⟩

end Modern

/-! ### read -/

section Read

variable {white : Char → Bool} {date : Int} {pieces : List Item} {y : List Char}

/-- A month's short name is read as the month. -/
theorem Modern.readAll_name (h : Modern date) (rest : List Char) (p : Parsed) :
    readAll white (.shortMonth :: pieces) (nameText date ++ rest) p =
      readAll white pieces rest { p with month := some (number (monthText date)) } := by
  obtain ⟨-, hread⟩ := h.name_spec
  obtain ⟨_, -, hdate⟩ := h.toDate (.inl rfl)
  have hbounds := fromYmd_bounds hdate
  have hmonth : ((number (monthText date) - 1 : Nat) : Int) + 1 = number (monthText date) := by
    omega
  rw [readAll, Item.read, hread, Option.map_some, Option.bind_some]
  dsimp only
  rw [hmonth]

theorem Modern.day_bounds (h : Modern date) :
    1 ≤ number (dayText date) ∧ number (dayText date) ≤ 31 := by
  obtain ⟨_, -, hdate⟩ := h.toDate (.inl rfl)
  have hbounds := fromYmd_bounds hdate
  omega

theorem Modern.month_bounds (h : Modern date) :
    1 ≤ number (monthText date) ∧ number (monthText date) ≤ 12 := by
  obtain ⟨_, -, hdate⟩ := h.toDate (.inl rfl)
  have hbounds := fromYmd_bounds hdate
  omega

/-- The day, the month's name between two dashes, and what is left for the year. -/
theorem Modern.readAll_dashed (h : Modern date) (hwhite : PlainSpace white) :
    readAll white (.day :: .literal '-' :: .shortMonth :: .literal '-' :: pieces)
      (dayText date ++ '-' :: (nameText date ++ '-' :: y)) {} =
      readAll white pieces y
        { day := some (number (dayText date)), month := some (number (monthText date)) } := by
  have hfront : Front 2 (dayText date) ('-' :: (nameText date ++ '-' :: y)) :=
    h.day_digits.front rfl
  rw [readAll_day hwhite hfront, if_pos h.day_bounds, readAll_literal, h.readAll_name,
    readAll_literal]

/-- The day, a blank, the month's name, and what is left. -/
theorem Modern.readAll_spaced (h : Modern date) (hwhite : PlainSpace white) :
    readAll white (.day :: .space :: .shortMonth :: pieces)
      (dayText date ++ ' ' :: (nameText date ++ y)) {} =
      readAll white pieces y
        { day := some (number (dayText date)), month := some (number (monthText date)) } := by
  have hfront : Front 2 (dayText date) (' ' :: (nameText date ++ y)) := h.day_digits.front rfl
  obtain ⟨⟨c, rest, hname, hc⟩, -⟩ := h.name_spec
  have hrange := isAlpha_range hc
  have hletter : white c = false := hwhite.visible c (by omega) (by omega)
  have hdrop : (' ' :: (nameText date ++ y)).dropWhile white = nameText date ++ y := by
    rw [List.dropWhile_cons_of_pos hwhite.blank, hname, List.cons_append, dropWhile_head hletter]
  rw [readAll_day hwhite hfront, if_pos h.day_bounds, readAll_space, hdrop, h.readAll_name]

end Read

/-- The first format that reads a date in the text reads this one. -/
def FirstReads [Extern] (text : List Char) (date : Int) : Prop :=
  ∃ format p, firstReading text = some (format, p, date)

namespace Modern

variable {date : Int} {y : List Char}

theorem dayFirst_eq (h : Modern date) (hy : y = yearText date ∨ y = shortYearText date) :
    (dayFirst (dayText date) (monthText date) y).toDate = some date := by
  obtain ⟨year, hyear, hdate⟩ := h.toDate hy
  exact dayFirst_toDate hyear hdate

theorem year_fits (h : Modern date) (hy : y = yearText date ∨ y = shortYearText date) :
    Digits 4 y := by
  obtain rfl | rfl := hy
  · exact h.year_digits.1
  · exact h.shortYear_digits.1.mono (by decide)

variable [Extern]

theorem reads_numeric (h : Modern date) (hwhite : PlainSpace isWhitespace) {sep : Char}
    (hsep : sep = '/' ∨ sep = '-') (hy : y = yearText date ∨ y = shortYearText date) :
    FirstReads (dayText date ++ sep :: (monthText date ++ sep :: y)) date := by
  obtain ⟨year, hyear, hdate⟩ := h.toDate hy
  exact ⟨_, _, firstReading_numeric hwhite h.day_digits h.month_digits (h.year_fits hy) hsep
    hyear hdate⟩

/-- Read with the fields of three numbers, the year in four digits or in two. -/
theorem fields_end (h : Modern date) (hwhite : PlainSpace isWhitespace)
    (hy : y = yearText date ∨ y = shortYearText date) (item : Item)
    (hitem : item = if y.length ≤ 2 then .year2 else .year) :
    ((readAll isWhitespace [item] y
      { day := some (number (dayText date)), month := some (number (monthText date)) }).bind
        fun (rest, p) => if rest = [] then some p else none) =
      some (dayFirst (dayText date) (monthText date) y) := by
  rw [hitem, dayFirst]
  by_cases hshort : y.length ≤ 2
  · rw [if_pos hshort, if_pos hshort, readAll_year2_end hwhite (h.year_fits hy), if_pos hshort]
  · rw [if_neg hshort, if_neg hshort, readAll_year_end hwhite (h.year_fits hy)]

/-- A year in four digits is not read to its end as one of two. -/
theorem fields_year2 (h : Modern date) (hwhite : PlainSpace isWhitespace) (p : Parsed) :
    ((readAll isWhitespace [.year2] (yearText date) p).bind
      fun (rest, p) => if rest = [] then some p else none) = none := by
  have hlength := h.year_digits.2
  rw [readAll_year2_end hwhite h.year_digits.1, if_neg (by omega)]

theorem reads_dashed (h : Modern date) (hwhite : PlainSpace isWhitespace)
    (hy : y = yearText date ∨ y = shortYearText date) :
    FirstReads (dayText date ++ '-' :: (nameText date ++ '-' :: y)) date := by
  have hread : ∀ (format : String) (item : Item),
      items format.toList = some [.day, .literal '-', .shortMonth, .literal '-', item] →
      fields? isWhitespace format.toList (dayText date ++ '-' :: (nameText date ++ '-' :: y)) =
        (readAll isWhitespace [item] y
          { day := some (number (dayText date)), month := some (number (monthText date)) }).bind
            fun (rest, p) => if rest = [] then some p else none := by
    intro format item hitems
    rw [fields?_eq hitems, h.readAll_dashed hwhite]
  have hdate := h.dayFirst_eq hy
  have hend := h.fields_end hwhite hy
  obtain rfl | rfl := hy
  · have hlength := h.year_digits.2
    have hskip := (hread "%d-%b-%y" _ rfl).trans (h.fields_year2 hwhite _)
    have hfields := (hread "%d-%b-%Y" _ rfl).trans (hend .year (by rw [if_neg (by omega)]))
    exact ⟨_, _, firstReading_eq ["%d-%b-%y"] rfl (by simpa using hskip) hfields hdate⟩
  · have hlength := h.shortYear_digits.2
    have hfields := (hread "%d-%b-%y" _ rfl).trans (hend .year2 (by rw [if_pos (by omega)]))
    exact ⟨_, _, firstReading_eq [] rfl (by simp) hfields hdate⟩

/-- Formats with a dash or a slash behind the day or the month do not read a blank there. -/
theorem spaced_ahead (h : Modern date) (hwhite : PlainSpace isWhitespace) :
    ∀ f ∈ dateFormats.take 7,
      fields? isWhitespace f.toList (dayText date ++ ' ' :: (nameText date ++ y)) = none := by
  have hfront : Front 2 (dayText date) (' ' :: (nameText date ++ y)) := h.day_digits.front rfl
  have hcases : ∀ f ∈ dateFormats.take 7, f ∈ dashedFormats ∨ f ∈ slashedFormats := by decide
  intro f hf
  obtain hdashed | hslashed := hcases f hf
  · exact dashed_none hwhite hfront (by simp) f hdashed
  · exact slashed_none hwhite hfront (by simp) f hslashed

theorem reads_spaced (h : Modern date) (hwhite : PlainSpace isWhitespace)
    (hy : y = yearText date ∨ y = shortYearText date) :
    FirstReads (dayText date ++ ' ' :: (nameText date ++ ' ' :: y)) date := by
  have hdrop : (' ' :: y).dropWhile isWhitespace = y := by
    have hdigits : (y ++ []).dropWhile isWhitespace = y ++ [] :=
      (h.year_fits hy).dropWhile hwhite
    rw [List.append_nil] at hdigits
    rw [List.dropWhile_cons_of_pos hwhite.blank, hdigits]
  have hread : ∀ (format : String) (item : Item),
      items format.toList = some [.day, .space, .shortMonth, .space, item] →
      fields? isWhitespace format.toList (dayText date ++ ' ' :: (nameText date ++ ' ' :: y)) =
        (readAll isWhitespace [item] y
          { day := some (number (dayText date)), month := some (number (monthText date)) }).bind
            fun (rest, p) => if rest = [] then some p else none := by
    intro format item hitems
    rw [fields?_eq hitems, h.readAll_spaced hwhite, readAll_space, hdrop]
  have hdate := h.dayFirst_eq hy
  have hend := h.fields_end hwhite hy
  have hahead := h.spaced_ahead hwhite (y := ' ' :: y)
  obtain rfl | rfl := hy
  · have hlength := h.year_digits.2
    have hskip := (hread "%d %b %y" _ rfl).trans (h.fields_year2 hwhite _)
    have hfields := (hread "%d %b %Y" _ rfl).trans (hend .year (by rw [if_neg (by omega)]))
    have hahead := List.forall_mem_append.mpr ⟨hahead, List.forall_mem_singleton.mpr hskip⟩
    exact ⟨_, _, firstReading_eq (dateFormats.take 7 ++ ["%d %b %y"]) rfl hahead hfields hdate⟩
  · have hlength := h.shortYear_digits.2
    have hfields := (hread "%d %b %y" _ rfl).trans (hend .year2 (by rw [if_pos (by omega)]))
    exact ⟨_, _, firstReading_eq (dateFormats.take 7) rfl hahead hfields hdate⟩

/-- With a comma behind the month, only the formats that have one read the year. -/
theorem reads_comma (h : Modern date) (hwhite : PlainSpace isWhitespace) :
    FirstReads (dayText date ++ ' ' :: (nameText date ++ ',' :: ' ' :: yearText date)) date := by
  have hcomma : isWhitespace ',' = false := hwhite.visible ',' (by decide) (by decide)
  have hdrop : (' ' :: yearText date).dropWhile isWhitespace = yearText date := by
    have hdigits : (yearText date ++ []).dropWhile isWhitespace = yearText date ++ [] :=
      h.year_digits.1.dropWhile hwhite
    rw [List.append_nil] at hdigits
    rw [List.dropWhile_cons_of_pos hwhite.blank, hdigits]
  have hunread : ∀ (format : String) (item : Item), item = .month ∨ item = .year ∨ item = .year2 →
      items format.toList = some [.day, .space, .shortMonth, .space, item] →
      fields? isWhitespace format.toList
        (dayText date ++ ' ' :: (nameText date ++ ',' :: ' ' :: yearText date)) = none := by
    intro format item hitem hitems
    rw [fields?_eq hitems, h.readAll_spaced hwhite, readAll_space, dropWhile_head hcomma,
      readAll_number_none hcomma (by decide) (by decide) (by decide) hitem]
    rfl
  have hread : ∀ (format : String) (item : Item),
      items format.toList = some [.day, .space, .shortMonth, .literal ',', .space, item] →
      fields? isWhitespace format.toList
        (dayText date ++ ' ' :: (nameText date ++ ',' :: ' ' :: yearText date)) =
        (readAll isWhitespace [item] (yearText date)
          { day := some (number (dayText date)), month := some (number (monthText date)) }).bind
            fun (rest, p) => if rest = [] then some p else none := by
    intro format item hitems
    rw [fields?_eq hitems, h.readAll_spaced hwhite, readAll_literal, readAll_space, hdrop]
  have hlength := h.year_digits.2
  have hskip := (hread "%d %b, %y" _ rfl).trans (h.fields_year2 hwhite _)
  have hfields := (hread "%d %b, %Y" _ rfl).trans
    (h.fields_end hwhite (.inl rfl) .year (by rw [if_neg (by omega)]))
  have hbehind : ∀ f ∈ ["%d %b %y", "%d %b %Y", "%d %b, %y"], fields? isWhitespace f.toList
      (dayText date ++ ' ' :: (nameText date ++ ',' :: ' ' :: yearText date)) = none := by
    simp only [List.forall_mem_cons]
    exact ⟨hunread _ _ (.inr (.inr rfl)) rfl, hunread _ _ (.inr (.inl rfl)) rfl, hskip, by simp⟩
  have hahead := List.forall_mem_append.mpr
    ⟨h.spaced_ahead hwhite (y := ',' :: ' ' :: yearText date), hbehind⟩
  exact ⟨_, _, firstReading_eq (dateFormats.take 7 ++ _) rfl hahead hfields
    (h.dayFirst_eq (.inl rfl))⟩

/-- No format has a month's name between slashes. -/
theorem unread_slashed (h : Modern date) (hwhite : PlainSpace isWhitespace) (rest : List Char) :
    firstReading (dayText date ++ '/' :: (nameText date ++ rest)) = none := by
  have hfront : Front 2 (dayText date) ('/' :: (nameText date ++ rest)) := h.day_digits.front rfl
  have hfour : Front 4 (dayText date) ('/' :: (nameText date ++ rest)) :=
    (h.day_digits.mono (by decide)).front rfl
  have hslash : isWhitespace '/' = false := hwhite.visible '/' (by decide) (by decide)
  obtain ⟨⟨c, name, hname, hc⟩, -⟩ := h.name_spec
  have hrange := isAlpha_range hc
  have hwhitec : isWhitespace c = false := hwhite.visible c (by omega) (by omega)
  have hdigit : c.isDigit = false := by
    rw [Bool.eq_false_iff]
    intro hdigit
    rw [not_isAlpha_of_digit hdigit] at hc
    exact Bool.false_ne_true hc
  have hminus : c ≠ '-' := by
    intro heq
    rw [heq] at hc
    exact absurd hc (by decide)
  have hplus : c ≠ '+' := by
    intro heq
    rw [heq] at hc
    exact absurd hc (by decide)
  have hmonth : ∀ pieces, readAll isWhitespace (.day :: .literal '/' :: .month :: pieces)
      (dayText date ++ '/' :: (nameText date ++ rest)) {} = none := by
    intro pieces
    rw [readAll_day hwhite hfront, if_pos h.day_bounds, readAll_literal, hname, List.cons_append,
      readAll_number_none hwhitec hdigit hminus hplus (.inl rfl)]
  have hspaced : (('/' :: (nameText date ++ rest)).dropWhile isWhitespace).head?.any Char.isAlpha =
      false := by
    rw [dropWhile_head hslash]
    rfl
  refine firstReading_none fun f hf => ?_
  obtain hin | hin | hin | hin | hin := dateFormats_cases f hf
  · exact dashed_none hwhite hfront (by simp) f hin
  · rw [slashedFormats, List.mem_cons, List.mem_singleton] at hin
    obtain rfl | rfl := hin
    · exact fields?_none rfl (hmonth _)
    · exact fields?_none rfl (hmonth _)
  · exact spaced_none hwhite hfront (.inl hspaced) f hin
  · exact named_none h.day_digits.head_not_alpha f hin
  · exact yearFirst_none hwhite hfour (by simp) f hin

/-- The year first: what reads a day first does not find its separator behind two digits. -/
theorem reads_yearFirst (h : Modern date) (hwhite : PlainSpace isWhitespace) :
    FirstReads (yearText date ++ '-' :: (monthText date ++ '-' :: dayText date)) date := by
  obtain ⟨hyear, hlength⟩ := h.year_digits
  have hdate := h.dayFirst_eq (.inl rfl)
  rw [dayFirst, if_neg (by omega)] at hdate
  have hfields : fields? isWhitespace "%Y-%m-%d".toList
      (yearText date ++ '-' :: (monthText date ++ '-' :: dayText date)) =
      some { day := some (number (dayText date)), month := some (number (monthText date)),
             year := some (number (yearText date)) } := by
    have hyearFront : Front 4 (yearText date) ('-' :: (monthText date ++ '-' :: dayText date)) :=
      hyear.front rfl
    have hmonthFront : Front 2 (monthText date) ('-' :: dayText date) := h.month_digits.front rfl
    have hdayFront : Front 2 (dayText date) [] := h.day_digits.front rfl
    have hday : readAll isWhitespace [.day] (dayText date ++ [])
        { month := some (number (monthText date)), year := some (number (yearText date)) } = _ :=
      readAll_day hwhite hdayFront
    rw [List.append_nil, if_pos h.day_bounds] at hday
    have hitems : items "%Y-%m-%d".toList =
        some [.year, .literal '-', .month, .literal '-', .day] := rfl
    rw [fields?_eq hitems, readAll_year hwhite hyearFront, readAll_literal,
      readAll_month hwhite hmonthFront, if_pos h.month_bounds, readAll_literal, hday]
    rfl
  refine ⟨_, _, firstReading_eq (dateFormats.take 17) rfl ?_ hfields hdate⟩
  obtain ⟨a, b, c, d, hsplit⟩ := List.length_eq_four.mp hlength
  rw [hsplit] at hyear ⊢
  have hc := hyear.digits c (by simp)
  have hfront : Front 2 [a, b] (c :: d :: '-' :: (monthText date ++ '-' :: dayText date)) :=
    { digits := fun e he => hyear.digits e (by simp at he ⊢; tauto)
      nonempty := by simp
      fits := le_rfl
      stops := .inl rfl }
  have hne : ∀ l : Char, l.isDigit = false →
      (c :: d :: '-' :: (monthText date ++ '-' :: dayText date)).head? ≠ some l := by
    intro l hl heq
    rw [← Option.some.inj heq, hc] at hl
    exact Bool.false_ne_true hl.symm
  have hspaced : ((c :: d :: '-' :: (monthText date ++ '-' :: dayText date)).dropWhile
      isWhitespace).head?.any Char.isAlpha = false := by
    rw [dropWhile_head (hwhite.digit hc)]
    exact not_isAlpha_of_digit hc
  have hcases : ∀ f ∈ dateFormats.take 17, f ∈ dashedFormats ∨ f ∈ slashedFormats ∨
      f ∈ spacedFormats ∨ f ∈ namedFormats := by decide
  intro f hf
  obtain hin | hin | hin | hin := hcases f hf
  · exact dashed_none hwhite hfront (hne '-' rfl) f hin
  · exact slashed_none hwhite hfront (hne '/' rfl) f hin
  · exact spaced_none hwhite hfront (.inl hspaced) f hin
  · exact named_none hfront.head_not_alpha f hin

end Modern

/-! ## forms and their readings -/

/-- What printing dates needs of `chrono`. -/
class PrintsDates [RuleTexts] : Prop where
  print : ∀ date : Int, ∀ format ∈ printedDateFormats,
    formatDay date format = String.ofList ((Strftime.formatDate date format.toList).getD [])

/-- The formats that are printed and that no format of the parser reads. -/
def unreadDateFormats : List String := ["%d.%m.%Y", "%d.%m.%y", "%d/%b/%Y"]

section Forms

variable [RuleTexts] [PrintsDates] {date : Int} {format : String} {pieces : List Item}
  {text : List Char}

theorem formatDay_eq (hformat : format ∈ printedDateFormats)
    (hprint : printAll date pieces = some text) (hitems : items format.toList = some pieces) :
    (formatDay date format).toList = text := by
  rw [PrintsDates.print date format hformat, formatDate_eq hitems, hprint, Option.getD_some,
    String.toList_ofList]

variable [Extern] [ReadsDates]

/-- A form that is no integer, and whose date the parser finds, is read back. -/
theorem reads_form (hformat : format ∈ printedDateFormats)
    (hprint : printAll date pieces = some text) (hitems : items format.toList = some pieces)
    (hepoch : parseI64 text = none) (hread : FirstReads text date) :
    ∃ ambiguous, parseLearnedEventTime (formatDay date format).toList =
      some (date * 86400, ambiguous) := by
  obtain ⟨found, p, hfirst⟩ := hread
  have hdates : ¬ EpochCapture text := by
    rintro ⟨n, hn, -⟩
    rw [hepoch] at hn
    exact absurd hn (by simp)
  rw [formatDay_eq hformat hprint hitems, parseLearnedEventTime_date hdates, parseDateGeneric_eq,
    hfirst, Option.map_some]
  exact ⟨_, rfl⟩

theorem unread_form (hformat : format ∈ printedDateFormats)
    (hprint : printAll date pieces = some text) (hitems : items format.toList = some pieces)
    (hepoch : parseI64 text = none) (hread : firstReading text = none) :
    parseLearnedEventTime (formatDay date format).toList = none := by
  have hdates : ¬ EpochCapture text := by
    rintro ⟨n, hn, -⟩
    rw [hepoch] at hn
    exact absurd hn (by simp)
  rw [formatDay_eq hformat hprint hitems, parseLearnedEventTime_date hdates, parseDateGeneric_eq,
    hread, Option.map_none]

/-- The formats, one by one. -/
theorem date_form_iff (h : Modern date) (hformat : format ∈ printedDateFormats) :
    (∃ ambiguous, parseLearnedEventTime (formatDay date format).toList =
      some (date * 86400, ambiguous)) ↔ format ∉ unreadDateFormats := by
  have hwhite : PlainSpace isWhitespace := ReadsDates.space
  have hepoch : ∀ (sep : Char) (rest : List Char), sep.isDigit = false →
      parseI64 (dayText date ++ sep :: rest) = none :=
    fun sep rest hsep => parseI64_of_sep h.day_digits hsep
  have hdotted : ∀ y, firstReading (dayText date ++ '.' :: (monthText date ++ '.' :: y)) = none :=
    fun y => firstReading_none
      (numeric_none hwhite h.day_digits h.month_digits rfl (by decide) (by decide))
  have hunread : parseLearnedEventTime (formatDay date format).toList = none →
      ¬ ∃ ambiguous, parseLearnedEventTime (formatDay date format).toList =
        some (date * 86400, ambiguous) := by
    rintro hnone ⟨ambiguous, hread⟩
    rw [hnone] at hread
    exact absurd hread (by simp)
  have hlong : printAll date [.year] = some (yearText date) := by simp [h.printAll_year]
  have hshort : printAll date [.year2] = some (shortYearText date) := by simp
  have hnumeric : ∀ sep {item y}, printAll date [item] = some y →
      printAll date [.day, .literal sep, .month, .literal sep, item] =
        some (dayText date ++ sep :: (monthText date ++ sep :: y)) := by
    intro sep item y hend
    simp [hend]
  have hnamed : ∀ sep {item y}, printAll date [item] = some y →
      printAll date [.day, .literal sep, .shortMonth, .literal sep, item] =
        some (dayText date ++ sep :: (nameText date ++ sep :: y)) := by
    intro sep item y hend
    simp [hend]
  have hspaced : ∀ {item y}, printAll date [item] = some y →
      printAll date [.day, .space, .shortMonth, .space, item] =
        some (dayText date ++ ' ' :: (nameText date ++ ' ' :: y)) := by
    intro item y hend
    simp [hend]
  have hcomma : printAll date [.day, .space, .shortMonth, .literal ',', .space, .year] =
      some (dayText date ++ ' ' :: (nameText date ++ ',' :: ' ' :: yearText date)) := by
    simp [hlong]
  have hyearFirst : printAll date [.year, .literal '-', .month, .literal '-', .day] =
      some (yearText date ++ '-' :: (monthText date ++ '-' :: dayText date)) := by
    simp [h.printAll_year]
  have hcases := hformat
  simp only [printedDateFormats, List.mem_cons, List.not_mem_nil, or_false] at hcases
  obtain rfl | rfl | rfl | rfl | rfl | rfl | rfl | rfl | rfl | rfl | rfl | rfl | rfl := hcases
  · exact iff_of_true (reads_form hformat (hnumeric '/' hlong) rfl (hepoch _ _ rfl)
      (h.reads_numeric hwhite (.inl rfl) (.inl rfl))) (by decide)
  · exact iff_of_true (reads_form hformat (hnumeric '-' hlong) rfl (hepoch _ _ rfl)
      (h.reads_numeric hwhite (.inr rfl) (.inl rfl))) (by decide)
  · exact iff_of_false (hunread (unread_form hformat (hnumeric '.' hlong) rfl (hepoch _ _ rfl)
      (hdotted _))) (by decide)
  · exact iff_of_true (reads_form hformat (hnumeric '/' hshort) rfl (hepoch _ _ rfl)
      (h.reads_numeric hwhite (.inl rfl) (.inr rfl))) (by decide)
  · exact iff_of_true (reads_form hformat (hnumeric '-' hshort) rfl (hepoch _ _ rfl)
      (h.reads_numeric hwhite (.inr rfl) (.inr rfl))) (by decide)
  · exact iff_of_false (hunread (unread_form hformat (hnumeric '.' hshort) rfl (hepoch _ _ rfl)
      (hdotted _))) (by decide)
  · exact iff_of_true (reads_form hformat (hnamed '-' hlong) rfl (hepoch _ _ rfl)
      (h.reads_dashed hwhite (.inl rfl))) (by decide)
  · exact iff_of_true (reads_form hformat (hnamed '-' hshort) rfl (hepoch _ _ rfl)
      (h.reads_dashed hwhite (.inr rfl))) (by decide)
  · exact iff_of_true (reads_form hformat (hspaced hlong) rfl (hepoch _ _ rfl)
      (h.reads_spaced hwhite (.inl rfl))) (by decide)
  · exact iff_of_true (reads_form hformat (hspaced hshort) rfl (hepoch _ _ rfl)
      (h.reads_spaced hwhite (.inr rfl))) (by decide)
  · exact iff_of_true (reads_form hformat hcomma rfl (hepoch _ _ rfl)
      (h.reads_comma hwhite)) (by decide)
  · exact iff_of_false (hunread (unread_form hformat (hnamed '/' hlong) rfl (hepoch _ _ rfl)
      (h.unread_slashed hwhite _))) (by decide)
  · exact iff_of_true (reads_form hformat hyearFirst rfl
      (parseI64_of_sep h.year_digits.1 rfl) (h.reads_yearFirst hwhite)) (by decide)

variable [DigitsAreNoLetters]

/-- A printed form is read back as its value exactly where it has its decimals or lost none, and
where its date format is one the parser knows; grouping keeps every digit. -/
theorem readBack_iff :
    (∀ field ∈ ["amount", "balance"], ∀ (newValue : String) (n : Nat),
      parseI64 (trim newValue.toList) = some (n : Int) → (n : ℚ) ≤ maxPlausibleAmountMinor →
      ∀ form ∈ needleCandidates field newValue,
        (readExact form.toList = some (n : Int) ↔ '.' ∈ form.toList ∨ n % 100 = 0)) ∧
    (∀ (newValue : String) (date : Int),
      parseDay (String.ofList ((trim newValue.toList).takeWhile (!isWhitespace ·))) "%Y-%m-%d" =
        some date → Modern date →
      needleCandidates "event_time" newValue = printedDateFormats.map (formatDay date) ∧
      ∀ format ∈ printedDateFormats,
        ((∃ ambiguous, parseLearnedEventTime (formatDay date format).toList =
          some (date * 86400, ambiguous)) ↔ format ∉ unreadDateFormats)) ∧
    ∀ ds, ∃ groups, IndianGroups groups ∧ groups.flatten = ds ∧
      joined groups = indianGroup ds := by
  refine ⟨fun field hfield newValue n hn hmax form hform => ?_,
    fun newValue date hday h => ⟨?_, fun format hformat => date_form_iff h hformat⟩,
    fun ds => ⟨_, indianGroups_spec ds⟩⟩
  · have hforms : needleCandidates field newValue = (printedAmounts n).map String.ofList := by
      have hsome : trim newValue.toList ≠ [] := by
        intro hnil
        have hnone : parseI64 [] = none := rfl
        rw [hnil, hnone] at hn
        exact absurd hn (by simp)
      rw [List.mem_cons, List.mem_singleton] at hfield
      obtain rfl | rfl := hfield
      · rw [needleCandidates, if_neg hsome, hn]
      · rw [needleCandidates, if_neg hsome, hn]
    rw [hforms, List.mem_map] at hform
    obtain ⟨chars, hchars, rfl⟩ := hform
    rw [String.toList_ofList, readExact_form hmax hchars, Option.some.injEq]
    by_cases hdot : '.' ∈ chars
    · simp [hdot]
    · simp only [hdot, if_false, false_or]
      omega
  · have hsome : trim newValue.toList ≠ [] := by
      intro hnil
      have hnone : parseDate isWhitespace [] "%Y-%m-%d".toList = none := rfl
      rw [hnil, ReadsDates.parse _ _ (by decide), String.toList_ofList, List.takeWhile_nil,
        hnone] at hday
      exact absurd hday (by simp)
    rw [needleCandidates, if_neg hsome, printedDates, hday]

end Forms

theorem digitsAreNoLetters_dates : @DigitsAreNoLetters .dates :=
  @DigitsAreNoLetters.mk .dates digitsAreNoLetters_words.digit

theorem printsDates_dates : @PrintsDates .dates := @PrintsDates.mk .dates fun _ _ _ => rfl

/-- `1,200` of 1,200.50 is read as 1,200.00, and the fifth of March 2024 not from `05.03.2024`. -/
theorem forms_not_read_back :
    letI := Extern.ascii
    letI := RuleTexts.dates
    (¬ ∀ field ∈ ["amount", "balance"], ∀ (newValue : String) (n : Nat),
      parseI64 (trim newValue.toList) = some (n : Int) → (n : ℚ) ≤ maxPlausibleAmountMinor →
      ∀ form ∈ needleCandidates field newValue, readExact form.toList = some (n : Int)) ∧
    ¬ ∀ (newValue : String) (date : Int),
      parseDay (String.ofList ((trim newValue.toList).takeWhile (!isWhitespace ·))) "%Y-%m-%d" =
        some date → Modern date →
      ∀ form ∈ needleCandidates "event_time" newValue,
        ∃ ambiguous, parseLearnedEventTime form.toList = some (date * 86400, ambiguous) := by
  let := Extern.ascii
  let := RuleTexts.dates
  constructor
  · intro h
    have hmax : ((120050 : Nat) : ℚ) ≤ maxPlausibleAmountMinor := by
      rw [maxPlausibleAmountMinor]
      norm_num
    have hread := h "amount" (by decide) "120050" 120050 (by decide +kernel) hmax "1,200"
      (by decide +kernel)
    have hother : readExact "1,200".toList = some 120000 := by decide +kernel
    rw [hother] at hread
    exact absurd hread (by decide)
  · intro h
    have hmodern : Modern 19787 := ⟨by decide, by decide⟩
    obtain ⟨ambiguous, hread⟩ := h "2024-03-05" 19787 (by decide +kernel) hmodern "05.03.2024"
      (by decide +kernel)
    have hnone : parseLearnedEventTime "05.03.2024".toList = none := by decide +kernel
    rw [hnone] at hread
    exact absurd hread (by simp)

/-- An amount with its decimals and a date with its month's name, and two forms that are lost. -/
theorem readBack_forms :
    letI := Extern.ascii
    letI := RuleTexts.dates
    readExact "12,34,567.50".toList = some 123456750 ∧
      readExact "12,34,567".toList ≠ some 123456750 ∧
      (∃ ambiguous, parseLearnedEventTime (formatDay 19787 "%d %b, %Y").toList =
        some (19787 * 86400, ambiguous)) ∧
      (¬ ∃ ambiguous, parseLearnedEventTime (formatDay 19787 "%d/%b/%Y").toList =
        some (19787 * 86400, ambiguous)) ∧
      ∃ groups, IndianGroups groups ∧ groups.flatten = "1234567".toList ∧
        joined groups = indianGroup "1234567".toList := by
  let := Extern.ascii
  let := RuleTexts.dates
  have := readsDates_ascii
  have := digitsAreNoLetters_dates
  have := printsDates_dates
  have hmax : ((123456750 : Nat) : ℚ) ≤ maxPlausibleAmountMinor := by
    rw [maxPlausibleAmountMinor]
    norm_num
  have hmodern : Modern 19787 := ⟨by decide, by decide⟩
  obtain ⟨hamounts, hdates, hgroups⟩ := readBack_iff
  have hamount := hamounts "amount" (by decide) "123456750" 123456750 (by decide +kernel) hmax
  obtain ⟨-, hdate⟩ := hdates "2024-03-05" 19787 (by decide +kernel) hmodern
  refine ⟨(hamount "12,34,567.50" (by decide +kernel)).mpr (.inl (by decide)), fun hread => ?_,
    (hdate _ (by decide)).mpr (by decide), mt (hdate _ (by decide)).mp (by decide), hgroups _⟩
  have hlost := (hamount "12,34,567" (by decide +kernel)).mp hread
  exact absurd hlost (by decide)

end Dinero
