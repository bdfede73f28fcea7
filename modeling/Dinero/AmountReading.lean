import Dinero.LearnedFields
import Dinero.Numerals

/-!
# Dinero.AmountReading

What `parse_amount` makes of a capture: the digits and the decimal points are
kept and read together, whatever stands between them.  It is the one number
the capture holds only where nothing else stands there.
-/

namespace Dinero

open Numerals

/-! ## the parser, by its floating point -/

section Reading

variable [RuleTexts]

/-- `parse_amount`, up to how numbers are rounded to a float. -/
def readAmount (f64 : ℚ → ℚ) (s : List Char) : Option Int :=
  (parseDecimal (((digitsAndDots none s).reverse.dropWhile (· = '.')).reverse)).bind fun v =>
    let minor := f64 (f64 v * 100)
    if maxPlausibleAmountMinor < minor then none
    else some ⌊minor + 1 / 2⌋

theorem parseAmount_eq (s : List Char) : parseAmount s = readAmount nearestF64 s := rfl

/-- `parse_amount` with floats taken as exact. -/
def readExact (s : List Char) : Option Int := readAmount id s

/-- A number in minor units, to the nearest. -/
def minorUnits (x : ℚ) : Int := ⌊x * 100 + 1 / 2⌋

/-! ## the numbers of a capture -/

/-- A dot is a decimal point unless it stands behind a letter. -/
def isPoint (prev : Option Char) (c : Char) : Bool := c = '.' && !prev.any isAlphabetic

def noDigit (s : List Char) : Bool := s.all (!·.isDigit)

/-- The text behind `prev` holds this number and no other digit. -/
inductive OneNumber : Option Char → List Char → Numeral → Prop
  /-- The number comes first; without digits ahead of its dot, the dot is a decimal point. -/
  | here {prev : Option Char} {t : Numeral} {post : List Char} :
    (t.whole = [] → isPoint prev '.' = true) → noDigit post = true →
      OneNumber prev (t.text ++ post) t
  /-- Something else comes first: no digit, and no decimal point of the digits behind it. -/
  | later {prev : Option Char} {c : Char} {rest : List Char} {t : Numeral} :
    c.isDigit = false → (isPoint prev c = true → rest.head?.any Char.isDigit = false) →
      OneNumber (some c) rest t → OneNumber prev (c :: rest) t

/-- The decimal points that a digit follows. -/
def points : Option Char → List Char → Nat
  | _, [] => 0
  | prev, c :: rest =>
    (if isPoint prev c && !noDigit rest then 1 else 0) + points (some c) rest

/-- The digits behind the first decimal point. -/
def places : Option Char → List Char → Nat
  | _, [] => 0
  | prev, c :: rest =>
    if isPoint prev c then (rest.filter Char.isDigit).length else places (some c) rest

/-- All digits of a text read as one number, with its first decimal point. -/
def together (s : List Char) : ℚ := number (s.filter Char.isDigit) / 10 ^ places none s

end Reading

/-- Behind the decimal point digits follow, and behind them none. -/
def onlyDecimals (s : List Char) : Bool := noDigit (s.dropWhile Char.isDigit)

/-- Digits follow with single commas between them, then decimals, and behind them no digit. -/
def onlyWhole : List Char → Bool
  | [] => true
  | c :: rest =>
    if c.isDigit then onlyWhole rest
    else if c = ',' && rest.head?.any Char.isDigit then onlyWhole rest
    else if c = '.' then onlyDecimals rest
    else noDigit rest

section Conditions

variable [RuleTexts]

/-- From the first digit on, or the decimal point in front of it, the digits are one number's. -/
def adjoining : Option Char → List Char → Bool
  | _, [] => true
  | prev, c :: rest =>
    if c.isDigit then onlyWhole rest
    else if isPoint prev c && rest.head?.any Char.isDigit then onlyDecimals rest
    else adjoining (some c) rest

/-- A decimal point stands ahead of the digits, but not directly in front of them. -/
def strayPoint : Option Char → List Char → Bool
  | _, [] => false
  | prev, c :: rest =>
    if c.isDigit then false
    else if isPoint prev c && !noDigit rest && !rest.head?.any Char.isDigit then true
    else strayPoint (some c) rest

/-- What makes `parse_amount` refuse a text: no digit, two decimal points, too much. -/
def RefusedAmount (s : List Char) : Prop :=
  noDigit s = true ∨ 2 ≤ points none s ∨ maxPlausibleAmountMinor < together s * 100

end Conditions

/-! ## what is left for the parser -/

theorem noDigit_cons (c : Char) (rest : List Char) :
    noDigit (c :: rest) = (!c.isDigit && noDigit rest) := rfl

theorem noDigit_append (xs ys : List Char) : noDigit (xs ++ ys) = (noDigit xs && noDigit ys) :=
  List.all_append

theorem noDigit_eq_false {s : List Char} {d : Char} (hd : d ∈ s) (h : d.isDigit = true) :
    noDigit s = false := by
  rw [Bool.eq_false_iff]
  intro hnone
  have hnot := List.all_eq_true.mp hnone d hd
  rw [h] at hnot
  exact absurd hnot (by decide)

theorem filter_of_noDigit {s : List Char} (h : noDigit s = true) : s.filter Char.isDigit = [] := by
  rw [List.filter_eq_nil_iff]
  intro c hc
  have hnot := List.all_eq_true.mp h c hc
  simpa using hnot

theorem noDigit_of_filter {s : List Char} (h : s.filter Char.isDigit = []) : noDigit s = true := by
  rw [List.filter_eq_nil_iff] at h
  exact List.all_eq_true.mpr fun c hc => by simpa using h c hc

/-- The text without the dots at its end. -/
def trimDots (l : List Char) : List Char := (l.reverse.dropWhile (· = '.')).reverse

theorem trimDots_cons (c : Char) (l : List Char) :
    trimDots (c :: l) = if trimDots l = [] ∧ c = '.' then [] else c :: trimDots l := by
  by_cases hrest : l.reverse.dropWhile (· = '.') = []
  · have htrim : trimDots l = [] := by rw [trimDots, hrest, List.reverse_nil]
    rw [trimDots, List.reverse_cons, List.dropWhile_append, hrest, if_pos List.isEmpty_nil, htrim]
    by_cases hc : c = '.'
    · simp [hc]
    · simp [hc]
  · have hempty : (l.reverse.dropWhile (· = '.')).isEmpty = false := by simpa using hrest
    have htrim : trimDots l ≠ [] := fun h => hrest (List.reverse_eq_nil_iff.mp h)
    rw [trimDots, List.reverse_cons, List.dropWhile_append, hempty, if_neg Bool.false_ne_true,
      if_neg (fun h => htrim h.1), List.reverse_append]
    rfl

/-- Digits and dots parse to all digits together, unless there are no digits or two dots. -/
theorem parseDecimal_of_digits {l : List Char} (hmem : ∀ c ∈ l, c.isDigit = true ∨ c = '.') :
    parseDecimal l =
      if l.filter Char.isDigit = [] ∨ 2 ≤ l.count '.' then none
      else some ((number (l.filter Char.isDigit) : ℚ) /
        10 ^ (((l.dropWhile (· ≠ '.')).drop 1).filter Char.isDigit).length) := by
  have hwhole : ∀ c ∈ l.takeWhile (· ≠ '.'), c.isDigit = true := by
    intro c hc
    have hne := List.mem_takeWhile_imp hc
    exact (hmem c (List.takeWhile_prefix _ |>.subset hc)).resolve_right (by simpa using hne)
  have hsplit := List.takeWhile_append_dropWhile (p := (· ≠ '.')) (l := l)
  have hwholeDigits := List.filter_eq_self.mpr hwhole
  have hwholeDots : (l.takeWhile (· ≠ '.')).count '.' = 0 := by
    rw [List.count_eq_zero]
    intro h
    exact absurd (hwhole _ h) (by decide)
  cases hrest : l.dropWhile (· ≠ '.') with
  | nil =>
    rw [hrest, List.append_nil] at hsplit
    have hdigits : l.filter Char.isDigit = l := by rw [← hsplit, hwholeDigits]
    have hdots : l.count '.' = 0 := by rw [← hsplit, hwholeDots]
    rw [parseDecimal, hrest, hsplit, hdigits, hdots]
    by_cases hnil : l = []
    · simp [hnil]
    · simp [hnil, number_eq_foldl]
  | cons dot fraction =>
    have hdot : dot = '.' := by
      have hhead := List.head?_dropWhile_not (· ≠ '.') l
      rw [hrest] at hhead
      simpa using hhead
    rw [hrest, hdot] at hsplit
    have hfilter : l.filter Char.isDigit =
        l.takeWhile (· ≠ '.') ++ fraction.filter Char.isDigit := by
      conv_lhs => rw [← hsplit]
      rw [List.filter_append, List.filter_cons_of_neg (by decide), hwholeDigits]
    have hcount : l.count '.' = fraction.count '.' + 1 := by
      conv_lhs => rw [← hsplit]
      rw [List.count_append, List.count_cons_self, hwholeDots, Nat.zero_add]
    rw [parseDecimal, hrest, List.drop_one, List.tail_cons, hfilter, hcount]
    by_cases hdots : '.' ∈ fraction
    · have htwo : 2 ≤ fraction.count '.' + 1 := by
        have hpos := List.count_pos_iff.mpr hdots
        omega
      rw [if_pos (.inl hdots), if_pos (.inr htwo)]
    · have hfraction : fraction.filter Char.isDigit = fraction := by
        rw [List.filter_eq_self]
        intro c hc
        have hcl : c ∈ l := by
          rw [← hsplit]
          simp [hc]
        exact (hmem c hcl).resolve_right fun h => hdots (h ▸ hc)
      have hone : fraction.count '.' = 0 := List.count_eq_zero.mpr hdots
      rw [hfraction, hone]
      by_cases hnil : l.takeWhile (· ≠ '.') = [] ∧ fraction = []
      · rw [if_pos (.inr hnil), if_pos (.inl (List.append_eq_nil_iff.mpr hnil))]
      · have hsome := mt List.append_eq_nil_iff.mp hnil
        rw [if_neg (by simp only [hdots, hnil, or_self, not_false_iff]),
          if_neg (by simp only [hsome, false_or]; omega)]
        rfl

section Kept

variable [RuleTexts]

theorem digitsAndDots_cons (prev : Option Char) (c : Char) (rest : List Char) :
    digitsAndDots prev (c :: rest) =
      if c.isDigit || isPoint prev c then c :: digitsAndDots (some c) rest
      else digitsAndDots (some c) rest := by
  have hnumeral : isAsciiNumeral c = c.isDigit := rfl
  rw [digitsAndDots, hnumeral, isPoint]
  split
  · rfl
  · rfl

theorem isPoint_eq {prev : Option Char} {c : Char} (h : isPoint prev c = true) : c = '.' := by
  rw [isPoint, Bool.and_eq_true, decide_eq_true_iff] at h
  exact h.1

theorem not_digit_of_isPoint {prev : Option Char} {c : Char} (h : isPoint prev c = true) :
    c.isDigit = false := by
  rw [isPoint_eq h]
  rfl

theorem not_isPoint_of_digit {prev : Option Char} {c : Char} (h : c.isDigit = true) :
    isPoint prev c = false := by
  rw [Bool.eq_false_iff]
  intro hpoint
  rw [not_digit_of_isPoint hpoint] at h
  exact absurd h (by decide)

/-- The digits and decimal points of a text, without the points at its end. -/
def kept (prev : Option Char) (s : List Char) : List Char := trimDots (digitsAndDots prev s)

theorem kept_eq_nil_iff (prev : Option Char) (s : List Char) :
    kept prev s = [] ↔ noDigit s = true := by
  induction s generalizing prev with
  | nil => simp [kept, trimDots, digitsAndDots, noDigit]
  | cons c rest ih =>
    have hrest := ih (some c)
    rw [kept] at hrest
    rw [kept, digitsAndDots_cons, noDigit_cons]
    by_cases hdigit : c.isDigit = true
    · have hdot : c ≠ '.' := by
        intro h
        rw [h] at hdigit
        exact absurd hdigit (by decide)
      rw [hdigit, Bool.true_or, if_pos rfl, trimDots_cons, if_neg (fun h => hdot h.2)]
      simp
    · have hdigit' : c.isDigit = false := by simpa using hdigit
      rw [hdigit', Bool.false_or, Bool.not_false, Bool.true_and]
      by_cases hpoint : isPoint prev c = true
      · rw [if_pos hpoint, trimDots_cons, ← hrest]
        by_cases hnone : trimDots (digitsAndDots (some c) rest) = []
        · rw [if_pos ⟨hnone, isPoint_eq hpoint⟩]
          simp [hnone]
        · rw [if_neg (fun h => hnone h.1)]
          simp [hnone]
      · rw [if_neg hpoint]
        exact hrest

/-- A digit is kept, and a decimal point with a digit behind it. -/
theorem kept_cons (prev : Option Char) (c : Char) (rest : List Char) :
    kept prev (c :: rest) =
      if c.isDigit || (isPoint prev c && !noDigit rest) then c :: kept (some c) rest
      else kept (some c) rest := by
  have hnil := kept_eq_nil_iff (some c) rest
  rw [kept] at hnil
  rw [kept, digitsAndDots_cons]
  by_cases hdigit : c.isDigit = true
  · have hdot : c ≠ '.' := by
      intro h
      rw [h] at hdigit
      exact absurd hdigit (by decide)
    rw [hdigit, Bool.true_or, Bool.true_or, if_pos rfl, if_pos rfl, trimDots_cons,
      if_neg (fun h => hdot h.2), kept]
  · have hdigit' : c.isDigit = false := by simpa using hdigit
    rw [hdigit', Bool.false_or, Bool.false_or]
    by_cases hpoint : isPoint prev c = true
    · rw [hpoint, if_pos rfl, trimDots_cons, Bool.true_and]
      by_cases hnone : noDigit rest = true
      · rw [if_pos ⟨hnil.mpr hnone, isPoint_eq hpoint⟩, hnone, Bool.not_true,
          if_neg Bool.false_ne_true, kept, hnil.mpr hnone]
      · have hnone' : noDigit rest = false := by simpa using hnone
        rw [if_neg (fun h => hnone (hnil.mp h.1)), hnone', Bool.not_false, if_pos rfl, kept]
    · have hpoint' : isPoint prev c = false := by simpa using hpoint
      rw [hpoint', Bool.false_and, if_neg Bool.false_ne_true, if_neg Bool.false_ne_true, kept]

/-- One step of an induction over what is kept. -/
theorem kept_cases (prev : Option Char) (c : Char) (rest : List Char) :
    (c.isDigit = true ∧ isPoint prev c = false ∧
        kept prev (c :: rest) = c :: kept (some c) rest) ∨
    (c.isDigit = false ∧ isPoint prev c = true ∧ c = '.' ∧ noDigit rest = false ∧
        kept prev (c :: rest) = '.' :: kept (some c) rest) ∨
    (c.isDigit = false ∧ (isPoint prev c = true → noDigit rest = true) ∧
        kept prev (c :: rest) = kept (some c) rest) := by
  rw [kept_cons]
  cases hdigit : c.isDigit with
  | true => exact .inl ⟨rfl, not_isPoint_of_digit hdigit, if_pos rfl⟩
  | false =>
    cases hpoint : isPoint prev c with
    | false =>
      exact .inr (.inr ⟨rfl, fun h => absurd h Bool.false_ne_true, if_neg Bool.false_ne_true⟩)
    | true =>
      have hdot := isPoint_eq hpoint
      cases hnone : noDigit rest with
      | true => exact .inr (.inr ⟨rfl, fun _ => rfl, if_neg Bool.false_ne_true⟩)
      | false => exact .inr (.inl ⟨rfl, rfl, hdot, rfl, by rw [hdot]; exact if_pos rfl⟩)

theorem mem_kept (prev : Option Char) (s : List Char) :
    ∀ c ∈ kept prev s, c.isDigit = true ∨ c = '.' := by
  induction s generalizing prev with
  | nil => simp [kept, trimDots, digitsAndDots]
  | cons c rest ih =>
    have hrest := ih (some c)
    obtain ⟨hdigit, -, heq⟩ | ⟨-, -, -, -, heq⟩ | ⟨-, -, heq⟩ := kept_cases prev c rest
    · rw [heq, List.forall_mem_cons]
      exact ⟨.inl hdigit, hrest⟩
    · rw [heq, List.forall_mem_cons]
      exact ⟨.inr rfl, hrest⟩
    · rw [heq]
      exact hrest

/-- All digits are kept. -/
theorem filter_kept (prev : Option Char) (s : List Char) :
    (kept prev s).filter Char.isDigit = s.filter Char.isDigit := by
  induction s generalizing prev with
  | nil => rfl
  | cons c rest ih =>
    have hrest := ih (some c)
    obtain ⟨hdigit, -, heq⟩ | ⟨hdigit, -, -, -, heq⟩ | ⟨hdigit, -, heq⟩ := kept_cases prev c rest
    · rw [heq, List.filter_cons_of_pos hdigit, List.filter_cons_of_pos hdigit, hrest]
    · rw [heq, List.filter_cons_of_neg (by decide),
        List.filter_cons_of_neg (by rw [hdigit]; decide), hrest]
    · rw [heq, List.filter_cons_of_neg (by rw [hdigit]; decide), hrest]

theorem count_kept (prev : Option Char) (s : List Char) :
    (kept prev s).count '.' = points prev s := by
  induction s generalizing prev with
  | nil => rfl
  | cons c rest ih =>
    have hrest := ih (some c)
    rw [points]
    obtain ⟨hdigit, hpoint, heq⟩ | ⟨-, hpoint, -, hsome, heq⟩ | ⟨-, hpoint, heq⟩ :=
      kept_cases prev c rest
    · have hdot : c ≠ '.' := by
        intro h
        rw [h] at hdigit
        exact absurd hdigit (by decide)
      rw [heq, hpoint, List.count_cons_of_ne hdot, hrest]
      simp
    · rw [heq, hpoint, hsome, List.count_cons_self, hrest, Nat.add_comm]
      rfl
    · rw [heq, hrest]
      cases hp : isPoint prev c with
      | false => simp
      | true => simp [hpoint hp]

/-- The digits kept behind the first point. -/
theorem fraction_kept (prev : Option Char) (s : List Char) :
    ((((kept prev s).dropWhile (· ≠ '.')).drop 1).filter Char.isDigit).length = places prev s := by
  induction s generalizing prev with
  | nil => rfl
  | cons c rest ih =>
    have hrest := ih (some c)
    rw [places]
    obtain ⟨hdigit, hpoint, heq⟩ | ⟨-, hpoint, -, -, heq⟩ | ⟨-, hpoint, heq⟩ :=
      kept_cases prev c rest
    · have hdot : c ≠ '.' := by
        intro h
        rw [h] at hdigit
        exact absurd hdigit (by decide)
      rw [heq, hpoint, if_neg Bool.false_ne_true, List.dropWhile_cons_of_pos (by simpa using hdot)]
      exact hrest
    · rw [heq, hpoint, if_pos rfl, List.dropWhile_cons_of_neg (by simp), List.drop_one,
        List.tail_cons, filter_kept]
    · rw [heq]
      cases hp : isPoint prev c with
      | false =>
        rw [if_neg Bool.false_ne_true]
        exact hrest
      | true =>
        have hnone := hpoint hp
        have hnil := (kept_eq_nil_iff (some c) rest).mpr hnone
        rw [if_pos rfl, hnil, filter_of_noDigit hnone]
        rfl

theorem parse_kept (s : List Char) :
    parseDecimal (kept none s) =
      if noDigit s = true ∨ 2 ≤ points none s then none else some (together s) := by
  have hparse := parseDecimal_of_digits (mem_kept none s)
  rw [filter_kept, count_kept, fraction_kept] at hparse
  rw [hparse, together]
  have hnone : s.filter Char.isDigit = [] ↔ noDigit s = true :=
    ⟨noDigit_of_filter, filter_of_noDigit⟩
  simp only [hnone]

theorem readExact_of_refused {s : List Char} (h : RefusedAmount s) : readExact s = none := by
  have hread : readExact s = (parseDecimal (kept none s)).bind fun v =>
      if maxPlausibleAmountMinor < v * 100 then none else some (minorUnits v) := rfl
  rw [hread, parse_kept]
  by_cases hunread : noDigit s = true ∨ 2 ≤ points none s
  · rw [if_pos hunread]
    rfl
  · have hmuch := (or_assoc.mpr h).resolve_left hunread
    rw [if_neg hunread, Option.bind_some, if_pos hmuch]

theorem readExact_of_not_refused {s : List Char} (h : ¬ RefusedAmount s) :
    readExact s = some (minorUnits (together s)) := by
  have hread : readExact s = (parseDecimal (kept none s)).bind fun v =>
      if maxPlausibleAmountMinor < v * 100 then none else some (minorUnits v) := rfl
  rw [RefusedAmount, ← or_assoc, not_or] at h
  rw [hread, parse_kept, if_neg h.1, Option.bind_some, if_neg h.2]

end Kept

/-! ## one number -/

namespace OneNumber

section Shape

variable [RuleTexts] {prev : Option Char} {s : List Char} {t : Numeral}

/-- The number stands in the text, and no digit stands beside it. -/
theorem split (h : OneNumber prev s t) :
    ∃ pre post, s = pre ++ (t.text ++ post) ∧ noDigit pre = true ∧ noDigit post = true := by
  induction h with
  | @here _ t post hpoint hpost => exact ⟨[], post, rfl, rfl, hpost⟩
  | @later _ c _ _ hdigit hpoint hrest ih =>
    obtain ⟨pre, post, heq, hpre, hpost⟩ := ih
    have hcons : noDigit (c :: pre) = true := by rw [noDigit_cons, hdigit, hpre]; rfl
    exact ⟨c :: pre, post, by rw [heq]; rfl, hcons, hpost⟩

theorem filter_digits (h : OneNumber prev s t) :
    s.filter Char.isDigit = t.wholeDigits ++ t.decimals := by
  obtain ⟨pre, post, rfl, hpre, hpost⟩ := h.split
  rw [List.filter_append, List.filter_append, filter_of_noDigit hpre, filter_of_noDigit hpost,
    t.filter_text, List.nil_append, List.append_nil]

theorem noDigit_eq_false (h : OneNumber prev s t) : noDigit s = false := by
  obtain ⟨pre, post, rfl, -, -⟩ := h.split
  obtain ⟨d, hd, hdigit⟩ := List.any_eq_true.mp t.any_digit
  exact Dinero.noDigit_eq_false (by simp [hd]) hdigit

end Shape

end OneNumber

theorem onlyDecimals_append {ds post : List Char} (hds : ∀ c ∈ ds, c.isDigit = true)
    (hpost : noDigit post = true) : onlyDecimals (ds ++ post) = true := by
  rw [onlyDecimals, List.dropWhile_append_of_pos hds]
  exact List.all_eq_true.mpr fun c hc =>
    List.all_eq_true.mp hpost c ((List.dropWhile_suffix _).subset hc)

theorem onlyWhole_digit {d : Char} {rest : List Char} (hd : d.isDigit = true) :
    onlyWhole (d :: rest) = onlyWhole rest := by
  rw [onlyWhole, if_pos hd]

theorem onlyWhole_grouped {w : List Char} (h : Grouped w) (rest : List Char) :
    onlyWhole (w ++ rest) = onlyWhole rest := by
  induction h with
  | digit hd => exact onlyWhole_digit hd
  | cons hd hw ih =>
    rw [List.cons_append, onlyWhole_digit hd]
    exact ih
  | comma hd hw ih =>
    obtain ⟨e, w', rfl, he⟩ := hw.head
    have hhead : ((e :: w' ++ rest).head?.any Char.isDigit) = true := he
    rw [List.cons_append, List.cons_append, onlyWhole_digit hd, onlyWhole,
      if_neg (by decide), hhead]
    exact ih

theorem onlyWhole_of_noDigit {post : List Char} (h : noDigit post = true) :
    onlyWhole post = true := by
  cases post with
  | nil => rfl
  | cons c rest =>
    rw [noDigit_cons, Bool.and_eq_true, Bool.not_eq_true'] at h
    have hhead : rest.head?.any Char.isDigit = false := by
      cases rest with
      | nil => rfl
      | cons d rest =>
        have hd := h.2
        rw [noDigit_cons, Bool.and_eq_true, Bool.not_eq_true'] at hd
        exact hd.1
    rw [onlyWhole, h.1, hhead, Bool.and_false, if_neg Bool.false_ne_true,
      if_neg Bool.false_ne_true]
    split
    · have hnil : ∀ c ∈ ([] : List Char), c.isDigit = true := by simp
      exact onlyDecimals_append hnil h.2
    · exact h.2

/-- The text of a number whose digits come first, and what may follow it. -/
theorem onlyWhole_text {t : Numeral} (ht : t.whole ≠ []) {post : List Char}
    (hpost : noDigit post = true) : onlyWhole (t.text ++ post) = true := by
  rw [Numeral.text, List.append_assoc, onlyWhole_grouped (t.grouped.resolve_left ht)]
  split
  · exact onlyWhole_of_noDigit hpost
  · rw [List.cons_append, onlyWhole, if_neg (by decide), if_neg (by simp), if_pos rfl]
    exact onlyDecimals_append t.digits hpost

/-- A number with its digits first, at the head of a text. -/
def Leads (s : List Char) : Prop :=
  ∃ (t : Numeral) (post : List Char), s = t.text ++ post ∧ noDigit post = true ∧ t.whole ≠ []

theorem Leads.cons {c : Char} {s : List Char} (hc : c.isDigit = true) (h : Leads s) :
    Leads (c :: s) := by
  obtain ⟨t, post, rfl, hpost, hwhole⟩ := h
  have hgrouped := Grouped.cons hc (t.grouped.resolve_left hwhole)
  refine ⟨⟨c :: t.whole, t.decimals, .inr hgrouped, t.digits, fun h => absurd h (by simp)⟩, post,
    ?_, hpost, by simp⟩
  rw [Numeral.text, Numeral.text]
  rfl

theorem Leads.comma {c : Char} {s : List Char} (hc : c.isDigit = true) (h : Leads s) :
    Leads (c :: ',' :: s) := by
  obtain ⟨t, post, rfl, hpost, hwhole⟩ := h
  have hgrouped := Grouped.comma hc (t.grouped.resolve_left hwhole)
  refine ⟨⟨c :: ',' :: t.whole, t.decimals, .inr hgrouped, t.digits, fun h => absurd h (by simp)⟩,
    post, ?_, hpost, by simp⟩
  rw [Numeral.text, Numeral.text]
  rfl

/-- A single digit with whatever decimals follow it. -/
theorem Leads.single {c : Char} {ds post : List Char} (hc : c.isDigit = true)
    (hds : ∀ d ∈ ds, d.isDigit = true) (hpost : noDigit post = true) :
    Leads (c :: ((if ds = [] then [] else '.' :: ds) ++ post)) :=
  ⟨⟨[c], ds, .inr (.digit hc), hds, fun h => absurd h (by simp)⟩, post, rfl, hpost, by simp⟩

theorem leads_of_onlyWhole (l : List Char) (h : onlyWhole l = true) :
    (∀ c : Char, c.isDigit = true → Leads (c :: l)) ∧
      (l.head?.any Char.isDigit = true → Leads l) := by
  have hnone : ∀ d ∈ ([] : List Char), d.isDigit = true := by simp
  induction l with
  | nil => exact ⟨fun c hc => Leads.single hc hnone rfl, fun h => absurd h Bool.false_ne_true⟩
  | cons d rest ih =>
    rw [onlyWhole] at h
    by_cases hdigit : d.isDigit = true
    · rw [if_pos hdigit] at h
      have hleads := (ih h).1 d hdigit
      exact ⟨fun c hc => hleads.cons hc, fun _ => hleads⟩
    · have hhead : ¬ ((d :: rest).head?.any Char.isDigit) = true := hdigit
      have hdigit' : d.isDigit = false := by simpa using hdigit
      rw [if_neg hdigit] at h
      refine ⟨fun c hc => ?_, fun h => absurd h hhead⟩
      by_cases hcomma : (d = ',' && rest.head?.any Char.isDigit) = true
      · rw [if_pos hcomma] at h
        rw [Bool.and_eq_true, decide_eq_true_iff] at hcomma
        rw [hcomma.1]
        exact ((ih h).2 hcomma.2).comma hc
      · rw [if_neg hcomma] at h
        by_cases hdot : d = '.'
        · rw [if_pos hdot, onlyDecimals] at h
          have hds : ∀ e ∈ rest.takeWhile Char.isDigit, e.isDigit = true :=
            fun e he => List.mem_takeWhile_imp he
          by_cases hnil : rest.takeWhile Char.isDigit = []
          · -- The dot ends a sentence: no digit follows.
            have hall : noDigit (d :: rest) = true := by
              have hrest := List.takeWhile_append_dropWhile (p := Char.isDigit) (l := rest)
              rw [hnil, List.nil_append] at hrest
              rw [noDigit_cons, hdigit', ← hrest, h]
              rfl
            exact Leads.single hc hnone hall
          · have hleads := Leads.single hc hds h
            rw [if_neg hnil, List.cons_append, List.takeWhile_append_dropWhile, ← hdot] at hleads
            exact hleads
        · rw [if_neg hdot] at h
          have hall : noDigit (d :: rest) = true := by
            rw [noDigit_cons, hdigit', h]
            rfl
          exact Leads.single hc hnone hall

section Shape

variable [RuleTexts] {prev : Option Char} {s : List Char} {t : Numeral}

theorem OneNumber.adjoining (h : OneNumber prev s t) : adjoining prev s = true := by
  induction h with
  | @here prev t post hpoint hpost =>
    by_cases hwhole : t.whole = []
    · have hsome := t.nonempty hwhole
      obtain ⟨d, ds, hds⟩ := List.exists_cons_of_ne_nil hsome
      have hd : d.isDigit = true := t.digits d (by rw [hds]; exact .head ds)
      have htext : t.text = '.' :: t.decimals := by
        rw [Numeral.text, hwhole, if_neg hsome, List.nil_append]
      have hhead : (t.decimals ++ post).head?.any Char.isDigit = true := by
        rw [hds]
        exact hd
      rw [htext, List.cons_append, Dinero.adjoining, if_neg (by decide), hpoint hwhole, hhead]
      exact onlyDecimals_append t.digits hpost
    · obtain ⟨d, rest, hw, hd⟩ := (t.grouped.resolve_left hwhole).head
      have hall := onlyWhole_text hwhole hpost
      obtain ⟨rest', htext⟩ : ∃ rest', t.text ++ post = d :: rest' := by
        rw [Numeral.text, hw]
        exact ⟨_, rfl⟩
      rw [htext, onlyWhole_digit hd] at hall
      rw [htext, Dinero.adjoining, if_pos hd]
      exact hall
  | @later prev c rest t hdigit hpoint hrest ih =>
    have hskip : (isPoint prev c && rest.head?.any Char.isDigit) = false := by
      cases hp : isPoint prev c with
      | false => rfl
      | true => rw [hpoint hp]; rfl
    rw [Dinero.adjoining, hdigit, hskip, if_neg Bool.false_ne_true, if_neg Bool.false_ne_true]
    exact ih

theorem exists_of_adjoining (prev : Option Char) (s : List Char) (h : adjoining prev s = true)
    (hsome : noDigit s = false) : ∃ t, OneNumber prev s t := by
  induction s generalizing prev with
  | nil => exact absurd hsome (by decide)
  | cons c rest ih =>
    rw [adjoining] at h
    by_cases hdigit : c.isDigit = true
    · rw [if_pos hdigit] at h
      obtain ⟨t, post, heq, hpost, hwhole⟩ := (leads_of_onlyWhole rest h).1 c hdigit
      rw [heq]
      exact ⟨t, .here (fun h => absurd h hwhole) hpost⟩
    · have hdigit' : c.isDigit = false := by simpa using hdigit
      rw [if_neg hdigit] at h
      by_cases hpoint : (isPoint prev c && rest.head?.any Char.isDigit) = true
      · rw [if_pos hpoint, onlyDecimals] at h
        rw [Bool.and_eq_true] at hpoint
        obtain ⟨d, rest', rfl, hd⟩ : ∃ d rest', rest = d :: rest' ∧ d.isDigit = true := by
          cases rest with
          | nil => exact absurd hpoint.2 Bool.false_ne_true
          | cons d rest' => exact ⟨d, rest', rfl, hpoint.2⟩
        have hds : ∀ e ∈ (d :: rest').takeWhile Char.isDigit, e.isDigit = true :=
          fun e he => List.mem_takeWhile_imp he
        have hne : (d :: rest').takeWhile Char.isDigit ≠ [] := by
          rw [List.takeWhile_cons_of_pos hd]
          simp
        have hhere : OneNumber prev _ ⟨[], _, .inl rfl, hds, fun _ => hne⟩ :=
          .here (fun _ => isPoint_eq hpoint.1 ▸ hpoint.1) h
        rw [Numeral.text, if_neg hne, List.nil_append, List.cons_append,
          List.takeWhile_append_dropWhile, ← isPoint_eq hpoint.1] at hhere
        exact ⟨_, hhere⟩
      · rw [if_neg hpoint] at h
        rw [noDigit_cons, hdigit', Bool.not_false, Bool.true_and] at hsome
        obtain ⟨t, ht⟩ := ih (some c) h hsome
        refine ⟨t, .later hdigit' (fun hp => ?_) ht⟩
        rw [hp, Bool.true_and] at hpoint
        simpa using hpoint

end Shape

/-! ## digits and points of one number -/

/-- Digits are no letters. -/
class DigitsAreNoLetters [RuleTexts] : Prop where
  digit : ∀ c : Char, c.isDigit = true → isAlphabetic c = false

instance digitsAreNoLetters_words : @DigitsAreNoLetters .words :=
  @DigitsAreNoLetters.mk .words fun c hc => by
    have hdigit := isDigit_range hc
    have hletter : c.isAlpha ≠ true := fun h => by
      have hrange := isAlpha_range h
      omega
    exact Bool.eq_false_iff.mpr hletter

/-- Every digit of a text is a zero. -/
def AllZeros (s : List Char) : Prop := ∀ c ∈ s, c.isDigit = true → c = '0'

theorem number_of_allZeros {s : List Char} (h : AllZeros s) :
    number (s.filter Char.isDigit) = 0 := by
  have hdigits : ∀ c ∈ s.filter Char.isDigit, c.isDigit = true :=
    fun c hc => (List.mem_filter.mp hc).2
  exact (number_eq_zero_iff hdigits).mpr fun c hc =>
    h c (List.mem_filter.mp hc).1 (List.mem_filter.mp hc).2

theorem minorUnits_of_mul {x : ℚ} {n : Int} (h : x * 100 = n) : minorUnits x = n := by
  rw [minorUnits, h, Int.floor_eq_iff]
  constructor
  · linarith
  · linarith

theorem minorUnits_natCast (n : Nat) : minorUnits n = n * 100 :=
  minorUnits_of_mul (by push_cast; ring)

/-- Digits all behind the point come to less than without it, unless they are zeros. -/
theorem minorUnits_div_ne {n k : Nat} (hn : n ≠ 0) (hk : 1 ≤ k) :
    minorUnits ((n : ℚ) / 10 ^ k) ≠ minorUnits n := by
  have hone : (1 : ℚ) ≤ n := by exact_mod_cast Nat.one_le_iff_ne_zero.mpr hn
  have hpow : (10 : ℚ) ≤ 10 ^ k := by
    calc (10 : ℚ) = 10 ^ 1 := (pow_one 10).symm
      _ ≤ 10 ^ k := pow_le_pow_right₀ (by norm_num) hk
  have hle : (n : ℚ) / 10 ^ k ≤ n / 10 := div_le_div_of_nonneg_left (by linarith) (by norm_num) hpow
  have hlt : minorUnits ((n : ℚ) / 10 ^ k) < n * 100 := by
    rw [minorUnits, Int.floor_lt]
    push_cast
    linarith
  rw [minorUnits_natCast]
  exact hlt.ne

theorem minorUnits_le {x : ℚ} (h : ¬ maxPlausibleAmountMinor < x * 100) :
    (minorUnits x : ℚ) ≤ maxPlausibleAmountMinor := by
  have hlt : minorUnits x < 10 ^ 15 + 1 := by
    rw [maxPlausibleAmountMinor, not_lt] at h
    rw [minorUnits, Int.floor_lt]
    push_cast
    linarith
  have hle : minorUnits x ≤ 10 ^ 15 := by omega
  rw [maxPlausibleAmountMinor]
  exact_mod_cast hle

section Points

variable [RuleTexts]

theorem places_of_noDigit (prev : Option Char) {s : List Char} (h : noDigit s = true) :
    places prev s = 0 := by
  rw [← fraction_kept, (kept_eq_nil_iff prev s).mpr h]
  rfl

theorem places_digit {prev : Option Char} {d : Char} (hd : d.isDigit = true) (rest : List Char) :
    places prev (d :: rest) = places (some d) rest := by
  rw [places, not_isPoint_of_digit hd, if_neg Bool.false_ne_true]

theorem places_decimals {prev : Option Char} {ds post : List Char}
    (hpoint : isPoint prev '.' = true) (hds : ∀ d ∈ ds, d.isDigit = true)
    (hpost : noDigit post = true) : places prev ('.' :: (ds ++ post)) = ds.length := by
  rw [places, if_pos hpoint, List.filter_append, List.filter_eq_self.mpr hds,
    filter_of_noDigit hpost, List.append_nil]

theorem places_grouped {w : List Char} (h : Grouped w) (prev : Option Char) :
    ∃ d, d.isDigit = true ∧ ∀ rest, places prev (w ++ rest) = places (some d) rest := by
  induction h generalizing prev with
  | @digit d hd => exact ⟨d, hd, places_digit hd⟩
  | @cons d w hd hw ih =>
    obtain ⟨e, he, hrest⟩ := ih (some d)
    exact ⟨e, he, fun rest => (places_digit hd _).trans (hrest rest)⟩
  | @comma d w hd hw ih =>
    obtain ⟨e, he, hrest⟩ := ih (some ',')
    have hcomma : isPoint (some d) ',' = false := rfl
    refine ⟨e, he, fun rest => ?_⟩
    have hskip : places (some d) (',' :: (w ++ rest)) = places (some e) rest := by
      rw [places, hcomma, if_neg Bool.false_ne_true]
      exact hrest rest
    exact (places_digit hd _).trans hskip

theorem points_grouped {w : List Char} (h : Grouped w) (prev : Option Char) :
    ∃ d, d.isDigit = true ∧ ∀ rest, points (some d) rest ≤ points prev (w ++ rest) := by
  induction h generalizing prev with
  | @digit d hd => exact ⟨d, hd, fun rest => Nat.le_add_left _ _⟩
  | @cons d w hd hw ih =>
    obtain ⟨e, he, hrest⟩ := ih (some d)
    exact ⟨e, he, fun rest => (hrest rest).trans (Nat.le_add_left _ _)⟩
  | @comma d w hd hw ih =>
    obtain ⟨e, he, hrest⟩ := ih (some ',')
    exact ⟨e, he, fun rest => (hrest rest).trans
      ((Nat.le_add_left _ _).trans (Nat.le_add_left _ _))⟩

theorem strayPoint_digit {prev : Option Char} {d : Char} (hd : d.isDigit = true)
    (rest : List Char) : strayPoint prev (d :: rest) = false := by
  rw [strayPoint, if_pos hd]

theorem strayPoint_text (prev : Option Char) (t : Numeral) (post : List Char) :
    strayPoint prev (t.text ++ post) = false := by
  obtain ⟨d, rest, htext, hd⟩ | ⟨-, d, rest, htext, hd⟩ := t.text_cases post
  · rw [htext, strayPoint_digit hd]
  · rw [htext, strayPoint, if_neg (by decide), List.head?_cons, Option.any_some, hd,
      Bool.not_true, Bool.and_false, if_neg Bool.false_ne_true, strayPoint_digit hd]

/-- A number does not begin behind its own first character. -/
theorem OneNumber.not_later {prev : Option Char} {t : Numeral} {c : Char} {rest post : List Char}
    (heq : t.text ++ post = c :: rest) (hpoint : t.whole = [] → isPoint prev '.' = true)
    (hdigit : c.isDigit = false)
    (hlater : isPoint prev c = true → rest.head?.any Char.isDigit = false) : False := by
  obtain ⟨d, rest', htext, hd⟩ | ⟨hwhole, d, rest', htext, hd⟩ := t.text_cases post
  · rw [htext, List.cons.injEq] at heq
    rw [heq.1, hdigit] at hd
    exact Bool.false_ne_true hd
  · rw [htext, List.cons.injEq] at heq
    have hhead := hlater (heq.1 ▸ hpoint hwhole)
    rw [← heq.2, List.head?_cons, Option.any_some, hd] at hhead
    exact Bool.false_ne_true hhead.symm

variable [DigitsAreNoLetters]

theorem isPoint_of_digit {d : Char} (hd : d.isDigit = true) : isPoint (some d) '.' = true := by
  have hletter := DigitsAreNoLetters.digit d hd
  rw [isPoint, Option.any_some, hletter]
  rfl

namespace OneNumber

variable {prev : Option Char} {s : List Char} {t : Numeral}

/-- Where no point stands stray, the decimals are the digits behind the point. -/
theorem places_eq (h : OneNumber prev s t) (hstray : strayPoint prev s = false) :
    places prev s = t.decimals.length := by
  induction h with
  | @here prev t post hpoint hpost =>
    by_cases hwhole : t.whole = []
    · have hsome := t.nonempty hwhole
      rw [Numeral.text, hwhole, if_neg hsome, List.nil_append, List.cons_append]
      exact places_decimals (hpoint hwhole) t.digits hpost
    · obtain ⟨d, hd, hrest⟩ := places_grouped (t.grouped.resolve_left hwhole) prev
      rw [Numeral.text, List.append_assoc, hrest]
      split
      · rename_i hnone
        rw [hnone]
        exact places_of_noDigit _ hpost
      · rw [List.cons_append]
        exact places_decimals (isPoint_of_digit hd) t.digits hpost
  | @later prev c rest t hdigit hpoint hrest ih =>
    rw [strayPoint, hdigit, if_neg Bool.false_ne_true, hrest.noDigit_eq_false] at hstray
    rw [places]
    cases hp : isPoint prev c with
    | false =>
      rw [hp, Bool.false_and, Bool.false_and, if_neg Bool.false_ne_true] at hstray
      rw [if_neg Bool.false_ne_true]
      exact ih hstray
    | true =>
      rw [hp, hpoint hp] at hstray
      exact absurd hstray (by simp)

/-- A text that holds one number holds no other. -/
theorem value_unique {t' : Numeral} (h : OneNumber prev s t) (h' : OneNumber prev s t') :
    t.value = t'.value := by
  have hdigits : t.wholeDigits ++ t.decimals = t'.wholeDigits ++ t'.decimals := by
    rw [← h.filter_digits, ← h'.filter_digits]
  have hlength : t.decimals.length = t'.decimals.length := by
    induction h with
    | @here prev t post hpoint hpost =>
      have hstray := strayPoint_text prev t post
      rw [← h'.places_eq hstray, ← (OneNumber.here hpoint hpost).places_eq hstray]
    | @later prev c rest t hdigit hpoint hrest ih =>
      generalize hs : c :: rest = s at h'
      cases h' with
      | here hpoint' _ => exact (not_later hs.symm hpoint' hdigit hpoint).elim
      | later _ _ hrest' =>
        rw [List.cons.injEq] at hs
        rw [← hs.1, ← hs.2] at hrest'
        exact ih hrest' hdigits
  rw [t.value_eq, t'.value_eq, hdigits, hlength]

/-- Decimals come with a point. -/
theorem one_le_points (h : OneNumber prev s t) (hsome : t.decimals ≠ []) : 1 ≤ points prev s := by
  induction h with
  | @here prev t post hpoint hpost =>
    have hdecimals : noDigit (t.decimals ++ post) = false := by
      obtain ⟨d, hd⟩ := List.exists_mem_of_ne_nil _ hsome
      exact Dinero.noDigit_eq_false (List.mem_append_left _ hd) (t.digits d hd)
    have hone : ∀ p, isPoint p '.' = true → 1 ≤ points p ('.' :: (t.decimals ++ post)) := by
      intro p hp
      rw [points, hp, hdecimals]
      exact Nat.le_add_right _ _
    by_cases hwhole : t.whole = []
    · rw [Numeral.text, hwhole, if_neg hsome, List.nil_append, List.cons_append]
      exact hone prev (hpoint hwhole)
    · obtain ⟨d, hd, hrest⟩ := points_grouped (t.grouped.resolve_left hwhole) prev
      rw [Numeral.text, List.append_assoc, if_neg hsome, List.cons_append]
      exact (hone _ (isPoint_of_digit hd)).trans (hrest _)
  | @later prev c rest t hdigit hpoint hrest ih =>
    exact (ih hsome).trans (Nat.le_add_left _ _)

/-- A stray point moves all digits behind it, and leaves the number no point of its own. -/
theorem of_strayPoint (h : OneNumber prev s t) (hstray : strayPoint prev s = true) :
    places prev s = (s.filter Char.isDigit).length ∧ (t.decimals ≠ [] → 2 ≤ points prev s) := by
  induction h with
  | @here prev t post hpoint hpost =>
    rw [strayPoint_text] at hstray
    exact absurd hstray Bool.false_ne_true
  | @later prev c rest t hdigit hpoint hrest ih =>
    have hnone := hrest.noDigit_eq_false
    have hfilter : (c :: rest).filter Char.isDigit = rest.filter Char.isDigit :=
      List.filter_cons_of_neg (by rw [hdigit]; decide)
    rw [strayPoint, hdigit, if_neg Bool.false_ne_true, hnone] at hstray
    rw [places, points, hfilter, hnone]
    cases hp : isPoint prev c with
    | true =>
      refine ⟨if_pos rfl, fun hsome => ?_⟩
      have hone := hrest.one_le_points hsome
      rw [Bool.true_and, Bool.not_false, if_pos rfl]
      omega
    | false =>
      rw [hp, Bool.false_and, Bool.false_and, if_neg Bool.false_ne_true] at hstray
      obtain ⟨hplaces, hpoints⟩ := ih hstray
      refine ⟨?_, fun hsome => (hpoints hsome).trans (Nat.le_add_left _ _)⟩
      rw [if_neg Bool.false_ne_true]
      exact hplaces

end OneNumber

theorem together_eq {s : List Char} {t : Numeral} (h : OneNumber none s t)
    (hstray : strayPoint none s = false) : together s = t.value := by
  rw [together, h.places_eq hstray, h.filter_digits, t.value_eq]

omit [DigitsAreNoLetters] in
theorem points_le_count (prev : Option Char) (s : List Char) : points prev s ≤ s.count '.' := by
  induction s generalizing prev with
  | nil => exact Nat.zero_le _
  | cons c rest ih =>
    have hrest := ih (some c)
    rw [points, List.count_cons]
    by_cases hpoint : (isPoint prev c && !noDigit rest) = true
    · rw [Bool.and_eq_true] at hpoint
      have hdot := isPoint_eq hpoint.1
      rw [hpoint.1, hpoint.2, hdot]
      rw [hdot] at hrest
      simp only [Bool.and_self, if_true, beq_self_eq_true]
      omega
    · rw [if_neg hpoint]
      omega

/-- A number is read for what it is. -/
theorem readExact_text {t : Numeral} (hwhole : t.whole ≠ [])
    (hmax : t.value * 100 ≤ maxPlausibleAmountMinor) :
    readExact t.text = some (minorUnits t.value) := by
  have hone : OneNumber none t.text t := by
    have hhere := @OneNumber.here _ none t [] (fun h => absurd h hwhole) rfl
    rwa [List.append_nil] at hhere
  have hstray : strayPoint none t.text = false := by
    have htext := strayPoint_text none t []
    rwa [List.append_nil] at htext
  have htogether := together_eq hone hstray
  have hpoints : points none t.text ≤ 1 := (points_le_count none t.text).trans t.count_text
  rw [readExact_of_not_refused, htogether]
  rintro (hnone | htwo | hmuch)
  · rw [hone.noDigit_eq_false] at hnone
    exact Bool.false_ne_true hnone
  · omega
  · rw [htogether] at hmuch
    exact absurd hmuch (not_lt.mpr hmax)

/-- Where one number is all the digits, what is read is its value unless a stray point took its
place. -/
theorem minorUnits_together_iff {s : List Char} {t : Numeral} (h : OneNumber none s t)
    (hread : ¬ RefusedAmount s) :
    minorUnits (together s) = minorUnits t.value ↔ strayPoint none s = false ∨ AllZeros s := by
  cases hstray : strayPoint none s with
  | false =>
    rw [together_eq h hstray]
    simp
  | true =>
    obtain ⟨hplaces, hpoints⟩ := h.of_strayPoint hstray
    have hwhole : t.decimals = [] := by
      by_contra hsome
      exact hread (.inr (.inl (hpoints hsome)))
    have hfilter := h.filter_digits
    have hvalue : t.value = number (s.filter Char.isDigit) := by
      rw [t.value_eq, hfilter, hwhole]
      simp
    have hdigits : ∀ c ∈ s.filter Char.isDigit, c.isDigit = true :=
      fun c hc => (List.mem_filter.mp hc).2
    have hlength : 1 ≤ (s.filter Char.isDigit).length := by
      rw [Nat.one_le_iff_ne_zero, Ne, List.length_eq_zero_iff]
      intro hnone
      have hall := noDigit_of_filter hnone
      rw [h.noDigit_eq_false] at hall
      exact Bool.false_ne_true hall
    rw [together, hplaces, hvalue]
    constructor
    · intro heq
      have hzero : number (s.filter Char.isDigit) = 0 := by
        by_contra hne
        exact minorUnits_div_ne hne hlength heq
      have hzeros := (number_eq_zero_iff hdigits).mp hzero
      exact .inr fun c hc hdigit => hzeros c (List.mem_filter.mpr ⟨hc, hdigit⟩)
    · intro hor
      have hzeros := hor.resolve_left (by decide)
      rw [number_of_allZeros hzeros]
      simp

/-- The amount read is the one number of the text exactly where the text is refused or its digits
adjoin, with no decimal point ahead of them but a number's own. -/
theorem readExact_iff (s : List Char) :
    (∀ v, readExact s = some v →
      ∃ t, OneNumber none s t ∧ v = minorUnits t.value ∧ (v : ℚ) ≤ maxPlausibleAmountMinor) ↔
      RefusedAmount s ∨ (adjoining none s = true ∧ (strayPoint none s = false ∨ AllZeros s)) := by
  by_cases hrefused : RefusedAmount s
  · rw [readExact_of_refused hrefused]
    simp [hrefused]
  · rw [readExact_of_not_refused hrefused]
    have hsome : noDigit s = false := by
      rw [Bool.eq_false_iff]
      exact fun h => hrefused (.inl h)
    constructor
    · intro hone
      obtain ⟨t, ht, hv, -⟩ := hone _ rfl
      exact .inr ⟨ht.adjoining, (minorUnits_together_iff ht hrefused).mp hv⟩
    · intro hcond v hv
      obtain ⟨hadjoining, hpoint⟩ := hcond.resolve_left hrefused
      obtain ⟨t, ht⟩ := exists_of_adjoining none s hadjoining hsome
      have hbound := minorUnits_le fun h => hrefused (.inr (.inr h))
      rw [← Option.some.inj hv]
      exact ⟨t, ht, (minorUnits_together_iff ht hrefused).mpr hpoint, hbound⟩

end Points

/-- `5 of 12`: two numbers, and 512 is read. -/
theorem two_numbers_read :
    letI := RuleTexts.words
    ¬ ∀ s v, readExact s = some v →
      ∃ t, OneNumber none s t ∧ v = minorUnits t.value ∧ (v : ℚ) ≤ maxPlausibleAmountMinor := by
  let := RuleTexts.words
  intro h
  have hread : readExact "5 of 12".toList = some 51200 := by decide +kernel
  obtain ⟨t, ht, -⟩ := h _ _ hread
  have hadjoining := ht.adjoining
  exact absurd hadjoining (by decide +kernel)

/-- A printed balance, with its currency, group commas and a full stop. -/
theorem readExact_rupees :
    letI := RuleTexts.words
    readExact "Rs.1,25,000.50.".toList = some 12500050 ∧
      ∃ t, OneNumber none "Rs.1,25,000.50.".toList t ∧ 12500050 = minorUnits t.value ∧
        ((12500050 : Int) : ℚ) ≤ maxPlausibleAmountMinor := by
  let := RuleTexts.words
  have := digitsAreNoLetters_words
  have hread : readExact "Rs.1,25,000.50.".toList = some 12500050 := by decide +kernel
  have hcond : adjoining none "Rs.1,25,000.50.".toList = true ∧
      strayPoint none "Rs.1,25,000.50.".toList = false := by decide +kernel
  have hone := (readExact_iff "Rs.1,25,000.50.".toList).mpr (.inr ⟨hcond.1, .inl hcond.2⟩)
  exact ⟨hread, hone _ hread⟩

end Dinero
