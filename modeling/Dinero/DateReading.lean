import Dinero.LearnedFields
import Dinero.Strftime

/-!
# Dinero.DateReading

What `parse_learned_event_time` makes of a capture: an epoch within bounds, or
the date of the first format that reads it.  The bounds are those of epochs
only; the date is within them where its year is.
-/

namespace Dinero

open Numerals Strftime

/-- What reading dates needs of `chrono` and the Unicode tables. -/
class ReadsDates [Extern] [RuleTexts] : Prop where
  space : PlainSpace isWhitespace
  parse : ∀ text : String, ∀ format ∈ dateFormats,
    parseDay text format = parseDate isWhitespace text.toList format.toList

/-! ## formats that do not read a text -/

/-- The formats by what they begin with. -/
def dashedFormats : List String := ["%d-%b-%y", "%d-%b-%Y", "%d-%m-%y", "%d-%m-%Y", "%m-%d-%Y"]

def slashedFormats : List String := ["%d/%m/%y", "%d/%m/%Y"]

def spacedFormats : List String :=
  ["%d %b %y", "%d %b %Y", "%d %b, %y", "%d %b, %Y", "%d %B %Y", "%d %B, %Y"]

def namedFormats : List String := ["%b %d, %Y", "%a, %b %d, %Y", "%a, %B %d, %Y", "%B %d, %Y"]

def yearFirstFormats : List String := ["%Y-%m-%d", "%Y-%m-%d %H:%M:%S"]

theorem dateFormats_cases : ∀ format ∈ dateFormats, format ∈ dashedFormats ∨
    format ∈ slashedFormats ∨ format ∈ spacedFormats ∨ format ∈ namedFormats ∨
      format ∈ yearFirstFormats := by
  decide

section Dead

variable {white : Char → Bool} {ds rest : List Char} {c : Char}

theorem fields?_none {format text : List Char} {pieces : List Item}
    (hitems : items format = some pieces) (h : readAll white pieces text {} = none) :
    fields? white format text = none := by
  rw [fields?_eq hitems, h]
  rfl

theorem readAll_day_literal_ne (h : PlainSpace white) (hf : Front 2 ds rest) {l : Char}
    (hl : rest.head? ≠ some l) (pieces : List Item) (p : Parsed) :
    readAll white (.day :: .literal l :: pieces) (ds ++ rest) p = none := by
  rw [readAll_day h hf]
  split
  · exact readAll_literal_ne hl
  · rfl

theorem readAll_month_literal_ne (h : PlainSpace white) (hf : Front 2 ds rest) {l : Char}
    (hl : rest.head? ≠ some l) (pieces : List Item) (p : Parsed) :
    readAll white (.month :: .literal l :: pieces) (ds ++ rest) p = none := by
  rw [readAll_month h hf]
  split
  · exact readAll_literal_ne hl
  · rfl

/-- Formats with a dash behind a day or a month. -/
theorem dashed_none (h : PlainSpace white) (hf : Front 2 ds rest) (hl : rest.head? ≠ some '-') :
    ∀ format ∈ dashedFormats, fields? white format.toList (ds ++ rest) = none := by
  have hday := readAll_day_literal_ne h hf hl
  have hmonth := readAll_month_literal_ne h hf hl
  simp only [dashedFormats, List.forall_mem_cons]
  exact ⟨fields?_none rfl (hday _ _), fields?_none rfl (hday _ _), fields?_none rfl (hday _ _),
    fields?_none rfl (hday _ _), fields?_none rfl (hmonth _ _), by simp⟩

/-- Formats with a slash behind a day. -/
theorem slashed_none (h : PlainSpace white) (hf : Front 2 ds rest) (hl : rest.head? ≠ some '/') :
    ∀ format ∈ slashedFormats, fields? white format.toList (ds ++ rest) = none := by
  have hday := readAll_day_literal_ne h hf hl
  simp only [slashedFormats, List.forall_mem_cons]
  exact ⟨fields?_none rfl (hday _ _), fields?_none rfl (hday _ _), by simp⟩

/-- Formats with a month's name behind a day and white space. -/
theorem spaced_none (h : PlainSpace white) (hf : Front 2 ds rest)
    (hname : (rest.dropWhile white).head?.any Char.isAlpha = false ∨
      (rest.dropWhile white).tail.head?.any Char.isAlpha = false) :
    ∀ format ∈ spacedFormats, fields? white format.toList (ds ++ rest) = none := by
  have hday : ∀ item pieces, item = .shortMonth ∨ item = .longMonth →
      readAll white (.day :: .space :: item :: pieces) (ds ++ rest) {} = none := by
    intro item pieces hitem
    rw [readAll_day h hf]
    split
    · rw [readAll_space]
      exact readAll_name_none hitem hname
    · rfl
  simp only [spacedFormats, List.forall_mem_cons]
  exact ⟨fields?_none rfl (hday _ _ (.inl rfl)), fields?_none rfl (hday _ _ (.inl rfl)),
    fields?_none rfl (hday _ _ (.inl rfl)), fields?_none rfl (hday _ _ (.inl rfl)),
    fields?_none rfl (hday _ _ (.inr rfl)), fields?_none rfl (hday _ _ (.inr rfl)), by simp⟩

/-- Formats that begin with a name. -/
theorem named_none {s : List Char} (h : s.head?.any Char.isAlpha = false) :
    ∀ format ∈ namedFormats, fields? white format.toList s = none := by
  simp only [namedFormats, List.forall_mem_cons]
  exact ⟨fields?_none rfl (readAll_name_none (.inl rfl) (.inl h)),
    fields?_none rfl (readAll_weekday_none h), fields?_none rfl (readAll_weekday_none h),
    fields?_none rfl (readAll_name_none (.inr rfl) (.inl h)), by simp⟩

/-- Formats that begin with a year and a dash. -/
theorem yearFirst_none (h : PlainSpace white) (hf : Front 4 ds rest)
    (hl : rest.head? ≠ some '-') :
    ∀ format ∈ yearFirstFormats, fields? white format.toList (ds ++ rest) = none := by
  have hyear : ∀ pieces,
      readAll white (.year :: .literal '-' :: pieces) (ds ++ rest) {} = none := by
    intro pieces
    rw [readAll_year h hf]
    exact readAll_literal_ne hl
  simp only [yearFirstFormats, List.forall_mem_cons]
  exact ⟨fields?_none rfl (hyear _), fields?_none rfl (hyear _), by simp⟩

/-! ### three numbers -/

variable {a b y : List Char} {sep l : Char}

/-- Day, month and what is left for the year. -/
theorem readAll_numeric (h : PlainSpace white) (ha : Digits 2 a) (hb : Digits 2 b)
    (hl : l.isDigit = false) (hday : 1 ≤ number a ∧ number a ≤ 31)
    (hmonth : 1 ≤ number b ∧ number b ≤ 12) (pieces : List Item) :
    readAll white (.day :: .literal l :: .month :: .literal l :: pieces)
      (a ++ l :: (b ++ l :: y)) {} =
      readAll white pieces y { day := some (number a), month := some (number b) } := by
  have hfronta : Front 2 a (l :: (b ++ l :: y)) := ha.front hl
  have hfrontb : Front 2 b (l :: y) := hb.front hl
  rw [readAll_day h hfronta, if_pos hday, readAll_literal, readAll_month h hfrontb,
    if_pos hmonth, readAll_literal]

/-- Three numbers with anything but dashes or slashes between them are no date. -/
theorem numeric_none (h : PlainSpace white) (ha : Digits 2 a) (hb : Digits 2 b)
    (hsep : sep.isDigit = false) (hdash : sep ≠ '-') (hslash : sep ≠ '/') :
    ∀ format ∈ dateFormats, fields? white format.toList (a ++ sep :: (b ++ rest)) = none := by
  have hf : Front 2 a (sep :: (b ++ rest)) := ha.front hsep
  have hf4 : Front 4 a (sep :: (b ++ rest)) := (ha.mono (by decide)).front hsep
  have hhead : ∀ l, sep ≠ l → (sep :: (b ++ rest)).head? ≠ some l := by
    intro l hl heq
    exact hl (Option.some.inj heq)
  have hname : ((sep :: (b ++ rest)).dropWhile white).head?.any Char.isAlpha = false ∨
      ((sep :: (b ++ rest)).dropWhile white).tail.head?.any Char.isAlpha = false := by
    cases hwhite : white sep with
    | true =>
      rw [List.dropWhile_cons_of_pos hwhite, hb.dropWhile h]
      exact .inl hb.head_not_alpha
    | false =>
      rw [dropWhile_head hwhite, List.tail_cons]
      exact .inr hb.head_not_alpha
  intro format hformat
  obtain hin | hin | hin | hin | hin := dateFormats_cases format hformat
  · exact dashed_none h hf (hhead _ hdash) format hin
  · exact slashed_none h hf (hhead _ hslash) format hin
  · exact spaced_none h hf hname format hin
  · exact named_none ha.head_not_alpha format hin
  · exact yearFirst_none h hf4 (hhead _ hdash) format hin

/-- The fields of three numbers, the day first. -/
def dayFirst (a b y : List Char) : Parsed :=
  if y.length ≤ 2 then
    { day := some (number a), month := some (number b), year2 := some (number y) }
  else { day := some (number a), month := some (number b), year := some (number y) }

theorem dayFirst_toDate {year date : Int} (hyear : (dayFirst a b y).fullYear = some year)
    (hdate : fromYmd year (number b) (number a) = some date) :
    (dayFirst a b y).toDate = some date := by
  have hfields : (dayFirst a b y).month = some ((number b : Nat) : Int) ∧
      (dayFirst a b y).day = some ((number a : Nat) : Int) ∧
      (dayFirst a b y).weekday = none := by
    rw [dayFirst]
    split
    · exact ⟨rfl, rfl, rfl⟩
    · exact ⟨rfl, rfl, rfl⟩
  exact Parsed.toDate_eq hyear hfields.1 hfields.2.1 hdate hfields.2.2

/-- The format of three numbers that has the year in as many digits as it is written in. -/
def numericFormat (sep : Char) (y : List Char) : String :=
  if sep = '/' then (if y.length ≤ 2 then "%d/%m/%y" else "%d/%m/%Y")
  else if y.length ≤ 2 then "%d-%m-%y" else "%d-%m-%Y"

theorem parseI64_of_sep {width : Nat} {a rest : List Char} {sep : Char} (ha : Digits width a)
    (hsep : sep.isDigit = false) : parseI64 (a ++ sep :: rest) = none := by
  obtain ⟨d, a, rfl⟩ := List.exists_cons_of_ne_nil ha.nonempty
  have hd := ha.digits d (.head a)
  have hminus : d ≠ '-' := by
    intro h
    rw [h] at hd
    exact absurd hd (by decide)
  have hplus : d ≠ '+' := by
    intro h
    rw [h] at hd
    exact absurd hd (by decide)
  have hall : (d :: a ++ sep :: rest).all isAsciiNumeral = false := by
    rw [List.all_eq_false]
    refine ⟨sep, by simp, ?_⟩
    have hnumeral : isAsciiNumeral sep = sep.isDigit := rfl
    rw [hnumeral, hsep]
    decide
  rw [parseI64, if_pos (.inr hall)]
  · intro digits heq
    exact hminus (List.cons.inj heq).1
  · intro digits heq
    exact hplus (List.cons.inj heq).1

end Dead

/-! ## dates and the window -/

/-- The year as it was written is one of 2000 to 2099, or the date is the first of January 2100. -/
def PlausibleYear (p : Parsed) : Prop :=
  ∀ year, p.fullYear = some year → (2000 ≤ year ∧ year ≤ 2099) ∨
    (year = 2100 ∧ p.month = some 1 ∧ p.day = some 1)

/-- A date is of the plausible time if its year is. -/
theorem plausibleYear_iff {p : Parsed} {date : Int} (h : p.toDate = some date) :
    (minPlausibleEpochSeconds ≤ date * 86400 ∧ date * 86400 ≤ maxPlausibleEpochSeconds) ↔
      PlausibleYear p := by
  obtain ⟨year, month, day, hyear, hmonth, hday, hdate⟩ := Parsed.toDate_fields h
  obtain ⟨-, -, hcivil⟩ := fromYmd_eq_some_iff.mp hdate
  have hof : dateOf (date * 86400) = date := by
    unfold dateOf
    omega
  have hspec := civil_spec (date * 86400)
  have hcivilDay := civil_day date
  rw [hof, monthOf, hof, hcivil] at hspec
  rw [hcivil] at hcivilDay
  obtain ⟨hvalid, hfirst, hlast⟩ := hspec
  dsimp only at hvalid hfirst hlast hcivilDay
  have hmonths : 1 ≤ month ∧ month ≤ 12 := hvalid
  have hserial : Month.serial ⟨year, month⟩ = 12 * year + month - 3 := rfl
  rw [hserial] at hfirst hlast hcivilDay
  have hmillennium : firstDay 23998 = 10957 := by decide
  have hend : firstDay 25198 = 47482 := by decide
  have hfebruary : firstDay 25199 = 47513 := by decide
  have hwindow : (minPlausibleEpochSeconds ≤ date * 86400 ∧
      date * 86400 ≤ maxPlausibleEpochSeconds) ↔ 10957 ≤ date ∧ date ≤ 47482 := by
    unfold minPlausibleEpochSeconds maxPlausibleEpochSeconds
    omega
  rw [hwindow, PlausibleYear, hyear, hmonth, hday]
  simp only [Option.some.injEq, forall_eq']
  constructor
  · rintro ⟨hlow, hhigh⟩
    have hafter : 2000 ≤ year := by
      by_contra hnot
      have hmono : firstDay (12 * year + month - 3 + 1) ≤ firstDay 23998 :=
        firstDay_mono (by omega)
      omega
    by_cases hcentury : year ≤ 2099
    · exact .inl ⟨hafter, hcentury⟩
    · have hserial' : 12 * year + month - 3 = 25198 := by
        by_contra hnot
        have hmono : firstDay 25199 ≤ firstDay (12 * year + month - 3) :=
          firstDay_mono (by omega)
        omega
      rw [hserial', hend] at hcivilDay hfirst
      exact .inr ⟨by omega, by omega, by omega⟩
  · rintro (⟨hlow, hhigh⟩ | ⟨hyear, hmonth, hday⟩)
    · have hstart : firstDay 23998 ≤ firstDay (12 * year + month - 3) := firstDay_mono (by omega)
      have hstop : firstDay (12 * year + month - 3 + 1) ≤ firstDay 25198 := firstDay_mono (by omega)
      omega
    · have hnew : 12 * year + month - 3 = 25198 := by omega
      rw [hnew, hend] at hcivilDay
      omega

/-! ## the first format that reads a text -/

/-! ## epochs -/

/-- An epoch in seconds, or in milliseconds of 2001 or later. -/
def EpochCapture (captured : List Char) : Prop :=
  ∃ n, parseI64 captured = some n ∧
    ((minPlausibleEpochSeconds ≤ n ∧ n ≤ maxPlausibleEpochSeconds) ∨
      (1000000000 ≤ n.tdiv 1000 ∧ n.tdiv 1000 ≤ maxPlausibleEpochSeconds))

section Epochs

variable [RuleTexts]

theorem parseLearnedEventTime_epoch {captured : List Char} (h : EpochCapture captured) :
    ∃ ts, parseLearnedEventTime captured = some (ts, false) ∧
      minPlausibleEpochSeconds ≤ ts ∧ ts ≤ maxPlausibleEpochSeconds := by
  obtain ⟨n, hn, hwindow⟩ := h
  rw [parseLearnedEventTime, hn]
  dsimp only
  by_cases hseconds : minPlausibleEpochSeconds ≤ n ∧ n ≤ maxPlausibleEpochSeconds
  · rw [if_pos hseconds]
    exact ⟨n, rfl, hseconds⟩
  · have hmillis := hwindow.resolve_left hseconds
    have hmin : minPlausibleEpochSeconds ≤ 1000000000 := by decide
    rw [if_neg hseconds, if_pos hmillis]
    exact ⟨_, rfl, by omega, hmillis.2⟩

theorem parseLearnedEventTime_date {captured : List Char} (h : ¬ EpochCapture captured) :
    parseLearnedEventTime captured = parseDateGeneric (String.ofList captured) := by
  rw [parseLearnedEventTime]
  cases hn : parseI64 captured with
  | none => rfl
  | some n =>
    have hseconds : ¬ (minPlausibleEpochSeconds ≤ n ∧ n ≤ maxPlausibleEpochSeconds) :=
      fun hwindow => h ⟨n, hn, .inl hwindow⟩
    have hmillis : ¬ (1000000000 ≤ n.tdiv 1000 ∧ n.tdiv 1000 ≤ maxPlausibleEpochSeconds) :=
      fun hwindow => h ⟨n, hn, .inr hwindow⟩
    dsimp only
    rw [if_neg hseconds, if_neg hmillis]

end Epochs

section Readings

variable [Extern]

/-- The date a format reads, with its fields. -/
def reading (text : List Char) (format : String) : Option (String × Parsed × Int) :=
  (fields? isWhitespace format.toList text).bind fun p => p.toDate.map fun date => (format, p, date)

/-- The first format of the list that reads a date, and what it reads. -/
def firstReading (text : List Char) : Option (String × Parsed × Int) :=
  dateFormats.findSome? (reading text)

/-- A numeric date that is one both day first and month first, and not the same. -/
def ReadsBothWays (captured : List Char) : Prop :=
  ∃ (a b y : List Char) (sep : Char), captured = a ++ sep :: (b ++ sep :: y) ∧
    sep.isDigit = false ∧ Digits 2 a ∧ Digits 2 b ∧ Digits 4 y ∧
    ∃ year first second,
      (dayFirst a b y).fullYear = some year ∧
      fromYmd year (number b) (number a) = some first ∧
      fromYmd year (number a) (number b) = some second ∧ first ≠ second

/-- What is first read, where the formats ahead read nothing. -/
theorem firstReading_eq {text : List Char} (ahead : List String) {behind : List String}
    {format : String} {p : Parsed} {date : Int} (hsplit : dateFormats = ahead ++ format :: behind)
    (hahead : ∀ f ∈ ahead, fields? isWhitespace f.toList text = none)
    (hfields : fields? isWhitespace format.toList text = some p) (hdate : p.toDate = some date) :
    firstReading text = some (format, p, date) := by
  refine List.findSome?_eq_some_iff.mpr ⟨ahead, format, behind, hsplit, ?_, ?_⟩
  · rw [reading, hfields, Option.bind_some, hdate]
    rfl
  · intro f hf
    rw [reading, hahead f hf]
    rfl

theorem firstReading_none {text : List Char}
    (h : ∀ f ∈ dateFormats, fields? isWhitespace f.toList text = none) :
    firstReading text = none := by
  refine List.findSome?_eq_none_iff.mpr fun f hf => ?_
  rw [reading, h f hf]
  rfl

/-- What is first read is read. -/
theorem firstReading_toDate {text : List Char} {format : String} {p : Parsed} {date : Int}
    (h : firstReading text = some (format, p, date)) : p.toDate = some date := by
  obtain ⟨_, f, _, -, hread, -⟩ := List.findSome?_eq_some_iff.mp h
  rw [reading, Option.bind_eq_some_iff] at hread
  obtain ⟨p', -, hread⟩ := hread
  rw [Option.map_eq_some_iff] at hread
  obtain ⟨date', hdate, heq⟩ := hread
  rw [Prod.mk.injEq, Prod.mk.injEq] at heq
  rw [← heq.2.1, ← heq.2.2]
  exact hdate

/-! ### three numbers, day first -/

section Numeric

variable {a b y : List Char}

theorem firstReading_numeric (h : PlainSpace isWhitespace) (ha : Digits 2 a) (hb : Digits 2 b)
    (hy : Digits 4 y) {sep : Char} (hsep : sep = '/' ∨ sep = '-') {year date : Int}
    (hyear : (dayFirst a b y).fullYear = some year)
    (hdate : fromYmd year (number b) (number a) = some date) :
    firstReading (a ++ sep :: (b ++ sep :: y)) =
      some (numericFormat sep y, dayFirst a b y, date) := by
  have hbounds := fromYmd_bounds hdate
  have htoDate := dayFirst_toDate hyear hdate
  have hday : 1 ≤ number a ∧ number a ≤ 31 := by omega
  have hmonth : 1 ≤ number b ∧ number b ≤ 12 := by omega
  have hdigit : sep.isDigit = false := by
    obtain rfl | rfl := hsep <;> rfl
  have hread := readAll_numeric (y := y) h ha hb hdigit hday hmonth
  -- With a year of more than two digits, the format for two leaves some of them unread.
  have hyear2 : ∀ format, items format = some
      [.day, .literal sep, .month, .literal sep, .year2] →
      fields? isWhitespace format (a ++ sep :: (b ++ sep :: y)) =
        if y.length ≤ 2 then some (dayFirst a b y) else none := by
    intro format hitems
    rw [fields?_eq hitems, hread, readAll_year2_end h hy, dayFirst]
    split
    · rfl
    · rfl
  have hyear4 : ∀ format, items format = some
      [.day, .literal sep, .month, .literal sep, .year] → ¬ y.length ≤ 2 →
      fields? isWhitespace format (a ++ sep :: (b ++ sep :: y)) = some (dayFirst a b y) := by
    intro format hitems hlong
    rw [fields?_eq hitems, hread, readAll_year_end h hy, dayFirst, if_neg hlong]
  have hfront : Front 2 a (sep :: (b ++ sep :: y)) := ha.front hdigit
  have hname : ∀ pieces, readAll isWhitespace (.day :: .literal '-' :: .shortMonth :: pieces)
      (a ++ sep :: (b ++ sep :: y)) {} = none := by
    intro pieces
    obtain rfl | rfl := hsep
    · exact readAll_day_literal_ne h hfront (by simp) _ _
    · rw [readAll_day h hfront, if_pos hday, readAll_literal]
      exact readAll_name_none (.inl rfl) (.inl hb.head_not_alpha)
  have hnamed : ∀ f ∈ ["%d-%b-%y", "%d-%b-%Y"],
      fields? isWhitespace f.toList (a ++ sep :: (b ++ sep :: y)) = none := by
    simp only [List.forall_mem_cons]
    exact ⟨fields?_none rfl (hname _), fields?_none rfl (hname _), by simp⟩
  -- The formats ahead of the first that takes these numbers, and the one for a short year.
  obtain ⟨ahead, hahead, hshortFormat, hlongFormat⟩ : ∃ ahead : List String,
      (∀ f ∈ ahead, fields? isWhitespace f.toList (a ++ sep :: (b ++ sep :: y)) = none) ∧
      (∃ short behind, dateFormats = ahead ++ short :: behind ∧
        items short.toList = some [.day, .literal sep, .month, .literal sep, .year2] ∧
        (y.length ≤ 2 → short = numericFormat sep y)) ∧
      (¬ y.length ≤ 2 → ∃ short behind,
        dateFormats = ahead ++ short :: numericFormat sep y :: behind ∧
        items short.toList = some [.day, .literal sep, .month, .literal sep, .year2] ∧
        items (numericFormat sep y).toList =
          some [.day, .literal sep, .month, .literal sep, .year]) := by
    obtain rfl | rfl := hsep
    · refine ⟨["%d-%b-%y", "%d-%b-%Y"], hnamed, ⟨"%d/%m/%y", _, rfl, rfl, ?_⟩, ?_⟩
      · intro hshort
        rw [numericFormat, if_pos rfl, if_pos hshort]
      · intro hlong
        rw [numericFormat, if_pos rfl, if_neg hlong]
        exact ⟨"%d/%m/%y", _, rfl, rfl, rfl⟩
    · have hslashed := slashed_none h hfront (by simp)
      refine ⟨["%d-%b-%y", "%d-%b-%Y"] ++ slashedFormats, ?_, ⟨"%d-%m-%y", _, rfl, rfl, ?_⟩, ?_⟩
      · exact List.forall_mem_append.mpr ⟨hnamed, hslashed⟩
      · intro hshort
        rw [numericFormat, if_neg (by decide), if_pos hshort]
      · intro hlong
        rw [numericFormat, if_neg (by decide), if_neg hlong]
        exact ⟨"%d-%m-%y", _, rfl, rfl, rfl⟩
  by_cases hshort : y.length ≤ 2
  · obtain ⟨short, behind, hsplit, hitems, hsame⟩ := hshortFormat
    have hfields := hyear2 _ hitems
    rw [if_pos hshort, hsame hshort] at hfields
    rw [hsame hshort] at hsplit
    exact firstReading_eq ahead hsplit hahead hfields htoDate
  · obtain ⟨short, behind, hsplit, hitems, hlong⟩ := hlongFormat hshort
    have hskip := hyear2 _ hitems
    rw [if_neg hshort] at hskip
    have hsplit' : dateFormats = (ahead ++ [short]) ++ numericFormat sep y :: behind := by
      rw [List.append_assoc]
      exact hsplit
    have hahead' := List.forall_mem_append.mpr ⟨hahead, List.forall_mem_singleton.mpr hskip⟩
    exact firstReading_eq (ahead ++ [short]) hsplit' hahead' (hyear4 _ hlong hshort) htoDate

end Numeric

variable [RuleTexts] [ReadsDates]

theorem parseDateGeneric_eq (text : List Char) :
    parseDateGeneric (String.ofList text) = (firstReading text).map fun (format, _, date) =>
      (date * 86400, decide (format ∈ numericAmbiguousFormats ∧ (civil date).2.2 ≤ 12 ∧
        (civil date).2.2 ≠ (civil date).2.1)) := by
  rw [parseDateGeneric, firstReading, List.map_findSome?]
  have hall : ∀ format ∈ dateFormats, parseDay (String.ofList text) format =
      (reading text format).map fun (_, _, date) => date := by
    intro format hformat
    rw [ReadsDates.parse _ format hformat, String.toList_ofList, parseDate, reading]
    cases fields? isWhitespace format.toList text with
    | none => rfl
    | some p =>
      rw [Option.bind_some, Option.bind_some]
      cases p.toDate with
      | none => rfl
      | some date => rfl
  have hformat : ∀ format, ∀ found ∈ reading text format, found.1 = format := by
    intro format found hfound
    rw [reading] at hfound
    simp only [Option.mem_def, Option.bind_eq_some_iff, Option.map_eq_some_iff] at hfound
    obtain ⟨p, -, date, -, rfl⟩ := hfound
    rfl
  generalize dateFormats = formats at hall
  induction formats with
  | nil => rfl
  | cons format formats ih =>
    have hrest := ih fun f hf => hall f (.tail format hf)
    rw [List.findSome?_cons, List.findSome?_cons, hall format (.head formats), hrest]
    cases hread : reading text format with
    | none => rw [Function.comp_apply, hread]; rfl
    | some found =>
      have hsame := hformat format found hread
      rw [Function.comp_apply, hread, ← hsame]
      rfl

/-! ## event times -/

/-- A date that can be read both ways is flagged, if it is read at all. -/
theorem flagged {captured : List Char} (hboth : ReadsBothWays captured) {ts : Int}
    {ambiguous : Bool} (h : parseLearnedEventTime captured = some (ts, ambiguous)) :
    ambiguous = true := by
  obtain ⟨a, b, y, sep, rfl, hsep, ha, hb, hy, year, first, second, hyear, hfirst, hsecond, hne⟩ :=
    hboth
  rw [parseLearnedEventTime, parseI64_of_sep ha hsep] at h
  dsimp only at h
  rw [parseDateGeneric_eq] at h
  by_cases hmatch : sep = '/' ∨ sep = '-'
  · obtain ⟨-, -, hcivil⟩ := fromYmd_eq_some_iff.mp hfirst
    have hbounds := fromYmd_bounds hsecond
    have hnumbers : (number a : Int) ≠ number b := by
      intro heq
      rw [heq] at hfirst hsecond
      exact hne (Option.some.inj (hfirst.symm.trans hsecond))
    have hformat : numericFormat sep y ∈ numericAmbiguousFormats := by
      rw [numericFormat]
      split
      · split
        · decide
        · decide
      · split
        · decide
        · decide
    rw [firstReading_numeric ReadsDates.space ha hb hy hmatch hyear hfirst, Option.map_some,
      Option.some.injEq, Prod.mk.injEq] at h
    rw [← h.2, decide_eq_true_iff, hcivil]
    exact ⟨hformat, hbounds.2.1, hnumbers⟩
  · rw [not_or] at hmatch
    rw [firstReading_none (numeric_none ReadsDates.space ha hb hsep hmatch.2 hmatch.1)] at h
    exact absurd h (by simp)

/-- An event time that is accepted is plausible and flagged where it can be read both ways exactly
where the capture is an epoch, or the year of the date first read is plausible. -/
theorem eventTime_iff (captured : List Char) :
    (∀ ts ambiguous, parseLearnedEventTime captured = some (ts, ambiguous) →
      minPlausibleEpochSeconds ≤ ts ∧ ts ≤ maxPlausibleEpochSeconds ∧
        (ReadsBothWays captured → ambiguous = true)) ↔
      EpochCapture captured ∨
        ∀ format p date, firstReading captured = some (format, p, date) → PlausibleYear p := by
  by_cases hepoch : EpochCapture captured
  · refine iff_of_true (fun ts ambiguous h => ?_) (.inl hepoch)
    have hflag : ReadsBothWays captured → ambiguous = true := fun hboth => flagged hboth h
    obtain ⟨ts', hread, hwindow⟩ := parseLearnedEventTime_epoch hepoch
    rw [hread, Option.some.injEq, Prod.mk.injEq] at h
    rw [← h.1]
    exact ⟨hwindow.1, hwindow.2, hflag⟩
  · have hgeneric := parseLearnedEventTime_date hepoch
    rw [parseDateGeneric_eq] at hgeneric
    constructor
    · intro hall
      refine .inr fun format p date hfirst => ?_
      rw [hfirst, Option.map_some] at hgeneric
      have hwindow := hall _ _ hgeneric
      exact (plausibleYear_iff (firstReading_toDate hfirst)).mp ⟨hwindow.1, hwindow.2.1⟩
    · intro hor ts ambiguous h
      have hflag : ReadsBothWays captured → ambiguous = true := fun hboth => flagged hboth h
      have hyears := hor.resolve_left hepoch
      rw [hgeneric, Option.map_eq_some_iff] at h
      obtain ⟨⟨format, p, date⟩, hfirst, heq⟩ := h
      have hwindow := (plausibleYear_iff (firstReading_toDate hfirst)).mpr (hyears _ _ _ hfirst)
      have hts : date * 86400 = ts := (Prod.mk.inj heq).1
      rw [← hts]
      exact ⟨hwindow.1, hwindow.2, hflag⟩

end Readings

/-! ### a date of the first century -/

/-- Dates by format, over patterns of plain words. -/
@[reducible] def RuleTexts.dates : RuleTexts :=
  { RuleTexts.words with
    parseDay := fun text format => parseDate Char.isWhitespace text.toList format.toList
    formatDay := fun date format =>
      String.ofList ((Strftime.formatDate date format.toList).getD []) }

theorem plainSpace_ascii : PlainSpace Char.isWhitespace where
  blank := rfl
  visible _ hlow _ := isWhitespace_of_lt (by omega)

theorem readsDates_ascii :
    letI := Extern.ascii
    letI := RuleTexts.dates
    ReadsDates :=
  letI := Extern.ascii
  letI := RuleTexts.dates
  { space := plainSpace_ascii
    parse := fun _ _ _ => rfl }

/-- `99-01-05` has no day 99, and is the year 99. -/
theorem first_century_read :
    letI := Extern.ascii
    letI := RuleTexts.dates
    ¬ ∀ captured ts ambiguous, parseLearnedEventTime captured = some (ts, ambiguous) →
      minPlausibleEpochSeconds ≤ ts ∧ ts ≤ maxPlausibleEpochSeconds ∧
        (ReadsBothWays captured → ambiguous = true) := by
  let := Extern.ascii
  let := RuleTexts.dates
  intro h
  have hread : parseLearnedEventTime "99-01-05".toList = some (-683364 * 86400, false) := by
    decide +kernel
  have hwindow := h _ _ _ hread
  exact absurd hwindow.1 (by decide)

/-- The fifth of March 2024, or the third of May. -/
theorem eventTime_march :
    letI := Extern.ascii
    letI := RuleTexts.dates
    parseLearnedEventTime "05/03/2024".toList = some (1709596800, true) ∧
      minPlausibleEpochSeconds ≤ 1709596800 ∧ 1709596800 ≤ maxPlausibleEpochSeconds ∧
        (ReadsBothWays "05/03/2024".toList → true = true) := by
  let := Extern.ascii
  let := RuleTexts.dates
  have := readsDates_ascii
  have hread : parseLearnedEventTime "05/03/2024".toList = some (1709596800, true) := by
    decide +kernel
  have hfirst : firstReading "05/03/2024".toList =
      some ("%d/%m/%Y", { day := some 5, month := some 3, year := some 2024 }, 19787) := by
    decide +kernel
  have hyears : ∀ format p date, firstReading "05/03/2024".toList = some (format, p, date) →
      PlausibleYear p := by
    intro format p date h year hyear
    rw [hfirst, Option.some.injEq, Prod.mk.injEq, Prod.mk.injEq] at h
    rw [← h.2.1] at hyear
    have hwritten : (2024 : Int) = year := Option.some.inj hyear
    exact .inl (by omega)
  exact ⟨hread, (eventTime_iff _).mpr (.inr hyears) _ _ hread⟩

end Dinero
