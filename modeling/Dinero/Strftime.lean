import Dinero.Calendar
import Dinero.Numerals

/-!
# Dinero.Strftime

Dates by format: what a text is read as, and how a date is printed.

Numbers may have white space and zeros in front of them and take as many digits
as their conversion allows; a space stands for any white space, or none; names
are read in either case.  The white space of texts is a parameter.
-/

namespace Dinero.Strftime

open Numerals

/-- A piece of a format. -/
inductive Item
  | literal (c : Char)
  | space
  | day
  | month
  | year
  | year2
  | shortMonth
  | longMonth
  | shortWeekday
  | hour
  | minute
  | second
deriving DecidableEq, Repr

/-- What follows a percent sign. -/
def specifier : Char → Option Item
  | 'd' => some .day
  | 'm' => some .month
  | 'Y' => some .year
  | 'y' => some .year2
  | 'b' => some .shortMonth
  | 'B' => some .longMonth
  | 'a' => some .shortWeekday
  | 'H' => some .hour
  | 'M' => some .minute
  | 'S' => some .second
  | _ => none

/-- The pieces of a format. -/
def items : List Char → Option (List Item)
  | [] => some []
  | '%' :: c :: rest => (specifier c).bind fun item => (items rest).map (item :: ·)
  | c :: rest =>
    if c = '%' then none
    else (items rest).map ((if c.isWhitespace then .space else .literal c) :: ·)

/-- The fields read so far. -/
structure Parsed where
  day : Option Int := none
  month : Option Int := none
  year : Option Int := none
  year2 : Option Int := none
  weekday : Option Int := none
deriving DecidableEq, Repr

def monthNames : List (List Char) :=
  ["january", "february", "march", "april", "may", "june", "july", "august", "september",
    "october", "november", "december"].map String.toList

def weekdayNames : List (List Char) :=
  ["sun", "mon", "tue", "wed", "thu", "fri", "sat"].map String.toList

/-! ## reading -/

section Reading

variable (white : Char → Bool)

/-- A number of up to `width` digits, and the text behind it. -/
def number? (width : Nat) (s : List Char) : Option (Nat × List Char) :=
  let s := s.dropWhile white
  let digits := (s.take width).takeWhile Char.isDigit
  if digits = [] then none else some (number digits, s.drop digits.length)

/-- A number within bounds. -/
def ranged (width : Nat) (low high : Int) (s : List Char) (set : Int → Parsed) :
    Option (List Char × Parsed) :=
  (number? white width s).bind fun (n, rest) =>
    if low ≤ n ∧ (n : Int) ≤ high then some (rest, set n) else none

/-- A year has up to four digits, and with a sign any number of them. -/
def signedYear (s : List Char) : Option (Int × List Char) :=
  match s.dropWhile white with
  | '-' :: rest => (number? (fun _ => false) rest.length rest).map fun (n, rest) => (-n, rest)
  | '+' :: rest => (number? (fun _ => false) rest.length rest).map fun (n, rest) => (n, rest)
  | rest => (number? white 4 rest).map fun (n, rest) => (n, rest)

/-- The name a text begins with, by its first three letters. -/
def name? (names : List (List Char)) (s : List Char) : Option (Nat × List Char) :=
  (names.findIdx? fun name => name.take 3 == (s.take 3).map Char.toLower).map (·, s.drop 3)

/-- The rest of a long name is read where it is there. -/
def longName? (names : List (List Char)) (s : List Char) : Option (Nat × List Char) :=
  (name? names s).map fun (i, rest) =>
    let suffix := (names.getD i []).drop 3
    if (rest.take suffix.length).map Char.toLower = suffix then (i, rest.drop suffix.length)
    else (i, rest)

/-- What one piece of a format reads. -/
def Item.read (p : Parsed) (s : List Char) : Item → Option (List Char × Parsed)
  | .literal c =>
    match s with
    | d :: rest => if d = c then some (rest, p) else none
    | [] => none
  | .space => some (s.dropWhile white, p)
  | .day => ranged white 2 1 31 s fun n => { p with day := some n }
  | .month => ranged white 2 1 12 s fun n => { p with month := some n }
  | .year => (signedYear white s).map fun (n, rest) => (rest, { p with year := some n })
  | .year2 => ranged white 2 0 99 s fun n => { p with year2 := some n }
  | .shortMonth =>
    (name? monthNames s).map fun (i, rest) => (rest, { p with month := some (i + 1) })
  | .longMonth =>
    (longName? monthNames s).map fun (i, rest) => (rest, { p with month := some (i + 1) })
  | .shortWeekday =>
    (name? weekdayNames s).map fun (i, rest) => (rest, { p with weekday := some i })
  | .hour => ranged white 2 0 23 s fun _ => p
  | .minute => ranged white 2 0 59 s fun _ => p
  | .second => ranged white 2 0 60 s fun _ => p

/-- What the pieces read, one behind the other. -/
def readAll : List Item → List Char → Parsed → Option (List Char × Parsed)
  | [], s, p => some (s, p)
  | item :: rest, s, p => (item.read white p s).bind fun (s, p) => readAll rest s p

/-- The fields of a text that the format reads to its end. -/
def fields? (format text : List Char) : Option Parsed :=
  (items format).bind fun pieces =>
    (readAll white pieces text {}).bind fun (rest, p) => if rest = [] then some p else none

end Reading

/-- The year as it was written: two digits are of 1970 to 2069. -/
def Parsed.fullYear (p : Parsed) : Option Int :=
  match p.year, p.year2 with
  | some year, none => some year
  | none, some n => some (if n < 70 then 2000 + n else 1900 + n)
  | some year, some n => if 0 ≤ year ∧ year % 100 = n then some year else none
  | none, none => none

/-- Sunday is 0; 1970 began on a Thursday. -/
def weekdayOf (date : Int) : Int := (date + 4) % 7

/-- The date of the fields, if there is one and it is the weekday they name. -/
def Parsed.toDate (p : Parsed) : Option Int := do
  let year ← p.fullYear
  let month ← p.month
  let day ← p.day
  let date ← fromYmd year month day
  if p.weekday.all (· = weekdayOf date) then some date else none

/-- The fields of a date are its own. -/
theorem Parsed.toDate_fields {p : Parsed} {date : Int} (h : p.toDate = some date) :
    ∃ year month day, p.fullYear = some year ∧ p.month = some month ∧ p.day = some day ∧
      fromYmd year month day = some date := by
  rw [Parsed.toDate] at h
  cases hyear : p.fullYear with
  | none => simp [hyear] at h
  | some year =>
    cases hmonth : p.month with
    | none => simp [hyear, hmonth] at h
    | some month =>
      cases hday : p.day with
      | none => simp [hyear, hmonth, hday] at h
      | some day =>
        cases hdate : fromYmd year month day with
        | none => simp [hyear, hmonth, hday, hdate] at h
        | some date' =>
          simp only [hyear, hmonth, hday, hdate, Option.bind_eq_bind, Option.bind_some] at h
          split at h
          · rw [Option.some.inj h] at hdate
            exact ⟨year, month, day, rfl, rfl, rfl, hdate⟩
          · exact absurd h (by simp)

theorem Parsed.toDate_eq {p : Parsed} {year month day date : Int}
    (hyear : p.fullYear = some year) (hmonth : p.month = some month) (hday : p.day = some day)
    (hdate : fromYmd year month day = some date) (hweekday : p.weekday = none) :
    p.toDate = some date := by
  rw [Parsed.toDate]
  simp [hyear, hmonth, hday, hdate, hweekday]

/-- `NaiveDate::parse_from_str`. -/
def parseDate (white : Char → Bool) (text format : List Char) : Option Int :=
  (fields? white format text).bind Parsed.toDate

/-! ## printing -/

/-- So many digits, with zeros in front. -/
def padded (width : Nat) (n : Nat) : List Char :=
  List.replicate (width - (Nat.toDigits 10 n).length) '0' ++ Nat.toDigits 10 n

/-- A name with a capital letter. -/
def capitalized : List Char → List Char
  | [] => []
  | c :: rest => c.toUpper :: rest

/-- What one piece of a format prints of a date; a date has no time. -/
def Item.print (date : Int) (item : Item) : Option (List Char) :=
  let (y, m, d) := civil date
  match item with
  | .literal c => some [c]
  | .space => some [' ']
  | .day => some (padded 2 d.toNat)
  | .month => some (padded 2 m.toNat)
  -- Years of more than four digits, or before the year 0, have a sign.
  | .year =>
    if 0 ≤ y ∧ y ≤ 9999 then some (padded 4 y.toNat)
    else if y < 0 then some ('-' :: padded 4 (-y).toNat)
    else some ('+' :: padded 4 y.toNat)
  | .year2 => some (padded 2 (y % 100).toNat)
  | .shortMonth => some (capitalized ((monthNames.getD (m.toNat - 1) []).take 3))
  | .longMonth => some (capitalized (monthNames.getD (m.toNat - 1) []))
  | .shortWeekday => some (capitalized (weekdayNames.getD (weekdayOf date).toNat []))
  | .hour => none
  | .minute => none
  | .second => none

def printAll (date : Int) : List Item → Option (List Char)
  | [] => some []
  | item :: rest =>
    (Item.print date item).bind fun front => (printAll date rest).map (front ++ ·)

/-- `date.format(format).to_string()`. -/
def formatDate (date : Int) (format : List Char) : Option (List Char) :=
  (items format).bind (printAll date)

example : formatDate 19787 "%d/%b/%Y, %a".toList = some "05/Mar/2024, Tue".toList := by
  decide +kernel

example : parseDate (· == ' ') "tue, march 5, 2024".toList "%a, %B %d, %Y".toList = some 19787 := by
  decide +kernel

/-! ## what is read in front of a text -/

/-- White space: a blank is, what is printed visibly in ASCII is not. -/
structure PlainSpace (white : Char → Bool) : Prop where
  blank : white ' ' = true
  visible : ∀ c : Char, 33 ≤ c.toNat → c.toNat < 127 → white c = false

section Reads

variable {white : Char → Bool}

theorem PlainSpace.digit (h : PlainSpace white) {c : Char} (hc : c.isDigit = true) :
    white c = false := by
  have hrange := isDigit_range hc
  exact h.visible c (by omega) (by omega)

/-- White space in front of a text that begins with none. -/
theorem dropWhile_head {c : Char} {rest : List Char} (h : white c = false) :
    (c :: rest).dropWhile white = c :: rest :=
  List.dropWhile_cons_of_neg (by rw [h]; decide)

/-- Digits are read as one number, up to its width. -/
theorem number?_append (h : PlainSpace white) {ds rest : List Char} {width : Nat}
    (hds : ∀ c ∈ ds, c.isDigit = true) (hne : ds ≠ []) (hlength : ds.length ≤ width)
    (hrest : ds.length = width ∨ rest.head?.any Char.isDigit = false) :
    number? white width (ds ++ rest) = some (number ds, rest) := by
  obtain ⟨d, ds', rfl⟩ := List.exists_cons_of_ne_nil hne
  have hdrop : (d :: ds' ++ rest).dropWhile white = d :: ds' ++ rest :=
    dropWhile_head (h.digit (hds d (.head ds')))
  have htake : ((d :: ds' ++ rest).take width).takeWhile Char.isDigit = d :: ds' := by
    rw [List.take_append, List.take_of_length_le hlength, List.takeWhile_append_of_pos hds]
    have hnone : (rest.take (width - (d :: ds').length)).takeWhile Char.isDigit = [] := by
      obtain hfull | hhead := hrest
      · rw [hfull, Nat.sub_self, List.take_zero, List.takeWhile_nil]
      · cases rest with
        | nil => simp
        | cons c rest =>
          cases width - (d :: ds').length with
          | zero => rfl
          | succ n =>
            have hc : c.isDigit = false := hhead
            rw [List.take_succ_cons, List.takeWhile_cons_of_neg (by rw [hc]; decide)]
    rw [hnone, List.append_nil]
  rw [number?]
  simp only [hdrop, htake]
  rw [if_neg hne, List.drop_left]

/-- No number is read where none stands. -/
theorem number?_none {s : List Char} {width : Nat}
    (h : (s.dropWhile white).head?.any Char.isDigit = false) : number? white width s = none := by
  rw [number?]
  generalize s.dropWhile white = s at h
  have hnone : (s.take width).takeWhile Char.isDigit = [] := by
    cases s with
    | nil => simp
    | cons c rest =>
      cases width with
      | zero => rfl
      | succ n =>
        have hc : c.isDigit = false := h
        rw [List.take_succ_cons, List.takeWhile_cons_of_neg (by rw [hc]; decide)]
  simp only [hnone, if_pos]

/-- Names that begin with letters. -/
def Lettered (names : List (List Char)) : Prop :=
  ∀ name ∈ names, ∃ a b rest, name = a :: b :: rest ∧ a.isAlpha = true ∧ b.isAlpha = true

theorem monthNames_lettered : Lettered monthNames := by
  intro name hname
  have hall : monthNames.all (fun name => (name.take 2).all Char.isAlpha && 2 ≤ name.length) =
      true := by decide
  have hname := List.all_eq_true.mp hall name hname
  match name with
  | [] => exact absurd hname (by decide)
  | [_] => simp at hname
  | a :: b :: rest =>
    simp only [List.take_succ_cons, List.take_zero, List.all_cons, List.all_nil, Bool.and_true,
      Bool.and_eq_true] at hname
    exact ⟨a, b, rest, rfl, hname.1⟩

/-- No name is read from a text whose first two characters are not letters. -/
theorem name?_none {names : List (List Char)} (hnames : Lettered names) {s : List Char}
    (h : s.head?.any Char.isAlpha = false ∨ s.tail.head?.any Char.isAlpha = false) :
    name? names s = none := by
  have hlower : ∀ c d : Char, c.isAlpha = false → d.isAlpha = true → d ≠ c.toLower := by
    intro c d hc hd heq
    obtain hsame | ⟨hletter, -⟩ := toLower_cases c
    · rw [heq, hsame, hc] at hd
      exact Bool.false_ne_true hd
    · rw [hc] at hletter
      exact Bool.false_ne_true hletter
  rw [name?, List.findIdx?_eq_none_iff.mpr, Option.map_none]
  intro name hname
  obtain ⟨a, b, rest, rfl, ha, hb⟩ := hnames name hname
  rw [beq_eq_false_iff_ne]
  intro heq
  match s with
  | [] => simp at heq
  | [x] => simp at heq
  | x :: y :: s =>
    simp only [List.take_succ_cons, List.map_cons, List.cons.injEq] at heq
    obtain hx | hy := h
    · exact hlower x a hx ha heq.1
    · exact hlower y b hy hb heq.2.1

/-- Up to so many digits. -/
structure Digits (width : Nat) (ds : List Char) : Prop where
  digits : ∀ c ∈ ds, c.isDigit = true
  nonempty : ds ≠ []
  fits : ds.length ≤ width

/-- Digits that a conversion of so many reads, and leaves the text behind them. -/
structure Front (width : Nat) (ds rest : List Char) : Prop extends Digits width ds where
  stops : ds.length = width ∨ rest.head?.any Char.isDigit = false

variable {ds rest y : List Char} {p : Parsed} {pieces : List Item}

theorem Digits.front {width : Nat} (h : Digits width ds)
    (hrest : rest.head?.any Char.isDigit = false) : Front width ds rest :=
  { h with stops := .inr hrest }

theorem Front.number? (h : PlainSpace white) {width : Nat} (hf : Front width ds rest) :
    number? white width (ds ++ rest) = some (number ds, rest) :=
  number?_append h hf.digits hf.nonempty hf.fits hf.stops

theorem Front.ranged (h : PlainSpace white) {width : Nat} (hf : Front width ds rest)
    (low high : Int) (set : Int → Parsed) :
    Strftime.ranged white width low high (ds ++ rest) set =
      if low ≤ number ds ∧ (number ds : Int) ≤ high then some (rest, set (number ds))
      else none := by
  rw [Strftime.ranged, hf.number? h, Option.bind_some]

theorem readAll_day (h : PlainSpace white) (hf : Front 2 ds rest) :
    readAll white (.day :: pieces) (ds ++ rest) p =
      if 1 ≤ number ds ∧ number ds ≤ 31 then
        readAll white pieces rest { p with day := some (number ds) }
      else none := by
  rw [readAll, Item.read, hf.ranged h]
  by_cases hbounds : 1 ≤ number ds ∧ number ds ≤ 31
  · rw [if_pos hbounds, if_pos (by omega)]
    rfl
  · rw [if_neg hbounds, if_neg (by omega)]
    rfl

theorem readAll_month (h : PlainSpace white) (hf : Front 2 ds rest) :
    readAll white (.month :: pieces) (ds ++ rest) p =
      if 1 ≤ number ds ∧ number ds ≤ 12 then
        readAll white pieces rest { p with month := some (number ds) }
      else none := by
  rw [readAll, Item.read, hf.ranged h]
  by_cases hbounds : 1 ≤ number ds ∧ number ds ≤ 12
  · rw [if_pos hbounds, if_pos (by omega)]
    rfl
  · rw [if_neg hbounds, if_neg (by omega)]
    rfl

theorem readAll_year2 (h : PlainSpace white) (hf : Front 2 ds rest) :
    readAll white (.year2 :: pieces) (ds ++ rest) p =
      readAll white pieces rest { p with year2 := some (number ds) } := by
  have hlt := number_lt hf.digits
  have hpow : 10 ^ ds.length ≤ 10 ^ 2 := Nat.pow_le_pow_right (by decide) hf.fits
  rw [readAll, Item.read, hf.ranged h, if_pos (by omega)]
  rfl

theorem readAll_year (h : PlainSpace white) (hf : Front 4 ds rest) :
    readAll white (.year :: pieces) (ds ++ rest) p =
      readAll white pieces rest { p with year := some (number ds) } := by
  obtain ⟨d, ds', rfl⟩ := List.exists_cons_of_ne_nil hf.nonempty
  have hd := hf.digits d (.head ds')
  have hdrop : (d :: ds' ++ rest).dropWhile white = d :: ds' ++ rest :=
    dropWhile_head (h.digit hd)
  have hyear : signedYear white (d :: ds' ++ rest) = some ((number (d :: ds') : Int), rest) := by
    rw [signedYear, hdrop]
    split
    · rename_i heq
      rw [List.cons_append, List.cons.injEq] at heq
      rw [heq.1] at hd
      exact absurd hd (by decide)
    · rename_i heq
      rw [List.cons_append, List.cons.injEq] at heq
      rw [heq.1] at hd
      exact absurd hd (by decide)
    · rw [hf.number? h]
      rfl
  rw [readAll, Item.read, hyear]
  rfl

/-- No number is read where something else stands. -/
theorem readAll_number_none {item : Item} {c : Char} (hwhite : white c = false)
    (hdigit : c.isDigit = false) (hminus : c ≠ '-') (hplus : c ≠ '+')
    (hitem : item = .month ∨ item = .year ∨ item = .year2) (s : List Char) :
    readAll white (item :: pieces) (c :: s) p = none := by
  have hdrop : (c :: s).dropWhile white = c :: s := dropWhile_head hwhite
  have hnone : ∀ width, number? white width (c :: s) = none :=
    fun width => number?_none (by rw [hdrop]; exact hdigit)
  obtain rfl | rfl | rfl := hitem
  · rw [readAll, Item.read, Strftime.ranged, hnone]
    rfl
  · have hyear : signedYear white (c :: s) = none := by
      rw [signedYear, hdrop]
      split
      · rename_i heq
        exact absurd (List.cons.inj heq).1 hminus
      · rename_i heq
        exact absurd (List.cons.inj heq).1 hplus
      · rw [hnone]
        rfl
    rw [readAll, Item.read, hyear]
    rfl
  · rw [readAll, Item.read, Strftime.ranged, hnone]
    rfl

theorem readAll_literal (c : Char) :
    readAll white (.literal c :: pieces) (c :: rest) p = readAll white pieces rest p := by
  rw [readAll, Item.read, if_pos rfl]
  rfl

theorem readAll_literal_ne {c : Char} {s : List Char} (h : s.head? ≠ some c) :
    readAll white (.literal c :: pieces) s p = none := by
  cases s with
  | nil => rfl
  | cons d rest =>
    have hne : d ≠ c := fun heq => h (by rw [heq]; rfl)
    rw [readAll, Item.read, if_neg hne]
    rfl

theorem readAll_space (s : List Char) :
    readAll white (.space :: pieces) s p = readAll white pieces (s.dropWhile white) p := rfl

/-- No month is named where no letters stand. -/
theorem readAll_name_none {item : Item} (hitem : item = .shortMonth ∨ item = .longMonth)
    {s : List Char}
    (h : s.head?.any Char.isAlpha = false ∨ s.tail.head?.any Char.isAlpha = false) :
    readAll white (item :: pieces) s p = none := by
  have hname := name?_none monthNames_lettered h
  obtain rfl | rfl := hitem
  · rw [readAll, Item.read, hname]
    rfl
  · rw [readAll, Item.read, longName?, hname]
    rfl

theorem readAll_weekday_none {s : List Char} (h : s.head?.any Char.isAlpha = false) :
    readAll white (.shortWeekday :: pieces) s p = none := by
  have hlettered : Lettered weekdayNames := by
    simp [Lettered, weekdayNames]
  rw [readAll, Item.read, name?_none hlettered (.inl h)]
  rfl

theorem Digits.head_not_alpha {width : Nat} (h : Digits width ds) :
    (ds ++ rest).head?.any Char.isAlpha = false := by
  obtain ⟨d, ds', rfl⟩ := List.exists_cons_of_ne_nil h.nonempty
  exact not_isAlpha_of_digit (h.digits d (.head ds'))

theorem Digits.dropWhile {width : Nat} (hds : Digits width ds) (h : PlainSpace white) :
    (ds ++ rest).dropWhile white = ds ++ rest := by
  obtain ⟨d, ds', rfl⟩ := List.exists_cons_of_ne_nil hds.nonempty
  exact dropWhile_head (h.digit (hds.digits d (.head ds')))

theorem Digits.mono {width width' : Nat} (hds : Digits width ds) (h : width ≤ width') :
    Digits width' ds :=
  { hds with fits := hds.fits.trans h }

/-- A number that fits is printed in as many digits as the width. -/
theorem padded_spec {width n : Nat} (hwidth : 0 < width) (hn : n < 10 ^ width) :
    Digits width (padded width n) ∧ (padded width n).length = width ∧
      number (padded width n) = n := by
  have hle : (Nat.toDigits 10 n).length ≤ width :=
    (Nat.length_toDigits_le_iff (by decide) hwidth).mpr hn
  have hlength : (padded width n).length = width := by
    rw [padded, List.length_append, List.length_replicate]
    omega
  refine ⟨⟨?_, ?_, hlength.le⟩, hlength, ?_⟩
  · intro c hc
    obtain hzero | hdigit := List.mem_append.mp hc
    · rw [List.eq_of_mem_replicate hzero]
      rfl
    · exact Nat.isDigit_of_mem_toDigits (by decide) (by decide) hdigit
  · intro hnil
    rw [hnil, List.length_nil] at hlength
    omega
  · rw [padded, number_zeros_append, number_toDigits]

/-- A year of two digits is read to its end, and a longer one is not. -/
theorem readAll_year2_end (h : PlainSpace white) (hy : Digits 4 y) (p : Parsed) :
    ((readAll white [.year2] y p).bind fun (rest, p) => if rest = [] then some p else none) =
      if y.length ≤ 2 then some { p with year2 := some (number y) } else none := by
  by_cases hshort : y.length ≤ 2
  · have hfront : Front 2 y [] := { hy with fits := hshort, stops := .inr rfl }
    have hread : readAll white [.year2] (y ++ []) p = _ := readAll_year2 h hfront
    rw [List.append_nil] at hread
    rw [hread, if_pos hshort]
    rfl
  · have hfront : Front 2 (y.take 2) (y.drop 2) :=
      { digits := fun c hc => hy.digits c (List.mem_of_mem_take hc)
        nonempty := by simp [hy.nonempty]
        fits := List.length_take_le 2 y
        stops := .inl (by rw [List.length_take]; omega) }
    have hread : readAll white [.year2] (y.take 2 ++ y.drop 2) p = _ := readAll_year2 h hfront
    have hrest : y.drop 2 ≠ [] := by
      rw [Ne, List.drop_eq_nil_iff]
      omega
    rw [List.take_append_drop] at hread
    rw [hread, if_neg hshort, readAll, Option.bind_some]
    exact if_neg hrest

theorem readAll_year_end (h : PlainSpace white) (hy : Digits 4 y) (p : Parsed) :
    ((readAll white [.year] y p).bind fun (rest, p) => if rest = [] then some p else none) =
      some { p with year := some (number y) } := by
  have hfront : Front 4 y [] := hy.front rfl
  have hread : readAll white [.year] (y ++ []) p = _ := readAll_year h hfront
  rw [List.append_nil] at hread
  rw [hread]
  rfl

theorem fields?_eq {format : List Char} (hitems : items format = some pieces) (text : List Char) :
    fields? white format text =
      (readAll white pieces text {}).bind fun (rest, p) => if rest = [] then some p else none := by
  rw [fields?, hitems]
  rfl

end Reads

end Dinero.Strftime
