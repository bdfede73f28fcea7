import Dinero.Backtrack
import Dinero.BrokenLines
import Dinero.Grounding
import Dinero.Strftime

/-!
# Dinero.RowFields

The fields of a statement row, read from the texts of its columns.

Two extractors share them: the parsers of the banks' layouts, and the check of
what a model says it has read.
-/

namespace Dinero.RowExtractor

open Backtrack Numerals

structure StatementRow where
  transactionDate : String
  merchantRaw : String
  amountMinor : Int
  currency : String
  direction : String
  referenceId : Option String
  rowIndex : Nat
  llmExtracted : Bool
deriving DecidableEq, Repr

/-- What rows take from the Unicode tables, beyond the ledger's. -/
class RowTables where
  /-- `char::is_alphabetic`. -/
  isAlphabetic : Char → Bool
  /-- `char::is_numeric`. -/
  isNumeric : Char → Bool
  /-- The regex class `\w`. -/
  isWord : Char → Bool

export RowTables (isAlphabetic isNumeric isWord)

/-! ## numbers -/

/-- What `str::parse::<f64>` gives; finite numbers are not bounded. -/
inductive F64
  | nan
  | infinite (negative : Bool)
  | finite (v : ℚ)
deriving DecidableEq, Repr

/-- An exponent, if one follows: a sign perhaps, and digits to the end. -/
def parseExponent : List Char → Option Int
  | [] => some 0
  | e :: rest =>
    if e ≠ 'e' ∧ e ≠ 'E' then none
    else
      let (negative, digits) := match rest with
        | '-' :: digits => (true, digits)
        | '+' :: digits => (false, digits)
        | digits => (false, digits)
      if digits = [] ∨ digits.all Char.isDigit = false then none
      else some (if negative then -(number digits : Int) else number digits)

/-- Digits with at most one dot, at least one digit, and an exponent. -/
def parseNumber (s : List Char) : Option ℚ :=
  let whole := s.takeWhile Char.isDigit
  let behind := s.dropWhile Char.isDigit
  let fraction := if behind.head? = some '.' then (behind.drop 1).takeWhile Char.isDigit else []
  let rest := if behind.head? = some '.' then (behind.drop 1).dropWhile Char.isDigit else behind
  if whole = [] ∧ fraction = [] then none
  else (parseExponent rest).map fun e =>
    (number (whole ++ fraction) : ℚ) * 10 ^ (e - (fraction.length : Int))

/-- `s.parse::<f64>().ok()`. -/
def parseF64 (s : List Char) : Option F64 :=
  let (negative, digits) := match s with
    | '-' :: rest => (true, rest)
    | '+' :: rest => (false, rest)
    | rest => (false, rest)
  let name := digits.map Char.toLower
  if name = "nan".toList then some .nan
  else if name = "inf".toList ∨ name = "infinity".toList then some (.infinite negative)
  else (parseNumber digits).map fun v => .finite (nearestSigned (if negative then -v else v))

/-- `(v * 100.0).round() as i64`. -/
def F64.hundredths : F64 → Int
  | nan => 0
  | infinite negative => if negative then -2 ^ 63 else 2 ^ 63 - 1
  | finite v => roundI64 (nearestSigned (v * 100))

section Fields

variable [Extern]

/-- Parses an amount into integer minor units. -/
def parseAmountMinor (s : List Char) : Option Int :=
  let cleaned := replaceAll (text "INR") [] s
  let cleaned := replaceAll (text "Rs.") [] cleaned
  let cleaned := replaceAll (text "Rs") [] cleaned
  let cleaned := cleaned.filter fun c => c ≠ '₹' ∧ c ≠ ','
  (parseF64 (trim cleaned)).map F64.hundredths

/-! ## dates -/

def dateFormats : List String :=
  ["%d/%m/%y", "%d-%m-%y", "%d.%m.%y", "%d %b %y", "%d-%b-%y", "%d/%b/%y", "%d %b, %y",
    "%d/%m/%Y", "%d-%m-%Y", "%d.%m.%Y", "%d %b %Y", "%d-%b-%Y", "%d/%b/%Y", "%Y-%m-%d",
    "%d %b, %Y"]

/-- Parses a statement date in whichever format the bank used. -/
def parseDate (s : List Char) : Option String :=
  let s := trim s
  let upper := (toUppercase (String.ofList s)).toList
  ((dateFormats.findSome? fun fmt => Strftime.parseDate isWhitespace s fmt.toList).or
    (Strftime.parseDate isWhitespace upper "%d-%b-%Y".toList)).map formatDate

/-! ## descriptions -/

def excludedPhrases : List String :=
  ["opening balance", "closing balance", "previous balance", "brought forward",
    "carried forward", "total transactions", "grand total", "sub total", "subtotal",
    "total amount", "reward point", "loyalty point", "payment received", "payment thank",
    "cr limit", "credit limit"]

/-- Whether a row should be excluded as non-transactional. -/
def isExcludedRow (description : List Char) : Bool :=
  let plain := (toLowercase (String.ofList description)).toList.map fun c =>
    if isAlphanumeric c then c else ' '
  let d := [' '].intercalate (splitWhitespace plain)
  d = [] || excludedPhrases.any (fun phrase => phrase.toList <:+: d) ||
    ["date", "description", "amount", "dr", "cr"].any (fun word => d = word.toList) ||
    trim d = []

variable [RowTables]

/-- `\b`. -/
def wordBoundary : Pattern :=
  .assert fun before rest => before.head?.any isWord ≠ rest.head?.any isWord

/-- Extracts a twelve-digit reference id from a description. -/
def extractReferenceId (description : List Char) : Option String :=
  let re := seqAll [wordBoundary, .group 1 (times 12 (.cls isDigit)), wordBoundary]
  ((captures re description).bind (groupOf 1)).map String.ofList

/-- Whether a string has enough letters to be a description rather than a code. -/
def hasEnoughLetters (description : List Char) : Bool :=
  3 ≤ (description.filter isAlphabetic).length

end Fields

/-! ### the tables of ASCII -/

@[reducible] def RowTables.ascii : RowTables where
  isAlphabetic := Char.isAlpha
  isNumeric := Char.isDigit
  isWord c := c.isAlphanum || c = '_'

example : letI := Extern.ascii
    ["1,250.00", "Rs.5", "INR 1e3", "-2.5", "inf", "1.2.3"].map
      (fun s => parseAmountMinor s.toList) =
      [some 125000, some 500, some 100000, some (-250), some (2 ^ 63 - 1), none] := by
  let := Extern.ascii
  decide +kernel

example : letI := Extern.ascii
    ["27/06/2026", "12 Jun 26", "13 May, 2026", "21/Oct/2025", "3 parts"].map
      (fun s => parseDate s.toList) =
      [some "20631", some "20616", some "20586", some "20382", none] := by
  let := Extern.ascii
  decide +kernel

end Dinero.RowExtractor
