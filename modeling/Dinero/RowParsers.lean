import Dinero.RowFields

/-!
# Dinero.RowParsers

The banks' row layouts, and the one for every bank.

A parser reads the lines of all pages one after the other.  A bank's parser looks at
one line at a time; the universal one takes a description it does not find on the
line from the lines around it.
-/

namespace Dinero.RowExtractor

open Backtrack TextLines

structure ParsedPage where
  pageNumber : Nat
  text : List Char
  ocrUsed : Bool
deriving DecidableEq, Repr

inductive BankParser
  | hdfcCreditCard
  | iciciCreditCard
  | axisCreditCard
  | amexIndia
  | hdfcBankAccount
  | iciciBankAccount
  | sbiCreditCard
  | unknown
deriving DecidableEq, Repr

/-- What a line says of a row. -/
structure RowContent where
  transactionDate : String
  merchantRaw : List Char
  amountMinor : Int
  direction : String
  referenceId : Option String
deriving DecidableEq, Repr

def RowContent.row (c : RowContent) (rowIndex : Nat) : StatementRow where
  transactionDate := c.transactionDate
  merchantRaw := String.ofList c.merchantRaw
  amountMinor := c.amountMinor
  currency := "INR"
  direction := c.direction
  referenceId := c.referenceId
  rowIndex := rowIndex
  llmExtracted := false

section Parsers

variable [Extern]

/-! ## pieces of patterns -/

def digit : Pattern := .cls isDigit

def white : Pattern := .cls isWhitespace

/-- `\s+` and `\s*`. -/
def gap : Pattern := plus true white
def blanks : Pattern := .star true white

/-- `(.+?)`, as group 2. -/
def description : Pattern := .group 2 (plus false (.cls (· ≠ '\n')))

/-- `r{least,least + more}`. -/
def upTo : Nat → Pattern → Pattern
  | 0, _ => eps
  | more + 1, r => opt (.seq r (upTo more r))

def between (least more : Nat) (r : Pattern) : Pattern := .seq (times least r) (upTo more r)

/-- `\d{2}/\d{2}/\d{4}`, between the separators of a class. -/
def dateBetween (separator : Char → Bool) : Pattern :=
  seqAll [times 2 digit, .cls separator, times 2 digit, .cls separator, times 4 digit]

def slashDate : Pattern := dateBetween (· = '/')

/-- `[\d,]+\.\d{2}`. -/
def money : Pattern :=
  seqAll [plus true (.cls fun c => isDigit c || c = ','), .lit '.', times 2 digit]

def moneyOrDash : Pattern := .alt money (.lit '-')

/-- `\s*$`. -/
def lineEnd : Pattern := .seq blanks atEnd

/-! ## one line at a time -/

/-- The text of a group that takes part in every match. -/
def textOf (groups : List (Nat × List Char)) (name : Nat) : List Char :=
  (groupOf name groups).getD []

/-- The loop over the lines of a page; `row_index` counts the rows. -/
def parseLines (re : Pattern) (read : (Nat → List Char) → Option RowContent) :
    List (List Char) → List StatementRow → List StatementRow
  | [], rows => rows
  | line :: ls, rows =>
    match (captures re (trim line)).bind fun groups => read (textOf groups) with
    | some content => parseLines re read ls (rows ++ [content.row rows.length])
    | none => parseLines re read ls rows

/-- The loop over the pages. -/
def parseWith (re : Pattern) (read : (Nat → List Char) → Option RowContent)
    (pages : List ParsedPage) : List StatementRow :=
  pages.foldl (fun rows page => parseLines re read (lines page.text) rows) []

variable [RowTables]

/-- Two columns of which one holds the amount, the other a dash. -/
def debitOrCredit (debit credit : List Char) : Option (String × List Char) :=
  if debit ≠ ['-'] ∧ debit ≠ [] then some ("debit", debit)
  else if credit ≠ ['-'] ∧ credit ≠ [] then some ("credit", credit)
  else none

/-- A row, unless it is excluded or its date or amount cannot be read. -/
def rowContent (description : List Char) (date : Option String)
    (directionAndAmount : Option (String × List Char)) (referenceId : Option String) :
    Option RowContent :=
  if isExcludedRow description then none
  else date.bind fun transactionDate => directionAndAmount.bind fun d =>
    (parseAmountMinor d.2).map fun amountMinor =>
      { transactionDate, merchantRaw := description, amountMinor, direction := d.1, referenceId }

def hdfcRow : Pattern :=
  seqAll [atStart, .group 1 slashDate, gap, description, gap, .group 3 money, gap,
    .group 4 (altAll [text "DR", text "CR", text "Dr", text "Cr"]), lineEnd]

/-- Parses an HDFC credit card statement. -/
def parseHdfcCredit (pages : List ParsedPage) : List StatementRow :=
  parseWith hdfcRow (fun caps =>
    let desc := trim (caps 2)
    let drCr := toUppercase (String.ofList (caps 4))
    rowContent desc (parseDate (caps 1))
      (some (if drCr = "DR" then "debit" else "credit", caps 3)) (extractReferenceId desc)) pages

def iciciRow : Pattern :=
  seqAll [atStart, .group 1 (dateBetween isDateSeparator), gap, description,
    .seq (times 2 white) blanks, .group 3 moneyOrDash, gap, .group 4 moneyOrDash, gap,
    .group 5 moneyOrDash, lineEnd]

/-- Parses an ICICI credit card statement. -/
def parseIciciCredit (pages : List ParsedPage) : List StatementRow :=
  parseWith iciciRow (fun caps =>
    let desc := trim (caps 2)
    rowContent desc (parseDate (caps 1)) (debitOrCredit (trim (caps 3)) (trim (caps 4)))
      (extractReferenceId desc)) pages

def axisRow : Pattern :=
  seqAll [atStart, .group 1 slashDate, gap, description, gap,
    .group 3 (.seq (.cls fun c => c = '+' || c = '-') money), lineEnd]

/-- Parses an Axis credit card statement. -/
def parseAxisCredit (pages : List ParsedPage) : List StatementRow :=
  parseWith axisRow (fun caps =>
    let desc := trim (caps 2)
    let amountRaw := trim (caps 3)
    rowContent desc (parseDate (caps 1))
      (some (if amountRaw.head? = some '+' then "credit" else "debit", amountRaw.drop 1))
      (extractReferenceId desc)) pages

def amexRow : Pattern :=
  seqAll [atStart, .group 1 slashDate, gap, description, gap,
    .group 3 (.seq (opt (.lit '-')) money), lineEnd]

/-- Parses an American Express India statement. -/
def parseAmexIndia (pages : List ParsedPage) : List StatementRow :=
  parseWith amexRow (fun caps =>
    let desc := trim (caps 2)
    let amountRaw := trim (caps 3)
    let date := (Strftime.parseDate isWhitespace (caps 1) "%m/%d/%Y".toList).map formatDate
    rowContent desc date
      (some (if amountRaw.head? = some '-' then "credit" else "debit",
        amountRaw.dropWhile (· = '-')))
      (extractReferenceId desc)) pages

def accountRow : Pattern :=
  seqAll [atStart, .group 1 slashDate, gap, description, gap,
    .group 3 (.star true (.cls (!isWhitespace ·))), gap, slashDate, gap, .group 4 moneyOrDash,
    gap, .group 5 moneyOrDash, gap, money, lineEnd]

/-- Parses an HDFC bank account statement. -/
def parseHdfcAccount (pages : List ParsedPage) : List StatementRow :=
  parseWith accountRow (fun caps =>
    let narration := trim (caps 2)
    let refNo := trim (caps 3)
    rowContent narration (parseDate (caps 1)) (debitOrCredit (trim (caps 4)) (trim (caps 5)))
      (if refNo = [] then extractReferenceId narration else some (String.ofList refNo))) pages

/-- Parses an ICICI bank account statement. -/
def parseIciciAccount (pages : List ParsedPage) : List StatementRow := parseHdfcAccount pages

/-- `[A-Z]` in either case, with the two letters that fold into it. -/
def isFoldedLetter (c : Char) : Bool := isAsciiLetter c || c = '\u017f' || c = '\u212a'

/-- A letter in either case. -/
def anyCase (c : Char) : Pattern := .cls fun d => d.toLower = c.toLower

def sbiRow : Pattern :=
  seqAll [atStart, plus true digit, gap,
    .group 1 (seqAll [times 2 digit, .lit '-', times 3 (.cls isFoldedLetter), .lit '-',
      times 4 digit]),
    gap, description, gap, .group 3 money, gap,
    .group 4 (.alt (.seq (anyCase 'd') (anyCase 'r')) (.seq (anyCase 'c') (anyCase 'r'))), lineEnd]

/-- Parses an SBI credit card statement. -/
def parseSbiCredit (pages : List ParsedPage) : List StatementRow :=
  parseWith sbiRow (fun caps =>
    let dateRaw := (toUppercase (String.ofList (caps 1))).toList
    let desc := trim (caps 2)
    let drCr := toLowercase (String.ofList (caps 4))
    rowContent desc (parseDate dateRaw)
      (some (if drCr = "dr" then "debit" else "credit", trim (caps 3)))
      (extractReferenceId desc)) pages

/-! ## lines among lines -/

/-- The date of a row: figures with a separator, or a month by name. -/
def universalDate : Pattern :=
  .alt
    (seqAll [between 1 1 digit, .cls fun c => c = '/' || c = '-' || c = '.', between 1 1 digit,
      .cls fun c => c = '/' || c = '-' || c = '.', between 2 2 digit])
    (seqAll [between 1 1 digit, .cls fun c => isWhitespace c || c = '-' || c = '/',
      times 3 (.cls isAsciiLetter), opt (.cls fun c => isWhitespace c || c = '-' || c = '/'),
      opt (.lit ','), opt white, between 2 2 digit])

/-- The groups of the universal row. -/
def dateGroup : Nat := 1
def descGroup : Nat := 2
def signGroup : Nat := 3
def amountGroup : Nat := 4
def dirGroup : Nat := 5

def universalRow : Pattern :=
  seqAll [atStart, .group dateGroup universalDate,
    opt (seqAll [blanks, .lit '|', blanks, between 1 1 digit, .lit ':', times 2 digit,
      opt (.seq (.lit ':') (times 2 digit))]),
    gap,
    optLazy (.group descGroup
      (.seq (.cls (!isWhitespace ·)) (.star false (.cls (· ≠ '\n'))))),
    blanks, opt (.group signGroup (.cls fun c => c = '+' || c = '-')), blanks,
    -- The glyph of the currency; a backtick is one of them.
    opt (altAll [.cls fun c => c = 'C' || c = Char.ofNat 96 || c = '₹',
      .seq (text "Rs") (opt (.lit '.')), text "INR"]),
    blanks,
    .group amountGroup (seqAll [digit, .star true (.cls fun c => isDigit c || c = ','), .lit '.',
      times 2 digit]),
    opt (.seq gap (.group dirGroup
      (altAll [text "Dr", text "Cr", text "DR", text "CR", text "D", text "C"]))),
    opt (.seq gap (between 1 1 (.cls (!isWhitespace ·)))), lineEnd]

/-- Whether a line looks like a total rather than a transaction. -/
def looksLikeATotal (line : List Char) : Bool :=
  isMatch (seqAll [digit, .star true (.cls fun c => isDigit c || c = ','), .lit '.',
    times 2 digit]) line

/-- A neighbouring line that may hold a description. -/
def usableLine (ls : List (List Char)) (isRow : List Bool) (i : Nat) : Option (List Char) :=
  ls[i]?.bind fun candidate => isRow[i]?.bind fun row =>
    if row || candidate.any isNumeric && looksLikeATotal candidate then none
    else if 2 ≤ (candidate.filter isAlphabetic).length then some candidate
    else none

/-- Recovers a description wrapped onto the neighbouring line. -/
def wrappedDescription (ls : List (List Char)) (isRow : List Bool) (index : Nat) : List Char :=
  let above := if index = 0 then none else usableLine ls isRow (index - 1)
  [' '].intercalate ([above, usableLine ls isRow (index + 1)].filterMap id)

/-- Resolves debit or credit from an explicit marker or a sign. -/
def resolveDirection (marker sign : Option (List Char)) : String :=
  let marker := marker.map fun m => String.ofList (m.map Char.toUpper)
  if marker = some "CR" ∨ marker = some "C" then "credit"
  else if marker = some "DR" ∨ marker = some "D" then "debit"
  else if sign = some ['+'] then "credit"
  else "debit"

/-- `str::split` at a text; `skip` counts what is left of the one found. -/
def splitTextFrom (separator piece : List Char) (skip : Nat) : List Char → List (List Char)
  | [] => [piece]
  | c :: rest => match skip with
    | n + 1 => splitTextFrom separator piece n rest
    | 0 =>
      if separator.isPrefixOf (c :: rest) then
        piece :: splitTextFrom separator [] (separator.length - 1) rest
      else splitTextFrom separator (piece ++ [c]) 0 rest

/-- Extracts the merchant portion from a description column. -/
def merchantColumn (description : List Char) : List Char :=
  let segments := splitTextFrom "   ".toList [] 0 description
  let first := trim ((segments.find? fun segment => trim segment ≠ []).getD description)
  if hasEnoughLetters first then first else trim description

/-- What the universal parser makes of a line among the lines of its page. -/
def universalContent (ls : List (List Char)) (isRow : List Bool) (index : Nat)
    (line : List Char) : Option RowContent :=
  (captures universalRow line).bind fun caps =>
    let inline := ((groupOf descGroup caps).map trim).getD []
    let desc := if inline = [] then wrappedDescription ls isRow index else inline
    if isExcludedRow desc || !hasEnoughLetters desc then none
    else
      match (groupOf dateGroup caps).bind parseDate,
        (groupOf amountGroup caps).bind parseAmountMinor with
      | some transactionDate, some amountMinor => some {
          transactionDate
          merchantRaw := merchantColumn desc
          amountMinor
          direction := resolveDirection (groupOf dirGroup caps) (groupOf signGroup caps)
          referenceId := extractReferenceId desc }
      | _, _ => none

/-- The loop over the lines of a page, with their numbers. -/
def universalLines (ls : List (List Char)) (isRow : List Bool) :
    Nat → List (List Char) → List StatementRow → List StatementRow
  | _, [], rows => rows
  | index, line :: rest, rows =>
    match universalContent ls isRow index line with
    | some content => universalLines ls isRow (index + 1) rest (rows ++ [content.row rows.length])
    | none => universalLines ls isRow (index + 1) rest rows

/-- Generic parser for layouts with no bank-specific handler. -/
def parseUniversal (pages : List ParsedPage) : List StatementRow :=
  pages.foldl (fun rows page =>
    let ls := (lines page.text).map trim
    universalLines ls (ls.map (isMatch universalRow)) 0 ls rows) []

/-! ## all parsers -/

/-- The rows of the bank's own parser. -/
def parseBank (parser : BankParser) (pages : List ParsedPage) : List StatementRow :=
  match parser with
  | .hdfcCreditCard => parseHdfcCredit pages
  | .iciciCreditCard => parseIciciCredit pages
  | .axisCreditCard => parseAxisCredit pages
  | .amexIndia => parseAmexIndia pages
  | .hdfcBankAccount => parseHdfcAccount pages
  | .iciciBankAccount => parseIciciAccount pages
  | .sbiCreditCard => parseSbiCredit pages
  | .unknown => []

/-- Extracts transaction rows from a parsed statement. -/
def extractRows (pages : List ParsedPage) (parser : BankParser) : List StatementRow :=
  let mergedPages := pages.map fun p => { p with text := mergeBrokenLineBoundaries p.text }
  let rows := parseBank parser mergedPages
  if rows = [] then parseUniversal mergedPages else rows

end Parsers

def page (text : String) : ParsedPage := ⟨1, text.toList, false⟩

example : letI := Extern.ascii
    letI := RowTables.ascii
    (parseUniversal [page ("14/04/2026| 00:00    10% Swiggy Cashback_Reversal    C 21.50   l\n" ++
      "14/04/2026| 00:00    10% Swiggy Cashback              +  C 30.30   l\n")]).map
      (fun row => (row.amountMinor, row.direction)) = [(2150, "debit"), (3030, "credit")] := by
  let := Extern.ascii
  let := RowTables.ascii
  decide +kernel

end Dinero.RowExtractor
