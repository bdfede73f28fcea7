import Dinero.Calendar
import Dinero.Cleanup
import Dinero.Floats
import Dinero.MaskedIdentifier

/-!
# Dinero.LearnedFields

Learned rules at work: what `apply_learned_fields` makes of a message.

A rule captures a text or asserts one; the field decides what is written for
it, and whether anything is.  Amounts are read as exact decimals.
-/

namespace Dinero

open Sql

/-! ## payloads -/

/-- A member of a rule payload, as far as it is told apart. -/
inductive PayloadValue
  | string (s : String)
  | unsigned (n : Nat)
  | other
deriving DecidableEq, Repr

def PayloadValue.asStr : PayloadValue → Option String
  | string s => some s
  | unsigned _ | other => none

def PayloadValue.asU64 : PayloadValue → Option Nat
  | unsigned n => some n
  | string _ | other => none

/-- The members of a payload that are ever asked for. -/
structure RulePayload where
  overrideValue : Option PayloadValue := none
  regex : Option PayloadValue := none
  captureGroup : Option PayloadValue := none
deriving DecidableEq, Repr

/-- What learned rules take from `regex`, `serde_json`, `chrono` and the Unicode tables. -/
class RuleTexts extends RuleLibraries where
  /-- `Regex::new(pattern).ok()?.captures(text)?.get(group)`. -/
  capture : String → Nat → String → Option String
  /-- `serde_json::from_str` of a stored payload. -/
  readPayload : String → Option RulePayload
  /-- `serde_json::to_string` of a payload that was built. -/
  printPayload : RulePayload → String
  /-- `NaiveDate::parse_from_str(text, format)`, by day. -/
  parseDay : String → String → Option Int
  /-- `d.format(format).to_string()`. -/
  formatDay : Int → String → String
  /-- `char::is_alphabetic`. -/
  isAlphabetic : Char → Bool
  /-- `format!("{:?}", text)`. -/
  debugText : String → String

export RuleTexts (capture readPayload printPayload parseDay formatDay isAlphabetic debugText)

/-- The text behind `start`, up to the closing quote. -/
def quotedAfter (start : String) (s : String) : Option String :=
  if start.toList.isPrefixOf s.toList then
    some (String.ofList (((s.toList.drop start.length).takeWhile (· ≠ '"')).filter (· ≠ '\\')))
  else none

/-- Patterns of plain words again, and payloads as the program prints them. -/
@[reducible] def RuleTexts.words : RuleTexts where
  toRuleLibraries := .words
  capture _ group text :=
    if group = 1 then ((text.toList.splitOn ' ')[1]?).map String.ofList else none
  readPayload text :=
    ((quotedAfter "\x7b\"capture_group\":1,\"regex\":\"" text).map fun pattern =>
      { regex := some (.string pattern), captureGroup := some (.unsigned 1) }).or
    ((quotedAfter "\x7b\"override_value\":\"" text).map fun v =>
      { overrideValue := some (.string v) })
  printPayload payload :=
    match payload.overrideValue.bind PayloadValue.asStr, payload.regex.bind PayloadValue.asStr with
    | some v, _ => "\x7b\"override_value\":\"" ++ v ++ "\"\x7d"
    | none, some pattern => RuleLibraries.words.spanPayload pattern
    | none, none => "\x7b\x7d"
  parseDay _ _ := none
  formatDay day _ := toString day
  isAlphabetic := Char.isAlpha
  debugText text := "\"" ++ text ++ "\""

/-- Runs a rule against text and returns what it captured. -/
def applyPayload [RuleTexts] (payload : RulePayload) (source : String) : Option String :=
  match payload.overrideValue.bind PayloadValue.asStr with
  | some v => some v
  | none =>
    (payload.regex.bind PayloadValue.asStr).bind fun pattern =>
      capture pattern ((payload.captureGroup.bind PayloadValue.asU64).getD 1) source

/-! ## values -/

/-- `text.parse::<i64>()`. -/
def parseI64 (s : List Char) : Option Int :=
  let (negative, digits) := match s with
    | '-' :: rest => (true, rest)
    | '+' :: rest => (false, rest)
    | rest => (false, rest)
  if digits = [] ∨ digits.all isAsciiNumeral = false then none
  else
    let n : Int := digits.foldl (fun n c => 10 * n + ((c.toNat - 48 : Nat) : Int)) 0
    let v := if negative then -n else n
    if -2 ^ 63 ≤ v ∧ v < 2 ^ 63 then some v else none

/-- The number that digits with at most one dot stand for. -/
def parseDecimal (s : List Char) : Option ℚ :=
  let whole := s.takeWhile (· ≠ '.')
  let fraction := (s.dropWhile (· ≠ '.')).drop 1
  if '.' ∈ fraction ∨ (whole = [] ∧ fraction = []) then none
  else
    let n : Nat := (whole ++ fraction).foldl (fun n c => 10 * n + (c.toNat - 48)) 0
    some ((n : ℚ) / 10 ^ fraction.length)

/-- Largest amount accepted, in minor units. -/
def maxPlausibleAmountMinor : ℚ := 10 ^ 15

section Values

variable [Extern] [RuleTexts]

/-- The digits of an amount and its dots; a dot behind a letter belongs to the currency. -/
def digitsAndDots : Option Char → List Char → List Char
  | _, [] => []
  | prev, c :: rest =>
    (if isAsciiNumeral c || (c = '.' && !prev.any isAlphabetic) then [c] else []) ++
      digitsAndDots (some c) rest

/-- Parses a currency string into integer minor units. -/
def parseAmount (s : List Char) : Option Int :=
  (parseDecimal (((digitsAndDots none s).reverse.dropWhile (· = '.')).reverse)).bind fun v =>
    -- `parse::<f64>()` rounds, and so does its product with 100.
    let minor := nearestF64 (nearestF64 v * 100)
    if maxPlausibleAmountMinor < minor then none
    else some ⌊minor + 1 / 2⌋

/-- Canonicalises a learned direction capture to the two values the ledger allows. -/
def normalizeDirection (captured : List Char) : Option String :=
  let c := toLowercase (String.ofList (trim captured))
  let dotless := String.ofList (c.toList.reverse.dropWhile (· = '.')).reverse
  if dotless = "cr" ∨ strContains c "credit" = true ∨ strContains c "received" = true then
    some "credit"
  else if dotless = "dr" ∨ strContains c "debit" = true ∨ strContains c "spent" = true ∨
      strContains c "paid" = true ∨ strContains c "withdraw" = true then some "debit"
  else none

/-- Canonicalises a currency token to an ISO code. -/
def normalizeCurrency (c : List Char) : String :=
  let c := toUppercase (String.ofList c)
  if strContains c "RS" = true ∨ strContains c "₹" = true then "INR"
  else if strContains c "$" = true then "USD"
  else String.ofList (trim (c.toList.filter (· ≠ '.')))

/-- Three capital letters. -/
def isCurrencyCode (s : String) : Bool :=
  s.toList.length = 3 && s.toList.all fun c => 'A' ≤ c && c ≤ 'Z'

def dateFormats : List String := [
    "%d-%b-%y", "%d-%b-%Y", "%d/%m/%y", "%d/%m/%Y", "%d-%m-%y", "%d-%m-%Y", "%m-%d-%Y",
    "%d %b %y", "%d %b %Y", "%d %b, %y", "%d %b, %Y", "%b %d, %Y", "%a, %b %d, %Y",
    "%a, %B %d, %Y", "%d %B %Y", "%d %B, %Y", "%B %d, %Y", "%Y-%m-%d", "%Y-%m-%d %H:%M:%S"]

def numericAmbiguousFormats : List String :=
  ["%d/%m/%Y", "%d-%m-%Y", "%m-%d-%Y", "%d/%m/%y", "%d-%m-%y"]

/-- Parses a date in whichever format the bank used: its midnight, and whether day and month
could be taken for each other. -/
def parseDateGeneric (s : String) : Option (Int × Bool) :=
  dateFormats.findSome? fun format =>
    (parseDay s format).map fun day =>
      let (_, month, dayOfMonth) := civil day
      (day * 86400, decide (format ∈ numericAmbiguousFormats ∧ dayOfMonth ≤ 12 ∧
        dayOfMonth ≠ month))

def minPlausibleEpochSeconds : Int := 946684800

def maxPlausibleEpochSeconds : Int := 4102444800

/-- Reads a learned `event_time` capture as either an epoch or a formatted date. -/
def parseLearnedEventTime (captured : List Char) : Option (Int × Bool) :=
  match parseI64 captured with
  | some n =>
    if minPlausibleEpochSeconds ≤ n ∧ n ≤ maxPlausibleEpochSeconds then some (n, false)
    else if 1000000000 ≤ n.tdiv 1000 ∧ n.tdiv 1000 ≤ maxPlausibleEpochSeconds then
      some (n.tdiv 1000, false)
    else parseDateGeneric (String.ofList captured)
  | none => parseDateGeneric (String.ofList captured)

end Values

/-! ## the loop -/

/-- A live variant with its parent's field. -/
structure LearnedRule where
  id : String
  fieldName : String
  templateHash : String
  payload : RulePayload
  confidence : ℚ
  successCount : Nat
deriving DecidableEq, Repr

/-- The fields of an `ExtractionResult` that learned rules write. -/
structure LearnedResult where
  merchantRaw : Option String := none
  amountMinor : Option Int := none
  balanceAfter : Option Int := none
  referenceId : Option String := none
  maskedIdentifier : Option String := none
  direction : Option String := none
  currency : Option String := none
  eventTime : Option Int := none
  eventTimeAmbiguous : Bool := false
deriving DecidableEq, Repr

/-- The order the rules are tried in: the template first, then by confidence, successes and id. -/
def LearnedRule.triedBefore (bodyHash : String) (a b : LearnedRule) : Prop :=
  let matchesA := a.templateHash = bodyHash
  let matchesB := b.templateHash = bodyHash
  (matchesA ∧ ¬ matchesB) ∨ ((matchesA ↔ matchesB) ∧
    (b.confidence < a.confidence ∨ (b.confidence = a.confidence ∧
      (b.successCount < a.successCount ∨ (b.successCount = a.successCount ∧ a.id ≤ b.id)))))

instance (bodyHash : String) : DecidableRel (LearnedRule.triedBefore bodyHash) := fun a b => by
  delta LearnedRule.triedBefore
  infer_instance

section Loop

variable [Extern] [RuleTexts]

/-- What a captured text comes to in the field; `none` where it is not written. -/
def writeField (fieldName : String) (captured : List Char) (result : LearnedResult) :
    Option LearnedResult :=
  match fieldName with
  | "merchant" => some { result with merchantRaw := some (String.ofList captured) }
  | "amount" => (parseAmount captured).map fun v => { result with amountMinor := some v }
  | "balance" => (parseAmount captured).map fun v => { result with balanceAfter := some v }
  | "reference_id" => some { result with referenceId := some (String.ofList captured) }
  | "last4" =>
    let cleaned := cleanMaskedIdentifier (String.ofList captured)
    if '@' ∉ cleaned.toList ∧ cleaned.toList.any isAsciiNumeral = false then none
    else some { result with maskedIdentifier := some cleaned }
  | "direction" => (normalizeDirection captured).map fun d => { result with direction := some d }
  | "currency" =>
    let normalized := normalizeCurrency captured
    if isCurrencyCode normalized then some { result with currency := some normalized } else none
  | "event_time" => (parseLearnedEventTime captured).map fun (ts, ambiguous) =>
      { result with eventTime := some ts, eventTimeAmbiguous := ambiguous }
  | _ => none

/-- The text a rule has for a message, if it is to be tried on it. -/
def LearnedRule.capturedIn (rule : LearnedRule) (bodyHash body : String) : Option (List Char) :=
  if rule.payload.overrideValue.isSome = true ∧ rule.templateHash ≠ bodyHash then none
  else (applyPayload rule.payload body).bind fun captured =>
    let captured := trim captured.toList
    if captured = [] then none else some captured

/-- The loop; a field once written is left alone. -/
def applyRules (bodyHash body : String) :
    List LearnedRule → List String → LearnedResult → List String × LearnedResult
  | [], applied, result => (applied, result)
  | rule :: rest, applied, result =>
    if rule.fieldName ∈ applied then applyRules bodyHash body rest applied result
    else
      match (rule.capturedIn bodyHash body).bind (writeField rule.fieldName · result) with
      | some result' => applyRules bodyHash body rest (applied ++ [rule.fieldName]) result'
      | none => applyRules bodyHash body rest applied result

/-- The rules in the order they are tried, applied to a message; and whether one fired. -/
def applyLearnedRules (rules : List LearnedRule) (body : String) (result : LearnedResult) :
    Bool × LearnedResult :=
  let bodyHash := computeTemplateHash body
  let (applied, result') :=
    applyRules bodyHash body (orderBy (LearnedRule.triedBefore bodyHash) rules) [] result
  (!applied.isEmpty, result')

/-- Statuses a rule is used in. -/
def RuleStatus.isUsed : RuleStatus → Bool
  | .active | .trusted => true
  | .pending | .inactive | .flagged => false

/-- The variants in use. -/
def Cleanup.used (b : Cleanup) : List FieldRuleVariantsRow :=
  b.variants.rows.filter (·.status.isUsed)

/-- The variants in use for a bank, with their fields. -/
def Cleanup.usedVariants (b : Cleanup) (bankName sourceType : String) :
    List (FieldRuleVariantsRow × FieldRulesRow) :=
  b.used.filterMap fun v =>
    ((b.fieldRules.find? v.fieldRuleId).filter fun p =>
      p.bankName = bankName && p.sourceType = sourceType).map (v, ·)

/-- Active rules for a bank; a payload that cannot be read fails the query. -/
def Cleanup.selectLiveByBank (b : Cleanup) (bankName sourceType : String) :
    Option (List LearnedRule) :=
  (scan (b.usedVariants bankName sourceType)).mapM fun (v, p) =>
    (readPayload v.rulePayloadJson).map fun payload => {
      id := v.id, fieldName := p.fieldName, templateHash := v.templateHash, payload := payload
      confidence := v.confidence, successCount := v.successCount }

/-- Applies this bank's learned rules to a message. -/
def applyLearnedFields (b : Cleanup) (bankName body sourceType : String) (result : LearnedResult) :
    Bool × LearnedResult :=
  match b.selectLiveByBank bankName sourceType with
  | none => (false, result)
  | some rules => applyLearnedRules rules body result

end Loop

end Dinero
