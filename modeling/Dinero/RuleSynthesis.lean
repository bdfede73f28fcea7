import Dinero.LearnedFields
import Mathlib.Data.List.Destutter

/-!
# Dinero.RuleSynthesis

How a rule is derived from a value known to be right, and the two guards it
has to pass: the self-check against the message it came from, and the
regression check against messages that were extracted before.
-/

namespace Dinero

open Sql

variable [Extern] [RuleTexts]

/-! ## printed forms -/

/-- The groups of two of `indian_group`, from the end of the digits, which are given backwards. -/
def pairGroups : List Char → List (List Char)
  | a :: b :: c :: rest => [b, a] :: pairGroups (c :: rest)
  | [] => []
  | short => [short.reverse]

/-- Re-groups an integer with Indian digit separators. -/
def indianGroup (intPart : List Char) : List Char :=
  if intPart.length ≤ 3 then intPart
  else
    let head := intPart.take (intPart.length - 3)
    let tail := intPart.drop (intPart.length - 3)
    (pairGroups head.reverse).reverse.intersperse [','] |>.flatten |> (· ++ ',' :: tail)

/-- `{:02}`. -/
def pad2 (n : Int) : List Char :=
  let printed := (toString n).toList
  List.replicate (2 - printed.length) '0' ++ printed

omit [Extern] [RuleTexts] in
theorem toList_natCast (n : Nat) : (toString (n : Int)).toList = Nat.toDigits 10 n := by
  have hstring : toString (n : Int) = n.repr := rfl
  rw [hstring, Nat.toList_repr]

omit [Extern] [RuleTexts] in
/-- `{:02}` of hundredths. -/
theorem pad2_natCast {f : Nat} (hf : f < 100) :
    pad2 (f : Int) = [Nat.digitChar (f / 10), Nat.digitChar (f % 10)] := by
  rw [pad2, toList_natCast]
  by_cases hlt : f < 10
  · have hdiv : f / 10 = 0 := by omega
    have hmod : f % 10 = f := Nat.mod_eq_of_lt hlt
    rw [Nat.toDigits_of_lt_base hlt, hdiv, hmod]
    rfl
  · have htens : f / 10 < 10 := by omega
    rw [Nat.toDigits_of_base_le (by decide) (by omega), Nat.toDigits_of_lt_base htens]
    rfl

/-- `i64::abs`, which wraps at the least integer. -/
def absI64 (n : Int) : Int := if n = -2 ^ 63 then n else n.natAbs

/-- The forms an amount is printed in. -/
def printedAmounts (minor : Int) : List (List Char) :=
  let abs := absI64 minor
  let intPart := (toString (abs.tdiv 100)).toList
  let decimal := intPart ++ '.' :: pad2 (abs.tmod 100)
  let groupedInt := indianGroup intPart
  let groupedDecimal := groupedInt ++ '.' :: pad2 (abs.tmod 100)
  [groupedDecimal, decimal, groupedInt, intPart].destutter (· ≠ ·)

def printedDateFormats : List String := [
    "%d/%m/%Y", "%d-%m-%Y", "%d.%m.%Y", "%d/%m/%y", "%d-%m-%y", "%d.%m.%y", "%d-%b-%Y",
    "%d-%b-%y", "%d %b %Y", "%d %b %y", "%d %b, %Y", "%d/%b/%Y", "%Y-%m-%d"]

/-- The forms a time is printed in: those of its day. -/
def printedDates (v : List Char) : List String :=
  match parseDay (String.ofList (v.takeWhile (!isWhitespace ·))) "%Y-%m-%d" with
  | none => [String.ofList v]
  | some day => printedDateFormats.map (formatDay day)

/-- Generates the textual forms a known value might appear as. -/
def needleCandidates (fieldName newValue : String) : List String :=
  let v := trim newValue.toList
  if v = [] then []
  else
    match fieldName with
    | "amount" | "balance" =>
      match parseI64 v with
      | none => [String.ofList v]
      | some minor => (printedAmounts minor).map String.ofList
    | "event_time" => printedDates v
    | _ => [String.ofList v]

/-! ## synthesis -/

def spanFields : List String :=
  ["merchant", "amount", "event_time", "reference_id", "balance", "last4"]

/-- Fields a rule sets to a fixed value rather than capturing. -/
def overrideFields : List String := ["direction", "currency"]

/-- `char::is_ascii_alphabetic`. -/
def isAsciiLetter (c : Char) : Bool := ('a' ≤ c && c ≤ 'z') || ('A' ≤ c && c ≤ 'Z')

/-- The fixed value of a template, if it is one. -/
def overrideValueFor (fieldName : String) (v : List Char) : Option String :=
  let lower := toLowercase (String.ofList v)
  match fieldName with
  | "direction" => if lower ∈ ["debit", "credit"] then some lower else none
  | "currency" =>
    if v.length = 3 ∧ v.all isAsciiLetter = true then some (toUppercase (String.ofList v)) else none
  | _ => none

/-- Synthesises a rule payload for one field from a known-correct value. -/
def synthesize (fieldName source newValue : String) : Option RulePayload :=
  if fieldName ∈ overrideFields then
    (overrideValueFor fieldName (trim newValue.toList)).map fun v =>
      { overrideValue := some (.string v) }
  else if fieldName ∉ spanFields then none
  else
    (needleCandidates fieldName newValue).findSome? fun needle =>
      (synthesizeSpanRegex source needle).map fun regex =>
        { regex := some (.string regex), captureGroup := some (.unsigned 1) }

/-! ## guards -/

/-- Verifies a fresh rule reproduces the value it was derived from. -/
def selfCheck (payload : RulePayload) (source : String) (expectedNeedles : List String) : Bool :=
  (applyPayload payload source).any fun recovered => expectedNeedles.any (sameSpan recovered)

/-- Compares a captured value against an accepted one, per field semantics. -/
def valuesAgree (fieldName captured accepted : String) : Bool :=
  if sameSpan captured accepted then true
  else
    match fieldName with
    | "amount" | "balance" | "event_time" =>
      (needleCandidates fieldName accepted).any (sameSpan captured)
    | _ => false

/-- Why a candidate is refused on one message, if it is. -/
def regressionIn (payload : RulePayload) (fieldName : String) (sample : String × Option String) :
    Option String :=
  sample.2.bind fun accepted =>
    (applyPayload payload sample.1).bind fun captured =>
      if valuesAgree fieldName captured accepted then none
      else some ("would change a settled " ++ fieldName ++ ": history has " ++ debugText accepted ++
        ", the candidate extracts " ++ debugText (String.ofList (trim captured.toList)))

/-- Verifies a new rule does not break extractions that already worked. -/
def regressionCheck (payload : RulePayload) (samples : List (String × Option String))
    (fieldName : String) : Except String Unit :=
  match samples.findSome? (regressionIn payload fieldName) with
  | some reason => .error reason
  | none => .ok ()

end Dinero
