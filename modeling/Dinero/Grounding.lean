import Dinero.LearnedFields
import Dinero.RuleSynthesis
import Dinero.Numerals

/-!
# Dinero.Grounding

What is taken from a language model: its output is parsed, checked, and every
value looked for in the message.  The amount is looked for as text, in a message
whose white space and commas are gone.
-/

namespace Dinero

open Numerals

/-! ## the output -/

/-- What the model is asked to print. -/
structure LlmJsonOutput where
  isTransaction : Option Bool := none
  amount : Option ℚ := none
  currency : Option String := none
  direction : Option String := none
  merchant : Option String := none
  datetime : Option String := none
  referenceId : Option String := none
  confidence : Option ℚ := none
deriving DecidableEq, Repr

/-- What is taken from `serde_json`. -/
class OutputReader where
  /-- `serde_json::from_str` of the model's output. -/
  readOutput : String → Option LlmJsonOutput

export OutputReader (readOutput)

/-- The fields of an `ExtractionResult` that model output fills. -/
structure LlmResult where
  extractionMethod : String := "llm_layer6"
  confidenceScore : ℚ := 0
  amountMinor : Option Int := none
  currency : Option String := none
  direction : Option String := none
  merchantRaw : Option String := none
  eventTime : Option Int := none
  eventTimeAmbiguous : Bool := false
  referenceId : Option String := none
deriving DecidableEq, Repr

inductive RawOutputOutcome
  | accepted (parsed : LlmResult)
  | notATransaction
  | failedValidation
  | unparseableJson
deriving DecidableEq, Repr

/-- What stands ahead of a text's first `needle`, and what behind it. -/
def splitAtFirst (needle : List Char) : List Char → Option (List Char × List Char)
  | [] => if needle = [] then some ([], []) else none
  | c :: rest =>
    if needle.isPrefixOf (c :: rest) then some ([], (c :: rest).drop needle.length)
    else (splitAtFirst needle rest).map fun (ahead, behind) => (c :: ahead, behind)

/-- `f64` to `i64`, half away from zero; the cast saturates. -/
def roundI64 (x : ℚ) : Int :=
  let rounded := if 0 ≤ x then ⌊x + 1 / 2⌋ else -⌊-x + 1 / 2⌋
  max (-2 ^ 63) (min (2 ^ 63 - 1) rounded)

/-- A number as `format!` prints it. -/
def printed (n : Int) : List Char := (toString n).toList

section Output

variable [Extern] [RuleTexts] [OutputReader]

/-- Extracts the JSON object from a response that may carry surrounding prose. -/
def extractJsonBlock (text : List Char) : Option (List Char) :=
  match (splitAtFirst "```json".toList text).bind fun p => splitAtFirst "```".toList p.2 with
  | some (block, _) => some (trim block)
  | none =>
    -- From the first opening brace to the last closing one, if that stands behind it.
    let opened := text.dropWhile (· ≠ '\x7b')
    let closed := (opened.reverse.dropWhile (· ≠ '\x7d')).reverse
    if closed = [] then none else some closed

/-- Whether this result carries the mandatory fields a transaction needs. -/
def LlmResult.isValid (r : LlmResult) : Bool :=
  r.eventTime.isSome &&
    (r.amountMinor.isSome && r.currency.isSome && r.direction.isSome && r.merchantRaw.isSome)

def maxFutureEventTimeSeconds : Int := 2 * 24 * 60 * 60

/-- Rejects values that are impossible regardless of the source text. -/
def LlmResult.passesSanityChecks (now : Int) (r : LlmResult) : Bool :=
  if r.amountMinor.getD 0 ≤ 0 then false
  else if r.currency.any fun c => !(c.utf8ByteSize = 3 && c.toList.all isAsciiLetter) then false
  else if r.eventTime.any fun t => now + maxFutureEventTimeSeconds < t then false
  else true

/-- The result as the output has it; its date is the message's where it names none. -/
def LlmJsonOutput.toResult (parsed : LlmJsonOutput) (fallbackEventTime : Option Int) : LlmResult :=
  let result : LlmResult := {
    confidenceScore := max 0 (min 1 (parsed.confidence.getD 0))
    amountMinor := parsed.amount.map fun v => roundI64 (nearestSigned (v * 100))
    currency := parsed.currency
    direction := parsed.direction
    merchantRaw := parsed.merchant
    eventTime := fallbackEventTime
    referenceId := parsed.referenceId }
  match parsed.datetime.bind parseDateGeneric with
  | some (timestamp, ambiguous) =>
    { result with eventTime := some timestamp, eventTimeAmbiguous := ambiguous }
  | none => result

/-- The direction in lower case, if it is one of the two; then the other checks. -/
def LlmResult.checked (now : Int) (result : LlmResult) : Except RawOutputOutcome LlmResult :=
  let lowered := result.direction.map toLowercase
  if lowered.any fun d => d ≠ "credit" && d ≠ "debit" then .error .unparseableJson
  else
    let result := { result with direction := lowered }
    if result.passesSanityChecks now && result.isValid then .ok result
    else .error .unparseableJson

/-- Parses model output into an extraction result. -/
def parseJsonToResult (now : Int) (llmOutput : String) (fallbackEventTime : Option Int) :
    Except RawOutputOutcome LlmResult :=
  let jsonStr := (extractJsonBlock llmOutput.toList).getD llmOutput.toList
  match readOutput (String.ofList jsonStr) with
  | none => .error .unparseableJson
  | some parsed =>
    if parsed.isTransaction = some false then .error .notATransaction
    else (parsed.toResult fallbackEventTime).checked now

/-! ## the message -/

/-- A text without its white space. -/
def squeeze (s : List Char) : List Char := s.filter (!isWhitespace ·)

/-- A text is found in another, up to letter case and white space. -/
def OccursIn (needle body : String) : Prop :=
  squeeze (toLowercase needle).toList <:+: squeeze (toLowercase body).toList

instance (needle body : String) : Decidable (OccursIn needle body) :=
  inferInstanceAs (Decidable (_ <:+: _))

/-- The message as amounts are looked for in it. -/
def figures (body : List Char) : List Char := body.filter fun c => !isWhitespace c && c ≠ ','

/-- Whether an amount is genuinely present in the message text. -/
def amountAppearsInSource (amountMinor : Int) (body : String) : Bool :=
  let normalizedSource := figures body.toList
  let wholePart := amountMinor.tdiv 100
  let fracPart := amountMinor.tmod 100
  let withDecimals := printed wholePart ++ '.' :: pad2 fracPart
  if withDecimals <:+: normalizedSource then true
  else
    let withoutPaddedZeros :=
      if fracPart.tmod 10 = 0 ∧ fracPart ≠ 0 then
        printed wholePart ++ '.' :: printed (fracPart.tdiv 10)
      else withDecimals
    if fracPart ≠ 0 ∧ withoutPaddedZeros <:+: normalizedSource then true
    else if fracPart = 0 then decide (printed wholePart <:+: normalizedSource)
    else false

/-- Verifies every extracted value actually appears in the source message. -/
def validateAgainstSource (r : LlmResult) (body : String) : Bool :=
  if r.merchantRaw.any fun m => m ≠ "" && !decide (OccursIn m body) then false
  else if r.referenceId.any fun m => m ≠ "" && !decide (OccursIn m body) then false
  else if r.amountMinor.any fun a => !amountAppearsInSource a body then false
  else true

/-- Classifies raw model output into accepted, invalid, or unparseable. -/
def classifyRawOutput (now : Int) (raw body : String) (fallbackEventTime : Option Int) :
    RawOutputOutcome :=
  match parseJsonToResult now raw fallbackEventTime with
  | .ok parsed => if validateAgainstSource parsed body then .accepted parsed else .failedValidation
  | .error .notATransaction => .notATransaction
  | .error _ => .unparseableJson

end Output

/-! ## numbers of the message -/

/-- A number goes on here: with a digit, or with a comma or a dot and a digit. -/
def goesOn : List Char → Bool
  | [] => false
  | [c] => c.isDigit
  | c :: d :: _ => c.isDigit || ((c = ',' || c = '.') && d.isDigit)

/-- A number stands complete between two texts: it is no part of a longer one. -/
structure Complete (body : List Char) (t : Numeral) : Prop where
  whole : t.whole ≠ []
  apart : ∃ pre post, body = pre ++ (t.text ++ post) ∧ goesOn pre.reverse = false ∧
    goesOn post = false

/-- The body has a complete number of so many minor units. -/
def PrintsAmount (body : String) (a : Int) : Prop :=
  ∃ t, Complete body.toList t ∧ t.value * 100 = a

/-- What model output has to be for a message: accepted only with what the message says, and not
refused for what it does say. -/
def Grounded [Extern] [RuleTexts] [OutputReader] (now : Int) (raw body : String)
    (fallbackEventTime : Option Int) : Prop :=
  (∀ r, classifyRawOutput now raw body fallbackEventTime = .accepted r →
    (∃ a, r.amountMinor = some a ∧ 0 < a ∧ PrintsAmount body a) ∧
      (∀ m, r.merchantRaw = some m → OccursIn m body) ∧
      ∀ m, r.referenceId = some m → OccursIn m body) ∧
  ∀ r, parseJsonToResult now raw fallbackEventTime = .ok r →
    (∀ a, r.amountMinor = some a → PrintsAmount body a) →
    (∀ m, r.merchantRaw = some m → OccursIn m body) →
    (∀ m, r.referenceId = some m → OccursIn m body) →
      classifyRawOutput now raw body fallbackEventTime ≠ .failedValidation

/-! ## renderings -/

/-- The decimals of so many hundredths, with their point. -/
def pointAndDecimals (f : Nat) : List Char :=
  if hundredths f = [] then [] else '.' :: hundredths f

/-- The shortest form an amount is looked for in. -/
def shortest (a : Nat) : List Char := Nat.toDigits 10 (a / 100) ++ pointAndDecimals (a % 100)

/-- The amount's own digits are printed complete: zeros may stand in front of them, commas between
those ahead of the point, and zeros behind the decimals. -/
def PrintsDigits (body : String) (a : Int) : Prop :=
  ∃ t, Complete body.toList t ∧
    (∃ i, t.wholeDigits = List.replicate i '0' ++ Nat.toDigits 10 (a.toNat / 100)) ∧
    ∃ j, t.decimals = hundredths (a.toNat % 100) ++ List.replicate j '0'

theorem printsAmount_iff {body : String} {a : Int} (ha : 0 < a) :
    PrintsAmount body a ↔ PrintsDigits body a := by
  have hcast : ((a.toNat : Nat) : ℚ) = (a : ℚ) := by
    have hint : ((a.toNat : Nat) : Int) = a := Int.toNat_of_nonneg (Int.le_of_lt ha)
    rw [← Int.cast_natCast, hint]
  constructor
  · intro ⟨t, ht, hvalue⟩
    rw [← hcast] at hvalue
    exact ⟨t, ht, (t.value_mul_iff ht.whole a.toNat).mp hvalue⟩
  · intro ⟨t, ht, hdigits⟩
    have hvalue := (t.value_mul_iff ht.whole a.toNat).mpr hdigits
    rw [hcast] at hvalue
    exact ⟨t, ht, hvalue⟩

theorem printed_natCast (n : Nat) : printed (n : Int) = Nat.toDigits 10 n := toList_natCast n

theorem pointAndDecimals_cases (f : Nat) :
    pointAndDecimals f = if f = 0 then [] else if f % 10 = 0 then ['.', Nat.digitChar (f / 10)]
      else ['.', Nat.digitChar (f / 10), Nat.digitChar (f % 10)] := by
  rw [pointAndDecimals, hundredths]
  by_cases hzero : f = 0
  · simp [hzero]
  · by_cases hten : f % 10 = 0
    · simp [hzero, hten]
    · simp [hzero, hten]

/-- With two decimals, the form begins with the shortest. -/
theorem pointAndDecimals_begins (f : Nat) :
    pointAndDecimals f <+: ['.', Nat.digitChar (f / 10), Nat.digitChar (f % 10)] := by
  rw [pointAndDecimals_cases]
  split
  · exact List.nil_prefix
  · split
    · exact ⟨[Nat.digitChar (f % 10)], rfl⟩
    · exact List.prefix_rfl

/-- What grounding needs of the Unicode tables. -/
class FigureTables [Extern] : Prop where
  digit : ∀ c : Char, c.isDigit = true → isWhitespace c = false
  dot : isWhitespace '.' = false
  empty : toLowercase "" = ""

section Renderings

variable [Extern]

/-- All forms an amount is looked for in hold the shortest. -/
theorem amountAppears_iff (n : Nat) (body : String) :
    amountAppearsInSource n body = true ↔ shortest n <:+: figures body.toList := by
  have hwhole : (n : Int).tdiv 100 = ((n / 100 : Nat) : Int) := rfl
  have hfrac : (n : Int).tmod 100 = ((n % 100 : Nat) : Int) := rfl
  have hlt : n % 100 < 100 := Nat.mod_lt n (by decide)
  rw [amountAppearsInSource, hwhole, hfrac, printed_natCast, pad2_natCast hlt, shortest]
  generalize n % 100 = f at *
  generalize Nat.toDigits 10 (n / 100) = w
  generalize figures body.toList = source
  have hten : (f : Int).tmod 10 = ((f % 10 : Nat) : Int) := rfl
  have htens : (f : Int).tdiv 10 = ((f / 10 : Nat) : Int) := rfl
  rw [hten, htens, printed_natCast, Nat.toDigits_of_lt_base (by omega)]
  by_cases hfull : w ++ '.' :: [Nat.digitChar (f / 10), Nat.digitChar (f % 10)] <:+: source
  · have hshort := (List.prefix_append_right_inj w).mpr (pointAndDecimals_begins f)
    rw [if_pos hfull]
    exact iff_of_true rfl (hshort.isInfix.trans hfull)
  · rw [if_neg hfull, pointAndDecimals_cases]
    simp only [Int.natCast_eq_zero, ne_eq]
    by_cases hzero : f = 0
    · simp [hzero]
    · by_cases hten : f % 10 = 0
      · simp [hzero, hten]
      · simp [hzero, hten, hfull]

variable [FigureTables]

/-- A number's text, as amounts are looked for in it. -/
theorem figures_text (t : Numeral) :
    figures t.text = t.wholeDigits ++ if t.decimals = [] then [] else '.' :: t.decimals := by
  have hdigit : ∀ c : Char, c.isDigit = true → (!isWhitespace c && decide (c ≠ ',')) = true := by
    intro c hc
    have hcomma : c ≠ ',' := by
      intro h
      rw [h] at hc
      exact absurd hc (by decide)
    rw [FigureTables.digit c hc, decide_eq_true hcomma]
    rfl
  have hwhole : figures t.whole = t.wholeDigits := by
    refine List.filter_congr fun c hc => ?_
    obtain hnil | hgrouped := t.grouped
    · rw [hnil] at hc
      exact absurd hc List.not_mem_nil
    · obtain hc' | rfl := hgrouped.mem c hc
      · rw [hdigit c hc', hc']
      · simp
  have hdecimals : figures t.decimals = t.decimals :=
    List.filter_eq_self.mpr fun c hc => hdigit c (t.digits c hc)
  have hdot : (!isWhitespace '.' && decide ('.' ≠ ',')) = true := by
    rw [FigureTables.dot]
    rfl
  have hpoint : figures ('.' :: t.decimals) = '.' :: t.decimals := by
    have hcons : figures ('.' :: t.decimals) = '.' :: figures t.decimals :=
      List.filter_cons_of_pos hdot
    rw [hcons, hdecimals]
  have happend : ∀ xs, figures (t.whole ++ xs) = t.wholeDigits ++ figures xs := by
    intro xs
    rw [← hwhole]
    exact List.filter_append t.whole xs
  rw [Numeral.text, happend]
  split
  · rfl
  · rw [hpoint]

/-- A complete number of the body is found in it. -/
theorem PrintsDigits.appears {body : String} {a : Int} (h : PrintsDigits body a) :
    shortest a.toNat <:+: figures body.toList := by
  obtain ⟨t, ht, ⟨i, hwhole⟩, j, hdecimals⟩ := h
  obtain ⟨pre, post, hbody, -, -⟩ := ht.apart
  have hsplit : figures body.toList = figures pre ++ (figures t.text ++ figures post) := by
    rw [hbody, figures, List.filter_append, List.filter_append]
    rfl
  have htext : shortest a.toNat <:+: figures t.text := by
    rw [figures_text, hwhole, shortest, pointAndDecimals]
    by_cases hnone : hundredths (a.toNat % 100) = []
    · rw [if_pos hnone, List.append_nil, List.append_assoc]
      exact ⟨_, _, List.append_assoc _ _ _⟩
    · have hsome : t.decimals ≠ [] := by
        rw [hdecimals]
        simp [hnone]
      rw [if_neg hnone, if_neg hsome, hdecimals]
      exact ⟨List.replicate i '0', List.replicate j '0', by simp⟩
  rw [hsplit]
  exact htext.trans ⟨figures pre, figures post, by simp⟩

theorem validate_iff (r : LlmResult) (body : String) :
    validateAgainstSource r body = true ↔
      (∀ m, r.merchantRaw = some m → OccursIn m body) ∧
      (∀ m, r.referenceId = some m → OccursIn m body) ∧
      ∀ a, r.amountMinor = some a → amountAppearsInSource a body = true := by
  have hempty : OccursIn "" body := by
    rw [OccursIn, FigureTables.empty]
    exact List.nil_infix
  have hfield : ∀ field : Option String,
      (field.any fun m => m ≠ "" && !decide (OccursIn m body)) = false ↔
        ∀ m, field = some m → OccursIn m body := by
    intro field
    cases field with
    | none => simp
    | some m =>
      by_cases hm : m = ""
      · simp [hm, hempty]
      · simp [hm]
  have hamount : (r.amountMinor.any fun a => !amountAppearsInSource a body) = false ↔
      ∀ a, r.amountMinor = some a → amountAppearsInSource a body = true := by
    cases r.amountMinor with
    | none => simp
    | some a => simp
  rw [← hfield, ← hfield, ← hamount, validateAgainstSource]
  cases r.merchantRaw.any fun m => m ≠ "" && !decide (OccursIn m body) with
  | true => simp
  | false =>
    cases r.referenceId.any fun m => m ≠ "" && !decide (OccursIn m body) with
    | true => simp
    | false =>
      cases r.amountMinor.any fun a => !amountAppearsInSource a body with
      | true => simp
      | false => simp

end Renderings

/-! ## grounding -/

section Grounding

theorem passesSanityChecks_amount {now : Int} {r : LlmResult}
    (h : r.passesSanityChecks now = true) : 0 < r.amountMinor.getD 0 := by
  rw [LlmResult.passesSanityChecks] at h
  split at h
  · exact absurd h Bool.false_ne_true
  · omega

variable [Extern]

theorem checked_cases (now : Int) (result : LlmResult) :
    result.checked now = .error .unparseableJson ∨
      ∃ r, result.checked now = .ok r ∧ r.passesSanityChecks now = true := by
  rw [LlmResult.checked]
  simp only
  split
  · exact .inl rfl
  · split
    · rename_i hchecks
      rw [Bool.and_eq_true] at hchecks
      exact .inr ⟨_, rfl, hchecks.1⟩
    · exact .inl rfl

variable [RuleTexts] [OutputReader]

/-- Output that parses has an amount, and a positive one. -/
theorem parse_cases (now : Int) (raw : String) (fallback : Option Int) :
    parseJsonToResult now raw fallback = .error .notATransaction ∨
      parseJsonToResult now raw fallback = .error .unparseableJson ∨
      ∃ r a, parseJsonToResult now raw fallback = .ok r ∧ r.amountMinor = some a ∧ 0 < a := by
  rw [parseJsonToResult]
  split
  · exact .inr (.inl rfl)
  · rename_i parsed hread
    split
    · exact .inl rfl
    · obtain hbad | ⟨r, hok, hsane⟩ := checked_cases now (parsed.toResult fallback)
      · exact .inr (.inl hbad)
      · have hpos := passesSanityChecks_amount hsane
        cases hamount : r.amountMinor with
        | none =>
          rw [hamount, Option.getD_none] at hpos
          exact absurd hpos (Int.lt_irrefl 0)
        | some a =>
          rw [hamount, Option.getD_some] at hpos
          exact .inr (.inr ⟨r, a, hok, hamount, hpos⟩)

variable [FigureTables]

/-- An accepted amount is the message's exactly where its digits, once found in the message without
white space and commas, are printed complete in the message itself. -/
theorem grounded_iff (now : Int) (raw body : String) (fallback : Option Int) :
    Grounded now raw body fallback ↔
      ∀ r a, parseJsonToResult now raw fallback = .ok r → r.amountMinor = some a →
        (∀ m, r.merchantRaw = some m → OccursIn m body) →
        (∀ m, r.referenceId = some m → OccursIn m body) →
        shortest a.toNat <:+: figures body.toList → PrintsDigits body a := by
  obtain hparse | hparse | ⟨r, a, hparse, hamount, hpos⟩ := parse_cases now raw fallback
  · have hclass : classifyRawOutput now raw body fallback = .notATransaction := by
      rw [classifyRawOutput, hparse]
    rw [Grounded, hclass, hparse]
    simp
  · have hclass : classifyRawOutput now raw body fallback = .unparseableJson := by
      rw [classifyRawOutput, hparse]
    rw [Grounded, hclass, hparse]
    simp
  · have hnat : ((a.toNat : Nat) : Int) = a := Int.toNat_of_nonneg (Int.le_of_lt hpos)
    have hfound : amountAppearsInSource a body = true ↔
        shortest a.toNat <:+: figures body.toList := by
      rw [← amountAppears_iff, hnat]
    have hvalidate := validate_iff r body
    have hprints : PrintsAmount body a ↔ PrintsDigits body a := printsAmount_iff hpos
    have hclass : classifyRawOutput now raw body fallback =
        if validateAgainstSource r body then .accepted r else .failedValidation := by
      rw [classifyRawOutput, hparse]
    rw [hamount] at hvalidate
    simp only [Option.some.injEq, forall_eq', hfound] at hvalidate
    constructor
    · intro hgrounded r' a' hparse' hamount' hmerchant hreference hshortest
      rw [hparse, Except.ok.injEq] at hparse'
      rw [← hparse'] at hamount' hmerchant hreference
      rw [hamount, Option.some.injEq] at hamount'
      rw [← hamount'] at hshortest ⊢
      have hvalid := hvalidate.mpr ⟨hmerchant, hreference, hshortest⟩
      rw [hvalid, if_pos rfl] at hclass
      obtain ⟨⟨b, hb, -, hprinted⟩, -, -⟩ := hgrounded.1 r hclass
      rw [hamount, Option.some.injEq] at hb
      rw [← hb] at hprinted
      exact hprints.mp hprinted
    · intro hdigits
      constructor
      · intro r' haccepted
        rw [hclass] at haccepted
        by_cases hvalid : validateAgainstSource r body = true
        · rw [if_pos hvalid, RawOutputOutcome.accepted.injEq] at haccepted
          rw [← haccepted]
          obtain ⟨hmerchant, hreference, hshortest⟩ := hvalidate.mp hvalid
          have hprinted := hdigits r a hparse hamount hmerchant hreference hshortest
          exact ⟨⟨a, hamount, hpos, hprints.mpr hprinted⟩, hmerchant, hreference⟩
        · rw [if_neg hvalid] at haccepted
          exact absurd haccepted (by simp)
      · intro r' hparse' hprinted hmerchant hreference
        rw [hparse, Except.ok.injEq] at hparse'
        rw [← hparse'] at hprinted hmerchant hreference
        have hshortest := (hprints.mp (hprinted a hamount)).appears
        have hvalid := hvalidate.mpr ⟨hmerchant, hreference, hshortest⟩
        rw [hclass, if_pos hvalid]
        simp

end Grounding

/-- The output for a payment at Amazon. -/
def sampleOutput (amount : String) : String :=
  "\x7b\"amount\":" ++ amount ++
    ",\"currency\":\"INR\",\"direction\":\"debit\",\"merchant\":\"Amazon\"\x7d"

/-- Two outputs as they are read. -/
@[reducible] def OutputReader.sample : OutputReader where
  readOutput s :=
    let amount : Option ℚ :=
      if s = sampleOutput "234" then some 234
      else if s = sampleOutput "1299" then some 1299
      else none
    amount.map fun v =>
      { amount := some v, currency := some "INR", direction := some "debit"
        merchant := some "Amazon" }

instance figureTables_ascii : @FigureTables .ascii :=
  @FigureTables.mk .ascii (fun c hc => by
    have hrange := isDigit_range hc
    exact isWhitespace_of_lt (by omega)) rfl rfl

/-- A number that stands complete, by where it begins and how long it is. -/
theorem Complete.bounds {body : List Char} {t : Numeral} (h : Complete body t) :
    ∃ k l, k ≤ body.length ∧ l ≤ body.length ∧ goesOn (body.take k).reverse = false ∧
      goesOn (body.drop (k + l)) = false ∧ (body.drop k).take l = t.text := by
  obtain ⟨pre, post, rfl, hpre, hpost⟩ := h.apart
  refine ⟨pre.length, t.text.length, by simp, by simp; omega, ?_, ?_, ?_⟩
  · rw [List.take_left]
    exact hpre
  · rw [← List.drop_drop, List.drop_left, List.drop_left]
    exact hpost
  · rw [List.drop_left, List.take_left]

/-- 234 is found within a card number. -/
theorem amount_within_card_number :
    letI := Extern.ascii
    letI := RuleTexts.words
    letI := OutputReader.sample
    ¬ Grounded 1747026600 (sampleOutput "234") "Rs 5 at Amazon, card 1234" (some 1747026600) := by
  let := Extern.ascii
  let := RuleTexts.words
  let := OutputReader.sample
  intro h
  have haccepted : classifyRawOutput 1747026600 (sampleOutput "234") "Rs 5 at Amazon, card 1234"
      (some 1747026600) = .accepted {
        amountMinor := some 23400, currency := some "INR", direction := some "debit"
        merchantRaw := some "Amazon", eventTime := some 1747026600 } := by decide +kernel
  obtain ⟨⟨a, ha, hpos, hprinted⟩, -⟩ := h.1 _ haccepted
  have ha : a = 23400 := (Option.some.inj ha).symm
  rw [ha] at hprinted
  obtain ⟨t, ht, ⟨i, hwhole⟩, j, hdecimals⟩ := (printsAmount_iff (by decide)).mp hprinted
  have hdigits : t.text.filter Char.isDigit =
      List.replicate i '0' ++ ("234".toList ++ List.replicate j '0') := by
    rw [t.filter_text, hwhole, hdecimals, List.append_assoc]
    rfl
  have hfirst : (t.text.filter Char.isDigit).dropWhile (· = '0') =
      "234".toList ++ List.replicate j '0' := by
    rw [hdigits, List.dropWhile_append_of_pos (by simp)]
    rfl
  obtain ⟨k, l, hk, hl, hpre, hpost, htext⟩ := ht.bounds
  rw [← htext] at hfirst
  have hnone : ∀ k ≤ 25, ∀ l ≤ 25,
      goesOn ("Rs 5 at Amazon, card 1234".toList.take k).reverse = false →
      goesOn ("Rs 5 at Amazon, card 1234".toList.drop (k + l)) = false →
      ((((("Rs 5 at Amazon, card 1234".toList.drop k).take l).filter Char.isDigit).dropWhile
        (· = '0')).take 3 ≠ "234".toList) := by decide +kernel
  refine hnone k hk l hl hpre hpost ?_
  rw [hfirst]
  rfl

/-- 1,299.00 -/
def groupedAmount : Numeral where
  whole := "1,299".toList
  decimals := "00".toList
  grouped := .inr (.comma (by decide) (.cons (by decide) (.cons (by decide) (.digit (by decide)))))
  digits := List.all_eq_true.mp (by decide)
  nonempty := by decide

/-- An amount with group commas and decimals, as its message prints it. -/
theorem grounded_thousand :
    letI := Extern.ascii
    letI := RuleTexts.words
    letI := OutputReader.sample
    Grounded 1747026600 (sampleOutput "1299") "Rs 1,299.00 spent at AMAZON" (some 1747026600) := by
  let := Extern.ascii
  let := RuleTexts.words
  let := OutputReader.sample
  have := figureTables_ascii
  refine (grounded_iff _ _ _ _).mpr fun r a hparse hamount _ _ _ => ?_
  have hsample : parseJsonToResult 1747026600 (sampleOutput "1299") (some 1747026600) = .ok {
      amountMinor := some 129900, currency := some "INR", direction := some "debit"
      merchantRaw := some "Amazon", eventTime := some 1747026600 } := by decide +kernel
  rw [hsample, Except.ok.injEq] at hparse
  rw [← hparse, Option.some.injEq] at hamount
  have hcomplete : Complete "Rs 1,299.00 spent at AMAZON".toList groupedAmount :=
    ⟨by decide, "Rs ".toList, " spent at AMAZON".toList, by decide, by decide, by decide⟩
  rw [← hamount]
  exact ⟨groupedAmount, hcomplete, ⟨0, by decide⟩, ⟨2, by decide⟩⟩

end Dinero
