import Dinero.TokenLayer

/-!
# Dinero.Ladder

The extraction ladder (`run_extraction_ladder` of `extraction/ladder.rs`).

The layers run in order and the first valid result wins; whatever layer it came
from, it is filled in and then checked twice, its amount against another reading
of the message and an ambiguous date against the day the mail arrived.

* what the layers with patterns of their own return, and what the detectors read,
  is arbitrary: nothing below depends on it.
* confidences are exact numbers.
-/

namespace Dinero.Ladder

open Backtrack

/-! ## the amount, read again -/

section Ladder

variable [Extern] [RuleTexts] [RowExtractor.RowTables]

/-- `[\d,]+(?:\.\d+)?`. -/
def figureRe : Pattern :=
  .seq (plus true (.cls fun c => isDigit c || c = ','))
    (opt (.seq (.lit '.') (plus true (.cls isDigit))))

def blanksRe : Pattern := .star true (.cls isWhitespace)

def currencyCodes : List String :=
  ["usd", "eur", "gbp", "aed", "sgd", "aud", "cad", "jpy", "chf"]

/-- A currency and the figure behind it; its words begin at a word boundary. -/
def currencyPrefixRe : Pattern :=
  seqAll [
    .group 1 (altAll ([seqAll [wordBoundary, word "rs", opt (.lit '.')],
      seqAll [wordBoundary, word "inr"], .lit '₹', .lit '$'] ++
      currencyCodes.map fun code => .seq wordBoundary (word code))),
    blanksRe, .group 2 figureRe]

/-- A figure and the currency behind it; its words end at a word boundary. -/
def currencySuffixRe : Pattern :=
  seqAll [.group 1 figureRe, blanksRe,
    .group 2 (altAll ([.seq (word "inr") wordBoundary,
      seqAll [word "rs", opt (.lit '.'), wordBoundary], .lit '₹'] ++
      currencyCodes.map fun code => .seq (word code) wordBoundary))]

inductive AmountAgreement
  | agrees
  | disagrees
  | inconclusive
deriving DecidableEq

/-- The first amount with a currency in front of it, or else behind it. -/
def independentAmount (body : List Char) : Option Int :=
  (((captures currencyPrefixRe body).bind (groupOf 2)).bind parseAmount).or
    (((captures currencySuffixRe body).bind (groupOf 1)).bind parseAmount)

/-- Independently re-reads the amount from the message and compares it. -/
def crossCheckAmount (body : List Char) (claimed : Int) : AmountAgreement :=
  match independentAmount body with
  | none => .inconclusive
  | some independent => if independent = claimed then .agrees else .disagrees

def crossCheckDisagreementConfidence : ℚ := 4 / 10

def crossCheckDisagreementPenaltyFactor : ℚ := 8 / 10

/-- The amount of a result is not the one in the message, and neither is the foreign one. -/
def ExtractionResult.amountDisputed (body : List Char) (obs : ExtractionResult) : Bool :=
  !obs.originalAmountMinor.any (fun orig => crossCheckAmount body orig = .agrees) &&
    obs.amountMinor.any fun claimed => crossCheckAmount body claimed = .disagrees

/-- Downgrades confidence when the independent amount read disagrees. -/
def applyAmountCrossCheck (body : List Char) (obs : ExtractionResult) : ExtractionResult :=
  if obs.amountDisputed body then
    { obs with confidenceScore := some (match obs.confidenceScore with
        | some existing => min (max (existing * crossCheckDisagreementPenaltyFactor) 0)
            crossCheckDisagreementConfidence
        | none => crossCheckDisagreementConfidence) }
  else obs

/-! ## the date, against the mail's -/

def dateCrossCheckDecisiveRatio : Int := 3

def dateCrossCheckPlausibleDelayDays : Int := 7

/-- `DateTime::from_timestamp(ts, 0)`, by day. -/
def dayFromTimestamp (ts : Int) : Option Int :=
  let year := (civil (dateOf ts)).1
  if -262143 ≤ year ∧ year ≤ 262142 then some (dateOf ts) else none

/-- The date with day and month exchanged, where that is another date. -/
def swappedDay (day : Int) : Option Int :=
  let (year, month, dayOfMonth) := civil day
  if dayOfMonth = month then none else fromYmd year dayOfMonth month

/-- The days between two dates. -/
def daysApart (a b : Int) : Int := |a - b|

/-- Lowers the confidence to the disagreement's and says why. -/
def flagMismatch (obs : ExtractionResult) : ExtractionResult :=
  { obs with
    dateCrossCheckFlag := some "anchor_mismatch_needs_review"
    confidenceScore := some (match obs.confidenceScore with
      | some existing => min existing crossCheckDisagreementConfidence
      | none => crossCheckDisagreementConfidence) }

/-- An ambiguous date against the day the mail arrived: swapped where that is decisively nearer,
flagged where neither is near. -/
def applyDateCrossCheck (internalDate : Option Int) (obs : ExtractionResult) : ExtractionResult :=
  if obs.eventTimeAmbiguous then
    match obs.eventTime.bind dayFromTimestamp, internalDate.bind dayFromTimestamp with
    | some original, some anchor =>
      match swappedDay original with
      | some swapped =>
        let origDays := daysApart anchor original
        let swappedDays := daysApart anchor swapped
        if swappedDays ≤ dateCrossCheckPlausibleDelayDays ∧
            swappedDays * dateCrossCheckDecisiveRatio < max origDays 1 then
          { obs with
            eventTime := some (swapped * 86400)
            dateCrossCheckFlag := some "swapped_by_anchor" }
        else if dateCrossCheckPlausibleDelayDays < origDays ∧
            dateCrossCheckPlausibleDelayDays < swappedDays then flagMismatch obs
        else obs
      | none => obs
    | _, _ => obs
  else obs

/-! ## filling in -/

structure InstrumentSignals where
  instrumentType : Option String
  issuerName : Option String
  maskedIdentifier : Option String
  network : Option String
  upiVpa : Option String

structure FxFields where
  originalAmountMinor : Option Int
  originalCurrency : Option String
  exchangeRate : Option ℚ

/-- What the detectors read of the message. -/
structure Detected where
  signals : InstrumentSignals
  emiInstallmentNumbers : Option (Int × Int)
  emiOriginalAmountMinor : Option Int
  fxFields : String → FxFields
  channel : ExtractionResult → Option String

/-- The fields that learned rules write. -/
def ExtractionResult.learned (obs : ExtractionResult) : LearnedResult where
  merchantRaw := obs.merchantRaw
  amountMinor := obs.amountMinor
  balanceAfter := obs.balanceAfter
  referenceId := obs.referenceId
  maskedIdentifier := obs.maskedIdentifier
  direction := obs.direction
  currency := obs.currency
  eventTime := obs.eventTime
  eventTimeAmbiguous := obs.eventTimeAmbiguous

def ExtractionResult.withLearned (obs : ExtractionResult) (l : LearnedResult) : ExtractionResult :=
  { obs with
    merchantRaw := l.merchantRaw
    amountMinor := l.amountMinor
    balanceAfter := l.balanceAfter
    referenceId := l.referenceId
    maskedIdentifier := l.maskedIdentifier
    direction := l.direction
    currency := l.currency
    eventTime := l.eventTime
    eventTimeAmbiguous := l.eventTimeAmbiguous }

/-- Fill, not overwrite. -/
def applyInstrumentSignals (signals : InstrumentSignals) (obs : ExtractionResult) :
    ExtractionResult :=
  { obs with
    issuerName := obs.issuerName.or signals.issuerName
    instrumentType := obs.instrumentType.or signals.instrumentType
    maskedIdentifier := obs.maskedIdentifier.or signals.maskedIdentifier
    network := obs.network.or signals.network
    upiVpa := obs.upiVpa.or signals.upiVpa }

/-- The instalment, where the message counts one. -/
def applyEmi (d : Detected) (obs : ExtractionResult) : ExtractionResult :=
  match d.emiInstallmentNumbers with
  | some (number, total) =>
    { obs with
      emiInstallmentNumber := obs.emiInstallmentNumber.or (some number)
      emiTotalInstallments := obs.emiTotalInstallments.or (some total)
      emiOriginalAmountMinor := obs.emiOriginalAmountMinor.or d.emiOriginalAmountMinor }
  | none => obs

/-- Filled in, not overwritten: the last layer can report foreign amounts of its own. -/
def applyFx (d : Detected) (obs : ExtractionResult) : ExtractionResult :=
  let fx := d.fxFields (obs.currency.getD "INR")
  { obs with
    originalAmountMinor := obs.originalAmountMinor.or fx.originalAmountMinor
    originalCurrency := obs.originalCurrency.or fx.originalCurrency
    exchangeRate := obs.exchangeRate.or fx.exchangeRate }

def applyChannel (d : Detected) (obs : ExtractionResult) : ExtractionResult :=
  { obs with channel := obs.channel.or (d.channel obs) }

/-- The learned rules of the bank, unless the result is theirs. -/
def applyLearned (b : Cleanup) (bankName body : String) (obs : ExtractionResult) :
    ExtractionResult :=
  if obs.extractionMethod = "learned_fields" then obs
  else obs.withLearned (applyLearnedFields b bankName body "email" obs.learned).2

/-- What is filled in before the checks. -/
def fillIn (b : Cleanup) (d : Detected) (bankName body : String) (obs : ExtractionResult) :
    ExtractionResult :=
  applyChannel d (applyFx d (applyEmi d (applyInstrumentSignals d.signals
    (applyLearned b bankName body obs))))

/-- Enriches and cross-checks whichever layer's result won. -/
def finalizeResult (b : Cleanup) (d : Detected) (bankName body : String)
    (internalDate : Option Int) (obs : ExtractionResult) : ExtractionResult :=
  applyDateCrossCheck internalDate
    (applyAmountCrossCheck body.toList (fillIn b d bankName body obs))

/-! ## the ladder -/

inductive Layer6Outcome
  | extracted (result : ExtractionResult)
  | timedOut
  | failed
  | rejected
  | notATransaction

/-- What the layers with patterns of their own return for the message. -/
structure Layers where
  bankTemplates : Option ExtractionResult
  genericRegex : Option ExtractionResult
  crossref : Option ExtractionResult
  llm : Layer6Outcome

inductive LadderError
  | timedOut
  | failed
deriving DecidableEq

def layer12Confidence : ℚ := 95 / 100

/-- Applies rules learned from this bank's previous messages. -/
def learnedFieldLayer (b : Cleanup) (bankName body : String) : Option ExtractionResult :=
  let start : ExtractionResult :=
    { extractionMethod := "learned_fields", confidenceScore := some layer12Confidence }
  let (fired, learned) := applyLearnedFields b bankName body "email" start.learned
  let result := start.withLearned learned
  if fired && result.isValid then some result else none

/-- Runs the extraction layers in order, stopping at the first valid result; the model is asked
last, and only on a machine that can run it. -/
def runExtractionLadder (b : Cleanup) (layers : Layers) (d : Detected) (bankName body : String)
    (llmEligible : Bool) (internalDate : Option Int) :
    Except LadderError (Option ExtractionResult) :=
  let finalize := finalizeResult b d bankName body internalDate
  let cheap := [learnedFieldLayer b bankName body, layers.bankTemplates, layers.genericRegex,
    nlpExtract bankName body.toList, layers.crossref]
  match cheap.findSome? (Option.filter ExtractionResult.isValid) with
  | some obs => .ok (some (finalize obs))
  | none =>
    if llmEligible then
      match layers.llm with
      | .extracted obs => .ok (if obs.isValid then some (finalize obs) else none)
      | .timedOut => .error .timedOut
      | .failed => .error .failed
      | .rejected => .ok none
      | .notATransaction => .ok none
    else .ok none

/-! ## what the checks leave -/

/-- The date of an ambiguous result and the day the mail arrived lie close together, or the result
is flagged and not trusted. -/
def ExtractionResult.DateSettled (internalDate : Option Int) (r : ExtractionResult) : Prop :=
  ∀ day ∈ r.eventTime.bind dayFromTimestamp, ∀ anchor ∈ internalDate.bind dayFromTimestamp,
    (swappedDay day).isSome = true → daysApart anchor day ≤ 21 ∨
      r.dateCrossCheckFlag = some "anchor_mismatch_needs_review" ∧
        ∃ c ∈ r.confidenceScore, c ≤ crossCheckDisagreementConfidence

omit [Extern] [RuleTexts] [RowExtractor.RowTables] in
theorem swappedDay_eq_some_iff {day swapped : Int} : swappedDay day = some swapped ↔
    (civil day).2.2 ≠ (civil day).2.1 ∧
      fromYmd (civil day).1 (civil day).2.2 (civil day).2.1 = some swapped := by
  unfold swappedDay
  simp

omit [Extern] [RuleTexts] [RowExtractor.RowTables] in
theorem dayFromTimestamp_midnight {day swapped : Int} (h : swappedDay day = some swapped) :
    dayFromTimestamp (swapped * 86400) = some swapped := by
  obtain ⟨-, hymd⟩ := swappedDay_eq_some_iff.mp h
  obtain ⟨hlow, hhigh, hcivil⟩ := fromYmd_eq_some_iff.mp hymd
  have hday : dateOf (swapped * 86400) = swapped := by
    unfold dateOf
    omega
  unfold dayFromTimestamp
  simp [hday, hcivil, hlow, hhigh]

omit [Extern] [RuleTexts] [RowExtractor.RowTables] in
/-- The date check settles an ambiguous date. -/
theorem dateCrossCheck_settles (internalDate : Option Int) {obs : ExtractionResult}
    (hambiguous : obs.eventTimeAmbiguous = true) :
    (applyDateCrossCheck internalDate obs).DateSettled internalDate := by
  intro day hday anchor hanchor hswap
  rw [Option.mem_def] at hday hanchor
  unfold applyDateCrossCheck at hday ⊢
  simp only [hambiguous, if_true, hanchor] at hday ⊢
  cases horig : obs.eventTime.bind dayFromTimestamp with
  | none => simp [horig] at hday
  | some original =>
    cases hswapped : swappedDay original with
    | none =>
      simp only [horig, hswapped, Option.some.injEq] at hday
      rw [← hday, hswapped] at hswap
      simp at hswap
    | some swapped =>
      simp only [horig, hswapped] at hday ⊢
      by_cases hnear : daysApart anchor swapped ≤ dateCrossCheckPlausibleDelayDays ∧
          daysApart anchor swapped * dateCrossCheckDecisiveRatio < max (daysApart anchor original) 1
      · simp only [hnear, and_self, if_true, Option.bind_some,
          dayFromTimestamp_midnight hswapped, Option.some.injEq] at hday
        have hlimit := hnear.1
        unfold dateCrossCheckPlausibleDelayDays at hlimit
        rw [← hday]
        exact .inl (by omega)
      · by_cases hfar : dateCrossCheckPlausibleDelayDays < daysApart anchor original ∧
            dateCrossCheckPlausibleDelayDays < daysApart anchor swapped
        · right
          rw [if_neg hnear, if_pos hfar]
          refine ⟨rfl, _, rfl, ?_⟩
          cases obs.confidenceScore with
          | some existing => exact min_le_right _ _
          | none => exact le_rfl
        · left
          rw [if_neg hnear, if_neg hfar, horig, Option.some.injEq] at hday
          have hle := le_max_left (daysApart anchor original) 1
          simp only [dateCrossCheckPlausibleDelayDays, dateCrossCheckDecisiveRatio] at hnear hfar
          rw [← hday]
          omega

omit [Extern] [RuleTexts] [RowExtractor.RowTables] in
theorem dateCrossCheck_not_ambiguous (internalDate : Option Int) {obs : ExtractionResult}
    (h : obs.eventTimeAmbiguous = false) : applyDateCrossCheck internalDate obs = obs := by
  unfold applyDateCrossCheck
  simp [h]

omit [Extern] [RuleTexts] [RowExtractor.RowTables] in
/-- The date check touches the date, its flag and the confidence, which it does not raise. -/
theorem dateCrossCheck_frame (internalDate : Option Int) (obs : ExtractionResult) :
    ∃ time flag score, applyDateCrossCheck internalDate obs =
        { obs with eventTime := time, dateCrossCheckFlag := flag, confidenceScore := score } ∧
      (time.isSome = obs.eventTime.isSome) ∧
      ∀ c ∈ obs.confidenceScore, ∃ c' ∈ score, c' ≤ c := by
  unfold applyDateCrossCheck
  split
  · split
    · rename_i original anchor horig hanchor
      have htime : obs.eventTime.isSome = true := by
        cases htime : obs.eventTime with
        | none => simp [htime] at horig
        | some ts => rfl
      split
      · dsimp only
        split
        · exact ⟨_, _, _, rfl, by simp [htime], fun c hc => ⟨c, hc, le_rfl⟩⟩
        · split
          · refine ⟨_, _, _, rfl, rfl, fun c hc => ?_⟩
            rw [Option.mem_def] at hc
            exact ⟨_, rfl, by simp [hc]⟩
          · exact ⟨_, _, _, rfl, rfl, fun c hc => ⟨c, hc, le_rfl⟩⟩
      · exact ⟨_, _, _, rfl, rfl, fun c hc => ⟨c, hc, le_rfl⟩⟩
    · exact ⟨_, _, _, rfl, rfl, fun c hc => ⟨c, hc, le_rfl⟩⟩
  · exact ⟨_, _, _, rfl, rfl, fun c hc => ⟨c, hc, le_rfl⟩⟩

/-- A disputed amount is not trusted. -/
theorem amountCrossCheck_disputed {body : List Char} {obs : ExtractionResult}
    (h : obs.amountDisputed body = true) :
    ∃ c ∈ (applyAmountCrossCheck body obs).confidenceScore,
      c ≤ crossCheckDisagreementConfidence := by
  unfold applyAmountCrossCheck
  rw [if_pos h]
  refine ⟨_, rfl, ?_⟩
  cases obs.confidenceScore with
  | some existing => exact min_le_right _ _
  | none => exact le_rfl

theorem amountCrossCheck_frame (body : List Char) (obs : ExtractionResult) :
    ∃ score, applyAmountCrossCheck body obs = { obs with confidenceScore := score } := by
  unfold applyAmountCrossCheck
  split
  · exact ⟨_, rfl⟩
  · exact ⟨_, rfl⟩

/-! ## what filling in keeps -/

/-- No field that a transaction needs is lost. -/
structure Keeps (l l' : LearnedResult) : Prop where
  amountMinor : l.amountMinor.isSome = true → l'.amountMinor.isSome = true
  currency : l.currency.isSome = true → l'.currency.isSome = true
  direction : l.direction.isSome = true → l'.direction.isSome = true
  merchantRaw : l.merchantRaw.isSome = true → l'.merchantRaw.isSome = true
  balanceAfter : l.balanceAfter.isSome = true → l'.balanceAfter.isSome = true
  eventTime : l.eventTime.isSome = true → l'.eventTime.isSome = true

omit [Extern] [RuleTexts] [RowExtractor.RowTables] in
theorem Keeps.refl (l : LearnedResult) : Keeps l l := ⟨id, id, id, id, id, id⟩

omit [Extern] [RuleTexts] [RowExtractor.RowTables] in
theorem Keeps.trans {l l' l'' : LearnedResult} (h : Keeps l l') (h' : Keeps l' l'') :
    Keeps l l'' where
  amountMinor := h'.amountMinor ∘ h.amountMinor
  currency := h'.currency ∘ h.currency
  direction := h'.direction ∘ h.direction
  merchantRaw := h'.merchantRaw ∘ h.merchantRaw
  balanceAfter := h'.balanceAfter ∘ h.balanceAfter
  eventTime := h'.eventTime ∘ h.eventTime

omit [RowExtractor.RowTables] in
theorem writeField_keeps {fieldName : String} {captured : List Char} {l l' : LearnedResult}
    (h : writeField fieldName captured l = some l') : Keeps l l' := by
  unfold writeField at h
  split at h
  · cases h
    exact ⟨id, id, id, fun _ => rfl, id, id⟩
  · obtain ⟨v, -, rfl⟩ := Option.map_eq_some_iff.mp h
    exact ⟨fun _ => rfl, id, id, id, id, id⟩
  · obtain ⟨v, -, rfl⟩ := Option.map_eq_some_iff.mp h
    exact ⟨id, id, id, id, fun _ => rfl, id⟩
  · cases h
    exact ⟨id, id, id, id, id, id⟩
  · dsimp only at h
    split at h
    · cases h
    · cases h
      exact ⟨id, id, id, id, id, id⟩
  · obtain ⟨v, -, rfl⟩ := Option.map_eq_some_iff.mp h
    exact ⟨id, id, fun _ => rfl, id, id, id⟩
  · dsimp only at h
    split at h
    · cases h
      exact ⟨id, fun _ => rfl, id, id, id, id⟩
    · cases h
  · obtain ⟨v, -, rfl⟩ := Option.map_eq_some_iff.mp h
    exact ⟨id, id, id, id, id, fun _ => rfl⟩
  · cases h

omit [RowExtractor.RowTables] in
theorem applyRules_keeps (bodyHash body : String) (rules : List LearnedRule)
    (applied : List String) (l : LearnedResult) :
    Keeps l (applyRules bodyHash body rules applied l).2 := by
  induction rules generalizing applied l with
  | nil => exact Keeps.refl l
  | cons rule rest ih =>
    unfold applyRules
    split
    · exact ih applied l
    · split
      · rename_i l' hwrite
        obtain ⟨captured, -, hfield⟩ := Option.bind_eq_some_iff.mp hwrite
        exact (writeField_keeps hfield).trans (ih _ l')
      · exact ih applied l

omit [RowExtractor.RowTables] in
theorem applyLearnedFields_keeps (b : Cleanup) (bankName body sourceType : String)
    (l : LearnedResult) : Keeps l (applyLearnedFields b bankName body sourceType l).2 := by
  unfold applyLearnedFields
  split
  · exact Keeps.refl l
  · exact applyRules_keeps _ body _ [] l

omit [Extern] [RuleTexts] [RowExtractor.RowTables] in
theorem isValid_of_keeps {obs r : ExtractionResult} (hvalid : obs.isValid = true)
    (h : Keeps obs.learned r.learned) : r.isValid = true := by
  obtain ⟨hamount, hcurrency, hdirection, hmerchant, hbalance, htime⟩ := h
  simp only [ExtractionResult.learned] at hamount hcurrency hdirection hmerchant hbalance htime
  simp only [ExtractionResult.isValid, Bool.and_eq_true, Bool.or_eq_true] at hvalid ⊢
  tauto

omit [Extern] [RuleTexts] [RowExtractor.RowTables] in
theorem applyInstrumentSignals_keeps (signals : InstrumentSignals) (obs : ExtractionResult) :
    Keeps obs.learned (applyInstrumentSignals signals obs).learned := ⟨id, id, id, id, id, id⟩

omit [Extern] [RuleTexts] [RowExtractor.RowTables] in
theorem applyEmi_keeps (d : Detected) (obs : ExtractionResult) :
    Keeps obs.learned (applyEmi d obs).learned := by
  unfold applyEmi
  split
  · exact ⟨id, id, id, id, id, id⟩
  · exact Keeps.refl _

omit [Extern] [RuleTexts] [RowExtractor.RowTables] in
theorem applyFx_keeps (d : Detected) (obs : ExtractionResult) :
    Keeps obs.learned (applyFx d obs).learned := ⟨id, id, id, id, id, id⟩

omit [Extern] [RuleTexts] [RowExtractor.RowTables] in
theorem applyChannel_keeps (d : Detected) (obs : ExtractionResult) :
    Keeps obs.learned (applyChannel d obs).learned := ⟨id, id, id, id, id, id⟩

omit [RowExtractor.RowTables] in
theorem applyLearned_keeps (b : Cleanup) (bankName body : String) (obs : ExtractionResult) :
    Keeps obs.learned (applyLearned b bankName body obs).learned := by
  unfold applyLearned
  split
  · exact Keeps.refl _
  · exact applyLearnedFields_keeps b bankName body "email" obs.learned

omit [RowExtractor.RowTables] in
theorem fillIn_keeps (b : Cleanup) (d : Detected) (bankName body : String)
    (obs : ExtractionResult) : Keeps obs.learned (fillIn b d bankName body obs).learned := by
  have hlearned := applyLearned_keeps b bankName body obs
  have hsignals := hlearned.trans (applyInstrumentSignals_keeps d.signals _)
  have hemi := hsignals.trans (applyEmi_keeps d _)
  exact (hemi.trans (applyFx_keeps d _)).trans (applyChannel_keeps d _)

/-- What leaves the ladder. -/
structure Checked (body : String) (internalDate : Option Int) (r : ExtractionResult) : Prop where
  valid : r.isValid = true
  amount : r.amountDisputed body.toList = true →
    ∃ c ∈ r.confidenceScore, c ≤ crossCheckDisagreementConfidence
  date : r.eventTimeAmbiguous = true → r.DateSettled internalDate

theorem finalizeResult_checked (b : Cleanup) (d : Detected) (bankName body : String)
    (internalDate : Option Int) {obs : ExtractionResult} (hvalid : obs.isValid = true) :
    Checked body internalDate (finalizeResult b d bankName body internalDate obs) := by
  have hfilled := isValid_of_keeps hvalid (fillIn_keeps b d bankName body obs)
  unfold finalizeResult
  set filled := fillIn b d bankName body obs
  obtain ⟨score, hamount⟩ := amountCrossCheck_frame body.toList filled
  obtain ⟨time, flag, score', hdate, htime, hscore⟩ :=
    dateCrossCheck_frame internalDate (applyAmountCrossCheck body.toList filled)
  refine ⟨?_, fun hdisputed => ?_, fun hambiguous => ?_⟩
  · rw [hdate, hamount]
    rw [hamount] at htime
    simp only [ExtractionResult.isValid] at hfilled ⊢
    rw [htime]
    exact hfilled
  · have hbefore : filled.amountDisputed body.toList = true := by
      rw [hdate, hamount] at hdisputed
      exact hdisputed
    obtain ⟨c, hc, hle⟩ := amountCrossCheck_disputed hbefore
    obtain ⟨c', hc', hle'⟩ := hscore c hc
    rw [hdate]
    exact ⟨c', hc', hle'.trans hle⟩
  · rw [hdate] at hambiguous
    exact dateCrossCheck_settles internalDate hambiguous

/-- **Whatever leaves the ladder has been checked.**  Every result is valid, one whose amount
another reading of the message disputes has confidence 0.4 at most, and an ambiguous date lies
within three weeks of the mail's or is flagged. -/
theorem ladder_result_checked (b : Cleanup) (layers : Layers) (d : Detected)
    (bankName body : String) (llmEligible : Bool) (internalDate : Option Int)
    {r : ExtractionResult}
    (h : runExtractionLadder b layers d bankName body llmEligible internalDate = .ok (some r)) :
    Checked body internalDate r := by
  unfold runExtractionLadder at h
  dsimp only at h
  split at h
  · rename_i obs hfirst
    obtain ⟨layer, -, hlayer⟩ := List.exists_of_findSome?_eq_some hfirst
    obtain ⟨-, hvalid⟩ := Option.filter_eq_some_iff.mp hlayer
    cases h
    exact finalizeResult_checked b d bankName body internalDate hvalid
  · split at h
    · split at h
      · rename_i obs _
        split at h
        · rename_i hvalid
          cases h
          exact finalizeResult_checked b d bankName body internalDate hvalid
        · simp at h
      all_goals simp at h
    · simp at h

/-! ### a misread alert -/

/-- Seven hundred rupees on the fifth of March, read of a message about five hundred. -/
def misread : ExtractionResult where
  amountMinor := some 70000
  currency := some "INR"
  direction := some "debit"
  eventTime := some 1709596800
  merchantRaw := some "Shop"
  extractionMethod := "generic_regex"
  confidenceScore := some (7 / 10)
  eventTimeAmbiguous := true

/-- It arrived on the third of May. -/
def misreadChecked : ExtractionResult :=
  { misread with
    eventTime := some 1714694400
    confidenceScore := some (4 / 10)
    dateCrossCheckFlag := some "swapped_by_anchor" }

def noRules : Cleanup := ⟨firstLedger.db, .empty, .empty, .empty, .empty, .empty⟩

def nothingDetected : Detected :=
  ⟨⟨none, none, none, none, none⟩, none, none, fun _ => ⟨none, none, none⟩, fun _ => none⟩

omit [Extern] [RuleTexts] [RowExtractor.RowTables] in
theorem misread_checked :
    letI := Extern.ascii
    letI := RuleTexts.dates
    letI := RowExtractor.RowTables.ascii
    Checked "Rs 500" (some 1714694400) misreadChecked := by
  let := Extern.ascii
  let := RuleTexts.dates
  let := RowExtractor.RowTables.ascii
  have hrun : runExtractionLadder noRules ⟨none, some misread, none, .failed⟩ nothingDetected
      "HDFC Bank" "Rs 500" true (some 1714694400) = .ok (some misreadChecked) := by
    decide +kernel
  exact ladder_result_checked _ _ _ _ _ _ _ hrun

end Ladder

end Dinero.Ladder
