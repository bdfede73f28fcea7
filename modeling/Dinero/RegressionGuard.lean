import Dinero.RuleSynthesis

/-!
# Dinero.RegressionGuard

What the regression check promises of a rule, against what the rule writes.

The check compares printed texts; extraction reads the captured text and
writes a value.  `Misjudged` lists the ways in which the two come apart on one
message.
-/

namespace Dinero

variable [Extern] [RuleTexts]

/-! ## one rule at work -/

/-- A field as the history shows it: the column cast to text. -/
def LearnedResult.column (r : LearnedResult) (fieldName : String) : Option String :=
  match fieldName with
  | "merchant" => r.merchantRaw
  | "amount" => r.amountMinor.map toString
  | "balance" => r.balanceAfter.map toString
  | "reference_id" => r.referenceId
  | "last4" => r.maskedIdentifier
  | "direction" => r.direction
  | "currency" => r.currency
  | "event_time" => r.eventTime.map formatDateTime
  | _ => none

/-- What a captured text is written as. -/
def readsAs (fieldName : String) (captured : List Char) : Option String :=
  (writeField fieldName captured {}).bind (·.column fieldName)

/-- What a field is written as does not depend on the message's other fields. -/
theorem column_writeField (fieldName : String) (captured : List Char) (result : LearnedResult) :
    (writeField fieldName captured result).map (·.column fieldName) =
      (readsAs fieldName captured).map some := by
  unfold readsAs writeField
  split
  · rfl
  · rcases parseAmount captured with _ | v <;> rfl
  · rcases parseAmount captured with _ | v <;> rfl
  · rfl
  · dsimp only
    split <;> rfl
  · rcases normalizeDirection captured with _ | d <;> rfl
  · dsimp only
    split <;> rfl
  · rcases parseLearnedEventTime captured with _ | ⟨ts, ambiguous⟩ <;> rfl
  · rfl

/-- The text a rule is given to write for a message, where it is written at all. -/
def LearnedRule.writes (rule : LearnedRule) (body : String) : Option String :=
  (rule.capturedIn (computeTemplateHash body) body).bind (readsAs rule.fieldName)

theorem applyLearnedRules_one (rule : LearnedRule) (body : String) (result : LearnedResult) :
    applyLearnedRules [rule] body result =
      match (rule.capturedIn (computeTemplateHash body) body).bind
        (writeField rule.fieldName · result) with
      | some result' => (true, result')
      | none => (false, result) := by
  have horder : orderBy (LearnedRule.triedBefore (computeTemplateHash body)) [rule] = [rule] := rfl
  simp only [applyLearnedRules, horder, applyRules, List.not_mem_nil, if_false]
  rcases (rule.capturedIn (computeTemplateHash body) body).bind
    (writeField rule.fieldName · result) with _ | result' <;> rfl

/-- A rule alone: whether it fires, and what is written then. -/
theorem applyLearnedRules_single (rule : LearnedRule) (body : String) (result : LearnedResult) :
    (applyLearnedRules [rule] body result).1 = (rule.writes body).isSome ∧
      ∀ v, rule.writes body = some v →
        (applyLearnedRules [rule] body result).2.column rule.fieldName = some v := by
  rw [applyLearnedRules_one, LearnedRule.writes]
  rcases rule.capturedIn (computeTemplateHash body) body with _ | captured
  · simp
  · have hcolumn := column_writeField rule.fieldName captured result
    rw [Option.bind_some, Option.bind_some]
    rcases hwrite : writeField rule.fieldName captured result with _ | result' <;>
      rcases h : readsAs rule.fieldName captured with _ | v <;> rw [hwrite, h] at hcolumn
    · simp
    · contradiction
    · contradiction
    · have hv : result'.column rule.fieldName = some v := Option.some.inj hcolumn
      simp [hv]

/-! ## judgements -/

/-- The rule, stored live for its template, writes what was accepted wherever it fires. -/
def WritesAccepted (rule : LearnedRule) (sample : String × Option String) : Prop :=
  ∀ accepted, sample.2 = some accepted → ∀ result,
    (applyLearnedRules [rule] sample.1 result).1 = true →
      (applyLearnedRules [rule] sample.1 result).2.column rule.fieldName = some accepted

/-- The text a rule has for a message is none of the printed forms of what was accepted. -/
def Refused (rule : LearnedRule) (sample : String × Option String) : Prop :=
  ∃ accepted captured, sample.2 = some accepted ∧
    applyPayload rule.payload sample.1 = some captured ∧
    valuesAgree rule.fieldName captured accepted = false

/-- The text a rule has for a message is read as something that was not accepted. -/
def Miswritten (rule : LearnedRule) (sample : String × Option String) : Prop :=
  ∃ accepted v, sample.2 = some accepted ∧ rule.writes sample.1 = some v ∧ v ≠ accepted

theorem writesAccepted_iff (rule : LearnedRule) (sample : String × Option String) :
    WritesAccepted rule sample ↔ ¬ Miswritten rule sample := by
  constructor
  · rintro h ⟨accepted, v, haccepted, hv, hne⟩
    obtain ⟨hfires, hcolumn⟩ := applyLearnedRules_single rule sample.1 {}
    have hsame := h accepted haccepted {} (by rw [hfires, hv]; rfl)
    rw [hcolumn v hv] at hsame
    exact hne (Option.some.inj hsame)
  · intro h accepted haccepted result hfired
    obtain ⟨hfires, hcolumn⟩ := applyLearnedRules_single rule sample.1 result
    rw [hfires] at hfired
    obtain ⟨v, hv⟩ := Option.isSome_iff_exists.mp hfired
    have hsame : v = accepted := by
      by_contra hne
      exact h ⟨accepted, v, haccepted, hv, hne⟩
    rw [hcolumn v hv, hsame]

theorem regressionIn_eq_none {rule : LearnedRule} {sample : String × Option String} :
    regressionIn rule.payload rule.fieldName sample = none ↔ ¬ Refused rule sample := by
  unfold regressionIn Refused
  rcases sample with ⟨body, _ | accepted⟩
  · simp
  · rcases applyPayload rule.payload body with _ | captured
    · simp
    · simp

theorem regressionCheck_eq_ok {rule : LearnedRule} {samples : List (String × Option String)} :
    regressionCheck rule.payload samples rule.fieldName = .ok () ↔
      ∀ sample ∈ samples, ¬ Refused rule sample := by
  have hnone : samples.findSome? (regressionIn rule.payload rule.fieldName) = none ↔
      ∀ sample ∈ samples, ¬ Refused rule sample := by
    simp only [List.findSome?_eq_none_iff, regressionIn_eq_none]
  rw [← hnone, regressionCheck]
  rcases samples.findSome? (regressionIn rule.payload rule.fieldName) with _ | reason <;> simp

/-! ## where the two come apart -/

/-- A fixed value of another template, which is not written. -/
def LearnedRule.Foreign (rule : LearnedRule) (body : String) : Prop :=
  rule.payload.overrideValue.isSome = true ∧ rule.templateHash ≠ computeTemplateHash body

/-- The ways in which the check and the extraction judge a message differently, by the text the
rule has for it. -/
inductive Misjudged (rule : LearnedRule) (body accepted : String) : Prop
  /-- A fixed value is held against a message of another template. -/
  | foreign (captured : String) (hcaptured : applyPayload rule.payload body = some captured)
      (hforeign : rule.Foreign body)
      (hprinted : valuesAgree rule.fieldName captured accepted = false)
  /-- A blank text, which is not written, counts as a change. -/
  | blank (captured : String) (hcaptured : applyPayload rule.payload body = some captured)
      (hblank : trim captured.toList = [])
      (hprinted : valuesAgree rule.fieldName captured accepted = false)
  /-- So does a text the field cannot read. -/
  | unreadable (captured : String) (hcaptured : applyPayload rule.payload body = some captured)
      (hread : readsAs rule.fieldName (trim captured.toList) = none)
      (hprinted : valuesAgree rule.fieldName captured accepted = false)
  /-- And a text that is read as the accepted value but is none of its printed forms. -/
  | otherForm (captured : String) (hcaptured : applyPayload rule.payload body = some captured)
      (happlies : ¬ rule.Foreign body) (hblank : trim captured.toList ≠ [])
      (hread : readsAs rule.fieldName (trim captured.toList) = some accepted)
      (hprinted : valuesAgree rule.fieldName captured accepted = false)
  /-- A printed form of the accepted value is read as another value. -/
  | misread (captured v : String) (hcaptured : applyPayload rule.payload body = some captured)
      (happlies : ¬ rule.Foreign body) (hblank : trim captured.toList ≠ [])
      (hread : readsAs rule.fieldName (trim captured.toList) = some v) (hne : v ≠ accepted)
      (hprinted : valuesAgree rule.fieldName captured accepted = true)

theorem writes_eq_some {rule : LearnedRule} {body v : String} :
    rule.writes body = some v ↔
      ∃ captured, applyPayload rule.payload body = some captured ∧ ¬ rule.Foreign body ∧
        trim captured.toList ≠ [] ∧ readsAs rule.fieldName (trim captured.toList) = some v := by
  unfold LearnedRule.writes LearnedRule.capturedIn LearnedRule.Foreign
  split
  · next h => simp [h]
  · next h =>
    rcases applyPayload rule.payload body with _ | captured
    · simp
    · by_cases hblank : trim captured.toList = [] <;> simp [h, hblank]

/-- A message is misjudged exactly when it is refused and not miswritten, or the other way. -/
theorem misjudged_iff (rule : LearnedRule) (body accepted : String) :
    Misjudged rule body accepted ↔
      ¬ (Refused rule (body, some accepted) ↔ Miswritten rule (body, some accepted)) := by
  have hrefused : Refused rule (body, some accepted) ↔
      ∃ captured, applyPayload rule.payload body = some captured ∧
        valuesAgree rule.fieldName captured accepted = false := by
    simp [Refused]
  have hwritten : Miswritten rule (body, some accepted) ↔
      ∃ v, rule.writes body = some v ∧ v ≠ accepted := by
    simp [Miswritten]
  rw [hrefused, hwritten]
  simp only [writes_eq_some]
  constructor
  · rintro (⟨c, hc, hforeign, hp⟩ | ⟨c, hc, hblank, hp⟩ | ⟨c, hc, hread, hp⟩ |
      ⟨c, hc, happlies, hblank, hread, hp⟩ | ⟨c, v, hc, happlies, hblank, hread, hne, hp⟩)
    all_goals simp_all
  · intro h
    rcases hc : applyPayload rule.payload body with _ | c
    · simp [hc] at h
    · simp only [hc, Option.some.injEq, exists_eq_left'] at h
      by_cases hp : valuesAgree rule.fieldName c accepted = true
      · -- accepted by the check, so it is miswritten
        simp only [hp, Bool.true_eq_false, false_iff, not_not] at h
        obtain ⟨v, ⟨happlies, hblank, hread⟩, hne⟩ := h
        exact .misread c v hc happlies hblank hread hne hp
      · rw [Bool.not_eq_true] at hp
        by_cases hforeign : rule.Foreign body
        · exact .foreign c hc hforeign hp
        · by_cases hblank : trim c.toList = []
          · exact .blank c hc hblank hp
          · rcases hread : readsAs rule.fieldName (trim c.toList) with _ | v
            · exact .unreadable c hc hread hp
            · by_cases hv : v = accepted
              · exact .otherForm c hc hforeign hblank (hread.trans (by rw [hv])) hp
              · exact absurd ⟨fun _ => ⟨v, ⟨hforeign, hblank, hread⟩, hv⟩, fun _ => hp⟩ h

omit [Extern] [RuleTexts] in
/-- A rule for the amounts of one template. -/
def amountRule (templateHash : String) : LearnedRule where
  id := "v1"
  fieldName := "amount"
  templateHash := templateHash
  payload := {
    regex := some (.string "(?is)paid\\s+(.\x7b1,80\x7d?)\\s+today")
    captureGroup := some (.unsigned 1) }
  confidence := 1
  successCount := 1

end Dinero
