import Dinero.LearnedFields

/-!
# Dinero.RuleRanking

Which learned rule writes a field.  The order the rules are tried in is total on
rules of different ids, so the rows may come in any order, and of the rules that
have an acceptable text for a field the first one in that order writes it.
-/

namespace Dinero

open Sql

/-! ## rows that are read -/

section Rows

variable {α β γ : Type} {f : α → Option β}

/-- Rows are read all or none. -/
theorem mapM_eq_filterMap (f : α → Option β) (l : List α) :
    l.mapM f = if l.all (f · |>.isSome) then some (l.filterMap f) else none := by
  induction l with
  | nil => rfl
  | cons a l ih =>
    rw [List.mapM_cons, ih]
    cases hf : f a with
    | none => simp [hf]
    | some b =>
      cases hall : l.all (f · |>.isSome) with
      | false => simp [hf, hall]
      | true => simp [hf, hall]

/-- Rows that are read keep their keys. -/
theorem map_filterMap_sublist {key : α → γ} {key' : β → γ}
    (h : ∀ a b, f a = some b → key' b = key a) (l : List α) :
    ((l.filterMap f).map key').Sublist (l.map key) := by
  induction l with
  | nil => exact .slnil
  | cons a l ih =>
    cases hf : f a with
    | none =>
      rw [List.filterMap_cons_none hf]
      exact ih.cons _
    | some b =>
      rw [List.filterMap_cons_some hf, List.map_cons, List.map_cons, h a b hf]
      exact ih.cons_cons _

end Rows

/-! ## the order -/

section Order

variable {bodyHash : String} {a b c : LearnedRule}

theorem triedBefore_total (bodyHash : String) (a b : LearnedRule) :
    LearnedRule.triedBefore bodyHash a b ∨ LearnedRule.triedBefore bodyHash b a := by
  have hconfidence := lt_trichotomy a.confidence b.confidence
  have hsuccess := lt_trichotomy a.successCount b.successCount
  have hid := String.le_total a.id b.id
  unfold LearnedRule.triedBefore
  grind

theorem triedBefore_trans (hab : LearnedRule.triedBefore bodyHash a b)
    (hbc : LearnedRule.triedBefore bodyHash b c) : LearnedRule.triedBefore bodyHash a c := by
  have hid : a.id ≤ b.id → b.id ≤ c.id → a.id ≤ c.id := String.le_trans
  unfold LearnedRule.triedBefore at *
  grind

theorem triedBefore_antisymm (hab : LearnedRule.triedBefore bodyHash a b)
    (hba : LearnedRule.triedBefore bodyHash b a) : a.id = b.id := by
  have hid : a.id ≤ b.id → b.id ≤ a.id → a.id = b.id := String.le_antisymm
  unfold LearnedRule.triedBefore at *
  grind

/-- Rules of different ids come in one order only. -/
theorem orderBy_triedBefore_perm {rules rules' : List LearnedRule} (hperm : rules'.Perm rules)
    (hids : (rules.map (·.id)).Nodup) (bodyHash : String) :
    orderBy (LearnedRule.triedBefore bodyHash) rules' =
      orderBy (LearnedRule.triedBefore bodyHash) rules := by
  have : Std.Total (LearnedRule.triedBefore bodyHash) := ⟨triedBefore_total bodyHash⟩
  have : IsTrans LearnedRule (LearnedRule.triedBefore bodyHash) :=
    ⟨fun _ _ _ => triedBefore_trans⟩
  have hsame : ∀ a ∈ rules, ∀ b ∈ rules, a.id = b.id → a = b :=
    fun a ha b hb heq => List.inj_on_of_nodup_map hids ha hb heq
  refine List.Perm.eq_of_pairwise ?_ (List.pairwise_insertionSort _ rules')
    (List.pairwise_insertionSort _ rules) ?_
  · intro a b ha hb hab hba
    exact hsame a (hperm.mem_iff.mp (mem_orderBy.mp ha)) b (mem_orderBy.mp hb)
      (triedBefore_antisymm hab hba)
  · exact (List.perm_insertionSort _ _).trans (hperm.trans (List.perm_insertionSort _ _).symm)

end Order

/-! ## one field -/

/-- What a field holds: a text, or a number and whether it is ambiguous. -/
abbrev Slot := Option String × Option Int × Bool

/-- What rules of a field write of a result. -/
def LearnedResult.slot (r : LearnedResult) (fieldName : String) : Slot :=
  match fieldName with
  | "merchant" => (r.merchantRaw, none, false)
  | "amount" => (none, r.amountMinor, false)
  | "balance" => (none, r.balanceAfter, false)
  | "reference_id" => (r.referenceId, none, false)
  | "last4" => (r.maskedIdentifier, none, false)
  | "direction" => (r.direction, none, false)
  | "currency" => (r.currency, none, false)
  | "event_time" => (none, r.eventTime, r.eventTimeAmbiguous)
  | _ => (none, none, false)

/-- The result with the slot of a field set. -/
def LearnedResult.setSlot (r : LearnedResult) (fieldName : String) (v : Slot) : LearnedResult :=
  match fieldName with
  | "merchant" => { r with merchantRaw := v.1 }
  | "amount" => { r with amountMinor := v.2.1 }
  | "balance" => { r with balanceAfter := v.2.1 }
  | "reference_id" => { r with referenceId := v.1 }
  | "last4" => { r with maskedIdentifier := v.1 }
  | "direction" => { r with direction := v.1 }
  | "currency" => { r with currency := v.1 }
  | "event_time" => { r with eventTime := v.2.1, eventTimeAmbiguous := v.2.2 }
  | _ => r

theorem slot_setSlot (r r' : LearnedResult) (fieldName : String) (v : Slot) :
    (r.setSlot fieldName v).slot fieldName = (r'.setSlot fieldName v).slot fieldName := by
  unfold LearnedResult.setSlot LearnedResult.slot
  split <;> rfl

theorem slot_setSlot_other (r : LearnedResult) {fieldName other : String} (hne : other ≠ fieldName)
    (v : Slot) : (r.setSlot fieldName v).slot other = r.slot other := by
  unfold LearnedResult.slot
  split
  all_goals
    first
    | rfl
    | (unfold LearnedResult.setSlot
       split <;> first | rfl | exact absurd rfl hne)

section Loop

variable [Extern] [RuleTexts]

/-- Whether and what a text is written does not depend on the result. -/
theorem writeField_eq (fieldName : String) (captured : List Char) :
    ∃ v : Option Slot, ∀ r, writeField fieldName captured r = v.map (r.setSlot fieldName) := by
  unfold writeField
  split
  · exact ⟨some (some (String.ofList captured), none, false), fun r => rfl⟩
  · cases parseAmount captured with
    | none => exact ⟨none, fun r => rfl⟩
    | some v => exact ⟨some (none, some v, false), fun r => rfl⟩
  · cases parseAmount captured with
    | none => exact ⟨none, fun r => rfl⟩
    | some v => exact ⟨some (none, some v, false), fun r => rfl⟩
  · exact ⟨some (some (String.ofList captured), none, false), fun r => rfl⟩
  · dsimp only
    split
    · exact ⟨none, fun r => rfl⟩
    · exact ⟨some (some _, none, false), fun r => rfl⟩
  · cases normalizeDirection captured with
    | none => exact ⟨none, fun r => rfl⟩
    | some d => exact ⟨some (some d, none, false), fun r => rfl⟩
  · dsimp only
    split
    · exact ⟨some (some _, none, false), fun r => rfl⟩
    · exact ⟨none, fun r => rfl⟩
  · cases parseLearnedEventTime captured with
    | none => exact ⟨none, fun r => rfl⟩
    | some t => exact ⟨some (none, some t.1, t.2), fun r => rfl⟩
  · exact ⟨none, fun r => rfl⟩

/-- The rule has a text for the message, and its field takes it. -/
def LearnedRule.accepted (bodyHash body : String) (rule : LearnedRule) : Bool :=
  ((rule.capturedIn bodyHash body).bind (writeField rule.fieldName · {})).isSome

/-- The result has in the field what this rule's text comes to. -/
def LearnedRule.WroteTo (bodyHash body : String) (rule : LearnedRule) (r : LearnedResult) : Prop :=
  ∃ captured w, rule.capturedIn bodyHash body = some captured ∧
    writeField rule.fieldName captured {} = some w ∧ r.slot rule.fieldName = w.slot rule.fieldName

/-- A rule that is tried is written, or it is not accepted. -/
theorem tried_cases (bodyHash body : String) (rule : LearnedRule) (r : LearnedResult) :
    (∃ w, (rule.capturedIn bodyHash body).bind (writeField rule.fieldName · r) = some w ∧
      rule.accepted bodyHash body = true ∧ rule.WroteTo bodyHash body w ∧
      ∀ other, other ≠ rule.fieldName → w.slot other = r.slot other) ∨
    ((rule.capturedIn bodyHash body).bind (writeField rule.fieldName · r) = none ∧
      rule.accepted bodyHash body = false) := by
  unfold LearnedRule.accepted LearnedRule.WroteTo
  cases rule.capturedIn bodyHash body with
  | none => exact .inr ⟨rfl, rfl⟩
  | some captured =>
    obtain ⟨v, hv⟩ := writeField_eq rule.fieldName captured
    rw [Option.bind_some, Option.bind_some, hv, hv]
    cases v with
    | none => exact .inr ⟨rfl, rfl⟩
    | some v =>
      have hwritten : writeField rule.fieldName captured {} = _ := hv {}
      exact .inl ⟨_, rfl, rfl, ⟨captured, _, rfl, hwritten, slot_setSlot r {} _ v⟩,
        fun other hne => slot_setSlot_other r hne v⟩

/-- The loop, field by field: a field already written is left alone, and of the others the first
rule that is accepted writes it. -/
theorem applyRules_slot (bodyHash body : String) (rules : List LearnedRule)
    (applied : List String) (result : LearnedResult) (fieldName : String) :
    (fieldName ∈ applied → (applyRules bodyHash body rules applied result).2.slot fieldName =
      result.slot fieldName) ∧
    (fieldName ∉ applied →
      match rules.find? fun rule => rule.fieldName = fieldName ∧ rule.accepted bodyHash body with
      | some rule => rule.WroteTo bodyHash body (applyRules bodyHash body rules applied result).2
      | none => (applyRules bodyHash body rules applied result).2.slot fieldName =
          result.slot fieldName) := by
  induction rules generalizing applied result with
  | nil => exact ⟨fun _ => rfl, fun _ => rfl⟩
  | cons rule rest ih =>
    rw [applyRules]
    by_cases happlied : rule.fieldName ∈ applied
    · obtain ⟨hdone, hopen⟩ := ih applied result
      rw [if_pos happlied]
      refine ⟨hdone, fun hnot => ?_⟩
      have hother : rule.fieldName ≠ fieldName := fun heq => hnot (heq ▸ happlied)
      rw [List.find?_cons_of_neg (by simp [hother])]
      exact hopen hnot
    · rw [if_neg happlied]
      obtain ⟨w, hw, haccepted, hwrote, hleft⟩ | ⟨hnone, hrefused⟩ :=
        tried_cases bodyHash body rule result
      · obtain ⟨hdone, hopen⟩ := ih (applied ++ [rule.fieldName]) w
        rw [hw]
        dsimp only
        by_cases hfield : fieldName = rule.fieldName
        · refine ⟨fun hmem => absurd (hfield ▸ hmem) happlied, fun _ => ?_⟩
          have hkept := hdone (by simp [hfield])
          rw [List.find?_cons_of_pos (by simp [hfield, haccepted])]
          obtain ⟨captured, w', hcaptured, hw', hslot⟩ := hwrote
          rw [hfield] at hkept
          exact ⟨captured, w', hcaptured, hw', hkept.trans hslot⟩
        · have hslot := hleft fieldName hfield
          refine ⟨fun hmem => (hdone (by simp [hmem])).trans hslot, fun hnot => ?_⟩
          have hrest := hopen (by simp [hnot, hfield])
          rw [List.find?_cons_of_neg (by simp [Ne.symm hfield])]
          split
          · rename_i found hfound
            rw [hfound] at hrest
            exact hrest
          · rename_i hfound
            rw [hfound] at hrest
            exact hrest.trans hslot
      · obtain ⟨hdone, hopen⟩ := ih applied result
        rw [hnone]
        refine ⟨hdone, fun hnot => ?_⟩
        rw [List.find?_cons_of_neg (by simp [hrefused])]
        exact hopen hnot

/-! ## the best rule -/

/-- Of the rules accepted for a field, the one tried before all others. -/
structure BestRule (rules : List LearnedRule) (body fieldName : String) (rule : LearnedRule) :
    Prop where
  mem : rule ∈ rules
  field : rule.fieldName = fieldName
  accepted : rule.accepted (computeTemplateHash body) body = true
  best : ∀ other ∈ rules, other.fieldName = fieldName →
    other.accepted (computeTemplateHash body) body = true →
      LearnedRule.triedBefore (computeTemplateHash body) rule other

/-- The first accepted rule in the order is the best. -/
theorem bestRule_of_find? {rules : List LearnedRule} {body fieldName : String} {rule : LearnedRule}
    (h : (orderBy (LearnedRule.triedBefore (computeTemplateHash body)) rules).find?
      (fun rule => rule.fieldName = fieldName ∧ rule.accepted (computeTemplateHash body) body) =
        some rule) : BestRule rules body fieldName rule := by
  obtain ⟨hholds, ahead, behind, hsplit, hahead⟩ := List.find?_eq_some_iff_append.mp h
  rw [decide_eq_true_iff] at hholds
  have hmem : ∀ other, other ∈ rules ↔ other ∈ ahead ++ rule :: behind := by
    intro other
    rw [← hsplit, mem_orderBy]
  have : Std.Total (LearnedRule.triedBefore (computeTemplateHash body)) :=
    ⟨triedBefore_total _⟩
  have : IsTrans LearnedRule (LearnedRule.triedBefore (computeTemplateHash body)) :=
    ⟨fun _ _ _ => triedBefore_trans⟩
  have hsorted := List.pairwise_insertionSort
    (LearnedRule.triedBefore (computeTemplateHash body)) rules
  have hlist : rules.insertionSort (LearnedRule.triedBefore (computeTemplateHash body)) =
    ahead ++ rule :: behind := hsplit
  rw [hlist, List.pairwise_append, List.pairwise_cons] at hsorted
  refine ⟨(hmem rule).mpr (by simp), hholds.1, hholds.2, fun other hother hfield haccepted => ?_⟩
  obtain hfront | rfl | hback := List.mem_append.mp ((hmem other).mp hother) |>.imp_right
    List.mem_cons.mp
  · have hnot := hahead other hfront
    simp [hfield, haccepted] at hnot
  · exact (triedBefore_total _ _ _).elim id id
  · exact hsorted.2.1.1 other hback

/-- What is written does not depend on the order the rows come in. -/
theorem applyLearnedRules_perm {rules rows : List LearnedRule} (hids : (rules.map (·.id)).Nodup)
    (hperm : rows.Perm rules) (body : String) (result : LearnedResult) :
    applyLearnedRules rows body result = applyLearnedRules rules body result := by
  rw [applyLearnedRules, applyLearnedRules, orderBy_triedBefore_perm hperm hids]

/-- What learned rules write is the same in whatever order the rows come, and each field gets what
the best rule has for it, where there is one. -/
theorem best_rule_writes {rules : List LearnedRule} (hids : (rules.map (·.id)).Nodup)
    (body : String) (result : LearnedResult) :
    (∀ rows : List LearnedRule, rows.Perm rules →
      applyLearnedRules rows body result = applyLearnedRules rules body result) ∧
    ∀ fieldName,
      (∃ rule, BestRule rules body fieldName rule ∧
        rule.WroteTo (computeTemplateHash body) body (applyLearnedRules rules body result).2) ∨
      ((∀ rule ∈ rules, rule.fieldName = fieldName →
          rule.accepted (computeTemplateHash body) body = false) ∧
        (applyLearnedRules rules body result).2.slot fieldName = result.slot fieldName) := by
  refine ⟨fun rows hperm => ?_, fun fieldName => ?_⟩
  · exact applyLearnedRules_perm hids hperm body result
  · have hslot := (applyRules_slot (computeTemplateHash body) body
      (orderBy (LearnedRule.triedBefore (computeTemplateHash body)) rules) [] result
      fieldName).2 List.not_mem_nil
    split at hslot
    · rename_i rule hfind
      exact .inl ⟨rule, bestRule_of_find? hfind, hslot⟩
    · rename_i hfind
      refine .inr ⟨fun rule hrule hfield => ?_, hslot⟩
      have hnot := List.find?_eq_none.mp hfind rule (mem_orderBy.mpr hrule)
      simpa [hfield] using hnot

omit [Extern] [RuleTexts] in
/-- Two rules have an amount; the one of the message's template writes it. -/
theorem template_rule_writes :
    letI := Extern.ascii
    letI := RuleTexts.words
    let taught : LearnedRule := {
      id := "a", fieldName := "amount", templateHash := computeTemplateHash "paid 245 today"
      payload := { overrideValue := some (.string "7") }, confidence := 1 / 2, successCount := 0 }
    let other : LearnedRule := {
      id := "b", fieldName := "amount", templateHash := ""
      payload := { regex := some (.string ""), captureGroup := some (.unsigned 1) }
      confidence := 1, successCount := 9 }
    (∀ rows : List LearnedRule, rows.Perm [other, taught] →
      applyLearnedRules rows "paid 245 today" {} =
        applyLearnedRules [other, taught] "paid 245 today" {}) ∧
    (applyLearnedRules [other, taught] "paid 245 today" {}).2.slot "amount" =
      (none, some 700, false) := by
  let := Extern.ascii
  let := RuleTexts.words
  intro taught other
  have hids : ([other, taught].map (·.id)).Nodup := by decide
  exact ⟨(best_rule_writes hids "paid 245 today" {}).1, by decide +kernel⟩

/-! ## the rows of the database -/

/-- A live variant as it is read; its payload may be no JSON. -/
def readRule (row : FieldRuleVariantsRow × FieldRulesRow) : Option LearnedRule :=
  (readPayload row.1.rulePayloadJson).map fun payload => {
    id := row.1.id, fieldName := row.2.fieldName, templateHash := row.1.templateHash
    payload := payload, confidence := row.1.confidence, successCount := row.1.successCount }

omit [Extern] in
theorem readRule_id {row : FieldRuleVariantsRow × FieldRulesRow} {rule : LearnedRule}
    (h : readRule row = some rule) : rule.id = row.1.id := by
  obtain ⟨payload, -, rfl⟩ := Option.map_eq_some_iff.mp h
  rfl

omit [RuleTexts] [Extern] in
/-- The variants in use have different ids. -/
theorem usedVariants_nodup (b : Cleanup) (bankName sourceType : String) :
    ((b.usedVariants bankName sourceType).map (·.1.id)).Nodup := by
  have hsub : ((b.usedVariants bankName sourceType).map (·.1.id)).Sublist
      (b.used.map (·.id)) := by
    refine map_filterMap_sublist (fun v row hrow => ?_) b.used
    obtain ⟨parent, -, rfl⟩ := Option.map_eq_some_iff.mp hrow
    rfl
  exact b.variants.nodup.sublist (hsub.trans (List.filter_sublist.map _))

/-- The order of the rows, which `select_live_by_bank` leaves open, is not seen in the result. -/
theorem applyLearnedFields_eq (b : Cleanup) (bankName body sourceType : String)
    (result : LearnedResult) :
    applyLearnedFields b bankName body sourceType result =
      match (b.usedVariants bankName sourceType).mapM readRule with
      | none => (false, result)
      | some rules => applyLearnedRules rules body result := by
  have hperm := Extern.scan_perm (b.usedVariants bankName sourceType)
  have hselect : b.selectLiveByBank bankName sourceType =
    (scan (b.usedVariants bankName sourceType)).mapM readRule := rfl
  have hids : (((b.usedVariants bankName sourceType).filterMap readRule).map (·.id)).Nodup :=
    (usedVariants_nodup b bankName sourceType).sublist
      (map_filterMap_sublist (fun _ _ h => readRule_id h) _)
  rw [applyLearnedFields, hselect, mapM_eq_filterMap, mapM_eq_filterMap, hperm.all_eq]
  by_cases hall : (b.usedVariants bankName sourceType).all (readRule · |>.isSome) = true
  · rw [if_pos hall, if_pos hall]
    exact applyLearnedRules_perm hids (hperm.filterMap readRule) body result
  · rw [if_neg hall, if_neg hall]

end Loop

end Dinero
