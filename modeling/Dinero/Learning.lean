import Dinero.RuleSynthesis
import Dinero.Undo

/-!
# Dinero.Learning

The background worker that turns feedback into rules, and what one job does to
the rules in use.

A rule is in use while it is active or trusted.  Jobs that stem from template
drift store their guess as pending, which is not in use, but holds the live
place of its template all the same.
-/

namespace Dinero

open Sql

variable [Extern] [RuleTexts]

/-! ## jobs -/

structure FeedbackJob where
  feedbackLogId : String
  bankName : String
  fieldName : String
  sourceType : String
  sourceText : String
  newValue : String
  learnedFrom : String
deriving DecidableEq, Repr

/-- What becomes of a job before anything is stored. -/
inductive Judgement
  /-- There is nothing to learn from. -/
  | dropped
  | rejected (payload : Option RulePayload) (reason : String)
  | validated (payload : RulePayload) (authoredBy : String)
deriving DecidableEq, Repr

/-- The candidate of a job, past both guards.  `answer` is the rule the model authored, for when
none can be derived; `samples` are the messages extracted before. -/
def FeedbackJob.judge (job : FeedbackJob) (answer : Option RulePayload)
    (samples : List (String × Option String)) : Judgement :=
  if trim job.sourceText.toList = [] ∨ trim job.newValue.toList = [] then .dropped
  else
    let authored := match synthesize job.fieldName job.sourceText job.newValue with
      | some payload => some (payload, "deterministic")
      | none => answer.map (·, "llm")
    match authored with
    | none => .rejected none "no self-consistent candidate from either author"
    | some (payload, authoredBy) =>
      let needles := needleCandidates job.fieldName job.newValue
      if payload.overrideValue.isSome = false ∧ selfCheck payload job.sourceText needles = false then
        .rejected (some payload) "self-check failed"
      else
        match regressionCheck payload samples job.fieldName with
        | .error reason => .rejected (some payload) reason
        | .ok () => .validated payload authoredBy

/-- The variant a job stores; only a correction of the user is active at once. -/
def FeedbackJob.variant (job : FeedbackJob) (payload : RulePayload) (authoredBy id : String) :
    FieldRuleVariant :=
  let status : RuleStatus := if job.learnedFrom = "drift_llm" then .pending else .active
  { id := id
    bankName := job.bankName
    fieldName := job.fieldName
    sourceType := job.sourceType
    templateHash := computeTemplateHash job.sourceText
    rulePayloadJson := printPayload payload
    status := status
    successCount := if status = .active then 1 else 0
    failureCount := 0
    confidence := if status = .active then 1 else 0
    authoredBy := authoredBy
    learnedFrom := job.learnedFrom }

omit [Extern] [RuleTexts] in
/-- The feedback a rule is logged with. -/
def FeedbackJob.feedbackRef (job : FeedbackJob) : Option String :=
  if job.feedbackLogId = "" then none else some job.feedbackLogId

/-- Records a rejected rule candidate. -/
def logRejection (feedbackLogId : Option String) (payload : Option RulePayload) (reason : String) :
    CleanupProg Unit :=
  insertChangeLog none "rejected" none (payload.map printPayload) feedbackLogId reason

/-- Turns one user correction into a synthesised rule.  `authorWithLlm` and `historicalSamples`
read the tables; whatever fails in storing the result is logged, no more. -/
def processFeedbackJob (authorWithLlm : Cleanup → Option RulePayload)
    (historicalSamples : Cleanup → List (String × Option String)) (job : FeedbackJob) :
    CleanupProg Unit := do
  let answer ← fetch authorWithLlm
  let samples ← fetch historicalSamples
  match job.judge answer samples with
  | .dropped => return ()
  | .rejected payload reason =>
    let _ ← (logRejection job.feedbackRef payload reason).attempt
    return ()
  | .validated payload authoredBy =>
    let id ← newUuid uuid
    let _ ← (upsertVariant (job.variant payload authoredBy id) job.feedbackRef).attempt
    return ()

/-! ## the rules in use -/

/-- A job that has a candidate to store. -/
def FeedbackJob.Stores (job : FeedbackJob) (answer : Option RulePayload)
    (samples : List (String × Option String)) : Prop :=
  ∃ payload authoredBy, job.judge answer samples = .validated payload authoredBy

omit [Extern] [RuleTexts] in
theorem mem_used {b : Cleanup} {v : FieldRuleVariantsRow} :
    v ∈ b.used ↔ v ∈ b.variants ∧ v.status.isUsed = true := List.mem_filter

/-- Tables with the same rules in use, under the same parents, extract alike. -/
theorem applyLearnedFields_congr {b b' : Cleanup} (hused : b'.used = b.used)
    (hparent : ∀ v ∈ b.used, b'.fieldRules.find? v.fieldRuleId = b.fieldRules.find? v.fieldRuleId)
    (bankName body sourceType : String) (result : LearnedResult) :
    applyLearnedFields b' bankName body sourceType result =
      applyLearnedFields b bankName body sourceType result := by
  have hvariants : b'.usedVariants bankName sourceType = b.usedVariants bankName sourceType := by
    unfold Cleanup.usedVariants
    rw [hused]
    refine List.filterMap_congr fun v hv => ?_
    rw [hparent v hv]
  simp only [applyLearnedFields, Cleanup.selectLiveByBank, hvariants]

omit [Extern] [RuleTexts] in
/-- The live variant of the parent that was found or created. -/
theorem HasParent.liveVariant {b b' : Cleanup} {key : String × String × String}
    {p : FieldRulesRow} (h : HasParent b b' key p) (templateHash : String) :
    b.variants.lookup (p.id, templateHash) = b.liveVariant key templateHash := by
  rcases h with ⟨hlookup, -⟩ | ⟨hlookup, hnone, -, -⟩
  · rw [Cleanup.liveVariant, hlookup]
    rfl
  · rw [Cleanup.liveVariant, hlookup]
    refine Indexed.lookup_eq_none.mpr fun v hv hindex => ?_
    exact hnone v hv (liveIndex_eq_some.mp hindex).2.1

omit [Extern] [RuleTexts] in
theorem HasParent.find? {b b' : Cleanup} {key : String × String × String}
    {p : FieldRulesRow} (h : HasParent b b' key p) {v : FieldRuleVariantsRow}
    (hv : v ∈ b.variants) :
    b'.fieldRules.find? v.fieldRuleId = b.fieldRules.find? v.fieldRuleId := by
  rcases h with ⟨-, hF⟩ | ⟨-, hnone, -, hF⟩
  · rw [hF]
  · have hne : v.fieldRuleId ≠ Keyed.key p := hnone v hv
    rw [Table.find?_insert? (Indexed.toTable_insert? hF), if_neg hne]

/-! ## one job -/

/-- What a job does to the rules: nothing, or its variant is stored. -/
theorem processFeedbackJob_quiet {s : Store Cleanup} (h : UnusedDraws s)
    (authorWithLlm : Cleanup → Option RulePayload)
    (historicalSamples : Cleanup → List (String × Option String)) (job : FeedbackJob) (now : Int) :
    ∃ s', processFeedbackJob authorWithLlm historicalSamples job (.quiet now) s = (.ok (), s') ∧
      UnusedDraws s' ∧
      ((¬ job.Stores (authorWithLlm s.db) (historicalSamples s.db) ∧
          s'.db.fieldRules = s.db.fieldRules ∧ s'.db.variants = s.db.variants) ∨
        ∃ payload authoredBy id p stored,
          job.judge (authorWithLlm s.db) (historicalSamples s.db) =
            .validated payload authoredBy ∧
          HasParent s.db s'.db (job.bankName, job.fieldName, job.sourceType) p ∧
          StoredVariant s.db s'.db (job.variant payload authoredBy id) p.id stored) := by
  rw [processFeedbackJob, Eff.bind_of_ok (fetch_apply _ _ s), Eff.bind_of_ok (fetch_apply _ _ s)]
  rcases hjudge : job.judge (authorWithLlm s.db) (historicalSamples s.db) with
    _ | ⟨payload, reason⟩ | ⟨payload, authoredBy⟩
  case dropped =>
    refine ⟨s, rfl, h, .inl ⟨fun ⟨_, _, hstores⟩ => ?_, rfl, rfl⟩⟩
    rw [hjudge] at hstores
    exact Judgement.noConfusion hstores
  case rejected =>
    obtain ⟨L, hlog, hunused⟩ := insertChangeLog_quiet h none "rejected" none
      (payload.map printPayload) job.feedbackRef reason now
    refine ⟨_, ?_, hunused, .inl ⟨fun ⟨_, _, hstores⟩ => ?_, rfl, rfl⟩⟩
    · dsimp only
      rw [Eff.bind_apply, Eff.attempt_apply, logRejection, hlog]
      rfl
    · rw [hjudge] at hstores
      exact Judgement.noConfusion hstores
  case validated =>
    let v := job.variant payload authoredBy (uuid s.nextUuid)
    have hlive : v.status.isLive = true := by
      show (if job.learnedFrom = "drift_llm" then RuleStatus.pending else .active).isLive = true
      split <;> rfl
    have hdraw : UnusedDraws { s with nextUuid := s.nextUuid + 1 } := h.draw fun x hx => .inl hx
    have hdrawn : ∀ k, s.nextUuid + 1 ≤ k → uuid k ≠ v.id := by
      intro k hk heq
      have hkeq : k = s.nextUuid := Extern.uuid_injective heq
      omega
    obtain ⟨p, id, F, V, L, n, hrun, hunused, hp, hstored⟩ :=
      upsertVariant_stored hdraw v hlive (h _ (Nat.le_refl _)) hdrawn job.feedbackRef now
    refine ⟨_, ?_, hunused, .inr ⟨payload, authoredBy, _, p, id, rfl, hp, hstored⟩⟩
    dsimp only
    rw [Eff.bind_of_ok (newUuid_apply _ _ s), Eff.bind_apply, Eff.attempt_apply, hrun]
    rfl

/-! ## what a guess displaces -/

/-- The columns of a rule that say what it does and how it has done. -/
def FieldRuleVariantsRow.standing (v : FieldRuleVariantsRow) : String × RuleStatus × Nat × Nat :=
  (v.rulePayloadJson, v.status, v.successCount, v.failureCount)

/-- Every rule in use stands as it did, and messages are extracted as they were. -/
structure Undisturbed (b b' : Cleanup) : Prop where
  rules : ∀ v ∈ b.used, (b'.variants.find? v.id).map (·.standing) = some v.standing
  fields : ∀ bankName body sourceType result,
    applyLearnedFields b' bankName body sourceType result =
      applyLearnedFields b bankName body sourceType result

omit [Extern] [RuleTexts] in
theorem isUsed_of_pending {status : RuleStatus} (h : status = .pending) :
    status.isUsed = false := by
  rw [h]
  rfl

omit [Extern] [RuleTexts] in
/-- A pending variant is not in use, whether it is new or takes another's place. -/
theorem StoredVariant.used {b b' : Cleanup} {v : FieldRuleVariant} {parentId id : String}
    (h : StoredVariant b b' v parentId id) (hpending : v.status = .pending)
    (hfree : ∀ old, b.variants.lookup (parentId, v.templateHash) = some old →
      old.status.isUsed = false) : b'.used = b.used := by
  rcases h with ⟨old, now, hlookup, hid, hV⟩ | ⟨-, now, -, hV⟩
  · have hold : old ∈ b.variants := (Indexed.lookup_eq_some.mp hlookup).1
    show b'.variants.toTable.rows.filter _ = _
    rw [hV]
    refine Table.filter_modify fun r hr hk => ?_
    have hrold : r = old := Table.eq_of_key_eq hr hold (hk.trans hid.symm)
    rw [hrold]
    exact ⟨hfree old hlookup, isUsed_of_pending hpending⟩
  · exact Table.filter_insert? (Indexed.toTable_insert? hV) (isUsed_of_pending hpending)

omit [Extern] [RuleTexts] in
/-- The same rules in use stand as they did. -/
theorem standing_of_used {b b' : Cleanup} (h : b'.used = b.used) :
    ∀ v ∈ b.used, (b'.variants.find? v.id).map (·.standing) = some v.standing := by
  intro v hv
  have hmem : v ∈ b'.variants := by
    rw [← h] at hv
    exact (mem_used.mp hv).1
  have hrow : b'.variants.find? v.id = some v := Table.find?_eq_some.mpr ⟨hmem, rfl⟩
  rw [hrow, Option.map_some]

omit [Extern] [RuleTexts] in
/-- A pending variant in the place of one in use takes its status. -/
theorem StoredVariant.displaces {b b' : Cleanup} {v : FieldRuleVariant} {parentId id : String}
    {old : FieldRuleVariantsRow} (h : StoredVariant b b' v parentId id)
    (hpending : v.status = .pending)
    (hold : b.variants.lookup (parentId, v.templateHash) = some old)
    (hused : old.status.isUsed = true) :
    (b'.variants.find? old.id).map (·.standing) ≠ some old.standing := by
  rcases h with ⟨found, now, hlookup, hid, hV⟩ | ⟨hlookup, -⟩
  · have hfound : old = found := Option.some.inj (hold.symm.trans hlookup)
    have hmem : old ∈ b.variants := (Indexed.lookup_eq_some.mp hold).1
    have hrow : b.variants.toTable.find? old.id = some old := Table.find?_eq_some.mpr ⟨hmem, rfl⟩
    have hfind : b'.variants.toTable.find? old.id = some ((replacePatch v now).run old) := by
      rw [hV, Table.find?_modify, hrow, ← hid, hfound]
      simp
    rw [hfind]
    intro hsame
    have hstatus : v.status = old.status :=
      congrArg (·.2.1) (Option.some.inj hsame : ((replacePatch v now).run old).standing = _)
    rw [← hstatus, isUsed_of_pending hpending] at hused
    exact Bool.noConfusion hused
  · rw [hlookup] at hold
    contradiction

/-- A guess from template drift leaves the rules in use alone exactly when it is refused or no
rule in use holds the live place of its template. -/
theorem drift_undisturbed_iff (s : Store Cleanup) (h : UnusedDraws s)
    (authorWithLlm : Cleanup → Option RulePayload)
    (historicalSamples : Cleanup → List (String × Option String)) (job : FeedbackJob)
    (hdrift : job.learnedFrom = "drift_llm") (now : Int) :
    Undisturbed s.db (processFeedbackJob authorWithLlm historicalSamples job (.quiet now) s).2.db ↔
      (job.Stores (authorWithLlm s.db) (historicalSamples s.db) →
        ∀ v, s.db.liveVariant (job.bankName, job.fieldName, job.sourceType)
          (computeTemplateHash job.sourceText) = some v → v.status.isUsed = false) := by
  obtain ⟨s', hrun, -, hcases⟩ :=
    processFeedbackJob_quiet h authorWithLlm historicalSamples job now
  rw [hrun]
  rcases hcases with ⟨hnot, hF, hV⟩ | ⟨payload, authoredBy, id, p, stored, hjudge, hp, hstored⟩
  · have hused : s'.db.used = s.db.used := by rw [Cleanup.used, hV, Cleanup.used]
    constructor
    · exact fun _ hstores => absurd hstores hnot
    · exact fun _ => ⟨standing_of_used hused,
        applyLearnedFields_congr hused fun v _ => by rw [hF]⟩
  · have hpending : (job.variant payload authoredBy id).status = .pending := if_pos hdrift
    have hlive := hp.liveVariant (computeTemplateHash job.sourceText)
    constructor
    · intro hund _ v hv
      by_contra hne
      rw [Bool.not_eq_false] at hne
      rw [← hlive] at hv
      have hmem : v ∈ s.db.used := mem_used.mpr ⟨(Indexed.lookup_eq_some.mp hv).1, hne⟩
      exact hstored.displaces hpending hv hne (hund.rules v hmem)
    · intro hfree
      have hused : s'.db.used = s.db.used := hstored.used hpending fun old hold =>
        hfree ⟨payload, authoredBy, hjudge⟩ old (hlive.symm.trans hold)
      exact ⟨standing_of_used hused,
        applyLearnedFields_congr hused fun v hv => hp.find? (mem_used.mp hv).1⟩

omit [Extern] [RuleTexts] in
/-- A trusted rule of the user for the template of the email. -/
def taughtVariant : Indexed FieldRuleVariantsRow FieldRuleVariantsRow.liveIndex where
  rows := [{
    id := "v1", fieldRuleId := "p1", templateHash := "at instamart on"
    rulePayloadJson :=
      "\x7b\"capture_group\":1,\"regex\":\"(?is)at\\\\s+(.\x7b1,80\x7d?)\\\\s+on\"\x7d"
    status := .trusted, successCount := 12, failureCount := 0
    confidence := 1, authoredBy := "deterministic", learnedFrom := "user_edit", updatedAt := 0 }]
  nodup := by simp
  unique := by simp

omit [Extern] [RuleTexts] in
def merchantGuess (sourceText newValue : String) : FeedbackJob where
  feedbackLogId := ""
  bankName := "SBI Card"
  fieldName := "merchant"
  sourceType := "email"
  sourceText := sourceText
  newValue := newValue
  learnedFrom := "drift_llm"

omit [Extern] [RuleTexts] in
/-- A guess for another template. -/
theorem drift_undisturbed_elsewhere :
    letI := Extern.ascii
    letI := RuleTexts.words
    let s := cleanupStart oldRule taughtVariant
    let job := merchantGuess "at SWIGGY on" "SWIGGY"
    job.Stores none [] ∧
      Undisturbed s.db (processFeedbackJob (fun _ => none) (fun _ => []) job (.quiet 1) s).2.db := by
  let := Extern.ascii
  let := RuleTexts.words
  intro s job
  have hunused : UnusedDraws s := unused_cleanupStart _ _ (by simp [oldRule])
    (by simp [taughtVariant])
  have hstores : job.judge none [] = .validated
      { regex := some (.string "(?is)at\\s+(.\x7b1,80\x7d?)\\s+on")
        captureGroup := some (.unsigned 1) } "deterministic" := by
    decide +kernel
  have hfree : s.db.liveVariant (job.bankName, job.fieldName, job.sourceType)
      (computeTemplateHash job.sourceText) = none := by
    decide +kernel
  refine ⟨⟨_, _, hstores⟩, (drift_undisturbed_iff s hunused _ _ job rfl 1).mpr fun _ v hv => ?_⟩
  exact absurd (hfree.symm.trans hv) (Option.some_ne_none v).symm

omit [Extern] [RuleTexts] in
/-- The guess takes the place of the trusted rule, and the merchant is no longer extracted. -/
theorem drift_displaces_trusted :
    letI := Extern.ascii
    letI := RuleTexts.words
    let s := cleanupStart oldRule taughtVariant
    let job := merchantGuess "at INSTAMART on" "INSTAMART"
    let s' := (processFeedbackJob (fun _ => none) (fun _ => []) job (.quiet 1) s).2
    (s.db.variants.find? "v1").map (fun v => (v.status, v.successCount)) = some (.trusted, 12) ∧
    (s'.db.variants.find? "v1").map (fun v => (v.status, v.successCount)) = some (.pending, 0) ∧
    applyLearnedFields s.db "SBI Card" "at INSTAMART on" "email" {} =
      (true, { merchantRaw := some "INSTAMART" }) ∧
    applyLearnedFields s'.db "SBI Card" "at INSTAMART on" "email" {} = (false, {}) ∧
    ¬ Undisturbed s.db s'.db := by
  let := Extern.ascii
  let := RuleTexts.words
  intro s job s'
  have hbefore : applyLearnedFields s.db "SBI Card" "at INSTAMART on" "email" {} =
      (true, { merchantRaw := some "INSTAMART" }) := by decide +kernel
  have hafter : applyLearnedFields s'.db "SBI Card" "at INSTAMART on" "email" {} = (false, {}) := by
    decide +kernel
  refine ⟨by decide +kernel, by decide +kernel, hbefore, hafter, fun h => ?_⟩
  have hsame := h.fields "SBI Card" "at INSTAMART on" "email" {}
  rw [hbefore, hafter] at hsame
  exact absurd (congrArg Prod.fst hsame) (by decide)

end Dinero
