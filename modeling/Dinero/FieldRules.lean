import Dinero.Sql
import Dinero.Table
import Mathlib.Algebra.Order.Field.Basic
import Mathlib.Tactic.Linarith
import Mathlib.Tactic.NormNum

/-!
# Dinero.FieldRules

Learned extraction rules and their statistics.

A rule variant counts how often it was right and wrong; two updates move its
status along `pending`, `active`, `trusted`, or retire it.  No check of the
code says that a live variant is a good one: `Sound` is the invariant that
makes it so, and `rule_statistics` follows it through every run of calls.

Confidences are exact quotients.
-/

namespace Dinero

open Sql

/-! ## rules and variants -/

inductive RuleStatus
  | pending | active | trusted | inactive | flagged
deriving DecidableEq, Repr

/-- `LIVE_STATUSES`. -/
def RuleStatus.isLive : RuleStatus → Bool
  | pending | active | trusted => true
  | inactive | flagged => false

/-- The order `inactive < pending < active < trusted`; a flagged variant is
as retired as an inactive one. -/
def RuleStatus.rank : RuleStatus → Nat
  | inactive => 0
  | flagged => 0
  | pending => 1
  | active => 2
  | trusted => 3

structure FieldRuleVariantsRow where
  id : String
  fieldRuleId : String
  templateHash : String
  rulePayloadJson : String
  status : RuleStatus
  successCount : Nat
  failureCount : Nat
  confidence : ℚ
  authoredBy : String
  learnedFrom : String
  updatedAt : Int
deriving DecidableEq, Repr

instance : Keyed FieldRuleVariantsRow String := ⟨(·.id)⟩

/-! ## the two counters -/

/-- What a reconciliation decision says about the rule. -/
inductive Feedback
  | success | failure
deriving DecidableEq, Repr

/-- `success_count` over all. -/
def hitRate (successCount failureCount : Nat) : ℚ :=
  (successCount : ℚ) / ((successCount : ℚ) + (failureCount : ℚ))

/-- The `UPDATE` of `record_success`. -/
def successPatch (now : Int) : Patch FieldRuleVariantsRow where
  run v := { v with
    successCount := v.successCount + 1
    confidence := hitRate (v.successCount + 1) v.failureCount
    status :=
      if v.status = .pending ∧ 3 ≤ v.successCount + 1 then .active
      else if v.status = .active ∧ 10 ≤ v.successCount + 1 then .trusted
      else v.status
    updatedAt := now }
  key_run _ := rfl

/-- The `UPDATE` of `record_failure`. -/
def failurePatch (now : Int) : Patch FieldRuleVariantsRow where
  run v := { v with
    failureCount := v.failureCount + 1
    confidence := hitRate v.successCount (v.failureCount + 1)
    status :=
      if 3 ≤ v.failureCount + 1 then .inactive
      else if hitRate v.successCount (v.failureCount + 1) < 70 / 100 then .inactive
      else v.status
    updatedAt := now }
  key_run _ := rfl

def feedbackPatch : Feedback → Int → Patch FieldRuleVariantsRow
  | .success => successPatch
  | .failure => failurePatch

/-- `record_success` and `record_failure`: one update, which has to find its
row. -/
def record (feedback : Feedback) (id : String) (now : Int) (T : Table FieldRuleVariantsRow) :
    Except SqlError (Table FieldRuleVariantsRow) :=
  if T.contains id then .ok (T.modify id (feedbackPatch feedback now))
  else .error (.anyhow "Rule not found")

/-- Increments a rule's success count. -/
def recordSuccess (id : String) (now : Int) (T : Table FieldRuleVariantsRow) :
    Except SqlError (Table FieldRuleVariantsRow) := record .success id now T

/-- Increments a rule's failure count. -/
def recordFailure (id : String) (now : Int) (T : Table FieldRuleVariantsRow) :
    Except SqlError (Table FieldRuleVariantsRow) := record .failure id now T

/-- A call of one of the two. -/
structure RuleCall where
  id : String
  feedback : Feedback
  now : Int

/-- The table after a call; a call that finds no row changes nothing. -/
def RuleCall.run (T : Table FieldRuleVariantsRow) (c : RuleCall) : Table FieldRuleVariantsRow :=
  match (match c.feedback with
    | .success => recordSuccess c.id c.now T
    | .failure => recordFailure c.id c.now T) with
  | .ok T' => T'
  | .error _ => T

/-- Calls one after the other. -/
def recordAll (T : Table FieldRuleVariantsRow) (calls : List RuleCall) :
    Table FieldRuleVariantsRow := calls.foldl RuleCall.run T

/-! ## what a call does to a variant -/

/-- A call patches the variant it names and no other. -/
theorem RuleCall.find?_run (T : Table FieldRuleVariantsRow) (c : RuleCall) (id : String) :
    (c.run T).find? id =
      if id = c.id then (T.find? id).map (feedbackPatch c.feedback c.now).run else T.find? id := by
  have hrun : c.run T =
      if T.contains c.id then T.modify c.id (feedbackPatch c.feedback c.now) else T := by
    obtain ⟨cid, feedback, now⟩ := c
    by_cases hthere : T.contains cid = true <;>
      cases feedback <;> simp [RuleCall.run, recordSuccess, recordFailure, record, hthere]
  rw [hrun]
  split
  · exact Table.find?_modify _ _ _ _
  · next hmissing =>
      by_cases hid : id = c.id
      · rw [if_pos hid, hid]
        rw [Table.contains, Bool.not_eq_true, Option.isSome_eq_false_iff,
          Option.isNone_iff_eq_none] at hmissing
        rw [hmissing]
        rfl
      · rw [if_neg hid]

/-- Retired for good. -/
theorem status_of_inactive {v : FieldRuleVariantsRow} (h : v.status = .inactive)
    (feedback : Feedback) (now : Int) : ((feedbackPatch feedback now).run v).status = .inactive := by
  cases feedback with
  | success => simp [feedbackPatch, successPatch, h]
  | failure =>
    simp only [feedbackPatch, failurePatch, h]
    split
    · rfl
    · split <;> rfl

/-- Trust takes ten successes. -/
theorem success_of_trusted {v : FieldRuleVariantsRow} {feedback : Feedback} {now : Int}
    (h : ((feedbackPatch feedback now).run v).status = .trusted) (hbefore : v.status ≠ .trusted) :
    10 ≤ ((feedbackPatch feedback now).run v).successCount := by
  cases feedback with
  | success =>
    simp only [feedbackPatch, successPatch] at h ⊢
    split at h
    · simp at h
    · split at h
      · next hten => exact hten.2
      · exact absurd h hbefore
  | failure =>
    simp only [feedbackPatch, failurePatch] at h
    split at h
    · simp at h
    · split at h
      · simp at h
      · exact absurd h hbefore

/-- A success never lowers the status. -/
theorem rank_success (v : FieldRuleVariantsRow) (now : Int) :
    v.status.rank ≤ ((successPatch now).run v).status.rank := by
  simp only [successPatch]
  split
  · next h => simp [h.1, RuleStatus.rank]
  · split
    · next h => simp [h.1, RuleStatus.rank]
    · exact Nat.le_refl _

/-- A failure never raises it. -/
theorem rank_failure (v : FieldRuleVariantsRow) (now : Int) :
    ((failurePatch now).run v).status.rank ≤ v.status.rank := by
  simp only [failurePatch]
  split
  · exact Nat.zero_le _
  · split
    · exact Nat.zero_le _
    · exact Nat.le_refl _

theorem feedbackPatch_confidence (v : FieldRuleVariantsRow) (feedback : Feedback) (now : Int) :
    ((feedbackPatch feedback now).run v).confidence =
      hitRate ((feedbackPatch feedback now).run v).successCount
        ((feedbackPatch feedback now).run v).failureCount := by
  cases feedback <;> rfl

/-! ## the invariant -/

/-- What the thresholds are for: a live variant failed at most twice, and has
been right seven times out of ten, if it was used at all. -/
def Sound (v : FieldRuleVariantsRow) : Prop :=
  v.status.isLive = true → v.failureCount ≤ 2 ∧
    (0 < v.failureCount → 70 / 100 ≤ hitRate v.successCount v.failureCount)

/-- Another success does not lower the rate. -/
theorem hitRate_succ_le (s f : Nat) (hf : 0 < f) : hitRate s f ≤ hitRate (s + 1) f := by
  have hf' : (0 : ℚ) < f := by exact_mod_cast hf
  have hs' : (0 : ℚ) ≤ s := by positivity
  unfold hitRate
  rw [div_le_div_iff₀ (by linarith) (by push_cast; linarith)]
  push_cast
  nlinarith

/-- A rule that never failed is always right, once it was used. -/
theorem hitRate_zero (s : Nat) (hs : 0 < s) : hitRate s 0 = 1 := by
  have hs' : (s : ℚ) ≠ 0 := by exact_mod_cast hs.ne'
  simp [hitRate, hs']

theorem Sound.feedback {v : FieldRuleVariantsRow} (h : Sound v) (feedback : Feedback) (now : Int) :
    Sound ((feedbackPatch feedback now).run v) := by
  cases feedback with
  | success =>
    intro hlive
    -- a success makes no variant live
    have hbefore : v.status.isLive = true := by
      simp only [feedbackPatch, successPatch] at hlive
      split at hlive
      · next hp => rw [hp.1]; rfl
      · split at hlive
        · next ha => rw [ha.1]; rfl
        · exact hlive
    obtain ⟨htwo, hrate⟩ := h hbefore
    exact ⟨htwo, fun hf => (hrate hf).trans (hitRate_succ_le _ _ hf)⟩
  | failure =>
    intro hlive
    simp only [feedbackPatch, failurePatch] at hlive ⊢
    split at hlive
    · simp [RuleStatus.isLive] at hlive
    · next hthree =>
        split at hlive
        · simp [RuleStatus.isLive] at hlive
        · next hlow => exact ⟨by omega, fun _ => not_lt.mp hlow⟩

/-- A variant that was used: the row has its rate, and a live one is above
both thresholds. -/
structure Measured (v : FieldRuleVariantsRow) : Prop where
  sound : Sound v
  confidence : v.confidence = hitRate v.successCount v.failureCount
  live : v.status.isLive = true → v.failureCount ≤ 2 ∧ 70 / 100 ≤ v.confidence

/-- One call is enough. -/
theorem Sound.measured {v : FieldRuleVariantsRow} (h : Sound v) (feedback : Feedback) (now : Int) :
    Measured ((feedbackPatch feedback now).run v) := by
  have hrate := feedbackPatch_confidence v feedback now
  refine ⟨h.feedback feedback now, hrate, fun hlive => ?_⟩
  obtain ⟨htwo, hseven⟩ := h.feedback feedback now hlive
  refine ⟨htwo, ?_⟩
  rw [hrate]
  rcases Nat.eq_zero_or_pos ((feedbackPatch feedback now).run v).failureCount with hzero | hpos
  · have hused : 0 < ((feedbackPatch feedback now).run v).successCount := by
      cases feedback with
      | success => exact Nat.succ_pos _
      | failure => simp [feedbackPatch, failurePatch] at hzero
    rw [hzero, hitRate_zero _ hused]
    norm_num
  · exact hseven hpos

/-! ## runs of calls -/

theorem recordAll_cons (T : Table FieldRuleVariantsRow) (c : RuleCall) (calls : List RuleCall) :
    recordAll T (c :: calls) = recordAll (c.run T) calls := rfl

theorem recordAll_append (T : Table FieldRuleVariantsRow) (calls more : List RuleCall) :
    recordAll T (calls ++ more) = recordAll (recordAll T calls) more :=
  List.foldl_append

/-- What all calls keep of a variant, calls keep. -/
theorem find?_recordAll {p : FieldRuleVariantsRow → Prop}
    (step : ∀ v feedback now, p v → p ((feedbackPatch feedback now).run v)) {id : String}
    (calls : List RuleCall) {T : Table FieldRuleVariantsRow} {v : FieldRuleVariantsRow}
    (hv : T.find? id = some v) (hp : p v) : ∃ w, (recordAll T calls).find? id = some w ∧ p w := by
  induction calls generalizing T v with
  | nil => exact ⟨v, hv, hp⟩
  | cons c calls ih =>
    rw [recordAll_cons]
    have hrun := c.find?_run T id
    split at hrun
    · rw [hv] at hrun
      exact ih hrun (step v c.feedback c.now hp)
    · exact ih (hrun.trans hv) hp

/-- The row has the rate from the first call that names it. -/
theorem measured_recordAll {id : String} (calls : List RuleCall)
    {T : Table FieldRuleVariantsRow} {v : FieldRuleVariantsRow} (hv : T.find? id = some v)
    (hsound : Sound v) (hused : ∃ c ∈ calls, c.id = id) :
    ∃ w, (recordAll T calls).find? id = some w ∧ Measured w := by
  obtain ⟨c, hc, hid⟩ := hused
  obtain ⟨before, after, rfl⟩ := List.append_of_mem hc
  rw [recordAll_append, recordAll_cons]
  obtain ⟨w, hw, hsoundw⟩ := find?_recordAll (fun _ feedback now h => h.feedback feedback now)
    before hv hsound
  have hcalled := c.find?_run (recordAll T before) id
  rw [if_pos hid.symm, hw] at hcalled
  exact find?_recordAll (fun _ feedback now h => h.sound.measured feedback now) after hcalled
    (hsoundw.measured c.feedback c.now)

/-- The statistics of a learned rule, over every order of calls on every rule
of the table and from any status.  `calls` is the run so far, `c` its next
call. -/
theorem rule_statistics (T : Table FieldRuleVariantsRow) (id : String) (v : FieldRuleVariantsRow)
    (hv : T.find? id = some v) (hfailed : v.failureCount = 0) (calls : List RuleCall) :
    ((∃ c ∈ calls, c.id = id) →
      ∃ w, (recordAll T calls).find? id = some w ∧
        w.confidence = hitRate w.successCount w.failureCount ∧
        (w.status.isLive = true → w.failureCount ≤ 2 ∧ 70 / 100 ≤ w.confidence)) ∧
    ∀ c : RuleCall, c.id = id →
      ∃ w w', (recordAll T calls).find? id = some w ∧
        (recordAll T (calls ++ [c])).find? id = some w' ∧
        (w.status = .inactive → w'.status = .inactive) ∧
        (w'.status = .trusted → w.status ≠ .trusted → 10 ≤ w'.successCount) ∧
        (c.feedback = .success → w.status.rank ≤ w'.status.rank) ∧
        (c.feedback = .failure → w'.status.rank ≤ w.status.rank) := by
  have hsound : Sound v := fun _ => ⟨by omega, fun h => by omega⟩
  constructor
  · intro hused
    obtain ⟨w, hw, hmeasured⟩ := measured_recordAll calls hv hsound hused
    exact ⟨w, hw, hmeasured.confidence, hmeasured.live⟩
  · intro c hid
    obtain ⟨w, hw, -⟩ := find?_recordAll (fun _ feedback now h => h.feedback feedback now)
      calls hv hsound
    have hcalled := c.find?_run (recordAll T calls) id
    rw [if_pos hid.symm, hw] at hcalled
    refine ⟨w, _, hw, (congrArg (Table.find? · id) (recordAll_append T calls [c])).trans hcalled,
      fun h => status_of_inactive h _ _, fun h hbefore => success_of_trusted h hbefore,
      fun h => ?_, fun h => ?_⟩
    · rw [h]
      exact rank_success w c.now
    · rw [h]
      exact rank_failure w c.now

/-- A new rule that was right twice, then wrong: two of three is too little. -/
theorem rule_statistics_retired :
    let v : FieldRuleVariantsRow := {
      id := "v1", fieldRuleId := "r1", templateHash := "h", rulePayloadJson := "{}"
      status := .pending, successCount := 0, failureCount := 0, confidence := 0
      authoredBy := "deterministic", learnedFrom := "user_edit", updatedAt := 0 }
    let calls : List RuleCall := [⟨"v1", .success, 1⟩, ⟨"v1", .success, 2⟩]
    ∃ w w', (recordAll ⟨[v], by simp⟩ calls).find? "v1" = some w ∧
      (recordAll ⟨[v], by simp⟩ (calls ++ [⟨"v1", .failure, 3⟩])).find? "v1" = some w' ∧
      w'.status.rank ≤ w.status.rank ∧ w.status = .pending ∧ w'.status = .inactive := by
  intro v calls
  obtain ⟨w, w', hw, hw', -, -, -, hfall⟩ := (rule_statistics ⟨[v], by simp⟩ "v1" v
    (by simp [Table.find?, Keyed.key, v]) rfl calls).2 ⟨"v1", .failure, 3⟩ rfl
  have hbefore : (recordAll ⟨[v], by simp⟩ calls).find? "v1" |>.all (·.status = .pending) := by
    decide +kernel
  have hafter : (recordAll ⟨[v], by simp⟩ (calls ++ [⟨"v1", .failure, 3⟩])).find? "v1"
      |>.all (·.status = .inactive) := by
    decide +kernel
  rw [hw] at hbefore
  rw [hw'] at hafter
  exact ⟨w, w', hw, hw', hfall rfl, of_decide_eq_true hbefore, of_decide_eq_true hafter⟩

end Dinero
