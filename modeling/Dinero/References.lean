import Dinero.Outcomes
import Dinero.Succeeds
import Mathlib.Tactic.Linarith
import Mathlib.Tactic.NormNum

/-!
# Dinero.References

Reference ids and automatic merges.

The scorer never merges across contradicting reference ids: the penalty keeps
such a candidate at `1/2`, below the floor.  The fingerprint path does not look
at reference ids at all, so it merges across a contradiction whenever it is
led to one.
-/

namespace Dinero

open Sql

variable [Extern]

/-! ## the scored path -/

theorem merchantScore_le (obs : IncomingObservation) (c : CanonicalCandidate) :
    merchantScore obs c ≤ 30 / 100 := by
  unfold merchantScore
  split
  · next obsMerchant candMerchant _ _ =>
      simp only
      split
      · have h := Extern.jaroWinkler_le_one (toLowercase obsMerchant) (toLowercase candMerchant)
        rw [merchantSimilarityWeight]
        linarith
      · norm_num
  · norm_num

theorem computeTimeProximityScore_le (a b : TimeText) :
    computeTimeProximityScore a b ≤ 25 / 100 := by
  unfold computeTimeProximityScore
  split
  · next obsDt candDt _ _ =>
      have hdelta : (0 : ℚ) ≤ ((obsDt - candDt).natAbs : Nat) := by positivity
      simp only
      split
      · linarith
      · split <;> linarith
  · split
    · exact le_refl _
    · split <;> norm_num

omit [Extern] in
/-- Contradicting reference ids cost what equal ones would have brought. -/
theorem referenceScore_of_conflict {obs : IncomingObservation} {c : CanonicalCandidate}
    (h : referencesConflict obs.referenceId c.referenceId = true) :
    referenceScore obs c = -25 / 100 := by
  unfold referencesConflict at h
  unfold referenceScore
  split at h
  · next obsRef candRef hobs hcand =>
      simp only [Bool.and_eq_true, bne_iff_ne, Bool.not_eq_true'] at h
      simp [h.1.1, h.1.2, h.2, referenceIdMismatchPenalty]
  · simp at h

/-- What amount, direction, time and source bring at most. -/
theorem rawScore_le (obs : IncomingObservation) (c : CanonicalCandidate) :
    rawScore obs c ≤ merchantScore obs c + referenceScore obs c + 45 / 100 := by
  have ht := computeTimeProximityScore_le obs.eventTime c.eventTime
  have ha : (if obs.amountMinor = c.amountMinor then amountExactnessWeight else 0) ≤ 10 / 100 := by
    split <;> norm_num [amountExactnessWeight]
  have hd : (if obs.direction = c.direction then directionConsistencyWeight else 0) ≤ 5 / 100 := by
    split <;> norm_num [directionConsistencyWeight]
  have hx : (if isCrossSourceComplementary obs.sourcePipeline c.sourceMix then
      crossSourceComplementarityBonus else 0) ≤ 5 / 100 := by
    split <;> norm_num [crossSourceComplementarityBonus]
  unfold rawScore
  linarith

/-- **The penalty keeps a contradicting candidate below the floor.** -/
theorem score_of_conflict {obs : IncomingObservation} {c : CanonicalCandidate}
    (h : referencesConflict obs.referenceId c.referenceId = true) :
    (scoreCandidate obs c).score < baseViabilityFloor := by
  have hm := merchantScore_le obs c
  have hr := referenceScore_of_conflict h
  have hle := rawScore_le obs c
  have hraw : rawScore obs c ≤ 50 / 100 := by linarith
  have hscore : (scoreCandidate obs c).score ≤ 50 / 100 := by
    simp only [scoreCandidate]
    exact max_le (by norm_num) ((min_le_right _ _).trans hraw)
  exact hscore.trans_lt (by norm_num [baseViabilityFloor])

/-! ## merges -/

/-- Reconciling the observation at `now` merges it, by itself, into the
canonical `t`: the decision is one of the automatic ones, and the observation
is linked to `t`. -/
def MergesInto (obs : IncomingObservation) (now : Int) (s : Store Database)
    (t : TransactionsRow) : Prop :=
  ∃ d s', fetchAndReconcile obs (.quiet now) s = (.ok d, s') ∧
    (d = .autoMatchedExact ∨ d = .autoMatchedScored) ∧ t ∈ s.db.transactions ∧
    (s'.db.observations.find? obs.id).bind (·.canonicalTransactionId) = some t.id

/-- Does the fingerprint path lead to a canonical whose reference id
contradicts the observation's? -/
def Database.contradictingTarget (db : Database) (obs : IncomingObservation) : Bool :=
  (db.exactTarget obs).any fun t => referencesConflict obs.referenceId t.referenceId

/-- What an automatic merge was decided on: the exact target, or a scored
candidate.  Either way the observation was stored. -/
theorem MergesInto.target {obs : IncomingObservation} {now : Int} {s : Store Database}
    {t : TransactionsRow} (h : MergesInto obs now s t) :
    s.db.observations.contains obs.id = true ∧
      (s.db.exactTarget obs = some t ∨
        baseViabilityFloor ≤ (scoreCandidate obs (toCanonicalCandidate t)).score) := by
  obtain ⟨d, s', hrun, hd, ht, hlink⟩ := h
  obtain ⟨dt, -, hact⟩ := fetchAndReconcile_acted hrun
  cases hact with
  | merged d t' overwrite ht' _ htarget hl hlog =>
    -- the row linked to is the one the verdict names
    obtain rfl : t' = t := Table.eq_of_key_eq ht' ht (Option.some.inj (hl.link.symm.trans hlink))
    refine ⟨hl.stored, ?_⟩
    rcases htarget with ⟨-, hx⟩ | ⟨-, -, hfloor⟩
    · exact .inl hx
    · exact .inr hfloor
  | created => simp at hd
  | raised => simp at hd

/-- An exact target is merged into, once the observation is stored. -/
theorem mergesInto_of_exactTarget {obs : IncomingObservation} {s : Store Database}
    {t : TransactionsRow} (hfresh : Fresh s) (hobs : s.db.observations.contains obs.id = true)
    (ht : s.db.exactTarget obs = some t) (now : Int) : MergesInto obs now s t := by
  obtain ⟨hmem, -, hverify⟩ := Database.exactTarget_eq_some ht
  have htime : ∃ dt, obs.eventTime.parse = some dt := by
    simp only [verifyExactMatch, Bool.and_eq_true, timeWithinTolerance] at hverify
    cases hparse : obs.eventTime.parse with
    | none => simp [hparse] at hverify
    | some dt => exact ⟨dt, rfl⟩
  obtain ⟨dt, hdt⟩ := htime
  obtain ⟨d, s', hrun⟩ : Succeeds now (autoMatch obs t.id t.sourceMix 1 .autoMatchedExact) s :=
    autoMatch_succeeds hfresh hobs (Table.contains_iff.mpr ⟨t, hmem, rfl⟩)
  obtain ⟨hd, -, _, db₁, hl, hmd, hdec⟩ := autoMatch_effect hrun
  refine ⟨d, s', ?_, .inl hd, hmem, (hl.decided hdec hmd).1.link⟩
  rw [fetchAndReconcile_quiet hdt, Database.verdict, ht]
  exact hrun

/-- No automatic merge of this observation contradicts a reference id. -/
def RespectsReferences (obs : IncomingObservation) (now : Int) (s : Store Database) : Prop :=
  ∀ t, MergesInto obs now s t → referencesConflict obs.referenceId t.referenceId = false

/-- Where the fingerprint path leads to no contradiction, no merge contradicts
a reference id. -/
theorem respectsReferences_of_target {obs : IncomingObservation} {s : Store Database}
    (hno : ¬ (s.db.observations.contains obs.id = true ∧ s.db.contradictingTarget obs = true))
    (now : Int) : RespectsReferences obs now s := by
  intro t hmerge
  by_contra hconflict
  simp only [Bool.not_eq_false] at hconflict
  obtain ⟨hstored, hexact | hscore⟩ := hmerge.target
  · exact hno ⟨hstored, (Option.any_eq_true _ _).mpr ⟨t, hexact, hconflict⟩⟩
  · have := score_of_conflict (c := toCanonicalCandidate t) hconflict
    linarith

/-- **Reference ids and merges.**  Merges of an observation respect reference
ids exactly if the fingerprint path does not lead the stored observation to a
contradiction. -/
theorem respectsReferences_iff (obs : IncomingObservation) (now : Int) (s : Store Database)
    (hfresh : Fresh s) : RespectsReferences obs now s ↔
      ¬ (s.db.observations.contains obs.id = true ∧ s.db.contradictingTarget obs = true) := by
  refine ⟨?_, fun hno => respectsReferences_of_target hno now⟩
  rintro hall ⟨hstored, hcontra⟩
  obtain ⟨t, ht, hconflict⟩ := (Option.any_eq_true _ _).mp hcontra
  rw [hall t (mergesInto_of_exactTarget hfresh hstored ht now)] at hconflict
  simp at hconflict

/-- A ledger with one payment of a reference id, and another, stored but not
reconciled, a minute later under the same fingerprint. -/
def twoPayments (firstRef secondRef : String) : Store Database :=
  (Op.ingest { observed "o2" "gmail_transaction" "debit" 500 1060 with
      fingerprint := some "fp", referenceId := some secondRef } false).run 1061
    ((Op.ingest { observed "o1" "gmail_transaction" "debit" 500 1000 with
      fingerprint := some "fp", referenceId := some firstRef } true).run 1001 firstLedger)

/-- The second of them, as it comes to be reconciled. -/
def secondPayment (secondRef : String) : IncomingObservation :=
  incomingOf { observed "o2" "gmail_transaction" "debit" 500 1060 with
    fingerprint := some "fp", referenceId := some secondRef } "account"

theorem fresh_twoPayments (firstRef secondRef : String) : Fresh (twoPayments firstRef secondRef) :=
  Op.run_fresh (Op.run_fresh initial_firstLedger.fresh _ _) _ _

omit [Extern] in
/-- One reference id being a part of the other is no contradiction. -/
theorem respectsReferences_partOf :
    letI := Extern.ascii
    RespectsReferences (secondPayment "UTR111/7") 1062 (twoPayments "UTR111" "UTR111/7") := by
  let := Extern.ascii
  exact (respectsReferences_iff _ _ _ (fresh_twoPayments _ _)).mpr (by decide +kernel)

omit [Extern] in
/-- Two reference ids with nothing in common: the fingerprint path merges all
the same. -/
theorem fast_path_merges_contradiction :
    letI := Extern.ascii
    ¬ RespectsReferences (secondPayment "IMPS999") 1062 (twoPayments "UTR111" "IMPS999") := by
  let := Extern.ascii
  intro hall
  obtain ⟨t, ht, hconflict⟩ := (Option.any_eq_true _ _).mp
    (by decide +kernel : (twoPayments "UTR111" "IMPS999").db.contradictingTarget
      (secondPayment "IMPS999") = true)
  have hmerge := mergesInto_of_exactTarget (fresh_twoPayments _ _) (by decide +kernel) ht 1062
  rw [hall t hmerge] at hconflict
  simp at hconflict

end Dinero
