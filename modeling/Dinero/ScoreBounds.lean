import Dinero.References

/-!
# Dinero.ScoreBounds

What a score at the floor says of its candidate, and how scores go down with
the time between the two events.
-/

namespace Dinero

variable [Extern]

/-! ## at the floor -/

/-- The reference ids are equal, or one is part of the other. -/
def ReferencesAgree (a b : Option String) : Prop :=
  ∃ x y, a = some x ∧ b = some y ∧ (x = y ∨ strContains x y = true ∨ strContains y x = true)

/-- Both sides name a merchant, and the names are this similar. -/
def MerchantsAlike (obs : IncomingObservation) (c : CanonicalCandidate) (least : ℚ) : Prop :=
  ∃ x y, obs.merchantRaw = some x ∧ c.merchantNormalizedName = some y ∧
    least ≤ jaroWinkler (toLowercase x) (toLowercase y)

omit [Extern] in
theorem referenceScore_of_not_agree {obs : IncomingObservation} {c : CanonicalCandidate}
    (h : ¬ ReferencesAgree obs.referenceId c.referenceId) : referenceScore obs c ≤ 0 := by
  unfold referenceScore
  split
  · next x y hx hy =>
    have hsame : x ≠ y := fun heq => h ⟨x, y, hx, hy, .inl heq⟩
    have hpart : ¬ (strContains x y || strContains y x) = true := by
      rw [Bool.or_eq_true]
      exact fun hor => h ⟨x, y, hx, hy, .inr hor⟩
    rw [if_neg hsame, if_neg hpart, referenceIdMismatchPenalty]
    norm_num
  · exact le_rfl

/-- Merchants bring their similarity's share, and nothing where one is not named. -/
theorem merchantsAlike_of_score {obs : IncomingObservation} {c : CanonicalCandidate} {least : ℚ}
    (hpos : 0 < least) (h : merchantSimilarityWeight * least ≤ merchantScore obs c) :
    MerchantsAlike obs c least := by
  have hweight : (0 : ℚ) < merchantSimilarityWeight := by norm_num [merchantSimilarityWeight]
  have hsome := mul_pos hweight hpos
  unfold merchantScore at h
  split at h
  · next x y hx hy =>
    dsimp only at h
    split at h
    · exact ⟨x, y, hx, hy, le_of_mul_le_mul_left h hweight⟩
    · linarith
  · linarith

theorem le_rawScore_of_floor {obs : IncomingObservation} {c : CanonicalCandidate}
    (h : baseViabilityFloor ≤ (scoreCandidate obs c).score) :
    baseViabilityFloor ≤ rawScore obs c := by
  have hfloor : (0 : ℚ) < baseViabilityFloor := by norm_num [baseViabilityFloor]
  obtain hzero | hclamped := le_max_iff.mp h
  · linarith
  · exact hclamped.trans (min_le_right _ _)

/-- At the floor, the reference ids agree or the merchants are alike. -/
theorem agree_or_alike {obs : IncomingObservation} {c : CanonicalCandidate}
    (h : baseViabilityFloor ≤ (scoreCandidate obs c).score) :
    ReferencesAgree obs.referenceId c.referenceId ∨ MerchantsAlike obs c (1 / 3) := by
  by_cases hagree : ReferencesAgree obs.referenceId c.referenceId
  · exact .inl hagree
  · have hreference := referenceScore_of_not_agree hagree
    have hraw := le_rawScore_of_floor h
    have hle := rawScore_le obs c
    refine .inr (merchantsAlike_of_score (by norm_num) ?_)
    rw [baseViabilityFloor] at hraw
    rw [merchantSimilarityWeight]
    linarith

/-! ## over time -/

/-- The time's share of the score, by the seconds between the events. -/
def timeShare (delta : ℚ) : ℚ :=
  if delta ≤ 86400 then 15 / 100 + 10 / 100 * (1 - delta / 86400)
  else if delta ≤ 3 * 86400 then 10 / 100 * (1 - (delta - 86400) / (2 * 86400))
  else 0

omit [Extern] in
theorem timeShare_antitone : Antitone timeShare := by
  intro a b hab
  unfold timeShare
  by_cases hb : b ≤ 86400
  · -- Both within the first day.
    rw [if_pos hb, if_pos (hab.trans hb)]
    linarith
  · rw [if_neg hb]
    by_cases ha : a ≤ 86400
    · -- One on each side of the first day: at most 0.10 there, at least 0.15 here.
      rw [if_pos ha]
      split <;> linarith
    · rw [if_neg ha]
      by_cases hb' : b ≤ 3 * 86400
      · rw [if_pos hb', if_pos (hab.trans hb')]
        linarith
      · rw [if_neg hb']
        split <;> linarith

theorem computeTimeProximityScore_eq {a b : TimeText} {t u : Int} (ha : a.parse = some t)
    (hb : b.parse = some u) : computeTimeProximityScore a b = timeShare ((t - u).natAbs : Nat) := by
  rw [computeTimeProximityScore, ha, hb]
  rfl

/-- With other event times further apart, the score is no higher. -/
theorem score_antitone (obs : IncomingObservation) (c : CanonicalCandidate) {a b a' b' : TimeText}
    {t u t' u' : Int} (ha : a.parse = some t) (hb : b.parse = some u) (ha' : a'.parse = some t')
    (hb' : b'.parse = some u') (h : (t - u).natAbs ≤ (t' - u').natAbs) :
    (scoreCandidate { obs with eventTime := a' } { c with eventTime := b' }).score ≤
      (scoreCandidate { obs with eventTime := a } { c with eventTime := b }).score := by
  have hshare : timeShare ((t' - u').natAbs : Nat) ≤ timeShare ((t - u).natAbs : Nat) :=
    timeShare_antitone (by exact_mod_cast h)
  rw [← computeTimeProximityScore_eq ha hb, ← computeTimeProximityScore_eq ha' hb'] at hshare
  have hraw : rawScore { obs with eventTime := a' } { c with eventTime := b' } ≤
      rawScore { obs with eventTime := a } { c with eventTime := b } := by
    unfold rawScore
    exact add_le_add (add_le_add_right hshare _) le_rfl
  exact max_le_max le_rfl (min_le_min le_rfl hraw)

/-- Every score that reaches the floor is one of a candidate whose reference id is not in conflict
and agrees, or whose merchant is alike; and scores do not rise with the time between the events. -/
theorem scores_bounded (obs : IncomingObservation) :
    (∀ candidates, ∀ s ∈ scoreCandidates obs candidates, ∃ c ∈ candidates,
      s = scoreCandidate obs c ∧ (baseViabilityFloor ≤ s.score →
        referencesConflict obs.referenceId c.referenceId = false ∧
          (ReferencesAgree obs.referenceId c.referenceId ∨ MerchantsAlike obs c (1 / 3)))) ∧
    ∀ (c : CanonicalCandidate) (a b a' b' : TimeText) (t u t' u' : Int), a.parse = some t →
      b.parse = some u → a'.parse = some t' → b'.parse = some u' →
      (t - u).natAbs ≤ (t' - u').natAbs →
      (scoreCandidate { obs with eventTime := a' } { c with eventTime := b' }).score ≤
        (scoreCandidate { obs with eventTime := a } { c with eventTime := b }).score := by
  refine ⟨fun candidates s hs => ?_, fun c a b a' b' t u t' u' => score_antitone obs c⟩
  obtain ⟨c, hc, rfl⟩ := List.mem_map.mp (mem_orderBy.mp hs)
  refine ⟨c, hc, rfl, fun hfloor => ⟨?_, agree_or_alike hfloor⟩⟩
  by_contra hconflict
  have hbelow := score_of_conflict (Bool.not_eq_false _ ▸ hconflict)
  exact absurd hfloor (not_le.mpr hbelow)

omit [Extern] in
/-- The same merchant an hour apart reaches the floor, and scores more than a day apart. -/
theorem scores_an_hour_apart :
    letI := Extern.ascii
    let obs : IncomingObservation := {
      id := "obs1", instrumentId := "inst1", amountMinor := 1000, currency := "INR"
      direction := "debit", eventTime := .dateTime 3600, referenceId := none
      merchantRaw := some "uber", sourcePipeline := "gmail_transaction", sourceRecordId := "msg1"
      emiTotalInstallments := none, emiOriginalAmountMinor := none, fingerprint := none
      confidenceScore := none, eventTimeConfidence := none, channel := none }
    let c : CanonicalCandidate := {
      id := "cand1", instrumentId := "inst1", amountMinor := 1000, currency := "INR"
      direction := "debit", eventTime := .dateTime 0, referenceId := none
      merchantNormalizedName := some "uber", sourceMix := none }
    (ReferencesAgree none none ∨ MerchantsAlike obs c (1 / 3)) ∧
      (scoreCandidate { obs with eventTime := .date 2 } { c with eventTime := .dateTime 0 }).score ≤
        (scoreCandidate { obs with eventTime := .dateTime 3600 }
          { c with eventTime := .dateTime 0 }).score := by
  let := Extern.ascii
  intro obs c
  have hmem : scoreCandidate obs c ∈ scoreCandidates obs [c] := by decide +kernel
  have hfloor : baseViabilityFloor ≤ (scoreCandidate obs c).score := by decide +kernel
  obtain ⟨hbound, htime⟩ := scores_bounded obs
  obtain ⟨c', hc', -, hrefs⟩ := hbound [c] _ hmem
  rw [List.mem_singleton] at hc'
  rw [hc'] at hrefs
  exact ⟨(hrefs hfloor).2, htime c _ _ _ _ 3600 0 172800 0 rfl rfl rfl rfl (by decide)⟩

end Dinero
