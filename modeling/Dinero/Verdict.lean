import Dinero.Engine

/-!
# Dinero.Verdict

What the engine decides, as a function of the database.

`Database.verdict` is the decision `reconcile` comes to — which transaction an
observation is merged into, or that it gets one of its own, or that it goes to
the review queue — with none of the writes.  `fetchAndReconcile_quiet` says that
the program reaches this verdict and acts on it; the lemmas about the verdict
itself say what each outcome means for the rows involved.
-/

namespace Dinero

open Sql

variable [Extern]

/-! ## the verdict -/

/-- The live transaction an equal fingerprint leads to, if the observation
agrees with it. -/
def Database.exactTarget (db : Database) (obs : IncomingObservation) : Option TransactionsRow :=
  obs.fingerprint.bind fun fp =>
    ((db.fingerprintHit fp obs.id).bind (·.canonicalTransactionId)).bind fun canonicalId =>
      (db.getTransaction canonicalId).filter fun t => verifyExactMatch obs (toCanonicalCandidate t)

/-- The transactions in the window of an observation. -/
def Database.windowRows (db : Database) (obs : IncomingObservation) : List TransactionsRow :=
  match obs.eventTime.parse with
  | none => []
  | some dt => scan (db.transactions.rows.filter
      (inWindow obs.instrumentId obs.amountMinor obs.currency obs.direction dt (3 * 24 * 60 * 60)))

/-- The candidates above the floor, best first. -/
def Database.viable (db : Database) (obs : IncomingObservation) : List ScoredCandidate :=
  (scoreCandidates obs ((db.windowRows obs).map toCanonicalCandidate)).filter
    (baseViabilityFloor ≤ ·.score)

inductive Verdict
  | exact (t : TransactionsRow)
  | scored (t : TransactionsRow) (score : ℚ)
  | newCanonical
  | ambiguous (topScore : ℚ) (viable : List ScoredCandidate)

/-- The transaction a verdict merges into. -/
def Verdict.target : Verdict → Option TransactionsRow
  | .exact t => some t
  | .scored t _ => some t
  | .newCanonical => none
  | .ambiguous _ _ => none

/-- The verdict leaves the choice to the user. -/
def Verdict.isAmbiguous : Verdict → Bool
  | .ambiguous _ _ => true
  | _ => false

/-- The row behind a scored candidate. -/
def Database.scoredVerdict (db : Database) (top : ScoredCandidate) : Verdict :=
  match db.transactions.find? top.candidateId with
  | some t => .scored t top.score
  | none => .newCanonical

def Database.verdict (db : Database) (obs : IncomingObservation) : Verdict :=
  match db.exactTarget obs with
  | some t => .exact t
  | none =>
    match db.viable obs with
    | [] => .newCanonical
    | [top] => db.scoredVerdict top
    | top :: second :: rest =>
      if ambiguityMarginThreshold < top.score - second.score then db.scoredVerdict top
      else .ambiguous top.score (top :: second :: rest)

/-- Acting on a verdict. -/
def actOn (obs : IncomingObservation) : Verdict → Db DecisionType
  | .exact t => autoMatch obs t.id t.sourceMix 1 .autoMatchedExact
  | .scored t score => autoMatch obs t.id t.sourceMix score .autoMatchedScored
  | .newCanonical => newCanonical obs
  | .ambiguous topScore viable => raiseCluster obs topScore viable

/-! ## what a verdict says about the rows -/

omit [Extern] in
theorem Database.mem_of_getTransaction {db : Database} {id : String} {t : TransactionsRow}
    (h : db.getTransaction id = some t) :
    t ∈ db.transactions ∧ t.id = id ∧ t.isDeleted = false := by
  obtain ⟨hfind, hlive⟩ := Option.filter_eq_some_iff.mp h
  obtain ⟨hmem, hid⟩ := Table.find?_eq_some.mp hfind
  exact ⟨hmem, hid, by simpa using hlive⟩

/-- An exact target is live and agrees with the observation. -/
theorem Database.exactTarget_eq_some {db : Database} {obs : IncomingObservation}
    {t : TransactionsRow} (h : db.exactTarget obs = some t) :
    t ∈ db.transactions ∧ t.isDeleted = false ∧
      verifyExactMatch obs (toCanonicalCandidate t) = true := by
  simp only [exactTarget, Option.bind_eq_some_iff] at h
  obtain ⟨fp, _, canonicalId, _, hrow⟩ := h
  obtain ⟨hget, hverify⟩ := Option.filter_eq_some_iff.mp hrow
  obtain ⟨hmem, _, hlive⟩ := mem_of_getTransaction hget
  exact ⟨hmem, hlive, hverify⟩

/-- Who is in the window: the `WHERE` clause, spelled out. -/
theorem Database.mem_windowRows {db : Database} {obs : IncomingObservation}
    {t : TransactionsRow} :
    t ∈ db.windowRows obs ↔ t ∈ db.transactions ∧ ∃ dt, obs.eventTime.parse = some dt ∧
      inWindow obs.instrumentId obs.amountMinor obs.currency obs.direction dt
        (3 * 24 * 60 * 60) t = true := by
  unfold windowRows
  cases obs.eventTime.parse with
  | none => simp
  | some dt => simp [Table.mem_def]

omit [Extern] in
/-- The columns `inWindow` compares. -/
theorem inWindow_iff {instrumentId : String} {amountMinor : Int} {currency direction : String}
    {dt w : Int} {t : TransactionsRow} :
    inWindow instrumentId amountMinor currency direction dt w t = true ↔
      t.instrumentId = some instrumentId ∧ t.amountMinor = some amountMinor ∧
        t.currency = some currency ∧ t.direction = some direction ∧ t.isDeleted = false ∧
        ∃ bt, t.bestEventTime = some bt ∧ dt - w ≤ bt ∧ bt ≤ dt + w := by
  simp [inWindow, Option.any_eq_true, and_assoc]

theorem mem_scoreCandidates {obs : IncomingObservation} {cs : List CanonicalCandidate}
    {s : ScoredCandidate} :
    s ∈ scoreCandidates obs cs ↔ ∃ c ∈ cs, scoreCandidate obs c = s := by
  simp [scoreCandidates]

/-- A viable candidate is a transaction in the window, scored above the floor. -/
theorem Database.mem_viable {db : Database} {obs : IncomingObservation} {s : ScoredCandidate} :
    s ∈ db.viable obs ↔ baseViabilityFloor ≤ s.score ∧
      ∃ t ∈ db.windowRows obs, scoreCandidate obs (toCanonicalCandidate t) = s := by
  simp only [viable, List.mem_filter, mem_scoreCandidates, List.mem_map, decide_eq_true_eq]
  constructor
  · rintro ⟨⟨_, ⟨t, ht, rfl⟩, hs⟩, hfloor⟩
    exact ⟨hfloor, t, ht, hs⟩
  · rintro ⟨hfloor, t, ht, hs⟩
    exact ⟨⟨_, ⟨t, ht, rfl⟩, hs⟩, hfloor⟩

/-- The table finds the row a viable candidate was projected from. -/
theorem Database.find_of_mem_viable {db : Database} {obs : IncomingObservation}
    {s : ScoredCandidate} (h : s ∈ db.viable obs) :
    ∃ t ∈ db.windowRows obs, db.transactions.find? s.candidateId = some t ∧
      scoreCandidate obs (toCanonicalCandidate t) = s := by
  obtain ⟨_, t, ht, rfl⟩ := mem_viable.mp h
  exact ⟨t, ht, Table.find?_eq_some.mpr ⟨(mem_windowRows.mp ht).1, rfl⟩, rfl⟩

/-- One candidate a transaction: no transaction is listed twice. -/
theorem Database.nodup_viable (db : Database) (obs : IncomingObservation) :
    ((db.viable obs).map (·.candidateId)).Nodup := by
  have hrows : ((db.windowRows obs).map (·.id)).Nodup := by
    unfold windowRows
    cases obs.eventTime.parse with
    | none => exact List.nodup_nil
    | some dt =>
      refine (((Extern.scan_perm _).map _).nodup_iff).mpr ?_
      exact db.transactions.nodup.sublist (List.filter_sublist.map _)
  have hscored : ((scoreCandidates obs ((db.windowRows obs).map toCanonicalCandidate)).map
      (·.candidateId)).Nodup := by
    refine ((List.perm_insertionSort _ _).map _).nodup_iff.mpr ?_
    rw [List.map_map, List.map_map]
    exact hrows
  exact hscored.sublist (List.filter_sublist.map _)

/-- What the verdict means, case by case. -/
theorem Database.verdict_cases (db : Database) (obs : IncomingObservation) :
    (∃ t, db.exactTarget obs = some t ∧ db.verdict obs = .exact t) ∨
    (db.exactTarget obs = none ∧
      (db.verdict obs = .newCanonical ∨
      (∃ t ∈ db.windowRows obs, ∃ score, baseViabilityFloor ≤ score ∧
        scoreCandidate obs (toCanonicalCandidate t) = ⟨t.id, score⟩ ∧
        db.verdict obs = .scored t score) ∨
      (∃ topScore, db.verdict obs = .ambiguous topScore (db.viable obs)))) := by
  unfold verdict
  cases hx : db.exactTarget obs with
  | some t => exact .inl ⟨t, rfl, rfl⟩
  | none =>
    refine .inr ⟨rfl, ?_⟩
    -- the row behind the best candidate
    have hscored : ∀ top ∈ db.viable obs, ∃ t ∈ db.windowRows obs, ∃ score,
        baseViabilityFloor ≤ score ∧
        scoreCandidate obs (toCanonicalCandidate t) = ⟨t.id, score⟩ ∧
        db.scoredVerdict top = .scored t score := by
      intro top htop
      obtain ⟨t, ht, hfind, hs⟩ := find_of_mem_viable htop
      have hid : top.candidateId = t.id := by rw [← hs]; rfl
      refine ⟨t, ht, top.score, (mem_viable.mp htop).1, ?_, ?_⟩
      · rw [hs, ← hid]
      · simp [scoredVerdict, hfind]
    rcases hv : db.viable obs with _ | ⟨top, _ | ⟨second, rest⟩⟩
    · exact .inl rfl
    · exact .inr (.inl (hscored top (by simp [hv])))
    · simp only
      split
      · exact .inr (.inl (hscored top (by simp [hv])))
      · exact .inr (.inr ⟨top.score, rfl⟩)

/-- The transaction a verdict merges into is live, and of the observation's
direction. -/
theorem Database.verdict_target {db : Database} {obs : IncomingObservation} {t : TransactionsRow}
    (h : (db.verdict obs).target = some t) :
    t ∈ db.transactions ∧ t.isDeleted = false ∧ t.direction.getD "" = obs.direction := by
  rcases db.verdict_cases obs with ⟨t', hx, hv⟩ | ⟨-, hv | ⟨t', htw, score, -, -, hv⟩ |
    ⟨topScore, hv⟩⟩
  · rw [hv] at h
    obtain rfl : t' = t := Option.some.inj h
    obtain ⟨hmem, hlive, hverify⟩ := exactTarget_eq_some hx
    simp only [verifyExactMatch, toCanonicalCandidate, Bool.and_eq_true] at hverify
    have hdir := of_decide_eq_true hverify.1.1.1.2
    exact ⟨hmem, hlive, hdir.symm⟩
  · rw [hv] at h
    simp [Verdict.target] at h
  · rw [hv] at h
    obtain rfl : t' = t := Option.some.inj h
    obtain ⟨hmem, dt, -, hwin⟩ := mem_windowRows.mp htw
    obtain ⟨-, -, -, hdir, hlive, -⟩ := inWindow_iff.mp hwin
    exact ⟨hmem, hlive, by rw [hdir]; rfl⟩
  · rw [hv] at h
    simp [Verdict.target] at h

/-! ## the program reaches the verdict -/

theorem fetchCandidates_quiet {obs : IncomingObservation} {dt : Int}
    (h : obs.eventTime.parse = some dt) (now : Int) (s : Store Database) :
    fetchCandidates obs (.quiet now) s =
      (.ok ((s.db.windowRows obs).map toCanonicalCandidate), s) := by
  simp only [fetchCandidates, findCandidatesWithinWindow, h]
  rw [Eff.bind_of_ok (query_quiet _ _ now s)]
  simp [Database.windowRows, h]

theorem fingerprintMatch_quiet (obs : IncomingObservation) (now : Int) (s : Store Database) :
    fingerprintMatch obs (.quiet now) s =
      (.ok ((s.db.exactTarget obs).map toCanonicalCandidate), s) := by
  unfold fingerprintMatch Database.exactTarget fingerprintPrefilterLookup getTransaction
  cases obs.fingerprint with
  | none => rfl
  | some fp =>
    simp only [Option.bind_some]
    rw [Eff.bind_of_ok (query_quiet _ _ now s)]
    cases (s.db.fingerprintHit fp obs.id).bind (·.canonicalTransactionId) with
    | none => rfl
    | some canonicalId =>
      simp only [Option.bind_some]
      rw [Eff.bind_of_ok (query_quiet _ _ now s)]
      cases s.db.getTransaction canonicalId with
      | none => rfl
      | some t =>
        by_cases hv : verifyExactMatch obs (toCanonicalCandidate t) = true <;>
          simp [hv, Option.filter]

/-- The mix a candidate list shows for a viable candidate is that of its row. -/
theorem candidateSourceMix_of_find {db : Database} {obs : IncomingObservation}
    {s : ScoredCandidate} {t : TransactionsRow} (h : s ∈ db.viable obs)
    (ht : db.transactions.find? s.candidateId = some t) :
    candidateSourceMix ((db.windowRows obs).map toCanonicalCandidate) s.candidateId
      = t.sourceMix := by
  obtain ⟨t', ht', hfind, _⟩ := Database.find_of_mem_viable h
  obtain rfl : t' = t := by simpa [hfind] using ht
  obtain ⟨hmem, hid⟩ := Table.find?_eq_some.mp hfind
  unfold candidateSourceMix
  rw [List.find?_map]
  cases hf : (db.windowRows obs).find? ((fun c => decide (c.id = s.candidateId)) ∘
      toCanonicalCandidate) with
  | none =>
    have := List.find?_eq_none.mp hf t' ht'
    simp only [Function.comp_apply, decide_eq_true_eq] at this
    exact absurd hid this
  | some t'' =>
    have hmem'' := (Database.mem_windowRows.mp (List.mem_of_find?_eq_some hf)).1
    have hid'' : (toCanonicalCandidate t'').id = s.candidateId := by
      simpa using List.find?_some hf
    obtain rfl : t'' = t' := Table.eq_of_key_eq hmem'' hmem (hid''.trans hid.symm)
    rfl

/-- The slow path is the verdict without an exact target. -/
theorem reconcileScored_eq {db : Database} {obs : IncomingObservation}
    (h : db.exactTarget obs = none) :
    reconcileScored obs ((db.windowRows obs).map toCanonicalCandidate)
      = actOn obs (db.verdict obs) := by
  have hauto : ∀ top ∈ db.viable obs, autoMatch obs top.candidateId
      (candidateSourceMix ((db.windowRows obs).map toCanonicalCandidate) top.candidateId)
      top.score .autoMatchedScored = actOn obs (db.scoredVerdict top) := by
    intro top htop
    obtain ⟨t, _, hfind, hs⟩ := Database.find_of_mem_viable htop
    rw [candidateSourceMix_of_find htop hfind]
    have hid : t.id = top.candidateId := by rw [← hs]; rfl
    simp only [Database.scoredVerdict, hfind, actOn, hid]
  unfold reconcileScored Database.verdict
  rw [h]
  simp only
  change (match db.viable obs with | [] => _ | [top] => _ | top :: second :: rest => _) = _
  rcases hv : db.viable obs with _ | ⟨top, _ | ⟨second, rest⟩⟩
  · rfl
  · exact hauto top (by simp [hv])
  · simp only
    split
    · exact hauto top (by simp [hv])
    · rfl

/-- **The engine acts on the verdict.** -/
theorem fetchAndReconcile_quiet {obs : IncomingObservation} {dt : Int}
    (h : obs.eventTime.parse = some dt) (now : Int) (s : Store Database) :
    fetchAndReconcile obs (.quiet now) s = actOn obs (s.db.verdict obs) (.quiet now) s := by
  rw [fetchAndReconcile, Eff.bind_of_ok (fetchCandidates_quiet h now s), reconcile,
    Eff.bind_of_ok (fingerprintMatch_quiet obs now s)]
  cases hx : s.db.exactTarget obs with
  | some t => simp only [Option.map_some, Database.verdict, hx, actOn]; rfl
  | none =>
    simp only [Option.map_none]
    rw [reconcileScored_eq hx]

/-- Without an event time nothing is reconciled, and nothing is touched. -/
theorem fetchAndReconcile_unparseable {obs : IncomingObservation}
    (h : obs.eventTime.parse = none) (ctx : Ctx Stmt) (s : Store Database) :
    ∃ e, fetchAndReconcile obs ctx s = (.error e, s) := by
  unfold fetchAndReconcile fetchCandidates
  rw [h]
  exact ⟨_, rfl⟩

end Dinero
