import Dinero.Resolution

/-!
# Dinero.Outcomes

What an ingestion that succeeded did, in one statement.

`Acted` lists the three things that can have happened to the tables — merged
into a canonical, given one of its own, left to the user — with everything the
invariants ask about each.  `Op.ingest_effect` says that nothing else happens.
-/

namespace Dinero

open Sql

variable [Extern]

/-- One more decision, about `obsId`. -/
structure Logged (obsId : String) (d : DecisionType) (db db' : Database) : Prop where
  row : ∃ r, r.observationId = some obsId ∧ r.decision = d.toDecision ∧
    db'.matchDecisions.rows = db.matchDecisions.rows ++ [r]
  stored : db.observations.contains obsId = true

/-- What became of a stored observation. -/
inductive Acted (obs : IncomingObservation) (dt now : Int) (db db' : Database) :
    DecisionType → Prop
  | merged (d : DecisionType) (t : TransactionsRow) (overwrite : Bool)
      (ht : t ∈ db.transactions) (hverdict : (db.verdict obs).target = some t)
      (htarget : (d = .autoMatchedExact ∧ db.exactTarget obs = some t) ∨
        (d = .autoMatchedScored ∧ t ∈ db.windowRows obs ∧
          baseViabilityFloor ≤ (scoreCandidate obs (toCanonicalCandidate t)).score))
      (hlinked : LinkedTo obs.id t.id now
        (db.transactions.modify t.id (mergePatch obs t.sourceMix overwrite now)) db db')
      (hlogged : Logged obs.id d db db') : Acted obs dt now db db' d
  | created (id : String) (merchant : Option (String × String)) (T : Table TransactionsRow)
      (hT : db.transactions.insert? (canonicalRow id obs merchant now) = some T)
      (hlinked : LinkedTo obs.id id now T db db')
      (hlogged : Logged obs.id .newCanonical db db') : Acted obs dt now db db' .newCanonical
  | raised (clusterId : String) (db₁ : Database) (D : Table MatchDecisionsRow)
      (hraised : Raised obs dt (db.viable obs) db db₁)
      (hdb : db' = { db₁ with matchDecisions := D })
      (hlogged : Logged obs.id (.ambiguousPending clusterId) db db') :
      Acted obs dt now db db' (.ambiguousPending clusterId)

omit [Extern] in
/-- A decision on top of a link. -/
theorem LinkedTo.decided {obsId id : String} {now : Int} {T : Table TransactionsRow}
    {matched : Option String} {d : DecisionType} {db db₁ db' : Database}
    (hl : LinkedTo obsId id now T db db₁) (hd : Decided obsId matched d db₁ db')
    (hm : db₁.matchDecisions = db.matchDecisions) :
    LinkedTo obsId id now T db db' ∧ Logged obsId d db db' := by
  obtain ⟨⟨r, D, hobs, hdec, -, hD, rfl⟩, -⟩ := hd
  refine ⟨⟨hl.instruments, hl.observations, hl.settled, hl.clusters, hl.clusterMembers,
    hl.stored⟩, ⟨r, hobs, hdec, ?_⟩, hl.stored⟩
  rw [← hm]
  exact (Table.insert?_eq_some.mp hD).2

/-- **Acting on a verdict**, successfully. -/
theorem actOn_acted {obs : IncomingObservation} {dt now : Int} {d : DecisionType}
    {s s' : Store Database} (ht : obs.eventTime.parse = some dt)
    (h : actOn obs (s.db.verdict obs) (.quiet now) s = (.ok d, s')) :
    Acted obs dt now s.db s'.db d := by
  have hmerged : ∀ {t : TransactionsRow} {score decision},
      autoMatch obs t.id t.sourceMix score decision (.quiet now) s = (.ok d, s') →
      t ∈ s.db.transactions → (s.db.verdict obs).target = some t →
      ((decision = .autoMatchedExact ∧ s.db.exactTarget obs = some t) ∨
        (decision = .autoMatchedScored ∧ t ∈ s.db.windowRows obs ∧
          baseViabilityFloor ≤ (scoreCandidate obs (toCanonicalCandidate t)).score)) →
      Acted obs dt now s.db s'.db d := by
    intro t score decision hm hmem hverdict htarget
    obtain ⟨rfl, -, overwrite, db₁, hl, hmd, hdec⟩ := autoMatch_effect hm
    obtain ⟨hl', hlog⟩ := hl.decided hdec hmd
    exact .merged d t overwrite hmem hverdict htarget hl' hlog
  rcases s.db.verdict_cases obs with ⟨t, hx, hv⟩ | ⟨-, hv | ⟨t, htw, score, hfloor, hs, hv⟩ |
    ⟨topScore, hv⟩⟩
  · rw [hv] at h
    exact hmerged h (Database.exactTarget_eq_some hx).1 (by rw [hv]; rfl) (.inl ⟨rfl, hx⟩)
  · rw [hv] at h
    obtain ⟨rfl, s₁, h₁, hdec⟩ := newCanonical_ok h
    obtain ⟨merchant, T, hT, hl, hmd⟩ := createCanonicalTransaction_effect h₁
    obtain ⟨hl', hlog⟩ := hl.decided hdec hmd
    exact .created _ merchant T hT hl' hlog
  · rw [hv] at h
    exact hmerged h (Database.mem_windowRows.mp htw).1 (by rw [hv]; rfl)
      (.inr ⟨rfl, htw, by rw [hs]; exact hfloor⟩)
  · rw [hv] at h
    obtain ⟨clusterId, db₁, rfl, hraised, ⟨⟨r, D, hobs, hdec, -, hD, hdb⟩, hstored⟩⟩ :=
      raiseCluster_ok ht h
    obtain ⟨hobs₁, -, hdec₁, -⟩ := hraised.payments
    have hrows := (Table.insert?_eq_some.mp hD).2
    rw [hdec₁] at hrows
    rw [hobs₁] at hstored
    exact .raised clusterId db₁ D hraised hdb ⟨⟨r, hobs, hdec, by rw [hdb]; exact hrows⟩, hstored⟩

/-- **Reconciling**, successfully, is acting on an observation of a known time. -/
theorem fetchAndReconcile_acted {obs : IncomingObservation} {now : Int} {d : DecisionType}
    {s s' : Store Database} (h : fetchAndReconcile obs (.quiet now) s = (.ok d, s')) :
    ∃ dt, obs.eventTime.parse = some dt ∧ Acted obs dt now s.db s'.db d := by
  cases ht : obs.eventTime.parse with
  | none =>
    obtain ⟨e, he⟩ := fetchAndReconcile_unparseable ht (.quiet now) s
    simp [he] at h
  | some dt =>
    rw [fetchAndReconcile_quiet ht] at h
    exact ⟨dt, rfl, actOn_acted ht h⟩

/-- Of an observation, only the link changes. -/
theorem Acted.unlinked {obs : IncomingObservation} {dt now : Int} {d : DecisionType}
    {db db' : Database} (h : Acted obs dt now db db' d) :
    db'.observations.rows.map TransactionObservationsRow.unlinked =
      db.observations.rows.map TransactionObservationsRow.unlinked := by
  cases h with
  | merged _ _ _ _ _ _ hl _ =>
    rw [hl.observations]
    exact Table.map_modify fun _ _ _ => rfl
  | created _ _ _ _ hl _ =>
    rw [hl.observations]
    exact Table.map_modify fun _ _ _ => rfl
  | raised _ _ _ hraised hdb _ =>
    rw [hdb]
    exact congrArg (fun T => T.rows.map TransactionObservationsRow.unlinked) hraised.payments.1

/-- What `ingest_observation` did to the tables: nothing; or it stored the
row; or it stored the row and acted on it. -/
inductive IngestEffect (row : TransactionObservationsRow) (now : Int) (db db' : Database) : Prop
  | unchanged (h : db' = db)
  | stored (h : db.insertObservation row = .ok ((), db'))
  | acted (db₁ : Database) (instrumentId : String) (dt : Int) (d : DecisionType)
      (hins : db.insertObservation row = .ok ((), db₁))
      (hinst : row.instrumentId = some instrumentId) (htime : row.eventTime = some dt)
      (h : Acted (incomingOf row instrumentId) dt now db₁ db' d)

theorem Op.ingest_effect (row : TransactionObservationsRow) (shouldReconcile : Bool) (now : Int)
    (s : Store Database) :
    IngestEffect row now s.db ((Op.ingest row shouldReconcile).run now s).db := by
  rcases Op.ingest_cases row shouldReconcile now s with
    h | ⟨db, hins, -, hrun⟩ | ⟨db, instrumentId, dt, d, hins, -, hinst, htime, hact⟩
  · exact .unchanged h
  · rw [hrun]
    exact .stored hins
  · refine .acted db instrumentId dt d hins hinst htime ?_
    exact actOn_acted (s := { s with db := db }) (by simp [incomingOf, htime]) hact

/-- An ingestion that came to a decision: the row went in, and was reconciled. -/
theorem ingest_reconciled {row : TransactionObservationsRow} {shouldReconcile : Bool} {now : Int}
    {outcome : InsertObservationOutcome} {d : DecisionType} {s : Store Database}
    {c : Conn Database} (h : ingestObservation row shouldReconcile (.quiet now) ⟨s, none⟩
      = (.ok (outcome, some d), c)) :
    ∃ db₁ instrumentId, s.db.insertObservation row = .ok ((), db₁) ∧
      row.instrumentId = some instrumentId ∧
      fetchAndReconcile (incomingOf row instrumentId) (.quiet now) { s with db := db₁ } =
        (.ok d, c.store) := by
  rw [ingest_quiet] at h
  cases hins : s.db.insertObservation row with
  | error e =>
    simp only [hins] at h
    split at h <;> simp at h
  | ok r =>
    obtain ⟨_, db₁⟩ := r
    simp only [hins] at h
    split at h
    · simp at h
    · next hskip =>
        obtain ⟨-, instrumentId, hinst⟩ : shouldReconcile = true ∧ ∃ i, row.instrumentId = some i
          := by simpa [Option.isNone_iff_eq_none, Option.ne_none_iff_exists'] using hskip
        simp only [hinst, Option.getD_some] at h
        rcases hrun : fetchAndReconcile (incomingOf row instrumentId) (.quiet now)
          { s with db := db₁ } with ⟨_ | d', s'⟩
        · simp [hrun] at h
        · simp only [hrun, Prod.mk.injEq, Except.ok.injEq, Option.some.injEq] at h
          obtain ⟨⟨-, rfl⟩, rfl⟩ := h
          exact ⟨db₁, instrumentId, rfl, hinst, hrun⟩

/-- The decision was acted on. -/
theorem ingest_decided {row : TransactionObservationsRow} {shouldReconcile : Bool} {now : Int}
    {outcome : InsertObservationOutcome} {d : DecisionType} {s : Store Database}
    {c : Conn Database} (h : ingestObservation row shouldReconcile (.quiet now) ⟨s, none⟩
      = (.ok (outcome, some d), c)) :
    ∃ db₁ instrumentId dt, s.db.insertObservation row = .ok ((), db₁) ∧
      row.instrumentId = some instrumentId ∧ row.eventTime = some dt ∧
      Acted (incomingOf row instrumentId) dt now db₁ c.store.db d := by
  obtain ⟨db₁, instrumentId, hins, hinst, hrun⟩ := ingest_reconciled h
  obtain ⟨dt, ht, hact⟩ := fetchAndReconcile_acted hrun
  exact ⟨db₁, instrumentId, dt, hins, hinst, by simpa [incomingOf] using ht, hact⟩

end Dinero
