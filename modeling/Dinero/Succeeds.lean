import Dinero.Resolution

/-!
# Dinero.Succeeds

When the writes go through.

With no statement failing by itself, an insert under an id drawn for it only
fails on a foreign key.  So merging an observation into a stored transaction
ends well, so does creating one on a known instrument, and so does leaving the
choice to the user (`fetchAndReconcile_succeeds`).
-/

namespace Dinero

open Sql

variable [Extern]

/-- A drawn id is not in use, in any of the ledger's own tables. -/
theorem Fresh.not_mem {s : Store Database} (h : Fresh s) : uuid s.nextUuid ∉ s.db.rowIds :=
  h.1 _ (Nat.le_refl _)

/-- Programs keep ids fresh, however they end. -/
theorem Fresh.after {x : Db α} (hx : Keeps (FreshWith []) x) {s s' : Store Database} {ctx : Ctx Stmt}
    {r : Except SqlError α} (h : Fresh s) (hrun : x ctx s = (r, s')) : Fresh s' := by
  have := hx ctx s h
  rwa [hrun] at this

omit [Extern] in
/-- An insert under an unused key and with its foreign keys in place. -/
theorem insertInto_ok {α : Type} [Keyed α String] {T : Table α} {r : α} {fk : Bool}
    (col : String) (put : Table α → Database) (hkey : Keyed.key r ∉ T.keys) (hfk : fk = true) :
    ∃ T', insertInto T col r fk put = .ok ((), put T') := by
  cases hT : T.insert? r with
  | none => exact absurd (Table.mem_keys.mpr (Table.insert?_eq_none.mp hT)) hkey
  | some T' => exact ⟨T', insertInto_eq_ok.mpr ⟨T', hT, hfk, rfl⟩⟩

omit [Extern] in
theorem insertAudit_succeeds (site : Stmt) {r : AuditLogRow} {now : Int} {s : Store Database}
    (h : r.id ∉ s.db.auditLog.keys) : Succeeds now (insertAudit site r) s := by
  obtain ⟨T, hT⟩ := insertInto_ok (T := s.db.auditLog) (r := { r with createdAt := now })
    "audit_log.id" (fun T => { s.db with auditLog := T }) h rfl
  exact Succeeds.exec hT

theorem updateAndLog_succeeds (site auditSite : Stmt) (id : String)
    (u : Int → Patch TransactionsRow) (audit : String → AuditLogRow)
    (haudit : ∀ auditId, (audit auditId).id = auditId) {now : Int} {s : Store Database}
    (h : Fresh s) : Succeeds now (updateAndLog site auditSite id u audit) s := by
  refine .bind (.exec rfl) fun _ s₁ h₁ => ?_
  have hs₁ : Fresh s₁ := h.after keeps_updateTransaction h₁
  refine .bind (.newUuid _) fun auditId s₂ h₂ => ?_
  obtain ⟨hid, rfl⟩ := Prod.mk.inj h₂
  obtain rfl := Except.ok.inj hid
  refine insertAudit_succeeds auditSite ?_
  rw [haudit]
  exact fun hmem => hs₁.not_mem (Database.mem_rowIds.mpr (by simp [hmem]))

theorem existingConfidence_succeeds (canonicalId obsId : String) {now : Int}
    {s : Store Database} : Succeeds now (existingConfidence canonicalId obsId) s := by
  refine .bind (.attempt _) fun r s₁ _ => ?_
  split
  · exact .pure _
  · exact .bind (.attempt _) fun _ _ _ => .pure _

/-- A merge has nothing to fail on. -/
theorem applyPrecedence_succeeds (obs : IncomingObservation) (id : String)
    (mix : Option SourceMix) {now : Int} {s : Store Database} (h : Fresh s) :
    Succeeds now (applyPrecedence obs id mix) s := by
  unfold applyPrecedence
  split
  · refine .bind (.attempt _) fun _ s₁ h₁ => ?_
    exact updateAndLog_succeeds _ _ _ _ _ (fun _ => rfl)
      (h.after (Keeps.attempt (Keeps.query _ _)) h₁)
  split
  · exact updateAndLog_succeeds _ _ _ _ _ (fun _ => rfl) h
  split
  · unfold maybeOverwriteFromHigherConfidenceEmail
    split
    · exact .pure _
    refine .bind (existingConfidence_succeeds _ _) fun existing s₁ h₁ => ?_
    have hs₁ := h.after (keeps_existingConfidence _ _) h₁
    split
    · exact .pure _
    split
    · exact .pure _
    refine .bind (.attempt _) fun _ s₂ h₂ => ?_
    exact updateAndLog_succeeds _ _ _ _ _ (fun _ => rfl)
      (hs₁.after (Keeps.attempt (Keeps.query _ _)) h₂)
  · exact .pure _

omit [Extern] in
theorem updateCanonicalTransactionId_succeeds {id : String} {canonical : Option String} {now : Int}
    {s : Store Database} (hobs : s.db.observations.contains id = true)
    (href : refersInto s.db.transactions canonical = true) :
    Succeeds now (updateCanonicalTransactionId id canonical) s := by
  have hlink : s.db.linkObservation id canonical now = .ok (1, _) :=
    Database.linkObservation_eq_ok.mpr ⟨hobs, href, rfl⟩
  refine .bind (.exec hlink) fun count s₁ h₁ => ?_
  obtain rfl : count = 1 := by
    have := (exec_ok h₁).1
    rw [Ctx.quiet, hlink] at this
    exact (Prod.mk.inj (Except.ok.inj this)).1.symm
  exact .pure _

theorem appendMatchDecision_succeeds {obsId : String} {matched : Option String} {score : ℚ}
    {decision : DecisionType} {reviewedBy : Option String} {now : Int} {s : Store Database}
    (h : Fresh s) (hobs : s.db.observations.contains obsId = true)
    (href : refersInto s.db.transactions matched = true) :
    Succeeds now (appendMatchDecision obsId matched score decision reviewedBy) s := by
  have hid : uuid s.nextUuid ∉ s.db.matchDecisions.keys := fun hmem =>
    h.not_mem (Database.mem_rowIds.mpr (by simp [hmem]))
  refine .bind (.newUuid _) fun id s₁ h₁ => ?_
  obtain ⟨hid₁, rfl⟩ := Prod.mk.inj h₁
  obtain rfl := Except.ok.inj hid₁
  have hfk : (s.db.observations.contains obsId && refersInto s.db.transactions matched) = true := by
    rw [hobs, href]
    rfl
  obtain ⟨T, hT⟩ := insertInto_ok (T := s.db.matchDecisions)
    (r := matchDecisionRow (uuid s.nextUuid) obsId matched score decision reviewedBy now)
    "match_decisions.id" (fun T => { s.db with matchDecisions := T }) hid hfk
  exact .exec hT

theorem postProcess_succeeds (id : String) (obs : IncomingObservation) {now : Int}
    {s : Store Database} : Succeeds now (postProcess id obs) s := by
  obtain ⟨s', h, _⟩ := postProcess_spec id obs (.quiet now) s
  exact ⟨(), s', h⟩

omit [Extern] in
/-- Deriving loses no transaction. -/
theorem Derives.contains {db db' : Database} (h : Derives db db') (id : String) :
    db'.transactions.contains id = db.transactions.contains id := by
  obtain ⟨T, m, a, r, rfl, hT⟩ := h
  exact Table.contains_of_map_eq (·.id) (fun _ => rfl) hT id

/-- **A match goes through**, given that both ends are stored. -/
theorem autoMatch_succeeds {obs : IncomingObservation} {id : String} {mix : Option SourceMix}
    {score : ℚ} {decision : DecisionType} {now : Int} {s : Store Database} (h : Fresh s)
    (hobs : s.db.observations.contains obs.id = true)
    (htx : s.db.transactions.contains id = true) :
    Succeeds now (autoMatch obs id mix score decision) s := by
  have hmatch : Succeeds now (applyMatchPrecedenceAndLink obs id mix) s := by
    refine .bind (applyPrecedence_succeeds obs id mix h) fun _ s₁ h₁ => ?_
    obtain ⟨overwrite, L, hs₁⟩ := applyPrecedence_ok h₁
    refine .bind (updateCanonicalTransactionId_succeeds ?_ ?_) fun _ _ _ => postProcess_succeeds _ _
    · rw [hs₁]
      exact hobs
    · rw [hs₁]
      simpa [refersInto] using htx
  refine .bind hmatch fun _ s₂ h₂ => ?_
  refine .bind ?_ fun _ _ _ => .pure _
  obtain ⟨_, s₁, h₁, h₂'⟩ := Eff.bind_eq_ok.mp h₂
  obtain ⟨_, s₁', h₁', h₂'⟩ := Eff.bind_eq_ok.mp h₂'
  obtain ⟨overwrite, L, hs₁⟩ := applyPrecedence_ok h₁
  obtain ⟨-, -, hs₁'⟩ := updateCanonicalTransactionId_ok h₁'
  obtain ⟨s₂', hpost, hder⟩ := postProcess_spec id obs (.quiet now) s₁'
  obtain ⟨-, rfl⟩ := Prod.mk.inj (h₂'.symm.trans hpost)
  have hfresh : Fresh s₂ := ((h.after (keeps_applyPrecedence _ _ _) h₁).after
    (keeps_updateCanonicalTransactionId _ _) h₁').after (keeps_postProcess _ _) hpost
  refine appendMatchDecision_succeeds hfresh ?_ ?_
  · obtain ⟨T, m, a, r, hs₂, _⟩ := hder
    rw [hs₂, hs₁', hs₁]
    simpa using hobs
  · rw [refersInto, hder.contains, hs₁', hs₁]
    simpa using htx

/-- The normaliser's errors stop nobody. -/
theorem normalizedMerchant_succeeds (raw : Option String) {now : Int} {s : Store Database} :
    Succeeds now (normalizedMerchant raw) s := by
  cases raw with
  | none => exact .pure _
  | some raw =>
    refine .bind (.attempt _) fun r _ _ => ?_
    cases r <;> exact .pure _

/-- **A creation goes through**, given the observation and the instrument. -/
theorem createCanonicalTransaction_succeeds {obs : IncomingObservation} {now : Int}
    {s : Store Database} (h : Fresh s) (hobs : s.db.observations.contains obs.id = true)
    (hinst : s.db.instruments.contains obs.instrumentId = true) :
    Succeeds now (createCanonicalTransaction obs) s := by
  refine .bind (.newUuid _) fun txId s₁ h₁ => ?_
  obtain ⟨hid, rfl⟩ := Prod.mk.inj h₁
  obtain rfl := Except.ok.inj hid
  refine .bind (normalizedMerchant_succeeds _) fun merchant s₂ h₂ => ?_
  obtain ⟨m, a, hs₂⟩ : LearnsMerchants s.db s₂.db := by
    have := (within_normalizedMerchant obs.merchantRaw).related LearnsMerchants.refl
      LearnsMerchants.trans (.quiet now) { s with nextUuid := s.nextUuid + 1 }
    rwa [h₂] at this
  -- the drawn id is still unused, and the only foreign key is the instrument's
  have hkey : uuid s.nextUuid ∉ s₂.db.transactions.keys := by
    rw [hs₂]
    exact fun hmem => h.not_mem (Database.mem_rowIds.mpr (.inl hmem))
  have hfk : (refersInto s₂.db.instruments (newTransaction (uuid s.nextUuid) obs merchant).instrumentId
      && refersInto s₂.db.transactions
        (newTransaction (uuid s.nextUuid) obs merchant).parentTransactionId) = true := by
    rw [hs₂]
    simp only [newTransaction]
    split
    · rfl
    · simpa [refersInto] using hinst
  obtain ⟨T, hT⟩ := insertInto_ok (T := s₂.db.transactions)
    (r := canonicalRow (uuid s.nextUuid) obs merchant now) "transactions.id"
    (fun T => { s₂.db with transactions := T }) hkey hfk
  refine .bind (.exec hT) fun _ s₃ h₃ => ?_
  obtain ⟨T', hT', -, hs₃⟩ := insertTransaction_ok h₃
  have hobs₃ : s₃.db.observations.contains obs.id = true := by
    rw [hs₃, hs₂]
    exact hobs
  have href : refersInto s₃.db.transactions (some (uuid s.nextUuid)) = true := by
    rw [hs₃]
    exact Table.contains_iff.mpr ⟨_, (Table.mem_of_insert? hT').mpr (.inr rfl), rfl⟩
  exact .bind (updateCanonicalTransactionId_succeeds hobs₃ href) fun _ _ _ =>
    postProcess_succeeds _ _

/-- A creation the engine decided on goes through. -/
theorem newCanonical_succeeds {obs : IncomingObservation} {now : Int} {s : Store Database}
    (h : Fresh s) (hobs : s.db.observations.contains obs.id = true)
    (hinst : s.db.instruments.contains obs.instrumentId = true) :
    Succeeds now (newCanonical obs) s := by
  refine .bind (createCanonicalTransaction_succeeds h hobs hinst) fun _ s₁ h₁ => ?_
  have hfresh : Fresh s₁ := h.after (keeps_createCanonicalTransaction obs) h₁
  obtain ⟨_, _, _, hlinked, -⟩ := createCanonicalTransaction_effect h₁
  have hobs₁ : s₁.db.observations.contains obs.id = true := by
    rw [hlinked.observations]
    simpa using hobs
  exact .bind (appendMatchDecision_succeeds hfresh hobs₁ rfl) fun _ _ _ => .pure _

/-! ## the review queue -/

/-- A membership goes in under a drawn id, and only the memberships change. -/
theorem insertMember_succeeds (site : Stmt) (now : Int)
    {m : String → Int → ReconciliationClusterMembersRow} (hid : ∀ id now, (m id now).id = id) {s : Store Database} (h : Fresh s)
    (hfk : (s.db.clusters.contains (m (uuid s.nextUuid) now).clusterId &&
      refersInto s.db.observations (m (uuid s.nextUuid) now).observationId &&
      refersInto s.db.transactions (m (uuid s.nextUuid) now).canonicalTransactionId) = true) :
    ∃ M s', (newUuid uuid >>= fun id => exec site fun now db => db.insertMember (m id now))
      (.quiet now) s = (.ok (), s') ∧ Fresh s' ∧ s'.db = { s.db with clusterMembers := M } := by
  have hkeeps : Keeps (FreshWith []) (newUuid uuid >>= fun id =>
      exec site fun now db => db.insertMember (m id now)) :=
    keeps_newUuid_bind fun id => keeps_insertMember fun now => by simp [hid]
  have hkey : Keyed.key (m (uuid s.nextUuid) now) ∉ s.db.clusterMembers.keys := by
    rw [show Keyed.key (m (uuid s.nextUuid) now) = uuid s.nextUuid from hid _ _]
    exact fun hmem => h.not_mem (Database.mem_rowIds.mpr (by simp [hmem]))
  obtain ⟨M, hM⟩ := insertInto_ok "reconciliation_cluster_members.id"
    (fun T => { s.db with clusterMembers := T }) hkey hfk
  have hrun : (newUuid uuid >>= fun id => exec site fun now db => db.insertMember (m id now))
      (.quiet now) s = (.ok (), ⟨{ s.db with clusterMembers := M }, s.nextUuid + 1, s.skip⟩) := by
    rw [Eff.bind_of_ok (newUuid_apply uuid (.quiet now) s), exec_quiet]
    simp only [Database.insertMember, hM]
  exact ⟨M, _, hrun, h.after hkeeps hrun, rfl⟩

theorem insertCandidates_succeeds {clusterId : String} {cs : List ScoredCandidate} {i : Nat}
    {now : Int} {s : Store Database} (h : Fresh s) (hcluster : s.db.clusters.contains clusterId = true)
    (hcs : ∀ c ∈ cs, s.db.transactions.contains c.candidateId = true) :
    Succeeds now (insertCandidates clusterId i cs) s := by
  induction cs generalizing i s with
  | nil => exact .pure _
  | cons c cs ih =>
    obtain ⟨M, s', hrun, hfresh, hdb⟩ := insertMember_succeeds .insertCandidate now
      (m := fun id now => candidateMember id clusterId i c now) (fun _ _ => rfl) h (by
        simp [candidateMember, refersInto, hcluster, hcs c List.mem_cons_self])
    have hrest : Succeeds now (insertCandidates clusterId (i + 1) cs) s' := by
      refine ih hfresh ?_ ?_
      · rwa [hdb]
      · intro c' hc'
        rw [hdb]
        exact hcs c' (List.mem_cons_of_mem c hc')
    obtain ⟨a, s'', hend⟩ := hrest
    refine ⟨a, s'', ?_⟩
    rw [insertCandidates, ← hend]
    exact Eff.bind_of_ok hrun

theorem createCluster_succeeds {obsId : String} {topScore : ℚ} {cs : List ScoredCandidate}
    {now : Int} {s : Store Database} (h : Fresh s)
    (hobs : s.db.observations.contains obsId = true)
    (hcs : ∀ c ∈ cs, s.db.transactions.contains c.candidateId = true) :
    Succeeds now (createCluster obsId topScore cs) s := by
  let row (id : String) (now : Int) : ReconciliationClustersRow := {
    id, clusterStatus := .open
    reason := some (if highScoreClusterReasonThreshold < topScore then
      .multipleHighScoreCandidates else .midRangeScore)
    createdAt := now, resolvedAt := none }
  have hkey : Keyed.key (row (uuid s.nextUuid) now) ∉ s.db.clusters.keys := fun hmem =>
    h.not_mem (Database.mem_rowIds.mpr (.inr (.inr (.inl hmem))))
  obtain ⟨C, hC⟩ := insertInto_ok "reconciliation_clusters.id"
    (fun T => { s.db with clusters := T }) hkey rfl
  -- the store behind the new cluster
  let s₁ : Store Database := ⟨{ s.db with clusters := C }, s.nextUuid + 1, s.skip⟩
  have hrun : (newUuid uuid >>= fun id => exec Stmt.insertCluster fun now db =>
      db.insertCluster (row id now)) (.quiet now) s = (.ok (), s₁) := by
    rw [Eff.bind_of_ok (newUuid_apply uuid (.quiet now) s), exec_quiet]
    simp only [Database.insertCluster, hC, s₁]
  have hfresh : Fresh s₁ := h.after
    (keeps_newUuid_bind fun id => keeps_insertCluster fun _ => List.mem_cons_self) hrun
  obtain ⟨T, hT, -, heq⟩ := insertInto_eq_ok.mp hC
  have hcluster : C.contains (uuid s.nextUuid) = true := by
    obtain rfl : C = T := congrArg Database.clusters heq
    exact Table.contains_iff.mpr ⟨_, (Table.mem_of_insert? hT).mpr (.inr rfl), rfl⟩
  obtain ⟨M, s₂, hrun₂, hfresh₂, hs₂⟩ := insertMember_succeeds .insertIncoming now
    (m := fun id now => incomingMember id (uuid s.nextUuid) obsId now) (fun _ _ => rfl)
    hfresh (by simp [incomingMember, refersInto, s₁, hcluster, hobs])
  obtain ⟨a, s₃, hrun₃⟩ : Succeeds now (insertCandidates (uuid s.nextUuid) 0 cs) s₂ := by
    refine insertCandidates_succeeds hfresh₂ ?_ ?_
    · rw [hs₂]
      exact hcluster
    · intro c hc
      rw [hs₂]
      exact hcs c hc
  refine ⟨uuid s.nextUuid, s₃, ?_⟩
  unfold createCluster
  rw [Eff.bind_of_ok (newUuid_apply uuid (.quiet now) s)] at hrun ⊢
  rw [Eff.bind_of_ok hrun, insertIncoming, Eff.bind_of_ok hrun₂, Eff.bind_of_ok hrun₃]
  rfl

/-- Joining or founding a cluster goes through, given both ends. -/
theorem createAmbiguityCluster_succeeds {obsId instrumentId : String} {amountMinor : Int}
    {direction : String} {eventTime : TimeText} {topScore : ℚ} {cs : List ScoredCandidate}
    {now : Int} {s : Store Database} (h : Fresh s)
    (hobs : s.db.observations.contains obsId = true)
    (hcs : ∀ c ∈ cs, s.db.transactions.contains c.candidateId = true) :
    Succeeds now (createAmbiguityCluster obsId instrumentId amountMinor direction eventTime
      topScore cs) s := by
  refine .bind (.query _ _) fun found s₁ h₁ => ?_
  obtain ⟨hfound, hs₁⟩ := query_ok h₁
  have hfresh : Fresh s₁ := h.after (Keeps.query _ _) h₁
  rw [← hs₁] at hobs hcs
  cases found with
  | some existing =>
    -- the cluster found is stored
    obtain ⟨t, -, hhead⟩ := Option.bind_eq_some_iff.mp hfound.symm
    obtain ⟨c, hc, rfl⟩ := Option.map_eq_some_iff.mp hhead
    have hmem := (List.mem_filter.mp (mem_scan.mp (List.mem_of_mem_head? hc))).1
    have hcluster : s₁.db.clusters.contains c.id = true := by
      rw [hs₁]
      exact Table.contains_iff.mpr ⟨c, hmem, rfl⟩
    obtain ⟨M, s₂, hrun, -⟩ := insertMember_succeeds .extendCluster now
      (m := fun id now => incomingMember id c.id obsId now) (fun _ _ => rfl) hfresh (by
        simp [incomingMember, refersInto, hcluster, hobs])
    exact .bind ⟨(), s₂, hrun⟩ fun _ _ _ => .pure _
  | none => exact createCluster_succeeds hfresh hobs hcs

theorem raiseCluster_succeeds {obs : IncomingObservation} {dt : Int} {topScore : ℚ}
    {viable : List ScoredCandidate} {now : Int} {s : Store Database} (h : Fresh s)
    (ht : obs.eventTime.parse = some dt) (hobs : s.db.observations.contains obs.id = true)
    (hviable : ∀ v ∈ viable, s.db.transactions.contains v.candidateId = true) :
    Succeeds now (raiseCluster obs topScore viable) s := by
  refine .bind (createAmbiguityCluster_succeeds h hobs hviable) fun clusterId s₁ h₁ => ?_
  have hfresh : Fresh s₁ := h.after (keeps_createAmbiguityCluster _ _ _ _ _ _ _) h₁
  have hsame := (createAmbiguityCluster_ok ht h₁).payments.1
  refine .bind (appendMatchDecision_succeeds hfresh ?_ rfl) fun _ _ _ => .pure _
  rwa [hsame]

/-! ## the engine -/

/-- **The engine has nothing to fail on**, given the observation, its instrument and a time. -/
theorem fetchAndReconcile_succeeds {obs : IncomingObservation} {dt : Int} {now : Int}
    {s : Store Database} (h : Fresh s) (ht : obs.eventTime.parse = some dt)
    (hobs : s.db.observations.contains obs.id = true)
    (hinst : s.db.instruments.contains obs.instrumentId = true) :
    Succeeds now (fetchAndReconcile obs) s := by
  have hstored : ∀ {t : TransactionsRow}, t ∈ s.db.transactions →
      s.db.transactions.contains t.id = true := fun ht => Table.contains_iff.mpr ⟨_, ht, rfl⟩
  have hact : Succeeds now (actOn obs (s.db.verdict obs)) s := by
    rcases s.db.verdict_cases obs with ⟨t, hx, hv⟩ | ⟨-, hv | ⟨t, hw, score, -, -, hv⟩ |
      ⟨topScore, hv⟩⟩
    · rw [hv]
      exact autoMatch_succeeds h hobs (hstored (Database.exactTarget_eq_some hx).1)
    · rw [hv]
      exact newCanonical_succeeds h hobs hinst
    · rw [hv]
      exact autoMatch_succeeds h hobs (hstored (Database.mem_windowRows.mp hw).1)
    · rw [hv]
      refine raiseCluster_succeeds h ht hobs fun v hv => ?_
      obtain ⟨t, -, hfind, -⟩ := Database.find_of_mem_viable hv
      rw [Table.contains, hfind]
      rfl
  obtain ⟨a, s', hrun⟩ := hact
  exact ⟨a, s', by rw [fetchAndReconcile_quiet ht, hrun]⟩

end Dinero
