import Dinero.Engine

/-!
# Dinero.Fresh

Ids are fresh when drawn.

The ledger names its rows by `uuid`s, and no constraint of the schema would
notice a repetition before the insert fails.  `FreshWith` says that no draw to
come names a row of the ledger's own tables; every program keeps it, because a
row is only ever inserted under an id drawn for it.
-/

namespace Dinero

open Sql

/-- The ids of the rows the ledger creates itself. -/
def Database.rowIds (db : Database) : List String :=
  db.transactions.keys ++ db.matchDecisions.keys ++ db.clusters.keys ++ db.clusterMembers.keys ++
    db.merchants.keys ++ db.auditLog.keys

theorem Database.mem_rowIds {db : Database} {x : String} : x ∈ db.rowIds ↔
    x ∈ db.transactions.keys ∨ x ∈ db.matchDecisions.keys ∨ x ∈ db.clusters.keys ∨
      x ∈ db.clusterMembers.keys ∨ x ∈ db.merchants.keys ∨ x ∈ db.auditLog.keys := by
  simp [rowIds]

variable [Extern]

/-- No draw from `n` on names a row yet, and `ids` have been drawn. -/
def FreshWith (ids : List String) (db : Database) (n : Nat) : Prop :=
  (∀ k, n ≤ k → uuid k ∉ db.rowIds) ∧ ∀ id ∈ ids, ∃ k < n, id = uuid k

/-- No draw to come names a row. -/
def Fresh (s : Store Database) : Prop := FreshWith [] s.db s.nextUuid

/-- Draws are never taken back: the last id drawn before is still drawn. -/
theorem nextUuid_le_of_keeps {x : Db α} (hx : ∀ ids, Keeps (FreshWith ids) x) {s : Store Database}
    (h : Fresh s) (ctx : Ctx Stmt) : s.nextUuid ≤ (x ctx s).2.nextUuid := by
  cases hn : s.nextUuid with
  | zero => exact Nat.zero_le _
  | succ n =>
    have hlast : FreshWith [uuid n] s.db s.nextUuid :=
      ⟨h.1, fun id hid => ⟨n, by omega, List.mem_singleton.mp hid⟩⟩
    obtain ⟨k, hk, heq⟩ := (hx _ ctx s hlast).2 _ (List.mem_singleton.mpr rfl)
    have := Extern.uuid_injective heq
    omega

variable {ids : List String}

/-- A draw is remembered. -/
theorem keeps_newUuid_bind {f : String → Db α} (h : ∀ id, Keeps (FreshWith (id :: ids)) (f id)) :
    Keeps (FreshWith ids) (newUuid uuid >>= f) := by
  refine Keeps.newUuid_bind (J := fun id => FreshWith (id :: ids)) ?_ ?_ h
  · rintro db n ⟨hfresh, hids⟩
    refine ⟨fun k hk => hfresh k (by omega), fun id hid => ?_⟩
    rcases List.mem_cons.mp hid with rfl | hid
    · exact ⟨n, by omega, rfl⟩
    · obtain ⟨k, hk, rfl⟩ := hids id hid
      exact ⟨k, by omega, rfl⟩
  · rintro id db n ⟨hfresh, hids⟩
    exact ⟨hfresh, fun id hid => hids id (List.mem_cons_of_mem _ hid)⟩

/-- A statement that adds no row but under drawn ids. -/
theorem keeps_exec {site : Stmt} {f : Int → Database → Except SqlError (α × Database)}
    (h : ∀ now db a db', f now db = .ok (a, db') → ∀ x ∈ db'.rowIds, x ∈ db.rowIds ∨ x ∈ ids) :
    Keeps (FreshWith ids) (exec site f) := by
  refine Keeps.exec fun now n db a db' hI hf => ⟨fun k hk hmem => ?_, hI.2⟩
  rcases h now db a db' hf _ hmem with hold | hnew
  · exact hI.1 k hk hold
  · obtain ⟨k', hk', heq⟩ := hI.2 _ hnew
    have := Extern.uuid_injective heq
    omega

/-- A statement that leaves all ids as they are. -/
theorem keeps_update {site : Stmt} {f : Int → Database → Except SqlError (α × Database)}
    (h : ∀ now db a db', f now db = .ok (a, db') → db'.rowIds = db.rowIds) :
    Keeps (FreshWith ids) (exec site f) :=
  keeps_exec fun now db a db' hf _ hx => .inl (h now db a db' hf ▸ hx)

omit [Extern] in
theorem rowIds_updateTransaction (db : Database) (id : String) (u : Patch TransactionsRow) :
    (db.updateTransaction id u).rowIds = db.rowIds := by
  simp [Database.rowIds, Database.updateTransaction]

section Programs

open Keeps

theorem keeps_updateTransaction {site : Stmt} {id : String} {u : Int → Database → Patch TransactionsRow} :
    Keeps (FreshWith ids) (exec site fun now db => .ok ((), db.updateTransaction id (u now db))) :=
  keeps_update fun now db a db' h => by
    cases h
    exact rowIds_updateTransaction db id _

theorem keeps_insertAudit (site : Stmt) {r : AuditLogRow} (hr : r.id ∈ ids) :
    Keeps (FreshWith ids) (insertAudit site r) := by
  refine keeps_exec fun now db a db' h x hx => ?_
  obtain ⟨T, hT, _, rfl⟩ := insertInto_eq_ok.mp h
  simp only [Database.mem_rowIds, Table.mem_keys_of_insert? hT] at hx ⊢
  rcases hx with hx | hx | hx | hx | hx | hx | rfl
  all_goals first | exact .inr hr | exact .inl (by tauto)

theorem keeps_appendMatchDecision (obsId : String) (matched : Option String) (score : ℚ)
    (decision : DecisionType) (reviewedBy : Option String) :
    Keeps (FreshWith ids) (appendMatchDecision obsId matched score decision reviewedBy) := by
  refine keeps_newUuid_bind fun id => keeps_exec fun now db a db' h x hx => ?_
  obtain ⟨T, hT, _, rfl⟩ := insertInto_eq_ok.mp h
  simp only [Database.mem_rowIds, Table.mem_keys_of_insert? hT] at hx ⊢
  rcases hx with hx | (hx | rfl) | hx
  · exact .inl (.inl hx)
  · exact .inl (.inr (.inl hx))
  · exact .inr List.mem_cons_self
  · exact .inl (.inr (.inr hx))

/-! ## post-processing -/

theorem keeps_learnAlias (site : Stmt) (id raw cleaned : String) (c : ℚ) :
    Keeps (FreshWith ids) (learnAlias site id raw cleaned c) := by
  refine keeps_newUuid_bind fun _ => bind utcNow fun _ => bind (attempt ?_) fun _ => pure _
  refine keeps_update fun now db a db' h => ?_
  obtain ⟨T, rfl⟩ := Database.insertAlias_ok h
  rfl

theorem keeps_insertMerchant {m : MerchantsRow} (hm : m.id ∈ ids) :
    Keeps (FreshWith ids) (insertMerchant m) := by
  refine keeps_exec fun _ db a db' h x hx => ?_
  obtain ⟨_, T, hT, rfl⟩ := Database.insertMerchant_eq_ok.mp h
  simp only [Database.mem_rowIds, Table.mem_keys_of_insert? hT] at hx ⊢
  rcases hx with hx | hx | hx | hx | (hx | rfl) | hx
  · exact .inl (.inl hx)
  · exact .inl (.inr (.inl hx))
  · exact .inl (.inr (.inr (.inl hx)))
  · exact .inl (.inr (.inr (.inr (.inl hx))))
  · exact .inl (.inr (.inr (.inr (.inr (.inl hx)))))
  · exact .inr hm
  · exact .inl (.inr (.inr (.inr (.inr (.inr hx)))))

theorem keeps_createMerchant (raw cleaned : String) :
    Keeps (FreshWith ids) (createMerchant raw cleaned) :=
  keeps_newUuid_bind fun _ => bind utcNow fun _ =>
    bind (keeps_insertMerchant List.mem_cons_self) fun _ =>
      bind (keeps_learnAlias _ _ _ _ _) fun _ => pure _

theorem keeps_normalizeMerchantSync (raw : String) :
    Keeps (FreshWith ids) (normalizeMerchantSync raw) := by
  simp only [normalizeMerchantSync]
  split
  · exact pure _
  · refine bind (query _ _) fun found => ?_
    cases found with
    | some m => exact pure _
    | none =>
      refine bind (query _ _) fun all => ?_
      cases bestFuzzyMatch (stripNoiseTokens raw) all with
      | some best => exact bind (keeps_learnAlias _ _ _ _ _) fun _ => pure _
      | none =>
        simp only
        split
        · exact keeps_createMerchant _ _
        · exact pure _

theorem keeps_normalizedMerchant (raw : Option String) :
    Keeps (FreshWith ids) (normalizedMerchant raw) := by
  cases raw with
  | none => exact pure _
  | some raw =>
    refine bind (attempt (keeps_normalizeMerchantSync raw)) fun r => ?_
    cases r <;> exact pure _

theorem keeps_detectAndUpdateRecurring (instrumentId : String) (entityId : Option String)
    (id : String) (amountMinor : Int) (direction : String) (eventTime : Int) :
    Keeps (FreshWith ids)
      (detectAndUpdateRecurring instrumentId entityId id amountMinor direction eventTime) := by
  have hrecord : ∀ e occ, Keeps (FreshWith ids)
      (recordRecurring instrumentId e amountMinor eventTime occ) := by
    intro e occ
    refine bind (query _ _) fun found => ?_
    cases found with
    | some row =>
      refine keeps_update fun _ _ _ _ h => ?_
      obtain ⟨T, rfl⟩ := Database.updateRecurring_ok h
      rfl
    | none =>
      refine bind utcNow fun _ => keeps_newUuid_bind fun _ => keeps_update fun _ _ _ _ h => ?_
      obtain ⟨T, _, _, rfl⟩ := insertInto_eq_ok.mp h
      rfl
  unfold detectAndUpdateRecurring
  split
  · exact pure _
  · cases entityId with
    | none => exact pure _
    | some e =>
      refine bind (query _ _) fun priors => ?_
      simp only
      split
      · exact pure _
      · exact hrecord _ _

theorem keeps_currentColumn (site : Stmt) (column : TransactionsRow → Option String)
    (id : String) : Keeps (FreshWith ids) (currentColumn site column id) := by
  refine bind (attempt (query _ _)) fun v => ?_
  cases v <;> exact pure _

theorem keeps_postProcess (id : String) (obs : IncomingObservation) :
    Keeps (FreshWith ids) (postProcess id obs) := by
  unfold postProcess
  split
  · exact pure _
  refine bind (attempt ?_) fun _ => pure _
  unfold runPostProcessing
  split
  · refine bind (attempt (query _ _)) fun found => ?_
    split
    · exact bind keeps_updateTransaction fun _ => keeps_updateTransaction
    · exact pure _
  · refine bind (keeps_normalizedMerchant _) fun _ => ?_
    refine bind ?_ fun _ => bind (keeps_currentColumn _ _ _) fun _ => ?_
    · unfold assignMerchant
      split
      · exact keeps_updateTransaction
      · exact pure _
    refine bind (attempt (keeps_detectAndUpdateRecurring _ _ _ _ _ _)) fun _ => ?_
    refine bind (keeps_currentColumn _ _ _) fun _ => bind (attempt ?_) fun _ => pure _
    unfold linkEmiInstallment
    split
    · exact keeps_updateTransaction
    · exact pure _

/-! ## the engine -/

theorem keeps_updateAndLog (site auditSite : Stmt) (id : String) (u : Int → Patch TransactionsRow)
    {audit : String → AuditLogRow} (haudit : ∀ auditId, (audit auditId).id = auditId) :
    Keeps (FreshWith ids) (updateAndLog site auditSite id u audit) :=
  bind keeps_updateTransaction fun _ => keeps_newUuid_bind fun auditId =>
    keeps_insertAudit _ (by simp [haudit])

theorem keeps_existingConfidence (canonicalId obsId : String) :
    Keeps (FreshWith ids) (existingConfidence canonicalId obsId) := by
  refine bind (attempt (query _ _)) fun r => ?_
  split
  · exact pure _
  · exact bind (attempt (query _ _)) fun _ => pure _

theorem keeps_applyPrecedence (obs : IncomingObservation) (id : String) (mix : Option SourceMix) :
    Keeps (FreshWith ids) (applyPrecedence obs id mix) := by
  unfold applyPrecedence
  split
  · exact bind (attempt (query _ _)) fun _ => keeps_updateAndLog _ _ _ _ fun _ => rfl
  split
  · exact keeps_updateAndLog _ _ _ _ fun _ => rfl
  split
  · unfold maybeOverwriteFromHigherConfidenceEmail
    split
    · exact pure _
    · refine bind (keeps_existingConfidence _ _) fun existing => ?_
      split
      · exact pure _
      split
      · exact pure _
      · exact bind (attempt (query _ _)) fun _ => keeps_updateAndLog _ _ _ _ fun _ => rfl
  · exact pure _

theorem keeps_updateCanonicalTransactionId (id : String) (canonical : Option String) :
    Keeps (FreshWith ids) (updateCanonicalTransactionId id canonical) := by
  refine bind (keeps_update fun now db n db' h => ?_) fun count => ?_
  · obtain ⟨O, rfl⟩ := Database.linkObservation_ok h
    rfl
  · split
    · exact fail _
    · exact pure _

theorem keeps_createCanonicalTransaction (obs : IncomingObservation) :
    Keeps (FreshWith ids) (createCanonicalTransaction obs) := by
  refine keeps_newUuid_bind fun txId => bind (keeps_normalizedMerchant _) fun merchant =>
    bind ?_ fun _ => bind (keeps_updateCanonicalTransactionId _ _) fun _ => keeps_postProcess _ _
  refine keeps_exec fun now db a db' h x hx => ?_
  obtain ⟨T, hT, _, rfl⟩ := insertInto_eq_ok.mp h
  simp only [Database.mem_rowIds, Table.mem_keys_of_insert? hT] at hx ⊢
  rcases hx with (hx | rfl) | hx
  · exact .inl (.inl hx)
  · exact .inr List.mem_cons_self
  · exact .inl (.inr hx)

/-! ## clusters -/

theorem keeps_insertMember {site : Stmt} {m : Int → ReconciliationClusterMembersRow}
    (hm : ∀ now, (m now).id ∈ ids) :
    Keeps (FreshWith ids) (exec site fun now db => db.insertMember (m now)) := by
  refine keeps_exec fun now db a db' h x hx => ?_
  obtain ⟨T, hT, _, rfl⟩ := insertInto_eq_ok.mp h
  simp only [Database.mem_rowIds, Table.mem_keys_of_insert? hT] at hx ⊢
  rcases hx with hx | hx | hx | (hx | rfl) | hx
  · exact .inl (.inl hx)
  · exact .inl (.inr (.inl hx))
  · exact .inl (.inr (.inr (.inl hx)))
  · exact .inl (.inr (.inr (.inr (.inl hx))))
  · exact .inr (hm now)
  · exact .inl (.inr (.inr (.inr (.inr hx))))

theorem keeps_insertIncoming (site : Stmt) (clusterId obsId : String) :
    Keeps (FreshWith ids) (insertIncoming site clusterId obsId) :=
  keeps_newUuid_bind fun _ => keeps_insertMember fun _ => List.mem_cons_self

theorem keeps_insertCandidates (clusterId : String) (cs : List ScoredCandidate) (i : Nat) :
    Keeps (FreshWith ids) (insertCandidates clusterId i cs) := by
  induction cs generalizing i ids with
  | nil => exact pure _
  | cons c cs ih =>
    exact keeps_newUuid_bind fun _ =>
      bind (keeps_insertMember fun _ => List.mem_cons_self) fun _ => ih (i + 1)

theorem keeps_insertCluster {site : Stmt} {r : Int → ReconciliationClustersRow}
    (hr : ∀ now, (r now).id ∈ ids) :
    Keeps (FreshWith ids) (exec site fun now db => db.insertCluster (r now)) := by
  refine keeps_exec fun now db a db' h x hx => ?_
  obtain ⟨T, hT, _, rfl⟩ := insertInto_eq_ok.mp h
  simp only [Database.mem_rowIds, Table.mem_keys_of_insert? hT] at hx ⊢
  rcases hx with hx | hx | (hx | rfl) | hx
  · exact .inl (.inl hx)
  · exact .inl (.inr (.inl hx))
  · exact .inl (.inr (.inr (.inl hx)))
  · exact .inr (hr now)
  · exact .inl (.inr (.inr (.inr hx)))

theorem keeps_createAmbiguityCluster (obsId instrumentId : String) (amountMinor : Int)
    (direction : String) (eventTime : TimeText) (topScore : ℚ) (cs : List ScoredCandidate) :
    Keeps (FreshWith ids) (createAmbiguityCluster obsId instrumentId amountMinor direction
      eventTime topScore cs) := by
  refine bind (query _ _) fun found => ?_
  cases found with
  | some existing => exact bind (keeps_insertIncoming _ _ _) fun _ => pure _
  | none =>
    exact keeps_newUuid_bind fun id => bind (keeps_insertCluster fun _ => List.mem_cons_self)
      fun _ => bind (keeps_insertIncoming _ _ _) fun _ => bind (keeps_insertCandidates _ _ _)
      fun _ => pure _

theorem keeps_setClusterStatus {site : Stmt} {f : Database → α} {clusterId : String}
    {status : ClusterStatus} {g : Int → Option Int → Option Int} :
    Keeps (FreshWith ids) (exec site fun now db =>
      .ok (f db, db.setClusterStatus clusterId status (g now))) :=
  keeps_update fun now db a db' h => by
    obtain ⟨-, rfl⟩ := Prod.mk.inj (Except.ok.inj h)
    simp [Database.rowIds, Database.setClusterStatus]

theorem keeps_insertUserAudit (site : Stmt) (action clusterId : String) :
    Keeps (FreshWith ids) (insertUserAudit site action clusterId) :=
  keeps_newUuid_bind fun _ => keeps_insertAudit _ List.mem_cons_self

/-! ## the operations -/

theorem keeps_fetchAndReconcile (obs : IncomingObservation) :
    Keeps (FreshWith ids) (fetchAndReconcile obs) := by
  have hauto : ∀ id mix score decision,
      Keeps (FreshWith ids) (autoMatch obs id mix score decision) := fun _ _ _ _ =>
    bind (bind (keeps_applyPrecedence _ _ _) fun _ =>
      bind (keeps_updateCanonicalTransactionId _ _) fun _ => keeps_postProcess _ _) fun _ =>
      bind (keeps_appendMatchDecision _ _ _ _ _) fun _ => pure _
  refine bind ?_ fun candidates => bind ?_ fun target => ?_
  · unfold fetchCandidates
    split
    · exact fail _
    · exact bind (query _ _) fun _ => pure _
  · unfold fingerprintMatch
    split
    · exact pure _
    · refine bind (query _ _) fun hit => ?_
      cases hit with
      | none => exact pure _
      | some id =>
        refine bind (query _ _) fun row => ?_
        cases row <;> exact pure _
  · cases target with
    | some c => exact hauto _ _ _ _
    | none =>
      simp only [reconcileScored]
      split
      · exact bind (keeps_createCanonicalTransaction _) fun _ =>
          bind (keeps_appendMatchDecision _ _ _ _ _) fun _ => pure _
      · exact hauto _ _ _ _
      · split
        · exact hauto _ _ _ _
        · exact bind (keeps_createAmbiguityCluster _ _ _ _ _ _ _) fun _ =>
            bind (keeps_appendMatchDecision _ _ _ _ _) fun _ => pure _

theorem keeps_resolveCluster (clusterId obsId action : String) (chosen : Option String) :
    Keeps (FreshWith ids) (resolveCluster clusterId obsId action chosen) := by
  unfold resolveCluster
  split
  · exact fail _
  split
  · exact bind (keeps_setClusterStatus (f := fun _ => ()) (g := fun _ => id)) fun _ =>
      keeps_insertUserAudit _ _ _
  refine bind (keeps_setClusterStatus (f := fun _ => ()) (g := fun now _ => some now)) fun _ =>
    bind ?_ fun _ => bind (keeps_appendMatchDecision _ _ _ _ _) fun _ => keeps_insertUserAudit _ _ _
  unfold resolveObservation
  split
  · cases chosen with
    | some id => exact keeps_updateCanonicalTransactionId _ _
    | none => exact pure _
  split
  · refine bind (query _ _) fun row => ?_
    cases row with
    | some row => exact keeps_createCanonicalTransaction _
    | none => exact pure _
  · exact pure _

theorem keeps_unmerge (clusterId : String) : Keeps (FreshWith ids) (unmerge clusterId) := by
  refine bind (keeps_setClusterStatus (g := fun _ _ => none)) fun count => ?_
  split
  · exact fail _
  · exact pure _

omit [Extern] in
/-- Inserting an observation draws nothing and names nothing. -/
theorem rowIds_insertObservation {row : TransactionObservationsRow} {db db' : Database} {u : Unit}
    (h : db.insertObservation row = .ok (u, db')) : db'.rowIds = db.rowIds := by
  obtain ⟨_, _, _, T, _, rfl⟩ := Database.insertObservation_eq_ok.mp h
  rfl

end Programs

end Dinero
