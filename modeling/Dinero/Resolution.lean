import Dinero.Effects

/-!
# Dinero.Resolution

What resolving and reopening a cluster do to the tables.

`resolve_cluster` runs outside a transaction, so it may stop half-way and
leave its first writes behind.  `Concerns` is what holds wherever it stops: past the
change of the cluster's status, only the named observation is concerned.
-/

namespace Dinero

open Sql

/-- An observation without its link. -/
def TransactionObservationsRow.unlinked (o : TransactionObservationsRow) :
    TransactionObservationsRow :=
  { o with canonicalTransactionId := none, updatedAt := none }

/-- Where only links change, no observation comes or goes. -/
theorem contains_of_unlinked {T T' : Table TransactionObservationsRow}
    (h : T'.rows.map TransactionObservationsRow.unlinked =
      T.rows.map TransactionObservationsRow.unlinked) (id : String) :
    T'.contains id = T.contains id :=
  Table.contains_of_map_eq (·.id) (fun _ => rfl) h id

/-- `db'` differs from `db` in what there is to say about one observation: its
link, if it got one, decisions about it that leave nothing pending,
transactions and what is derived from them. -/
structure Concerns (obsId : String) (db db' : Database) : Prop where
  instruments : db'.instruments = db.instruments
  unlinked : db'.observations.rows.map TransactionObservationsRow.unlinked =
    db.observations.rows.map TransactionObservationsRow.unlinked
  others : ∀ o, o.id ≠ obsId → (o ∈ db'.observations ↔ o ∈ db.observations)
  stillOpen : ∀ o ∈ db'.observations, o.canonicalTransactionId = none → o ∈ db.observations
  decisions : ∃ ds, db'.matchDecisions.rows = db.matchDecisions.rows ++ ds ∧
    ∀ d ∈ ds, d.observationId = some obsId ∧ d.decision ≠ .ambiguousPending ∧
      db.observations.contains obsId = true
  clusters : db'.clusters = db.clusters
  clusterMembers : db'.clusterMembers = db.clusterMembers

namespace Concerns

theorem refl (obsId : String) (db : Database) : Concerns obsId db db :=
  ⟨rfl, rfl, fun _ _ => .rfl, fun _ ho _ => ho, ⟨[], by simp⟩, rfl, rfl⟩

theorem trans (obsId : String) (a b c : Database) (h : Concerns obsId a b)
    (h' : Concerns obsId b c) : Concerns obsId a c := by
  obtain ⟨ds, hds, hobs⟩ := h.decisions
  obtain ⟨ds', hds', hobs'⟩ := h'.decisions
  have hall : ∀ d ∈ ds ++ ds', d.observationId = some obsId ∧ d.decision ≠ .ambiguousPending ∧
      a.observations.contains obsId = true := by
    intro d hd
    cases List.mem_append.mp hd with
    | inl hd => exact hobs d hd
    | inr hd =>
      obtain ⟨hid, hdec, hstored⟩ := hobs' d hd
      exact ⟨hid, hdec, by rwa [← contains_of_unlinked h.unlinked]⟩
  exact {
    instruments := h'.instruments.trans h.instruments
    unlinked := h'.unlinked.trans h.unlinked
    others := fun o ho => (h'.others o ho).trans (h.others o ho)
    stillOpen := fun o ho hnone => h.stillOpen o (h'.stillOpen o ho hnone) hnone
    decisions := ⟨ds ++ ds', by rw [hds', hds, List.append_assoc], hall⟩
    clusters := h'.clusters.trans h.clusters
    clusterMembers := h'.clusterMembers.trans h.clusterMembers }

/-- Changes elsewhere. -/
theorem of_eq {obsId : String} {db db' : Database} (hi : db'.instruments = db.instruments)
    (ho : db'.observations = db.observations) (hd : db'.matchDecisions = db.matchDecisions)
    (hc : db'.clusters = db.clusters) (hm : db'.clusterMembers = db.clusterMembers) :
    Concerns obsId db db' :=
  ⟨hi, by rw [ho], fun _ _ => by rw [ho], fun _ h _ => ho ▸ h, ⟨[], by rw [hd]; simp⟩, hc, hm⟩

theorem of_derives {obsId : String} {db db' : Database} (h : Derives db db') :
    Concerns obsId db db' := by
  obtain ⟨T, m, a, r, rfl, _⟩ := h
  exact of_eq rfl rfl rfl rfl rfl

/-- The link update. -/
theorem link (obsId canonicalId : String) (now : Int) (db : Database) :
    Concerns obsId db { db with
      observations := db.observations.modify obsId (linkPatch (some canonicalId) now) } := by
  have hopen : ∀ o ∈ db.observations.modify obsId (linkPatch (some canonicalId) now),
      o.canonicalTransactionId = none → o ∈ db.observations := by
    intro o ho hnone
    rcases Table.mem_modify_cases ho with ⟨hr, -⟩ | ⟨r, -, -, rfl⟩
    · exact hr
    · simp [linkPatch] at hnone
  exact ⟨rfl, Table.map_modify fun _ _ _ => rfl, fun _ ho => Table.mem_modify_of_ne ho, hopen,
    ⟨[], by simp⟩, rfl, rfl⟩

/-- A decision about the observation. -/
theorem decide {obsId : String} {db db' : Database} {r : MatchDecisionsRow} {u : Unit}
    (hr : r.observationId = some obsId) (hd : r.decision ≠ .ambiguousPending)
    (h : db.insertMatchDecision r = .ok (u, db')) : Concerns obsId db db' := by
  obtain ⟨T, hT, hfk, rfl⟩ := insertInto_eq_ok.mp h
  have hrows := (Table.insert?_eq_some.mp hT).2
  simp only [hr, refersInto, Bool.and_eq_true] at hfk
  exact ⟨rfl, rfl, fun _ _ => .rfl, fun _ ho _ => ho, ⟨[r], hrows, by simp [hr, hd, hfk.1]⟩,
    rfl, rfl⟩

end Concerns

/-- `db'` differs from `db` in audit rows only. -/
def Audits (db db' : Database) : Prop := ∃ L, db' = { db with auditLog := L }

/-- `db'` differs from `db` in decisions and audit rows only. -/
def Records (db db' : Database) : Prop :=
  ∃ D L, db' = { db with matchDecisions := D, auditLog := L }

theorem Audits.refl (db : Database) : Audits db db := ⟨_, rfl⟩

theorem Audits.trans (a b c : Database) : Audits a b → Audits b c → Audits a c := by
  rintro ⟨L, rfl⟩ ⟨L', rfl⟩
  exact ⟨L', rfl⟩

theorem Audits.records {db db' : Database} (h : Audits db db') : Records db db' := by
  obtain ⟨L, rfl⟩ := h
  exact ⟨_, L, rfl⟩

theorem Audits.concerns {obsId : String} {db db' : Database} (h : Audits db db') :
    Concerns obsId db db' := by
  obtain ⟨L, rfl⟩ := h
  exact .of_eq rfl rfl rfl rfl rfl

theorem Records.refl (db : Database) : Records db db := ⟨_, _, rfl⟩

theorem Records.trans (a b c : Database) : Records a b → Records b c → Records a c := by
  rintro ⟨D, L, rfl⟩ ⟨D', L', rfl⟩
  exact ⟨D', L', rfl⟩

variable [Extern]

/-! ## the pieces -/

section Within

open Within

theorem concerns_appendMatchDecision (obsId : String) (matched : Option String) (score : ℚ)
    (reviewedBy : Option String) :
    Within (Concerns obsId) (appendMatchDecision obsId matched score .manuallyConfirmed reviewedBy) :=
  bind (newUuid _) fun _ => Within.exec fun _ _ _ _ h => .decide rfl (by simp [matchDecisionRow,
    DecisionType.toDecision]) h

omit [Extern] in
theorem concerns_updateCanonicalTransactionId (obsId canonicalId : String) :
    Within (Concerns obsId) (updateCanonicalTransactionId obsId (some canonicalId)) := by
  refine bind (Within.exec fun now db count db' h => ?_) fun count => ?_
  · unfold Database.linkObservation at h
    split at h
    · split at h
      · obtain ⟨-, rfl⟩ := Prod.mk.inj (Except.ok.inj h)
        exact .link obsId canonicalId now db
      · simp at h
    · obtain ⟨-, rfl⟩ := Prod.mk.inj (Except.ok.inj h)
      exact .refl obsId db
  · split
    · exact fail _
    · exact pure _

omit [Extern] in
theorem concerns_insertTransaction (obsId : String) (tx : TransactionsRow) :
    Within (Concerns obsId) (insertTransaction tx) :=
  Within.exec fun _ _ _ _ h => by
    obtain ⟨T, _, _, rfl⟩ := insertInto_eq_ok.mp h
    exact .of_eq rfl rfl rfl rfl rfl

theorem concerns_createCanonicalTransaction (obs : IncomingObservation) :
    Within (Concerns obs.id) (createCanonicalTransaction obs) := by
  refine bind (newUuid _) fun txId => ?_
  refine bind ((within_normalizedMerchant _).mono fun _ _ h => .of_derives h.derives) fun _ => ?_
  refine bind (concerns_insertTransaction _ _) fun _ => ?_
  refine bind (concerns_updateCanonicalTransactionId _ _) fun _ => ?_
  exact (within_postProcess txId obs).mono fun _ _ h => .of_derives h

theorem concerns_resolveObservation (obsId action : String) (chosen : Option String) (now : Int)
    (s : Store Database) :
    Concerns obsId s.db (resolveObservation obsId action chosen (.quiet now) s).2.db := by
  unfold resolveObservation
  split
  · cases chosen with
    | none => exact .refl _ _
    | some canonicalId =>
      exact (concerns_updateCanonicalTransactionId obsId _).related (Concerns.refl _)
        (Concerns.trans _) (.quiet now) s
  · split
    · rw [getObservation, Eff.bind_of_ok (query_quiet _ _ now s)]
      cases hrow : s.db.getObservation obsId with
      | none => exact .refl _ _
      | some row =>
        have hid : row.id = obsId :=
          (Table.find?_eq_some.mp (Option.filter_eq_some_iff.mp hrow).1).2
        have h := (concerns_createCanonicalTransaction (separateObservation row)).related
          (Concerns.refl _) (Concerns.trans _) (.quiet now) s
        simpa [separateObservation, hid] using h
    · exact .refl _ _

theorem audits_insertUserAudit (site : Stmt) (action clusterId : String) :
    Within Audits (insertUserAudit site action clusterId) :=
  bind (newUuid _) fun _ => Within.exec fun _ _ _ _ h => by
    obtain ⟨T, _, _, rfl⟩ := insertInto_eq_ok.mp h
    exact ⟨T, rfl⟩

theorem records_appendMatchDecision (obsId : String) (matched : Option String) (score : ℚ)
    (decision : DecisionType) (reviewedBy : Option String) :
    Within Records (appendMatchDecision obsId matched score decision reviewedBy) :=
  bind (newUuid _) fun _ => Within.exec fun _ _ _ _ h => by
    obtain ⟨T, _, _, rfl⟩ := insertInto_eq_ok.mp h
    exact ⟨T, _, rfl⟩

end Within

/-! ## resolving and reopening -/

/-- The actions that close a cluster. -/
def closes (action : String) : Prop :=
  action = "confirm_match" ∨ action = "reject_candidate" ∨ action = "keep_separate"

instance (action : String) : Decidable (closes action) := by unfold closes; infer_instance

/-- The tables right after an action closed a cluster. -/
def Database.closed (db : Database) (clusterId action : String) (now : Int) : Database :=
  db.setClusterStatus clusterId
    (if action = "reject_candidate" then .rejected else .resolved) fun _ => some now

/-- What follows the change of the status. -/
def recordResolution (clusterId obsId action : String) (chosen : Option String) : Db Unit := do
  resolveObservation obsId action chosen
  appendMatchDecision obsId chosen 1 .manuallyConfirmed (some "user_id")
  insertUserAudit .auditResolved "cluster_resolved" clusterId

/-- **Closing a cluster**: the status first, then what concerns the
observation. -/
theorem closeCluster_quiet (clusterId obsId action : String) (chosen : Option String) (now : Int)
    (s : Store Database) :
    closeCluster clusterId obsId action chosen (.quiet now) s =
      recordResolution clusterId obsId action chosen (.quiet now)
        { s with db := s.db.closed clusterId action now } := by
  rw [closeCluster, Eff.bind_apply, exec_quiet]
  rfl

/-- What follows the action itself is only recorded. -/
theorem records_resolution (clusterId obsId : String) (chosen : Option String) (ctx : Ctx Stmt)
    (s : Store Database) :
    Records s.db ((appendMatchDecision obsId chosen 1 .manuallyConfirmed (some "user_id")
      >>= fun _ => insertUserAudit .auditResolved "cluster_resolved" clusterId) ctx s).2.db :=
  (Within.bind (records_appendMatchDecision _ _ _ _ _) fun _ =>
    (audits_insertUserAudit _ _ _).mono fun _ _ h => h.records).related Records.refl
      Records.trans ctx s

theorem concerns_recordResolution (clusterId obsId action : String) (chosen : Option String)
    (now : Int) (s : Store Database) :
    Concerns obsId s.db (recordResolution clusterId obsId action chosen (.quiet now) s).2.db := by
  have hobs := concerns_resolveObservation obsId action chosen now s
  rw [recordResolution, Eff.bind_apply]
  rcases hr : resolveObservation obsId action chosen (.quiet now) s with ⟨_ | _, s₁⟩
  · rwa [hr] at hobs
  · rw [hr] at hobs
    refine .trans _ _ _ _ hobs ?_
    exact (Within.bind (concerns_appendMatchDecision _ _ _ _) fun _ =>
      (audits_insertUserAudit _ _ _).mono fun _ _ h => h.concerns).related (Concerns.refl _)
        (Concerns.trans _) _ s₁

/-- **What a resolution does**: nothing to the tables, or a new status for the
cluster and then what concerns the observation. -/
theorem resolve_cases (clusterId obsId action : String) (chosen : Option String) (now : Int)
    (s : Store Database) :
    ((Op.resolve clusterId obsId action chosen).run now s).db = s.db ∨
    Audits (s.db.setClusterStatus clusterId .deferred id)
      ((Op.resolve clusterId obsId action chosen).run now s).db ∨
    (closes action ∧ (Op.resolve clusterId obsId action chosen).run now s =
      (recordResolution clusterId obsId action chosen (.quiet now)
        { s with db := s.db.closed clusterId action now }).2) := by
  simp only [Op.run, resolveCluster]
  split
  · exact .inl rfl
  next hknown =>
  split
  · refine .inr (.inl ?_)
    rw [Eff.bind_apply, exec_quiet]
    exact (audits_insertUserAudit .auditDeferred "cluster_deferred" clusterId).related
      Audits.refl Audits.trans (.quiet now)
      { s with db := s.db.setClusterStatus clusterId .deferred id }
  · next hdefer =>
      refine .inr (.inr ⟨?_, by rw [closeCluster_quiet]⟩)
      rw [not_not] at hknown
      simpa [closes, hdefer] using hknown

omit [Extern] in
/-- A link that failed wrote nothing. -/
theorem updateCanonicalTransactionId_error {id : String} {canonical : Option String} {now : Int}
    {s s' : Store Database} {e : SqlError}
    (h : updateCanonicalTransactionId id canonical (.quiet now) s = (.error e, s')) :
    s'.db = s.db := by
  rw [updateCanonicalTransactionId, Eff.bind_apply, exec_quiet] at h
  cases hlink : s.db.linkObservation id canonical now with
  | error e' =>
    simp only [hlink, Prod.mk.injEq] at h
    rw [← h.2]
  | ok r =>
    obtain ⟨count, db⟩ := r
    simp only [hlink] at h
    by_cases hcount : count = 0
    · -- no row was found, so none was changed
      rw [if_pos hcount] at h
      have hdb : db = s.db := by
        unfold Database.linkObservation at hlink
        split at hlink
        · split at hlink
          · have hone := (Prod.mk.inj (Except.ok.inj hlink)).1
            omega
          · simp at hlink
        · exact (Prod.mk.inj (Except.ok.inj hlink)).2.symm
      rw [← (Prod.mk.inj h).2, hdb]
    · rw [if_neg hcount] at h
      simp at h

/-- **The links a resolution sets**, when it creates nothing: at most the one
the user confirmed. -/
theorem resolve_links (clusterId obsId : String) {action : String} (chosen : Option String)
    (hkeep : action ≠ "keep_separate") (now : Int) (s : Store Database) :
    ((Op.resolve clusterId obsId action chosen).run now s).db.transactions = s.db.transactions ∧
      (((Op.resolve clusterId obsId action chosen).run now s).db.observations = s.db.observations ∨
        ∃ canonicalId, action = "confirm_match" ∧ chosen = some canonicalId ∧
          s.db.observations.contains obsId = true ∧
          s.db.transactions.contains canonicalId = true ∧
          ((Op.resolve clusterId obsId action chosen).run now s).db.observations =
            s.db.observations.modify obsId (linkPatch (some canonicalId) now)) := by
  rcases resolve_cases clusterId obsId action chosen now s with hdb | ⟨L, hdb⟩ | ⟨-, hrun⟩
  · rw [hdb]
    exact ⟨rfl, .inl rfl⟩
  · rw [hdb]
    exact ⟨rfl, .inl rfl⟩
  · rw [hrun, recordResolution, Eff.bind_apply]
    by_cases hconfirm : action = "confirm_match"
    · cases chosen with
      | none =>
        obtain ⟨D, L, hrest⟩ := records_resolution clusterId obsId none (.quiet now)
          { s with db := s.db.closed clusterId action now }
        simp only [resolveObservation, hconfirm, if_true, Eff.pure_apply] at hrest ⊢
        rw [hrest]
        exact ⟨rfl, .inl rfl⟩
      | some canonicalId =>
        simp only [resolveObservation, hconfirm, if_true]
        rcases hlink : updateCanonicalTransactionId obsId (some canonicalId) (.quiet now)
          { s with db := s.db.closed clusterId "confirm_match" now } with ⟨_ | _, s₁⟩
        · have hs₁ := updateCanonicalTransactionId_error hlink
          simp only
          rw [hs₁]
          exact ⟨rfl, .inl rfl⟩
        · obtain ⟨hobs, href, hs₁⟩ := updateCanonicalTransactionId_ok hlink
          obtain ⟨D, L, hrest⟩ := records_resolution clusterId obsId (some canonicalId)
            (.quiet now) s₁
          simp only
          rw [hrest, hs₁]
          exact ⟨rfl, .inr ⟨canonicalId, trivial, rfl, hobs, href, rfl⟩⟩
    · obtain ⟨D, L, hrest⟩ := records_resolution clusterId obsId chosen (.quiet now)
        { s with db := s.db.closed clusterId action now }
      simp only [resolveObservation, hconfirm, hkeep, if_false, Eff.pure_apply] at hrest ⊢
      rw [hrest]
      exact ⟨rfl, .inl rfl⟩

omit [Extern] in
/-- **Reopening** is a change of status and nothing else. -/
theorem unmerge_quiet (clusterId : String) (now : Int) (s : Store Database) :
    (unmerge clusterId (.quiet now) s).2.db
      = s.db.setClusterStatus clusterId .open fun _ => none := by
  rw [unmerge, Eff.bind_apply, exec_quiet]
  simp only
  split <;> rfl

end Dinero
