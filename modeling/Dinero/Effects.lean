import Dinero.Ledger

/-!
# Dinero.Effects

What the pieces of an ingestion do to the tables.

Post-processing is described by what it leaves alone (`Derives`), whatever
fails inside it; the statements around it by inversion: from a piece that
succeeded, the tables it left.  The last section puts them together for the
three things a verdict can lead to.
-/

namespace Dinero

open Sql

/-! ## the relations -/

/-- `db'` differs from `db` in merchants and their aliases only. -/
def LearnsMerchants (db db' : Database) : Prop :=
  ∃ m a, db' = { db with merchants := m, merchantAliases := a }

/-- `db'` differs from `db` in recurring payments only. -/
def RecordsRecurring (db db' : Database) : Prop := ∃ r, db' = { db with recurringPayments := r }

/-- A transaction without the columns post-processing derives. -/
def TransactionsRow.settled (t : TransactionsRow) : TransactionsRow :=
  { t with
    status := none
    parentTransactionId := none
    transactionSubtype := none
    emiGroupId := none
    categoryId := none
    merchantEntityId := none
    merchantNormalizedName := none
    updatedAt := none }

/-- `db'` differs from `db` in merchants, recurring payments and the derived
columns of transactions only. -/
def Derives (db db' : Database) : Prop :=
  ∃ T m a r, db' = { db with
      transactions := T, merchants := m, merchantAliases := a, recurringPayments := r } ∧
    T.rows.map TransactionsRow.settled = db.transactions.rows.map TransactionsRow.settled

theorem LearnsMerchants.refl (db : Database) : LearnsMerchants db db := ⟨_, _, rfl⟩

theorem LearnsMerchants.trans (a b c : Database) :
    LearnsMerchants a b → LearnsMerchants b c → LearnsMerchants a c := by
  rintro ⟨m, al, rfl⟩ ⟨m', al', rfl⟩
  exact ⟨m', al', rfl⟩

theorem RecordsRecurring.refl (db : Database) : RecordsRecurring db db := ⟨_, rfl⟩

theorem RecordsRecurring.trans (a b c : Database) :
    RecordsRecurring a b → RecordsRecurring b c → RecordsRecurring a c := by
  rintro ⟨r, rfl⟩ ⟨r', rfl⟩
  exact ⟨r', rfl⟩

theorem Derives.refl (db : Database) : Derives db db := ⟨_, _, _, _, rfl, rfl⟩

theorem Derives.trans (a b c : Database) : Derives a b → Derives b c → Derives a c := by
  rintro ⟨T, m, al, r, rfl, hT⟩ ⟨T', m', al', r', rfl, hT'⟩
  exact ⟨T', m', al', r', rfl, hT'.trans hT⟩

theorem LearnsMerchants.derives {db db' : Database} (h : LearnsMerchants db db') :
    Derives db db' := by
  obtain ⟨m, a, rfl⟩ := h
  exact ⟨_, m, a, _, rfl, rfl⟩

theorem RecordsRecurring.derives {db db' : Database} (h : RecordsRecurring db db') :
    Derives db db' := by
  obtain ⟨r, rfl⟩ := h
  exact ⟨_, _, _, r, rfl, rfl⟩

/-- An update of derived columns. -/
theorem Derives.update (db : Database) (id : String) {u : Patch TransactionsRow}
    (h : ∀ t, (u.run t).settled = t.settled) : Derives db (db.updateTransaction id u) :=
  ⟨_, _, _, _, rfl, Table.map_modify fun t _ _ => h t⟩

/-- Settled columns survive: every row of one side has its counterpart. -/
theorem Derives.exists_settled {db db' : Database} (h : Derives db db') {t : TransactionsRow}
    (ht : t ∈ db'.transactions) : ∃ t₀ ∈ db.transactions, t₀.settled = t.settled := by
  obtain ⟨T, m, a, r, rfl, hT⟩ := h
  exact Table.exists_of_map_eq hT ht

variable [Extern]

/-! ## post-processing -/

section Within

open Within

omit [Extern] in
theorem within_insertAlias (site : Stmt) (a : MerchantAliasesRow) :
    Within LearnsMerchants (insertAlias site a) :=
  Within.exec fun _ _ _ _ h => by
    obtain ⟨T, rfl⟩ := Database.insertAlias_ok h
    exact ⟨_, T, rfl⟩

theorem within_learnAlias (site : Stmt) (id raw cleaned : String) (c : ℚ) :
    Within LearnsMerchants (learnAlias site id raw cleaned c) :=
  bind (newUuid _) fun _ => bind utcNow fun _ =>
    bind (attempt (within_insertAlias site _)) fun _ => pure _

omit [Extern] in
theorem within_insertMerchant (m : MerchantsRow) : Within LearnsMerchants (insertMerchant m) :=
  Within.exec fun _ _ _ _ h => by
    obtain ⟨_, T, _, rfl⟩ := Database.insertMerchant_eq_ok.mp h
    exact ⟨T, _, rfl⟩

theorem within_createMerchant (raw cleaned : String) :
    Within LearnsMerchants (createMerchant raw cleaned) :=
  bind (newUuid _) fun _ => bind utcNow fun _ => bind (within_insertMerchant _) fun _ =>
    bind (within_learnAlias _ _ _ _ _) fun _ => pure _

theorem within_normalizeMerchantSync (raw : String) :
    Within LearnsMerchants (normalizeMerchantSync raw) := by
  simp only [normalizeMerchantSync]
  split
  · exact pure _
  · refine bind (query _ _) fun found => ?_
    cases found with
    | some m => exact pure _
    | none =>
      refine bind (query _ _) fun all => ?_
      cases bestFuzzyMatch (stripNoiseTokens raw) all with
      | some best => exact bind (within_learnAlias _ _ _ _ _) fun _ => pure _
      | none =>
        simp only
        split
        · exact within_createMerchant _ _
        · exact pure _

theorem within_normalizedMerchant (raw : Option String) :
    Within LearnsMerchants (normalizedMerchant raw) := by
  cases raw with
  | none => exact pure _
  | some raw =>
    refine bind (attempt (within_normalizeMerchantSync raw)) fun r => ?_
    cases r <;> exact pure _

theorem within_detectAndUpdateRecurring (instrumentId : String) (entityId : Option String)
    (id : String) (amountMinor : Int) (direction : String) (eventTime : Int) :
    Within RecordsRecurring
      (detectAndUpdateRecurring instrumentId entityId id amountMinor direction eventTime) := by
  have hrecord : ∀ e occ, Within RecordsRecurring
      (recordRecurring instrumentId e amountMinor eventTime occ) := by
    intro e occ
    refine bind (query _ _) fun found => ?_
    cases found with
    | some row =>
      refine Within.exec fun _ _ _ _ h => ?_
      exact Database.updateRecurring_ok h
    | none =>
      refine bind utcNow fun _ => bind (newUuid _) fun _ => Within.exec fun _ _ _ _ h => ?_
      obtain ⟨T, _, _, rfl⟩ := insertInto_eq_ok.mp h
      exact ⟨T, rfl⟩
  unfold detectAndUpdateRecurring
  split
  · exact pure _
  · cases entityId with
    | none => exact pure _
    | some e =>
      refine bind (query _ _) fun priors => ?_
      simp only
      split
      · exact pure _
      · exact hrecord _ _

theorem within_linkEmiInstallment (id instrumentId : String) (name : Option String)
    (total original : Option Int) :
    Within Derives (linkEmiInstallment id instrumentId name total original) := by
  unfold linkEmiInstallment
  split
  · refine Within.exec fun now db _ db' h => ?_
    cases h
    exact .update db id fun t => rfl
  · exact pure _

theorem within_linkRefund (id instrumentId : String) (amountMinor eventTime : Int) :
    Within Derives (linkRefund id instrumentId amountMinor eventTime) := by
  refine bind (attempt (query _ _)) fun found => ?_
  split
  · refine bind (Within.exec fun now db _ db' h => ?_) fun _ =>
      Within.exec fun now db _ db' h => ?_
    · cases h
      exact .update db id fun t => rfl
    · cases h
      exact .update db _ fun t => rfl
  · exact pure _

omit [Extern] in
theorem within_assignMerchant (id : String) (category : Option String)
    (merchant : Option (String × String)) :
    Within Derives (assignMerchant id category merchant) := by
  unfold assignMerchant
  split
  · refine Within.exec fun now db _ db' h => ?_
    cases h
    exact .update db id fun t => rfl
  · exact pure _

omit [Extern] in
theorem within_currentColumn {W : Database → Database → Prop} (site : Stmt)
    (column : TransactionsRow → Option String) (id : String) :
    Within W (currentColumn site column id) := by
  refine bind (attempt (query _ _)) fun v => ?_
  cases v <;> exact pure _

theorem within_runPostProcessing (id instrumentId : String) (raw : Option String)
    (amountMinor : Int) (direction : String) (eventTime : Int) (total original : Option Int) :
    Within Derives
      (runPostProcessing id instrumentId raw amountMinor direction eventTime total original) := by
  unfold runPostProcessing
  split
  · exact within_linkRefund _ _ _ _
  · refine bind ((within_normalizedMerchant raw).mono fun _ _ h => h.derives) fun _ => ?_
    refine bind (within_assignMerchant _ _ _) fun _ => ?_
    refine bind (within_currentColumn _ _ _) fun _ => ?_
    refine bind (attempt ((within_detectAndUpdateRecurring _ _ _ _ _ _).mono
      fun _ _ h => h.derives)) fun _ => ?_
    refine bind (within_currentColumn _ _ _) fun _ => ?_
    exact bind (attempt (within_linkEmiInstallment _ _ _ _ _)) fun _ => pure _

theorem within_postProcess (id : String) (obs : IncomingObservation) :
    Within Derives (postProcess id obs) := by
  unfold postProcess
  split
  · exact pure _
  · exact bind (attempt (within_runPostProcessing _ _ _ _ _ _ _ _)) fun _ => pure _

end Within

/-- **Post-processing derives**: whatever fails inside it, it answers, and it
touches merchants, recurring payments and derived columns only. -/
theorem postProcess_spec (id : String) (obs : IncomingObservation) (ctx : Ctx Stmt)
    (s : Store Database) :
    ∃ s', postProcess id obs ctx s = (.ok (), s') ∧ Derives s.db s'.db := by
  have hok : (postProcess id obs ctx s).1 = .ok () := by
    unfold postProcess
    cases obs.eventTime.parse <;> rfl
  exact ⟨_, Prod.ext hok rfl,
    (within_postProcess id obs).related Derives.refl Derives.trans ctx s⟩

/-! ## merging and linking -/

/-- The columns a match writes, by the source and the mix of the canonical;
`overwrite` tells whether a less confident email was found. -/
def mergePatch (obs : IncomingObservation) (mix : Option SourceMix) (overwrite : Bool)
    (now : Int) : Patch TransactionsRow :=
  if obs.sourcePipeline = "statement_pdf" then
    statementPatch obs.referenceId obs.eventTime.parseDate obs.merchantRaw (some obs.amountMinor)
      now
  else if obs.sourcePipeline = "gmail_transaction" ∧
      (mix = some .statementOnly ∨ mix = some .merged) then
    emailFillPatch obs.referenceId obs.merchantRaw now
  else if obs.sourcePipeline = "gmail_transaction" ∧ mix = some .emailOnly ∧ overwrite then
    emailOverwritePatch obs.referenceId obs.merchantRaw now
  else .idle

omit [Extern] in
/-- No merge touches the flag. -/
theorem mergePatch_isDeleted (obs : IncomingObservation) (mix : Option SourceMix)
    (overwrite : Bool) (now : Int) (t : TransactionsRow) :
    ((mergePatch obs mix overwrite now).run t).isDeleted = t.isDeleted := by
  unfold mergePatch
  split
  · rfl
  split
  · rfl
  split <;> rfl

omit [Extern] in
theorem insertAudit_ok {site : Stmt} {r : AuditLogRow} {ctx : Ctx Stmt} {s s' : Store Database}
    {u : Unit} (h : insertAudit site r ctx s = (.ok u, s')) :
    ∃ L, s'.db = { s.db with auditLog := L } := by
  obtain ⟨T, _, _, hdb⟩ := insertInto_eq_ok.mp (exec_ok h).1
  exact ⟨T, hdb⟩

theorem updateAndLog_ok {site auditSite : Stmt} {id : String} {u : Int → Patch TransactionsRow}
    {audit : String → AuditLogRow} {ctx : Ctx Stmt} {s s' : Store Database}
    (h : updateAndLog site auditSite id u audit ctx s = (.ok (), s')) :
    ∃ L, s'.db = { s.db with
      transactions := s.db.transactions.modify id (u ctx.now), auditLog := L } := by
  obtain ⟨_, s₁, h₁, h⟩ := Eff.bind_eq_ok.mp h
  obtain ⟨auditId, s₂, h₂, h⟩ := Eff.bind_eq_ok.mp h
  obtain ⟨L, hL⟩ := insertAudit_ok h
  have hdb := (exec_ok h₁).1
  simp only [Except.ok.injEq, Prod.mk.injEq, true_and] at hdb
  obtain ⟨-, rfl⟩ := Prod.mk.inj h₂
  exact ⟨L, by rw [hL, ← hdb]; rfl⟩

omit [Extern] in
/-- Looking at an answer, whatever it is, leaves the tables alone. -/
theorem attempt_query_ok {site : Stmt} {f : Database → α} {r : Except SqlError α}
    {ctx : Ctx Stmt} {s s' : Store Database}
    (h : Eff.attempt (query site f) ctx s = (.ok r, s')) : s'.db = s.db := by
  obtain ⟨-, rfl⟩ := Prod.mk.inj h
  exact (query_store site f ctx s).1

theorem existingConfidence_ok {canonicalId obsId : String} {c : Option ℚ} {ctx : Ctx Stmt}
    {s s' : Store Database} (h : existingConfidence canonicalId obsId ctx s = (.ok c, s')) :
    s'.db = s.db := by
  obtain ⟨r, s₁, h₁, h⟩ := Eff.bind_eq_ok.mp h
  have hs₁ := attempt_query_ok h₁
  cases hr : r.toOption.bind id with
  | some c' =>
    simp only [hr] at h
    obtain ⟨-, rfl⟩ := Prod.mk.inj h
    exact hs₁
  | none =>
    simp only [hr] at h
    obtain ⟨r', s₂, h₂, h⟩ := Eff.bind_eq_ok.mp h
    obtain ⟨-, rfl⟩ := Prod.mk.inj h
    exact (attempt_query_ok h₂).trans hs₁

/-- **A merge that succeeded** patched the canonical and logged it. -/
theorem applyPrecedence_ok {obs : IncomingObservation} {id : String} {mix : Option SourceMix}
    {ctx : Ctx Stmt} {s s' : Store Database} (h : applyPrecedence obs id mix ctx s = (.ok (), s')) :
    ∃ overwrite L, s'.db = { s.db with
      transactions := s.db.transactions.modify id (mergePatch obs mix overwrite ctx.now)
      auditLog := L } := by
  unfold applyPrecedence at h
  unfold mergePatch
  split at h
  · next hstmt =>
      obtain ⟨before, s₁, h₁, h⟩ := Eff.bind_eq_ok.mp h
      obtain ⟨L, hL⟩ := updateAndLog_ok h
      rw [attempt_query_ok h₁] at hL
      exact ⟨false, L, by simpa [hstmt] using hL⟩
  next hstmt =>
  split at h
  · next hfill =>
      obtain ⟨L, hL⟩ := updateAndLog_ok h
      exact ⟨false, L, by simpa [hstmt, hfill] using hL⟩
  next hfill =>
  split at h
  · next hover =>
      -- an email on an email: only a confident one writes
      have hidle : s'.db = s.db → ∃ L, s'.db = { s.db with
          transactions := s.db.transactions.modify id .idle, auditLog := L } :=
        fun hdb => ⟨s.db.auditLog, by simp [hdb]⟩
      unfold maybeOverwriteFromHigherConfidenceEmail at h
      cases hc : obs.confidenceScore with
      | none =>
        simp only [hc] at h
        obtain ⟨-, rfl⟩ := Prod.mk.inj h
        obtain ⟨L, hL⟩ := hidle rfl
        exact ⟨false, L, by simpa [hstmt, hfill] using hL⟩
      | some c =>
        simp only [hc] at h
        obtain ⟨existing, s₁, h₁, h⟩ := Eff.bind_eq_ok.mp h
        have hs₁ := existingConfidence_ok h₁
        cases existing with
        | none =>
          obtain ⟨-, rfl⟩ := Prod.mk.inj h
          obtain ⟨L, hL⟩ := hidle hs₁
          exact ⟨false, L, by simpa [hstmt, hfill] using hL⟩
        | some e =>
          simp only at h
          split at h
          · obtain ⟨-, rfl⟩ := Prod.mk.inj h
            obtain ⟨L, hL⟩ := hidle hs₁
            exact ⟨false, L, by simpa [hstmt, hfill] using hL⟩
          · obtain ⟨before, s₂, h₂, h⟩ := Eff.bind_eq_ok.mp h
            obtain ⟨L, hL⟩ := updateAndLog_ok h
            rw [attempt_query_ok h₂, hs₁] at hL
            exact ⟨true, L, by simpa [hstmt, hfill, hover] using hL⟩
  · next hover =>
      obtain ⟨-, rfl⟩ := Prod.mk.inj h
      exact ⟨false, s.db.auditLog, by simp [hstmt, hfill]⟩

omit [Extern] in
/-- **A link that succeeded** found the observation and its transaction. -/
theorem updateCanonicalTransactionId_ok {id : String} {canonical : Option String}
    {ctx : Ctx Stmt} {s s' : Store Database}
    (h : updateCanonicalTransactionId id canonical ctx s = (.ok (), s')) :
    s.db.observations.contains id = true ∧ refersInto s.db.transactions canonical = true ∧
      s'.db = { s.db with
        observations := s.db.observations.modify id (linkPatch canonical ctx.now) } := by
  obtain ⟨count, s₁, h₁, h⟩ := Eff.bind_eq_ok.mp h
  split at h
  · simp at h
  · next hcount =>
      obtain ⟨-, rfl⟩ := Prod.mk.inj h
      have hlink := (exec_ok h₁).1
      have hone : count = 1 := by
        unfold Database.linkObservation at hlink
        split at hlink
        · split at hlink
          · exact (Prod.mk.inj (Except.ok.inj hlink)).1.symm
          · simp at hlink
        · exact absurd (Prod.mk.inj (Except.ok.inj hlink)).1.symm hcount
      subst hone
      exact Database.linkObservation_eq_ok.mp hlink

theorem appendMatchDecision_ok {obsId : String} {matched : Option String} {score : ℚ}
    {decision : DecisionType} {reviewedBy : Option String} {ctx : Ctx Stmt} {s s' : Store Database}
    {u : Unit} (h : appendMatchDecision obsId matched score decision reviewedBy ctx s = (.ok u, s')) :
    ∃ T, s.db.matchDecisions.insert? (matchDecisionRow (uuid s.nextUuid) obsId matched score
        decision reviewedBy ctx.now) = some T ∧
      s.db.observations.contains obsId = true ∧ refersInto s.db.transactions matched = true ∧
      s'.db = { s.db with matchDecisions := T } := by
  obtain ⟨id, s₁, h₁, h⟩ := Eff.bind_eq_ok.mp h
  obtain ⟨hid, rfl⟩ := Prod.mk.inj h₁
  obtain rfl := Except.ok.inj hid
  obtain ⟨T, hT, hfk, hdb⟩ := insertInto_eq_ok.mp (exec_ok h).1
  simp only [matchDecisionRow, refersInto, Bool.and_eq_true] at hfk
  exact ⟨T, hT, hfk.1, hfk.2, hdb⟩

/-! ## the three outcomes -/

/-- The row a new canonical starts as. -/
def canonicalRow (txId : String) (obs : IncomingObservation) (merchant : Option (String × String))
    (now : Int) : TransactionsRow :=
  { newTransaction txId obs merchant with createdAt := some now, updatedAt := some now }

/-- `db'` is `db` with `obs` linked to transaction `id`, some transactions
`T` in place of the old ones up to derived columns, and whatever else
post-processing and the audit log add. -/
structure LinkedTo (obsId id : String) (now : Int) (T : Table TransactionsRow)
    (db db' : Database) : Prop where
  instruments : db'.instruments = db.instruments
  observations : db'.observations = db.observations.modify obsId (linkPatch (some id) now)
  settled : db'.transactions.rows.map TransactionsRow.settled =
    T.rows.map TransactionsRow.settled
  clusters : db'.clusters = db.clusters
  clusterMembers : db'.clusterMembers = db.clusterMembers
  stored : db.observations.contains obsId = true

omit [Extern] in
/-- After a link the observation points to its canonical. -/
theorem LinkedTo.link {obsId id : String} {now : Int} {T : Table TransactionsRow}
    {db db' : Database} (h : LinkedTo obsId id now T db db') :
    (db'.observations.find? obsId).bind (·.canonicalTransactionId) = some id := by
  obtain ⟨o, ho⟩ := Option.isSome_iff_exists.mp h.stored
  rw [h.observations, Table.find?_modify, ho]
  simp [linkPatch]

/-- `db'` is `db` but for one more decision about `obsId`. -/
structure Decided (obsId : String) (matched : Option String) (decision : DecisionType)
    (db db' : Database) : Prop where
  row : ∃ r D, r.observationId = some obsId ∧ r.decision = decision.toDecision ∧
    r.matchedTransactionId = matched ∧ db.matchDecisions.insert? r = some D ∧
    db' = { db with matchDecisions := D }
  stored : db.observations.contains obsId = true

omit [Extern] in
/-- A decision leaves the transactions alone. -/
theorem Decided.transactions {obsId : String} {matched : Option String} {d : DecisionType}
    {db db' : Database} (h : Decided obsId matched d db db') :
    db'.transactions = db.transactions := by
  obtain ⟨⟨r, D, -, -, -, -, rfl⟩, -⟩ := h
  rfl

theorem appendMatchDecision_decided {obsId : String} {matched : Option String} {score : ℚ}
    {decision : DecisionType} {reviewedBy : Option String} {ctx : Ctx Stmt} {s s' : Store Database}
    {u : Unit} (h : appendMatchDecision obsId matched score decision reviewedBy ctx s = (.ok u, s')) :
    Decided obsId matched decision s.db s'.db := by
  obtain ⟨D, hD, hstored, _, hdb⟩ := appendMatchDecision_ok h
  exact ⟨⟨_, D, rfl, rfl, rfl, hD, hdb⟩, hstored⟩

/-- A match, step by step: merge and link, derive, decide. -/
theorem autoMatch_steps {obs : IncomingObservation} {id : String} {mix : Option SourceMix}
    {score : ℚ} {decision d : DecisionType} {ctx : Ctx Stmt} {s s' : Store Database}
    (h : autoMatch obs id mix score decision ctx s = (.ok d, s')) :
    d = decision ∧ ∃ s₁ s₂ s₃, applyPrecedence obs id mix ctx s = (.ok (), s₁) ∧
      updateCanonicalTransactionId obs.id (some id) ctx s₁ = (.ok (), s₂) ∧
      postProcess id obs ctx s₂ = (.ok (), s₃) ∧
      appendMatchDecision obs.id (some id) score decision none ctx s₃ = (.ok (), s') := by
  obtain ⟨_, s₃, h₃, h⟩ := Eff.bind_eq_ok.mp h
  obtain ⟨_, s₄, h₄, h⟩ := Eff.bind_eq_ok.mp h
  obtain ⟨hd, rfl⟩ := Prod.mk.inj h
  obtain ⟨_, s₁, h₁, h₃⟩ := Eff.bind_eq_ok.mp h₃
  obtain ⟨_, s₂, h₂, h₃⟩ := Eff.bind_eq_ok.mp h₃
  exact ⟨(Except.ok.inj hd).symm, s₁, s₂, s₃, h₁, h₂, h₃, h₄⟩

/-- The tables a match derives from. -/
theorem autoMatch_linked {obs : IncomingObservation} {id : String} {mix : Option SourceMix}
    {ctx : Ctx Stmt} {s s₁ s₂ : Store Database}
    (h₁ : applyPrecedence obs id mix ctx s = (.ok (), s₁))
    (h₂ : updateCanonicalTransactionId obs.id (some id) ctx s₁ = (.ok (), s₂)) :
    s.db.observations.contains obs.id = true ∧ s.db.transactions.contains id = true ∧
      ∃ overwrite L, s₂.db = { s.db with
        transactions := s.db.transactions.modify id (mergePatch obs mix overwrite ctx.now)
        auditLog := L
        observations := s.db.observations.modify obs.id (linkPatch (some id) ctx.now) } := by
  obtain ⟨overwrite, L, hmerge⟩ := applyPrecedence_ok h₁
  obtain ⟨hobs, href, hlink⟩ := updateCanonicalTransactionId_ok h₂
  rw [hmerge] at hobs href hlink
  exact ⟨hobs, by simpa [refersInto] using href, overwrite, L, hlink⟩

/-- **What a match does to the tables.** -/
theorem autoMatch_effect {obs : IncomingObservation} {id : String} {mix : Option SourceMix}
    {score : ℚ} {decision d : DecisionType} {ctx : Ctx Stmt} {s s' : Store Database}
    (h : autoMatch obs id mix score decision ctx s = (.ok d, s')) :
    d = decision ∧ s.db.transactions.contains id = true ∧ ∃ overwrite db,
      LinkedTo obs.id id ctx.now
        (s.db.transactions.modify id (mergePatch obs mix overwrite ctx.now)) s.db db ∧
      db.matchDecisions = s.db.matchDecisions ∧ Decided obs.id (some id) decision db s'.db := by
  obtain ⟨hd, s₁, s₂, s₃, h₁, h₂, hpost, hlog⟩ := autoMatch_steps h
  obtain ⟨hobs, htx, overwrite, L, hs₂⟩ := autoMatch_linked h₁ h₂
  have hdec := appendMatchDecision_decided hlog
  obtain ⟨s₃', hpost', hder⟩ := postProcess_spec id obs ctx s₂
  obtain ⟨-, rfl⟩ := Prod.mk.inj (hpost.symm.trans hpost')
  obtain ⟨T, m, a, r, hs₃, hT⟩ := hder
  rw [hs₂] at hs₃ hT
  refine ⟨hd, htx, overwrite, s₃.db, ⟨?_, ?_, ?_, ?_, ?_, hobs⟩, ?_, hdec⟩ <;> rw [hs₃]
  exact hT

omit [Extern] in
theorem insertTransaction_ok {tx : TransactionsRow} {ctx : Ctx Stmt} {s s' : Store Database}
    {u : Unit} (h : insertTransaction tx ctx s = (.ok u, s')) :
    ∃ T, s.db.transactions.insert? { tx with
        createdAt := some (tx.createdAt.getD ctx.now)
        updatedAt := some (tx.updatedAt.getD ctx.now) } = some T ∧
      refersInto s.db.instruments tx.instrumentId = true ∧
      s'.db = { s.db with transactions := T } := by
  obtain ⟨T, hT, hfk, hdb⟩ := insertInto_eq_ok.mp (exec_ok h).1
  simp only [Bool.and_eq_true] at hfk
  exact ⟨T, hT, hfk.1, hdb⟩

/-- A creation, step by step: normalise, insert, link, derive. -/
theorem createCanonicalTransaction_ok {obs : IncomingObservation} {ctx : Ctx Stmt}
    {s s' : Store Database} {u : Unit}
    (h : createCanonicalTransaction obs ctx s = (.ok u, s')) :
    ∃ merchant s₁ T s₂,
      normalizedMerchant obs.merchantRaw ctx { s with nextUuid := s.nextUuid + 1 }
        = (.ok merchant, s₁) ∧
      s.db.transactions.insert? (canonicalRow (uuid s.nextUuid) obs merchant ctx.now) = some T ∧
      s.db.observations.contains obs.id = true ∧
      s₂.db = { s₁.db with
        transactions := T
        observations := s.db.observations.modify obs.id
          (linkPatch (some (uuid s.nextUuid)) ctx.now) } ∧
      postProcess (uuid s.nextUuid) obs ctx s₂ = (.ok (), s') := by
  obtain ⟨txId, s₀, h₀, h⟩ := Eff.bind_eq_ok.mp h
  obtain ⟨hid, rfl⟩ := Prod.mk.inj h₀
  obtain rfl := Except.ok.inj hid
  obtain ⟨merchant, s₁, h₁, h⟩ := Eff.bind_eq_ok.mp h
  obtain ⟨_, s₂, h₂, h⟩ := Eff.bind_eq_ok.mp h
  obtain ⟨_, s₃, h₃, h⟩ := Eff.bind_eq_ok.mp h
  obtain ⟨m, a, hs₁⟩ : LearnsMerchants s.db s₁.db := by
    have := (within_normalizedMerchant obs.merchantRaw).related LearnsMerchants.refl
      LearnsMerchants.trans ctx { s with nextUuid := s.nextUuid + 1 }
    rwa [h₁] at this
  obtain ⟨T, hT, _, hs₂⟩ := insertTransaction_ok h₂
  obtain ⟨hobs, _, hs₃⟩ := updateCanonicalTransactionId_ok h₃
  rw [hs₁] at hT
  rw [hs₂, hs₁] at hobs
  refine ⟨merchant, s₁, T, s₃, h₁, hT, hobs, ?_, h⟩
  rw [hs₃, hs₂, hs₁]

/-- **What a creation does to the tables.** -/
theorem createCanonicalTransaction_effect {obs : IncomingObservation} {ctx : Ctx Stmt}
    {s s' : Store Database} {u : Unit}
    (h : createCanonicalTransaction obs ctx s = (.ok u, s')) :
    ∃ merchant T,
      s.db.transactions.insert? (canonicalRow (uuid s.nextUuid) obs merchant ctx.now) = some T ∧
      LinkedTo obs.id (uuid s.nextUuid) ctx.now T s.db s'.db ∧
      s'.db.matchDecisions = s.db.matchDecisions := by
  obtain ⟨merchant, s₁, T, s₂, h₁, hT, hobs, hs₂, hpost⟩ := createCanonicalTransaction_ok h
  obtain ⟨m, a, hs₁⟩ : LearnsMerchants s.db s₁.db := by
    have := (within_normalizedMerchant obs.merchantRaw).related LearnsMerchants.refl
      LearnsMerchants.trans ctx { s with nextUuid := s.nextUuid + 1 }
    rwa [h₁] at this
  obtain ⟨s₃, hpost', hder⟩ := postProcess_spec (uuid s.nextUuid) obs ctx s₂
  obtain ⟨-, rfl⟩ := Prod.mk.inj (hpost.symm.trans hpost')
  obtain ⟨T', m', a', r, hs', hT'⟩ := hder
  rw [hs₂, hs₁] at hs' hT'
  refine ⟨merchant, T, hT, ⟨?_, ?_, ?_, ?_, ?_, hobs⟩, ?_⟩ <;> rw [hs']
  exact hT'

theorem newCanonical_ok {obs : IncomingObservation} {d : DecisionType} {ctx : Ctx Stmt}
    {s s' : Store Database} (h : newCanonical obs ctx s = (.ok d, s')) :
    d = .newCanonical ∧ ∃ s₁, createCanonicalTransaction obs ctx s = (.ok (), s₁) ∧
      Decided obs.id none .newCanonical s₁.db s'.db := by
  obtain ⟨_, s₁, h₁, h⟩ := Eff.bind_eq_ok.mp h
  obtain ⟨_, s₂, h₂, h⟩ := Eff.bind_eq_ok.mp h
  obtain ⟨hd, rfl⟩ := Prod.mk.inj h
  exact ⟨(Except.ok.inj hd).symm, s₁, h₁, appendMatchDecision_decided h₂⟩

/-! ## raising a cluster -/

/-- A membership of an observation waiting for a decision. -/
structure IncomingMember (clusterId obsId : String) (m : ReconciliationClusterMembersRow) :
    Prop where
  clusterId : m.clusterId = clusterId
  observationId : m.observationId = some obsId
  canonicalTransactionId : m.canonicalTransactionId = none
  memberRole : m.memberRole = .incoming

/-- A membership of a competing transaction. -/
structure CandidateMember (clusterId : String) (m : ReconciliationClusterMembersRow) : Prop where
  clusterId : m.clusterId = clusterId
  observationId : m.observationId = none
  memberRole : m.memberRole ≠ .incoming

/-- What raising an ambiguity does: join the open cluster that overlaps, or,
if there is none, found one. -/
inductive Raised (obs : IncomingObservation) (dt : Int) (viable : List ScoredCandidate)
    (db db' : Database) : Prop
  | extend (c : ReconciliationClustersRow) (m : ReconciliationClusterMembersRow)
      (M : Table ReconciliationClusterMembersRow) (hc : c ∈ db.clusters)
      (hover : db.overlappingOpen obs.instrumentId obs.amountMinor obs.direction dt
        (3 * 24 * 60 * 60) c = true)
      (hm : IncomingMember c.id obs.id m) (hM : db.clusterMembers.insert? m = some M)
      (hdb : db' = { db with clusterMembers := M })
  | found (c : ReconciliationClustersRow) (C : Table ReconciliationClustersRow)
      (m : ReconciliationClusterMembersRow) (ms : List ReconciliationClusterMembersRow)
      (M : Table ReconciliationClusterMembersRow)
      (hnone : ∀ c ∈ db.clusters, db.overlappingOpen obs.instrumentId obs.amountMinor
        obs.direction dt (3 * 24 * 60 * 60) c = false)
      (hc : c.clusterStatus = .open) (hC : db.clusters.insert? c = some C)
      (hm : IncomingMember c.id obs.id m) (hms : ∀ m' ∈ ms, CandidateMember c.id m')
      (hids : ms.map (·.canonicalTransactionId) = viable.map fun v => some v.candidateId)
      (hM : M.rows = db.clusterMembers.rows ++ m :: ms)
      (hdb : db' = { db with clusters := C, clusterMembers := M })

omit [Extern] in
/-- A raised cluster leaves the payments alone. -/
theorem Raised.payments {obs : IncomingObservation} {dt : Int} {viable : List ScoredCandidate}
    {db db' : Database} (h : Raised obs dt viable db db') :
    db'.observations = db.observations ∧ db'.transactions = db.transactions ∧
      db'.matchDecisions = db.matchDecisions ∧ db'.instruments = db.instruments := by
  cases h with
  | extend _ _ _ _ _ _ _ hdb => rw [hdb]; exact ⟨rfl, rfl, rfl, rfl⟩
  | found _ _ _ _ _ _ _ _ _ _ _ _ hdb => rw [hdb]; exact ⟨rfl, rfl, rfl, rfl⟩

theorem insertIncoming_ok {site : Stmt} {clusterId obsId : String} {ctx : Ctx Stmt}
    {s s' : Store Database} {u : Unit}
    (h : insertIncoming site clusterId obsId ctx s = (.ok u, s')) :
    ∃ m M, IncomingMember clusterId obsId m ∧ s.db.clusterMembers.insert? m = some M ∧
      s'.db = { s.db with clusterMembers := M } := by
  obtain ⟨id, s₁, h₁, h⟩ := Eff.bind_eq_ok.mp h
  obtain ⟨-, rfl⟩ := Prod.mk.inj h₁
  obtain ⟨M, hM, _, hdb⟩ := insertInto_eq_ok.mp (exec_ok h).1
  exact ⟨_, M, ⟨rfl, rfl, rfl, rfl⟩, hM, hdb⟩

omit [Extern] in
theorem candidateRole_ne_incoming (i : Nat) : candidateRole i ≠ .incoming := by
  match i with
  | 0 => decide
  | 1 => decide
  | _ + 2 => simp [candidateRole]

/-- The loop appends one membership for each candidate, in order. -/
theorem insertCandidates_ok {clusterId : String} {cs : List ScoredCandidate} {i : Nat}
    {ctx : Ctx Stmt} {s s' : Store Database} {u : Unit}
    (h : insertCandidates clusterId i cs ctx s = (.ok u, s')) :
    ∃ ms M, (∀ m ∈ ms, CandidateMember clusterId m) ∧
      ms.map (·.canonicalTransactionId) = cs.map (fun v => some v.candidateId) ∧
      M.rows = s.db.clusterMembers.rows ++ ms ∧ s'.db = { s.db with clusterMembers := M } := by
  induction cs generalizing i s with
  | nil =>
    obtain ⟨-, rfl⟩ := Prod.mk.inj h
    exact ⟨[], s.db.clusterMembers, by simp, rfl, by simp, rfl⟩
  | cons c cs ih =>
    obtain ⟨id, s₁, h₁, h⟩ := Eff.bind_eq_ok.mp h
    obtain ⟨-, rfl⟩ := Prod.mk.inj h₁
    obtain ⟨_, s₂, h₂, h⟩ := Eff.bind_eq_ok.mp h
    obtain ⟨M₁, hM₁, _, hs₂⟩ := insertInto_eq_ok.mp (exec_ok h₂).1
    obtain ⟨ms, M, hms, hids, hM, hdb⟩ := ih h
    rw [hs₂] at hM hdb
    refine ⟨candidateMember id clusterId i c ctx.now :: ms, M, ?_, ?_, ?_, hdb⟩
    · intro m hm
      rcases List.mem_cons.mp hm with rfl | hm
      · exact ⟨rfl, rfl, candidateRole_ne_incoming i⟩
      · exact hms m hm
    · rw [List.map_cons, List.map_cons, hids]
      rfl
    · rw [hM, (Table.insert?_eq_some.mp hM₁).2]
      simp

/-- The cluster that an ambiguity about the observation is added to, if there is one. -/
def Database.overlapping? (db : Database) (obs : IncomingObservation) (dt : Int) :
    Option ReconciliationClustersRow :=
  (scan (db.clusters.rows.filter (db.overlappingOpen obs.instrumentId obs.amountMinor
    obs.direction dt (3 * 24 * 60 * 60)))).head?

theorem Database.overlapping?_eq_some {db : Database} {obs : IncomingObservation} {dt : Int}
    {c : ReconciliationClustersRow} (h : db.overlapping? obs dt = some c) :
    c ∈ db.clusters ∧ db.overlappingOpen obs.instrumentId obs.amountMinor obs.direction dt
      (3 * 24 * 60 * 60) c = true := by
  have hc := List.mem_of_mem_head? h
  rw [mem_scan, List.mem_filter] at hc
  exact hc

theorem Database.overlapping?_eq_none {db : Database} {obs : IncomingObservation} {dt : Int}
    (h : db.overlapping? obs dt = none) :
    ∀ c ∈ db.clusters, db.overlappingOpen obs.instrumentId obs.amountMinor obs.direction dt
      (3 * 24 * 60 * 60) c = false := by
  intro c hc
  have hempty := List.head?_eq_none_iff.mp h
  by_contra hover
  have hmem : c ∈ scan (db.clusters.rows.filter (db.overlappingOpen obs.instrumentId
      obs.amountMinor obs.direction dt (3 * 24 * 60 * 60))) := by
    rw [mem_scan, List.mem_filter]
    exact ⟨hc, by simpa using hover⟩
  rw [hempty] at hmem
  simp at hmem

/-- Which cluster it is, and what is added. -/
theorem createAmbiguityCluster_cases {obs : IncomingObservation} {dt : Int} {topScore : ℚ}
    {viable : List ScoredCandidate} {clusterId : String} {ctx : Ctx Stmt} {s s' : Store Database}
    (ht : obs.eventTime.parse = some dt)
    (h : createAmbiguityCluster obs.id obs.instrumentId obs.amountMinor obs.direction
      obs.eventTime topScore viable ctx s = (.ok clusterId, s')) :
    (∃ c m M, s.db.overlapping? obs dt = some c ∧ clusterId = c.id ∧
      IncomingMember c.id obs.id m ∧ s.db.clusterMembers.insert? m = some M ∧
      s'.db = { s.db with clusterMembers := M }) ∨
    (s.db.overlapping? obs dt = none ∧ ∃ c C m ms M, c.id = clusterId ∧ c.clusterStatus = .open ∧
      s.db.clusters.insert? c = some C ∧ IncomingMember c.id obs.id m ∧
      (∀ m' ∈ ms, CandidateMember c.id m') ∧
      ms.map (·.canonicalTransactionId) = viable.map (fun v => some v.candidateId) ∧
      M.rows = s.db.clusterMembers.rows ++ m :: ms ∧
      s'.db = { s.db with clusters := C, clusterMembers := M }) := by
  obtain ⟨found, s₁, h₁, h⟩ := Eff.bind_eq_ok.mp h
  obtain ⟨hfound, hs₁⟩ := query_ok h₁
  simp only [ht, Option.bind_some] at hfound
  have hfound : found = (s.db.overlapping? obs dt).map (·.id) := hfound
  cases found with
  | some existing =>
    obtain ⟨_, s₂, h₂, h⟩ := Eff.bind_eq_ok.mp h
    obtain ⟨hid, rfl⟩ := Prod.mk.inj h
    obtain ⟨m, M, hm, hM, hdb⟩ := insertIncoming_ok h₂
    rw [hs₁] at hM hdb
    obtain ⟨c, hhead, rfl⟩ := Option.map_eq_some_iff.mp hfound.symm
    exact .inl ⟨c, m, M, hhead, (Except.ok.inj hid).symm, hm, hM, hdb⟩
  | none =>
    obtain ⟨id, s₂, h₂, h⟩ := Eff.bind_eq_ok.mp h
    obtain ⟨-, rfl⟩ := Prod.mk.inj h₂
    obtain ⟨_, s₃, h₃, h⟩ := Eff.bind_eq_ok.mp h
    obtain ⟨_, s₄, h₄, h⟩ := Eff.bind_eq_ok.mp h
    obtain ⟨_, s₅, h₅, h⟩ := Eff.bind_eq_ok.mp h
    obtain ⟨hid, rfl⟩ := Prod.mk.inj h
    obtain ⟨C, hC, _, hs₃⟩ := insertInto_eq_ok.mp (exec_ok h₃).1
    obtain ⟨m, M₁, hm, hM₁, hs₄⟩ := insertIncoming_ok h₄
    obtain ⟨ms, M, hms, hids, hM, hs₅⟩ := insertCandidates_ok h₅
    simp only [hs₁] at hC hs₃
    rw [hs₃] at hM₁ hs₄
    rw [hs₄] at hM hs₅
    refine .inr ⟨Option.map_eq_none_iff.mp hfound.symm, _, C, m, ms, M, Except.ok.inj hid, rfl, hC,
      hm, hms, hids, ?_, hs₅⟩
    rw [hM, (Table.insert?_eq_some.mp hM₁).2]
    simp

/-- **What raising a cluster does to the tables.** -/
theorem createAmbiguityCluster_ok {obs : IncomingObservation} {dt : Int} {topScore : ℚ}
    {viable : List ScoredCandidate} {clusterId : String} {ctx : Ctx Stmt} {s s' : Store Database}
    (ht : obs.eventTime.parse = some dt)
    (h : createAmbiguityCluster obs.id obs.instrumentId obs.amountMinor obs.direction
      obs.eventTime topScore viable ctx s = (.ok clusterId, s')) :
    Raised obs dt viable s.db s'.db := by
  obtain ⟨c, m, M, hover, -, hm, hM, hdb⟩ | ⟨hnone, c, C, m, ms, M, -, hc, hC, hm, hms, hids, hM,
    hdb⟩ := createAmbiguityCluster_cases ht h
  · obtain ⟨hc, hopen⟩ := Database.overlapping?_eq_some hover
    exact .extend c m M hc hopen hm hM hdb
  · exact .found c C m ms M (Database.overlapping?_eq_none hnone) hc hC hm hms hids hM hdb

theorem raiseCluster_ok {obs : IncomingObservation} {dt : Int} {topScore : ℚ}
    {viable : List ScoredCandidate} {d : DecisionType} {ctx : Ctx Stmt} {s s' : Store Database}
    (ht : obs.eventTime.parse = some dt)
    (h : raiseCluster obs topScore viable ctx s = (.ok d, s')) :
    ∃ clusterId db, d = .ambiguousPending clusterId ∧ Raised obs dt viable s.db db ∧
      Decided obs.id none (.ambiguousPending clusterId) db s'.db := by
  obtain ⟨clusterId, s₁, h₁, h⟩ := Eff.bind_eq_ok.mp h
  obtain ⟨_, s₂, h₂, h⟩ := Eff.bind_eq_ok.mp h
  obtain ⟨hd, rfl⟩ := Prod.mk.inj h
  exact ⟨clusterId, s₁.db, (Except.ok.inj hd).symm, createAmbiguityCluster_ok ht h₁,
    appendMatchDecision_decided h₂⟩

end Dinero
