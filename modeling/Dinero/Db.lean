import Dinero.Schema

/-!
# Dinero.Db

The statements of `db/`: what each `INSERT`, `UPDATE` and `SELECT` does to the
tables, with the constraints it runs into, and the functions that issue them.

The effect of a statement is a pure function of the database (`Database.…`);
the program's function of the same name issues it.
-/

namespace Dinero

open Sql

/-! ## transaction_observations -/

/-- `CHECK(source_pipeline IN (..))`; a check on `NULL` passes. -/
def pipelineAllowed : Option String → Bool
  | none => true
  | some p => p = "gmail_transaction" || p = "statement_pdf" || p = "manual"

/-- Is the pair of `UNIQUE(source_pipeline, source_record_id)` taken?  `NULL`s
are distinct from everything. -/
def Database.hasSourceRecord (db : Database) (obs : TransactionObservationsRow) : Bool :=
  db.observations.rows.any fun o =>
    o.sourcePipeline.isSome && o.sourceRecordId.isSome &&
      o.sourcePipeline = obs.sourcePipeline && o.sourceRecordId = obs.sourceRecordId

/-- `INSERT INTO transaction_observations`.  Checks come before uniqueness,
the pair before the id, foreign keys last. -/
def Database.insertObservation (obs : TransactionObservationsRow) (db : Database) :
    Except SqlError (Unit × Database) :=
  if !pipelineAllowed obs.sourcePipeline then
    .error (constraintFailed
      "CHECK constraint failed: source_pipeline IN ('gmail_transaction', 'statement_pdf', 'manual')")
  else if db.hasSourceRecord obs then
    .error (uniqueFailed
      "transaction_observations.source_pipeline, transaction_observations.source_record_id")
  else insertInto db.observations "transaction_observations.id" obs
    (refersInto db.transactions obs.canonicalTransactionId &&
      refersInto db.instruments obs.instrumentId &&
      obs.statementId.all (· ∈ db.statements) &&
      obs.statementEntryId.all (· ∈ db.statementEntries))
    fun T => { db with observations := T }

theorem Database.insertObservation_eq_ok {obs : TransactionObservationsRow} {db db' : Database}
    {u : Unit} : db.insertObservation obs = .ok (u, db') ↔
      pipelineAllowed obs.sourcePipeline = true ∧ db.hasSourceRecord obs = false ∧
      (refersInto db.transactions obs.canonicalTransactionId = true ∧
        refersInto db.instruments obs.instrumentId = true ∧
        obs.statementId.all (· ∈ db.statements) = true ∧
        obs.statementEntryId.all (· ∈ db.statementEntries) = true) ∧
      ∃ T, db.observations.insert? obs = some T ∧ db' = { db with observations := T } := by
  unfold insertObservation
  by_cases hp : pipelineAllowed obs.sourcePipeline = true
  · by_cases hs : db.hasSourceRecord obs = true
    · simp [hp, hs]
    · simp only [hp, hs]
      simp only [Bool.not_true, Bool.false_eq_true, if_false, insertInto_eq_ok,
        Bool.and_eq_true, true_and]
      grind
  · simp [hp]

theorem transactions_insertObservation {row : TransactionObservationsRow} {db db' : Database}
    {u : Unit} (h : db.insertObservation row = .ok (u, db')) :
    db'.transactions = db.transactions := by
  obtain ⟨-, -, -, T, -, rfl⟩ := Database.insertObservation_eq_ok.mp h
  rfl

def insertObservation (obs : TransactionObservationsRow) : Db Unit :=
  exec .insertObservation fun _ db => db.insertObservation obs

inductive InsertObservationOutcome
  | inserted | duplicateSkipped
deriving DecidableEq, Repr

/-- The test on the error of `insert_observation`: a constraint violation
whose message names both columns. -/
def isSourceRecordDuplicate : SqlError → Bool
  | .sqliteFailure .constraintViolation (some msg) =>
      strContains msg "source_pipeline" && strContains msg "source_record_id"
  | _ => false

/-- Inserts an observation, treating a duplicate as success. -/
def insertObservationIdempotent (obs : TransactionObservationsRow) :
    Db InsertObservationOutcome := do
  match ← Eff.attempt (insertObservation obs) with
  | .ok () => return .inserted
  | .error e =>
    if isSourceRecordDuplicate e then return .duplicateSkipped else Eff.fail e

/-- `SELECT * FROM transaction_observations WHERE id = ?1 AND is_deleted = 0`. -/
def Database.getObservation (db : Database) (id : String) : Option TransactionObservationsRow :=
  (db.observations.find? id).filter (!·.isDeleted)

def getObservation (id : String) : Db (Option TransactionObservationsRow) :=
  query .selectObservation (·.getObservation id)

/-- The columns `update_canonical_transaction_id` sets. -/
def linkPatch (canonical : Option String) (now : Int) : Patch TransactionObservationsRow where
  run o := { o with canonicalTransactionId := canonical, updatedAt := some now }
  key_run _ := rfl

/-- The link update, and how many rows it changed. -/
def Database.linkObservation (id : String) (canonical : Option String) (now : Int)
    (db : Database) : Except SqlError (Nat × Database) :=
  if db.observations.contains id then
    if refersInto db.transactions canonical then
      .ok (1, { db with observations := db.observations.modify id (linkPatch canonical now) })
    else .error foreignKeyFailed
  else .ok (0, db)

theorem Database.linkObservation_eq_ok {id : String} {canonical : Option String} {now : Int}
    {db db' : Database} : db.linkObservation id canonical now = .ok (1, db') ↔
      db.observations.contains id = true ∧ refersInto db.transactions canonical = true ∧
      db' = { db with observations := db.observations.modify id (linkPatch canonical now) } := by
  unfold linkObservation
  by_cases hobs : db.observations.contains id = true
  · by_cases href : refersInto db.transactions canonical = true
    · simp only [hobs, href, if_true, Except.ok.injEq, Prod.mk.injEq, true_and]
      exact eq_comm
    · simp [hobs, href]
  · simp [hobs]

/-- It is a matter of the observations. -/
theorem Database.linkObservation_ok {id : String} {canonical : Option String} {now : Int} {n : Nat}
    {db db' : Database} (h : db.linkObservation id canonical now = .ok (n, db')) :
    ∃ O, db' = { db with observations := O } := by
  unfold linkObservation at h
  split at h
  · split at h
    · obtain ⟨-, rfl⟩ := Prod.mk.inj (Except.ok.inj h)
      exact ⟨_, rfl⟩
    · simp at h
  · obtain ⟨-, rfl⟩ := Prod.mk.inj (Except.ok.inj h)
    exact ⟨_, rfl⟩

def updateCanonicalTransactionId (id : String) (canonical : Option String) : Db Unit := do
  let count ← exec .linkObservation fun now db => db.linkObservation id canonical now
  if count = 0 then Eff.fail (.anyhow "Observation not found")

/-! ## transactions -/

/-- `INSERT INTO transactions`, with the two times defaulted. -/
def Database.insertTransaction (tx : TransactionsRow) (now : Int) (db : Database) :
    Except SqlError (Unit × Database) :=
  insertInto db.transactions "transactions.id"
    { tx with
      createdAt := some (tx.createdAt.getD now)
      updatedAt := some (tx.updatedAt.getD now) }
    (refersInto db.instruments tx.instrumentId &&
      refersInto db.transactions tx.parentTransactionId)
    fun T => { db with transactions := T }

def insertTransaction (tx : TransactionsRow) : Db Unit :=
  exec .insertTransaction fun now db => db.insertTransaction tx now

/-- `SELECT * FROM transactions WHERE id = ?1 AND is_deleted = 0`. -/
def Database.getTransaction (db : Database) (id : String) : Option TransactionsRow :=
  (db.transactions.find? id).filter (!·.isDeleted)

def getTransaction (id : String) : Db (Option TransactionsRow) :=
  query .selectTransaction (·.getTransaction id)

/-- An `UPDATE transactions … WHERE id = ?` that no constraint can stop. -/
def Database.updateTransaction (id : String) (u : Patch TransactionsRow) (db : Database) :
    Database :=
  { db with transactions := db.transactions.modify id u }

/-- The `WHERE` clause of `find_candidates_within_window`. -/
def inWindow (instrumentId : String) (amountMinor : Int) (currency direction : String)
    (eventTime windowSeconds : Int) (t : TransactionsRow) : Bool :=
  t.instrumentId = some instrumentId && t.amountMinor = some amountMinor &&
    t.currency = some currency && t.direction = some direction && !t.isDeleted &&
    t.bestEventTime.any fun bt =>
      eventTime - windowSeconds ≤ bt && bt ≤ eventTime + windowSeconds

def findCandidatesWithinWindow [Extern] (instrumentId : String) (amountMinor : Int)
    (currency direction : String) (eventTime daysWindow : Int) : Db (List TransactionsRow) :=
  let windowSeconds := daysWindow * 24 * 60 * 60
  query .selectCandidates fun db => scan (db.transactions.rows.filter
    (inWindow instrumentId amountMinor currency direction eventTime windowSeconds))

/-- Earlier debits with the merchant on the instrument, oldest first. -/
def findPriorOccurrencesForMerchant [Extern] (instrumentId merchantEntityId excludeId : String) :
    Db (List TransactionsRow) :=
  query .selectPriorOccurrences fun db =>
    orderBy (fun a b => nullsFirst a.bestEventTime b.bestEventTime) (scan
      (db.transactions.rows.filter fun t =>
        t.instrumentId = some instrumentId && t.merchantEntityId = some merchantEntityId &&
          t.direction = some "debit" && !t.isDeleted && t.id != excludeId &&
          t.bestEventTime.isSome))

/-! ## merchants -/

/-- The merchant an alias names. -/
def Database.selectByAlias [Extern] (db : Database) (name : String) : Option MerchantsRow :=
  (scan (db.merchants.rows.filter fun m => !m.isDeleted &&
    db.merchantAliases.rows.any fun a =>
      a.merchantEntityId = m.id && a.aliasNormalized = toUppercase name)).head?

def selectByAlias [Extern] (name : String) : Db (Option MerchantsRow) :=
  query .selectByAlias (·.selectByAlias name)

def selectAllMerchants [Extern] : Db (List MerchantsRow) :=
  query .selectMerchants fun db => scan (db.merchants.rows.filter (!·.isDeleted))

/-- `INSERT INTO merchants`, with `UNIQUE(normalized_name)`. -/
def Database.insertMerchant (m : MerchantsRow) (db : Database) :
    Except SqlError (Unit × Database) :=
  if db.merchants.rows.any (·.normalizedName = m.normalizedName) then
    .error (uniqueFailed "merchants.normalized_name")
  else insertInto db.merchants "merchants.id" m true fun T => { db with merchants := T }

theorem Database.insertMerchant_eq_ok {m : MerchantsRow} {db db' : Database} {u : Unit} :
    db.insertMerchant m = .ok (u, db') ↔
      (∀ x ∈ db.merchants, x.normalizedName ≠ m.normalizedName) ∧
      ∃ T, db.merchants.insert? m = some T ∧ db' = { db with merchants := T } := by
  unfold insertMerchant
  split
  · next h =>
      simp only [List.any_eq_true, decide_eq_true_eq] at h
      obtain ⟨x, hx, hname⟩ := h
      simp only [reduceCtorEq, false_iff, not_and]
      exact fun hall => absurd hname (hall x hx)
  · next h =>
      simp only [List.any_eq_true, decide_eq_true_eq, not_exists, not_and] at h
      simp only [insertInto_eq_ok, true_and]
      exact ⟨fun hT => ⟨h, hT⟩, fun hT => hT.2⟩

def insertMerchant (m : MerchantsRow) : Db Unit :=
  exec .insertMerchant fun _ db => db.insertMerchant m

/-- `INSERT INTO merchant_aliases`, with `UNIQUE(alias_normalized)`. -/
def Database.insertAlias (a : MerchantAliasesRow) (db : Database) :
    Except SqlError (Unit × Database) :=
  if db.merchantAliases.rows.any (·.aliasNormalized = a.aliasNormalized) then
    .error (uniqueFailed "merchant_aliases.alias_normalized")
  else insertInto db.merchantAliases "merchant_aliases.id" a
    (db.merchants.contains a.merchantEntityId) fun T => { db with merchantAliases := T }

theorem Database.insertAlias_ok {a : MerchantAliasesRow} {db db' : Database} {u : Unit}
    (h : db.insertAlias a = .ok (u, db')) : ∃ T, db' = { db with merchantAliases := T } := by
  unfold insertAlias at h
  split at h
  · simp at h
  · obtain ⟨T, _, _, rfl⟩ := insertInto_eq_ok.mp h
    exact ⟨T, rfl⟩

/-- `insert_alias`, issued at one of two places. -/
def insertAlias (site : Stmt) (a : MerchantAliasesRow) : Db Unit :=
  exec site fun _ db => db.insertAlias a

/-! ## recurring_payments -/

def findRecurring [Extern] (instrumentId merchantEntityId : String) : Db (Option RecurringPaymentsRow) :=
  query .selectRecurring fun db => (scan (db.recurringPayments.rows.filter fun r =>
    r.instrumentId = some instrumentId && r.merchantEntityId = some merchantEntityId)).head?

/-- `INSERT INTO recurring_payments`; the two times are the column defaults. -/
def Database.insertRecurring (r : RecurringPaymentsRow) (now : Int) (db : Database) :
    Except SqlError (Unit × Database) :=
  insertInto db.recurringPayments "recurring_payments.id"
    { r with createdAt := now, updatedAt := now }
    (refersInto db.merchants r.merchantEntityId && refersInto db.instruments r.instrumentId)
    fun T => { db with recurringPayments := T }

def insertRecurring (r : RecurringPaymentsRow) : Db Unit :=
  exec .insertRecurring fun now db => db.insertRecurring r now

/-- What `recurring_payments::update` writes into the row it finds, the trigger
on `updated_at` included. -/
def recurringPatch (r : RecurringPaymentsRow) (now : Int) : Patch RecurringPaymentsRow where
  run old := { r with id := old.id, createdAt := old.createdAt, updatedAt := now }
  key_run _ := rfl

/-- `UPDATE recurring_payments … WHERE id = ?1`. -/
def Database.updateRecurring (r : RecurringPaymentsRow) (now : Int) (db : Database) :
    Except SqlError (Unit × Database) :=
  if !db.recurringPayments.contains r.id ||
      (refersInto db.merchants r.merchantEntityId && refersInto db.instruments r.instrumentId) then
    .ok ((), { db with
      recurringPayments := db.recurringPayments.modify r.id (recurringPatch r now) })
  else .error foreignKeyFailed

theorem Database.updateRecurring_ok {r : RecurringPaymentsRow} {now : Int} {db db' : Database}
    {u : Unit} (h : db.updateRecurring r now = .ok (u, db')) :
    ∃ T, db' = { db with recurringPayments := T } := by
  unfold updateRecurring at h
  split at h
  · cases h
    exact ⟨_, rfl⟩
  · simp at h

def updateRecurring (r : RecurringPaymentsRow) : Db Unit :=
  exec .updateRecurring fun now db => db.updateRecurring r now

/-! ## audit_log and match_decisions -/

def Database.insertAudit (r : AuditLogRow) (db : Database) : Except SqlError (Unit × Database) :=
  insertInto db.auditLog "audit_log.id" r true fun T => { db with auditLog := T }

/-- `INSERT INTO audit_log`, issued at one of several places; `created_at` is
`CURRENT_TIMESTAMP`. -/
def insertAudit (site : Stmt) (r : AuditLogRow) : Db Unit :=
  exec site fun now db => db.insertAudit { r with createdAt := now }

def Database.insertMatchDecision (r : MatchDecisionsRow) (db : Database) :
    Except SqlError (Unit × Database) :=
  insertInto db.matchDecisions "match_decisions.id" r
    (refersInto db.observations r.observationId &&
      refersInto db.transactions r.matchedTransactionId)
    fun T => { db with matchDecisions := T }

end Dinero
