import Dinero.Extern
import Dinero.Sql

/-!
# Dinero.Schema

The tables behind reconciliation, as the migrations leave them: row types
with the columns the modelled statements read or write, the `Database` they
make up, and the constraint checks an `INSERT` or `UPDATE` runs into.

`Stmt` names the statements themselves, one constructor for each place in the
program that issues one, so that a fault plan can say which of them fails.
-/

namespace Dinero

open Sql

/-! ## the values of enumerated columns -/

inductive TransactionStatus
  | posted | refunded
deriving DecidableEq, Repr

inductive SourceMix
  | emailOnly | statementOnly | merged | manual
deriving DecidableEq, Repr

inductive TransactionSubtype
  | refund | emiInstallment
deriving DecidableEq, Repr

inductive ClusterStatus
  | open | resolved | deferred | rejected
deriving DecidableEq, Repr

inductive ClusterReason
  | multipleHighScoreCandidates | midRangeScore
deriving DecidableEq, Repr

inductive MemberRole
  | incoming | candidateA | candidateB | candidateOther
deriving DecidableEq, Repr

/-- `match_decisions.decision`. -/
inductive Decision
  | autoMatchedExact | autoMatchedScored | ambiguousPending | newCanonical
  | manuallyConfirmed | manuallyCorrected | rejectedMatch
deriving DecidableEq, Repr

inductive ReviewStatus
  | notRequired | pendingReview | reviewed
deriving DecidableEq, Repr

inductive MerchantSource
  | user | system
deriving DecidableEq, Repr

/-- `recurring_payments.cadence`: what detection writes, or another text. -/
inductive Cadence
  | weekly | monthly | custom
  | other (text : String) (h : text ∉ ["weekly", "monthly", "custom"])
deriving DecidableEq, Repr

def Cadence.ofText (text : String) : Cadence :=
  if h : text ∈ ["weekly", "monthly", "custom"] then
    if text = "weekly" then weekly else if text = "monthly" then monthly else custom
  else other text h

/-! ## rows -/

/-- An instrument.  Its id is a printed UUID, never the empty text. -/
structure InstrumentsRow where
  id : String
  id_ne : id ≠ ""
deriving DecidableEq

structure TransactionsRow where
  id : String
  instrumentId : Option String
  direction : Option String
  amountMinor : Option Int
  currency : Option String
  authorizationTime : Option Int
  bestEventTime : Option Int
  eventTimeConfidence : Option String
  bestPostingDate : Option Int
  merchantDisplayName : Option String
  merchantNormalizedName : Option String
  merchantEntityId : Option String
  referenceId : Option String
  status : Option TransactionStatus
  sourceMix : Option SourceMix
  alertFired : Option Bool
  parentTransactionId : Option String
  transactionSubtype : Option TransactionSubtype
  emiGroupId : Option String
  categoryId : Option String
  channel : Option String
  isDeleted : Bool
  createdAt : Option Int
  updatedAt : Option Int
deriving DecidableEq, Repr

structure TransactionObservationsRow where
  id : String
  canonicalTransactionId : Option String
  sourcePipeline : Option String
  sourceRecordId : Option String
  statementId : Option String
  statementEntryId : Option String
  instrumentId : Option String
  direction : Option String
  amountMinor : Option Int
  currency : Option String
  eventTime : Option Int
  eventTimeConfidence : Option String
  merchantRaw : Option String
  referenceId : Option String
  fingerprint : Option String
  confidenceScore : Option ℚ
  emiTotalInstallments : Option Int
  emiOriginalAmountMinor : Option Int
  channel : Option String
  isDeleted : Bool
  createdAt : Option Int
  updatedAt : Option Int
deriving DecidableEq, Repr

structure MatchDecisionsRow where
  id : String
  observationId : Option String
  matchedTransactionId : Option String
  decision : Decision
  score : ℚ
  reviewStatus : ReviewStatus
  reviewedBy : Option String
  createdAt : Int
deriving DecidableEq, Repr

structure ReconciliationClustersRow where
  id : String
  clusterStatus : ClusterStatus
  reason : Option ClusterReason
  createdAt : Int
  resolvedAt : Option Int
deriving DecidableEq, Repr

structure ReconciliationClusterMembersRow where
  id : String
  clusterId : String
  observationId : Option String
  canonicalTransactionId : Option String
  memberRole : MemberRole
  addedAt : Int
  matchScore : Option ℚ
deriving DecidableEq, Repr

structure MerchantsRow where
  id : String
  name : String
  normalizedName : String
  source : MerchantSource
  isDeleted : Bool
  createdAt : Option Int
  updatedAt : Option Int
deriving DecidableEq, Repr

structure MerchantAliasesRow where
  id : String
  merchantEntityId : String
  aliasRaw : String
  aliasNormalized : String
  confidence : ℚ
  createdAt : Option Int
deriving DecidableEq, Repr

structure RecurringPaymentsRow where
  id : String
  merchantEntityId : Option String
  instrumentId : Option String
  amountMinor : Option Int
  cadence : Option Cadence
  nextPredictedDate : Option Int
  nextPredictedAmount : Option ℚ
  confidence : Option ℚ
  status : Option String
  source : String
  createdAt : Int
  updatedAt : Int
  currency : Option String := none
  nextBillingDate : Option Int := none
  externalMandateId : Option String := none
deriving DecidableEq, Repr

structure CategoriesRow where
  id : String
  name : String
  monthlyBudgetMinor : Option Int
  isDeleted : Bool
deriving DecidableEq, Repr

/-- The two shapes `before_json` and `after_json` take. -/
inductive AuditSnapshot
  | statement (referenceId : Option String) (bestPostingDate : Option Int)
      (merchantDisplayName : Option String) (amountMinor : Option Int)
  | email (referenceId merchantDisplayName : Option String)
deriving DecidableEq, Repr

structure AuditLogRow where
  id : String
  actorType : String
  actorId : String
  action : String
  resourceType : String
  resourceId : String
  beforeJson : Option AuditSnapshot
  afterJson : Option AuditSnapshot
  createdAt : Int
deriving DecidableEq, Repr

instance : Keyed InstrumentsRow String := ⟨(·.id)⟩
instance : Keyed TransactionsRow String := ⟨(·.id)⟩
instance : Keyed TransactionObservationsRow String := ⟨(·.id)⟩
instance : Keyed MatchDecisionsRow String := ⟨(·.id)⟩
instance : Keyed ReconciliationClustersRow String := ⟨(·.id)⟩
instance : Keyed ReconciliationClusterMembersRow String := ⟨(·.id)⟩
instance : Keyed MerchantsRow String := ⟨(·.id)⟩
instance : Keyed MerchantAliasesRow String := ⟨(·.id)⟩
instance : Keyed RecurringPaymentsRow String := ⟨(·.id)⟩
instance : Keyed CategoriesRow String := ⟨(·.id)⟩
instance : Keyed AuditLogRow String := ⟨(·.id)⟩

/-! ## the database -/

/-- All tables the modelled statements touch.  Of statements and their
entries only the ids matter here, as targets of foreign keys. -/
structure Database where
  instruments : Table InstrumentsRow
  statements : List String
  statementEntries : List String
  transactions : Table TransactionsRow
  observations : Table TransactionObservationsRow
  matchDecisions : Table MatchDecisionsRow
  clusters : Table ReconciliationClustersRow
  clusterMembers : Table ReconciliationClusterMembersRow
  merchants : Table MerchantsRow
  merchantAliases : Table MerchantAliasesRow
  recurringPayments : Table RecurringPaymentsRow
  auditLog : Table AuditLogRow

/-- No transaction was ever observed: the ledger's own tables are empty, the
tables other parts of the program fill are as they may be. -/
structure Database.EmptyLedger (db : Database) : Prop where
  transactions : db.transactions = .empty
  observations : db.observations = .empty
  matchDecisions : db.matchDecisions = .empty
  clusters : db.clusters = .empty
  clusterMembers : db.clusterMembers = .empty

/-! ## constraints -/

def constraintFailed (msg : String) : SqlError :=
  .sqliteFailure .constraintViolation (some msg)

def uniqueFailed (columns : String) : SqlError :=
  constraintFailed ("UNIQUE constraint failed: " ++ columns)

def foreignKeyFailed : SqlError := constraintFailed "FOREIGN KEY constraint failed"

/-- A nullable foreign key: `NULL` refers to nothing and is fine. -/
def refersInto {α : Type} [Keyed α String] (T : Table α) : Option String → Bool
  | none => true
  | some k => T.contains k

/-- `INSERT` of `r` into the table `T`, which `put` replaces: the primary key is
checked first, foreign keys at the end of the statement. -/
def insertInto {α : Type} [Keyed α String] (T : Table α) (keyColumn : String) (r : α)
    (foreignKeys : Bool) (put : Table α → Database) : Except SqlError (Unit × Database) :=
  match T.insert? r with
  | none => .error (uniqueFailed keyColumn)
  | some T' => if foreignKeys then .ok ((), put T') else .error foreignKeyFailed

theorem insertInto_eq_ok {α : Type} [Keyed α String] {T : Table α} {col : String} {r : α}
    {fk : Bool} {put : Table α → Database} {u : Unit} {db : Database} :
    insertInto T col r fk put = .ok (u, db) ↔
      ∃ T', T.insert? r = some T' ∧ fk = true ∧ db = put T' := by
  unfold insertInto
  cases T.insert? r with
  | none => simp
  | some T₁ => cases fk <;> simp [eq_comm]

/-! ## statement names -/

/-- The places in the program that issue a statement. -/
inductive Stmt
  -- transaction control
  | beginIngest | commitUnreconciled | commitReconciled | commitDuplicate
  | rollbackFailedCommit | rollbackFailedReconcile | rollbackFailedInsert
  | beginReconcile | commitReconcile | rollbackReconcile
  -- looking for a match
  | insertObservation | selectCandidates | selectByFingerprint | selectTransaction
  -- merging and linking
  | selectBeforeStatement | updateWithStatement | auditStatement
  | updateFromEmail | auditEmailFill
  | selectConfidenceByDecision | selectConfidenceByLink | selectBeforeOverwrite
  | updateFromConfidentEmail | auditConfidentEmail
  | linkObservation | insertTransaction | insertMatchDecision
  -- merchant names
  | selectByAlias | selectMerchants | insertFuzzyAlias | insertMerchant | insertAlias
  -- post-processing
  | selectRefundDebit | linkRefund | markRefunded | updateMerchant
  | selectMerchantEntity | selectPriorOccurrences | selectRecurring
  | updateRecurring | insertRecurring | selectMerchantNormalized | updateEmi
  -- clusters
  | selectOverlappingCluster | extendCluster | insertCluster | insertIncoming
  | insertCandidate
  | deferCluster | auditDeferred | closeCluster | selectObservation | auditResolved
  | reopenCluster
deriving DecidableEq, Repr

/-- Statements over the database. -/
abbrev Db := Prog Stmt Database

end Dinero
