import Dinero.Fresh
import Dinero.Verdict

/-!
# Dinero.Ledger

The ledger over time: the operations that arrive, what one of them does when
no statement fails by itself, and the runs they make up.

`ingest_quiet` evaluates `ingest_observation` down to the insertion and the
verdict; `Op.ingest_cases` is the form the invariant proofs split on.  Runs
start from an empty ledger and take steps a predicate admits; `Reachable.rec_on`
is the induction over them.
-/

namespace Dinero

open Sql Relation

variable [Extern]

/-! ## one ingestion -/

omit [Extern] in
theorem insertObservation_quiet (row : TransactionObservationsRow) (now : Int)
    (s : Store Database) :
    insertObservation row (.quiet now) s = match s.db.insertObservation row with
      | .ok (_, db) => (.ok (), { s with db := db })
      | .error e => (.error e, s) := by
  rw [insertObservation, exec_quiet]
  cases s.db.insertObservation row <;> rfl

omit [Extern] in
theorem insertObservationIdempotent_quiet (row : TransactionObservationsRow) (now : Int)
    (s : Store Database) :
    insertObservationIdempotent row (.quiet now) s = match s.db.insertObservation row with
      | .ok (_, db) => (.ok .inserted, { s with db := db })
      | .error e => if isSourceRecordDuplicate e then (.ok .duplicateSkipped, s)
          else (.error e, s) := by
  rw [insertObservationIdempotent, Eff.bind_apply, Eff.attempt_apply, insertObservation_quiet]
  cases s.db.insertObservation row with
  | ok r => rfl
  | error e => simp only; split <;> rfl

omit [Extern] in
theorem abandon_quiet (site : Stmt) (e : SqlError) (now : Int) (s : Store Database)
    (db : Database) : abandon (α := α) site e (.quiet now) ⟨s, some db⟩
      = (.error e, ⟨{ s with db := db }, none⟩) := by
  rw [abandon, Eff.bind_apply, Eff.attempt_apply, rollback_quiet rfl]
  rfl

omit [Extern] in
theorem commitAndReturn_quiet (site : Stmt) (outcome : InsertObservationOutcome) (now : Int)
    (s : Store Database) (db : Database) :
    commitAndReturn site outcome (.quiet now) ⟨s, some db⟩ = (.ok (outcome, none), ⟨s, none⟩) := by
  rw [commitAndReturn, Eff.bind_of_ok (commit_quiet rfl _ now)]
  rfl

theorem reconcileAndCommit_quiet (obs : IncomingObservation) (now : Int) (s : Store Database)
    (db : Database) :
    reconcileAndCommit obs (.quiet now) ⟨s, some db⟩ =
      match fetchAndReconcile obs (.quiet now) s with
      | (.ok decision, s') => (.ok (.inserted, some decision), ⟨s', none⟩)
      | (.error e, s') => (.error e, ⟨{ s' with db := db }, none⟩) := by
  rw [reconcileAndCommit, Eff.bind_apply, Eff.attempt_apply, Session.lift_apply]
  rcases fetchAndReconcile obs (.quiet now) s with ⟨_ | decision, s'⟩
  · exact abandon_quiet _ _ now s' db
  · simp only
    rw [Eff.bind_apply, Eff.attempt_apply, commit_quiet rfl]
    rfl

/-- **An undisturbed ingestion**: insert, then decide, then commit; after an
error the tables are those of before. -/
theorem ingest_quiet (row : TransactionObservationsRow) (shouldReconcile : Bool) (now : Int)
    (s : Store Database) :
    ingestObservation row shouldReconcile (.quiet now) ⟨s, none⟩ =
      match s.db.insertObservation row with
      | .error e =>
        if isSourceRecordDuplicate e then (.ok (.duplicateSkipped, none), ⟨s, none⟩)
        else (.error e, ⟨s, none⟩)
      | .ok (_, db) =>
        if !shouldReconcile || row.instrumentId.isNone then
          (.ok (.inserted, none), ⟨{ s with db := db }, none⟩)
        else match fetchAndReconcile (incomingOf row (row.instrumentId.getD "")) (.quiet now)
            { s with db := db } with
          | (.ok decision, s') => (.ok (.inserted, some decision), ⟨s', none⟩)
          | (.error e, s') => (.error e, ⟨{ s' with db := s.db }, none⟩) := by
  rw [ingestObservation, Eff.bind_of_ok (beginImmediate_quiet rfl _ now), Eff.bind_apply,
    Eff.attempt_apply, Session.lift_apply, insertObservationIdempotent_quiet]
  cases s.db.insertObservation row with
  | error e =>
    by_cases hdup : isSourceRecordDuplicate e = true
    · simp only [hdup, if_true]
      exact commitAndReturn_quiet _ _ now s s.db
    · simp only [hdup]
      exact abandon_quiet _ e now s s.db
  | ok r =>
    simp only
    split
    · exact commitAndReturn_quiet _ _ now _ s.db
    · exact reconcileAndCommit_quiet _ now _ s.db

/-! ## operations -/

/-- What can happen to the ledger. -/
inductive Op
  | ingest (row : TransactionObservationsRow) (shouldReconcile : Bool)
  | resolve (clusterId observationId action : String) (chosenCanonicalId : Option String)
  | unmerge (clusterId : String)

/-- The operation is an ingestion. -/
def Op.IsIngest : Op → Prop
  | .ingest _ _ => True
  | _ => False

/-- One operation on an idle connection, at time `now`, with no statement
failing by itself. -/
def Op.run (now : Int) (s : Store Database) : Op → Store Database
  | .ingest row shouldReconcile =>
    (ingestObservation row shouldReconcile (.quiet now) ⟨s, none⟩).2.store
  | .resolve clusterId observationId action chosenCanonicalId =>
    (resolveCluster clusterId observationId action chosenCanonicalId (.quiet now) s).2
  | .unmerge clusterId => (Dinero.unmerge clusterId (.quiet now) s).2

/-- An ingestion leaves the connection idle, so that the next operation finds
it as `Op.run` assumes. -/
theorem ingest_quiet_idle (row : TransactionObservationsRow) (shouldReconcile : Bool) (now : Int)
    (s : Store Database) :
    (ingestObservation row shouldReconcile (.quiet now) ⟨s, none⟩).2.saved = none := by
  rw [ingest_quiet]
  cases s.db.insertObservation row with
  | error e => simp only; split <;> rfl
  | ok r =>
    obtain ⟨_, db⟩ := r
    simp only
    split
    · rfl
    · rcases fetchAndReconcile (incomingOf row (row.instrumentId.getD "")) (.quiet now)
        { s with db := db } with ⟨_ | decision, s'⟩ <;> rfl

/-- The tables after an ingestion: as before, or with the row inserted and
left alone, or with the row inserted and the verdict on it acted upon. -/
theorem Op.ingest_cases (row : TransactionObservationsRow) (shouldReconcile : Bool) (now : Int)
    (s : Store Database) :
    ((Op.ingest row shouldReconcile).run now s).db = s.db ∨
    (∃ db, s.db.insertObservation row = .ok ((), db) ∧
      (shouldReconcile = false ∨ row.instrumentId = none) ∧
      (Op.ingest row shouldReconcile).run now s = { s with db := db }) ∨
    (∃ db instrumentId dt decision, s.db.insertObservation row = .ok ((), db) ∧
      shouldReconcile = true ∧ row.instrumentId = some instrumentId ∧ row.eventTime = some dt ∧
      actOn (incomingOf row instrumentId) (db.verdict (incomingOf row instrumentId)) (.quiet now)
        { s with db := db } = (.ok decision, (Op.ingest row shouldReconcile).run now s)) := by
  simp only [Op.run]
  rw [ingest_quiet]
  cases hins : s.db.insertObservation row with
  | error e => left; simp only; split <;> rfl
  | ok r =>
    obtain ⟨_, db⟩ := r
    simp only
    split
    · next hskip =>
        refine .inr (.inl ⟨db, rfl, ?_, rfl⟩)
        simpa using hskip
    · next hskip =>
        obtain ⟨hrec, instrumentId, hinst⟩ : shouldReconcile = true ∧ ∃ i, row.instrumentId = some i
          := by simpa [Option.isNone_iff_eq_none, Option.ne_none_iff_exists'] using hskip
        simp only [hinst, Option.getD_some]
        cases ht : row.eventTime with
        | none =>
          have hparse : (incomingOf row instrumentId).eventTime.parse = none := by
            simp [incomingOf, ht]
          obtain ⟨e, he⟩ := fetchAndReconcile_unparseable hparse (.quiet now)
            ({ s with db := db } : Store Database)
          left
          rw [he]
        | some dt =>
          have hparse : (incomingOf row instrumentId).eventTime.parse = some dt := by
            simp [incomingOf, ht]
          rw [fetchAndReconcile_quiet hparse]
          rcases hact : actOn (incomingOf row instrumentId)
              (db.verdict (incomingOf row instrumentId)) (.quiet now) { s with db := db }
            with ⟨_ | decision, s'⟩
          · exact .inl rfl
          · exact .inr (.inr ⟨db, instrumentId, dt, decision, rfl, hrec, rfl, rfl, hact⟩)

/-! ## runs -/

/-- Ids stay fresh: an operation draws them and nothing else names rows. -/
theorem Op.run_fresh {s : Store Database} (h : Fresh s) (now : Int) (op : Op) :
    Fresh (op.run now s) := by
  cases op with
  | ingest row shouldReconcile =>
    simp only [Op.run]
    rw [ingest_quiet]
    cases hins : s.db.insertObservation row with
    | error e => simp only; split <;> exact h
    | ok r =>
      obtain ⟨_, db⟩ := r
      have hdb : FreshWith [] db s.nextUuid := by
        unfold FreshWith
        rw [rowIds_insertObservation hins]
        exact h
      simp only
      split
      · exact hdb
      · have hk := keeps_fetchAndReconcile (incomingOf row (row.instrumentId.getD ""))
          (.quiet now) { s with db := db } hdb
        have hle := nextUuid_le_of_keeps
          (fun _ => keeps_fetchAndReconcile (incomingOf row (row.instrumentId.getD "")))
          (s := { s with db := db }) hdb (.quiet now)
        rcases hr : fetchAndReconcile (incomingOf row (row.instrumentId.getD "")) (.quiet now)
          { s with db := db } with ⟨_ | decision, s'⟩
        · -- rolled back: the tables are those of before, the draws are not
          rw [hr] at hle
          exact ⟨fun k hk => h.1 k (Nat.le_trans hle hk), by simp⟩
        · rw [hr] at hk
          exact hk
  | resolve clusterId obsId action chosen =>
    exact keeps_resolveCluster clusterId obsId action chosen (.quiet now) s h
  | unmerge clusterId => exact keeps_unmerge clusterId (.quiet now) s h

/-- Where a ledger starts: nothing observed yet, all ids still to be drawn. -/
structure Initial (s : Store Database) : Prop where
  empty : s.db.EmptyLedger
  fresh : Fresh s

/-- One operation that `P` admits in the state it meets. -/
def Step (P : Store Database → Op → Prop) (s s' : Store Database) : Prop :=
  ∃ op now, P s op ∧ s' = op.run now s

/-- The states some run from an empty ledger gets to, all of whose operations
`P` admits. -/
def Reachable (P : Store Database → Op → Prop) (s : Store Database) : Prop :=
  ∃ s₀, Initial s₀ ∧ ReflTransGen (Step P) s₀ s

/-- **Induction over runs**, with fresh ids at every step. -/
theorem Reachable.invariant {P : Store Database → Op → Prop} {I : Database → Prop}
    (init : ∀ s, Initial s → I s.db)
    (step : ∀ s op now, Fresh s → I s.db → P s op → I (op.run now s).db) {s : Store Database}
    (h : Reachable P s) : Fresh s ∧ I s.db := by
  obtain ⟨s₀, h₀, hrun⟩ := h
  induction hrun with
  | refl => exact ⟨h₀.fresh, init s₀ h₀⟩
  | tail _ hstep ih =>
    obtain ⟨op, now, hP, rfl⟩ := hstep
    exact ⟨Op.run_fresh ih.1 now op, step _ op now ih.1 ih.2 hP⟩

/-- Operations one after the other, each at its time. -/
def runAll (s : Store Database) : List (Int × Op) → Store Database
  | [] => s
  | (now, op) :: rest => runAll (op.run now s) rest

theorem runAll_fresh {s : Store Database} (h : Fresh s) (ops : List (Int × Op)) :
    Fresh (runAll s ops) := by
  induction ops generalizing s with
  | nil => exact h
  | cons op rest ih => exact ih (Op.run_fresh h op.1 op.2)

/-- `P` admits every operation of the list in the state it meets. -/
def Admits (P : Store Database → Op → Prop) (s : Store Database) : List (Int × Op) → Prop
  | [] => True
  | (now, op) :: rest => P s op ∧ Admits P (op.run now s) rest

theorem reachable_runAll {P : Store Database → Op → Prop} {s : Store Database} (hs : Reachable P s)
    {ops : List (Int × Op)} (hops : Admits P s ops) : Reachable P (runAll s ops) := by
  induction ops generalizing s with
  | nil => exact hs
  | cons op rest ih =>
    obtain ⟨s₀, h₀, hrun⟩ := hs
    exact ih ⟨s₀, h₀, hrun.tail ⟨op.2, op.1, hops.1, rfl⟩⟩ hops.2

theorem Initial.reachable {P : Store Database → Op → Prop} {s : Store Database} (h : Initial s) :
    Reachable P s := ⟨s, h, .refl⟩

/-! ## a first ledger -/

/-- The ledger of somebody with one account, before anything was observed. -/
def firstLedger : Store Database where
  db := {
    instruments := ⟨[⟨"account", by decide⟩], by decide⟩
    statements := [], statementEntries := []
    transactions := .empty, observations := .empty, matchDecisions := .empty
    clusters := .empty, clusterMembers := .empty
    merchants := .empty, merchantAliases := .empty, recurringPayments := .empty
    auditLog := .empty }
  nextUuid := 0
  skip := none

theorem initial_firstLedger : Initial firstLedger where
  empty := ⟨rfl, rfl, rfl, rfl, rfl⟩
  fresh := ⟨fun _ _ h => absurd h List.not_mem_nil, by simp⟩

/-- An observation on that account, with the fields the matcher asks for. -/
def observed (id pipeline direction : String) (amountMinor eventTime : Int) :
    TransactionObservationsRow where
  id := id
  canonicalTransactionId := none
  sourcePipeline := some pipeline
  sourceRecordId := some id
  statementId := none
  statementEntryId := none
  instrumentId := some "account"
  direction := some direction
  amountMinor := some amountMinor
  currency := some "INR"
  eventTime := some eventTime
  eventTimeConfidence := none
  merchantRaw := none
  referenceId := none
  fingerprint := none
  confidenceScore := none
  emiTotalInstallments := none
  emiOriginalAmountMinor := none
  channel := none
  isDeleted := false
  createdAt := some eventTime
  updatedAt := some eventTime

/-- A debit of that account, as the ledger keeps it. -/
def debited (id : String) (amountMinor eventTime : Int) : TransactionsRow where
  id := id
  instrumentId := some "account"
  direction := some "debit"
  amountMinor := some amountMinor
  currency := some "INR"
  authorizationTime := none
  bestEventTime := some eventTime
  eventTimeConfidence := none
  bestPostingDate := none
  merchantDisplayName := none
  merchantNormalizedName := none
  merchantEntityId := none
  referenceId := none
  status := some .posted
  sourceMix := some .emailOnly
  alertFired := some false
  parentTransactionId := none
  transactionSubtype := none
  emiGroupId := none
  categoryId := none
  channel := none
  isDeleted := false
  createdAt := none
  updatedAt := none

/-- An email about a purchase of 500 at a known merchant. -/
def purchase (id : String) (eventTime : Int) (referenceId : Option String) :
    TransactionObservationsRow :=
  { observed id "gmail_transaction" "debit" 500 eventTime with
    merchantRaw := some "ZOMATO", referenceId := referenceId }

/-- Two purchases the scorer keeps apart by their reference ids, and a third it
cannot tell from either. -/
def ambiguousRun : List (Int × Op) :=
  [(1001, .ingest (purchase "o1" 1000 (some "UTR111")) true),
    (1002, .ingest (purchase "o2" 1000 (some "IMPS999")) true),
    (1003, .ingest (purchase "o3" 1000 none) true)]

end Dinero
