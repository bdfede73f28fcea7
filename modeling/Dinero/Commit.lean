import Dinero.StatementRows
import Dinero.Statements

/-!
# Dinero.Commit

A draft is committed, statement by statement.

`Statements` says what a commit leaves on the desk.  Here the entries of the
statement and the observations made from them are in the picture too, and the
call is a machine: each of its steps is one statement, or, for the ingestion of
a row, one transaction, which `BEGIN IMMEDIATE` keeps apart from all other
writers.  A step may be the one that fails.

The bill columns a commit refreshes on the instrument stay out of the picture,
and so do alerts and events.
-/

namespace Dinero

open Sql

/-! ## the tables -/

structure StatementEntriesRow where
  id : String
  statementId : String
  rowIndex : Nat
  transactionDate : TimeText
  descriptionRaw : String
  merchantRaw : String
  amountMinor : Int
  currency : String
  direction : String
  referenceId : Option String
  createdAt : Int
deriving DecidableEq, Repr

instance : Keyed StatementEntriesRow String := ⟨(·.id)⟩

/-- The desk, the entries of the statements, and the ledger they go to. -/
structure Office where
  desk : Store Desk
  entries : Table StatementEntriesRow
  ledger : Store Database

/-- The entry `map_rows_to_statement_entries` inserts for a row. -/
def StatementRow.entry (row : StatementRow) (id statementId : String) (now : Int) :
    StatementEntriesRow where
  id := id
  statementId := statementId
  rowIndex := row.rowIndex
  transactionDate := row.transactionDate
  descriptionRaw := row.merchantRaw
  merchantRaw := row.merchantRaw
  amountMinor := row.amountMinor
  currency := row.currency
  direction := row.direction
  referenceId := row.referenceId
  createdAt := now

/-- `INSERT INTO statement_entries`: the statement has to be there. -/
def Office.insertEntry (w : Office) (r : StatementEntriesRow) : Option Office :=
  if r.statementId ∈ w.ledger.db.statements then
    (w.entries.insert? r).map fun T =>
      { w with
        entries := T
        ledger := { w.ledger with
          db := { w.ledger.db with statementEntries := r.id :: w.ledger.db.statementEntries } } }
  else none

/-- The desk is elsewhere. -/
theorem Office.insertEntry_desk {w w' : Office} {r : StatementEntriesRow}
    (h : w.insertEntry r = some w') : w'.desk = w.desk := by
  unfold insertEntry at h
  split at h
  · obtain ⟨T, -, rfl⟩ := Option.map_eq_some_iff.mp h
    rfl
  · cases h

/-- `INSERT INTO statements`. -/
def Office.insertStatement (w : Office) (r : StatementsRow) (file : Option Bytes) :
    Option Office :=
  (w.desk.db.statements.insert? r).map fun T =>
    { w with
      desk := { w.desk with
        db := { w.desk.db with statements := T, file := Function.update w.desk.db.file r.id file } }
      ledger := { w.ledger with
        db := { w.ledger.db with statements := r.id :: w.ledger.db.statements } } }

/-- `Uuid::new_v4`, at the desk. -/
def Office.draw (w : Office) : Office :=
  { w with desk := { w.desk with nextUuid := w.desk.nextUuid + 1 } }

/-! ## upcoming bills -/

/-- What the classifier takes from `chrono`: dates as year, month and day. -/
structure Calendar where
  parse : String → Option (Int × Nat × Nat)
  today : Int → Int × Nat × Nat

/-- Is the first date before the second? -/
def dateBefore (a b : Int × Nat × Nat) : Bool :=
  a.1 < b.1 || (a.1 = b.1 && (a.2.1 < b.2.1 || (a.2.1 = b.2.1 && a.2.2 < b.2.2)))

/-- Whether a statement represents a bill with an amount due. -/
def evaluateUpcomingBill (cal : Calendar) (now : Int) (m : StatementMetadata) : Bool :=
  match m.billingPeriodEnd.bind cal.parse, m.dueDate.bind cal.parse with
  | some (year, month, _), some due =>
    let today := cal.today now
    let prior := if today.2.1 = 1 then (today.1 - 1, 12) else (today.1, today.2.1 - 1)
    ((year = today.1 && month = today.2.1) || (year = prior.1 && month = prior.2)) &&
      dateBefore today due
  | _, _ => false

/-! ## the call -/

/-- The arguments of `commit_staged_draft`. -/
structure CommitCall where
  draftId : String
  edited : DraftMetadataUpdate
  rows : List StatementRow

/-- What the call holds once it writes. -/
structure CommitFrame where
  draft : StatementDraftRow
  instrumentId : String
  stmtId : String

inductive CommitStage
  /-- `SELECT … FROM statement_drafts` is next. -/
  | reading
  /-- `INSERT OR IGNORE INTO instruments`. -/
  | creatingInstrument (draft : StatementDraftRow)
  /-- `SELECT id FROM instruments`. -/
  | findingInstrument (draft : StatementDraftRow)
  /-- `UPDATE statements`. -/
  | updatingStatement (c : CommitFrame)
  /-- Nothing was updated: `INSERT INTO statements`. -/
  | insertingStatement (c : CommitFrame)
  /-- `UPDATE instruments`. -/
  | refreshingInstrument (c : CommitFrame)
  /-- `INSERT INTO statement_entries`, a row at a time. -/
  | insertingEntries (c : CommitFrame) (rows : List StatementRow) (entryIds : List String)
  /-- `ingest_observation`, a row at a time. -/
  | ingesting (c : CommitFrame) (observations : List IncomingObservation)
  /-- `UPDATE instruments`, if a bill is due. -/
  | classifying (c : CommitFrame)
  /-- `INSERT OR IGNORE INTO unprocessed_statements`. -/
  | retaining (c : CommitFrame)
  /-- `UPDATE unprocessed_statements`. -/
  | resolving (c : CommitFrame)
  /-- `UPDATE statement_drafts`. -/
  | committing (c : CommitFrame)
  | returned (r : Except SqlError String)

/-- How a step fails.  Where the step is a transaction, one issue of one of its statements
does; where it is a single statement, that one. -/
structure Fault where
  site : Stmt
  skip : Nat

/-- A statement whose failing ends the call. -/
def orReturn (fault : Option Fault) (w : Office) (next : Office × CommitStage) :
    Office × CommitStage :=
  match fault with
  | none => next
  | some _ => (w, .returned (.error ioFault))

/-- The instrument the user confirmed. -/
def CommitCall.key (call : CommitCall) : NaturalKey :=
  (call.edited.instrumentType, call.edited.issuerName, call.edited.maskedIdentifier)

/-- The row of the statement. -/
def CommitCall.statementRow (call : CommitCall) (c : CommitFrame) : StatementsRow :=
  call.edited.metadata.statementRow c.stmtId c.instrumentId call.edited.instrumentType
    (some c.draft.fileHash)

section Steps

variable [Extern]

/-- The ingestion of one row.  Its error is logged; the row has an entry of its own and is no
duplicate, so that the connection is idle again. -/
def Office.ingest (w : Office) (fault : Option Fault) (now : Int)
    (row : TransactionObservationsRow) : Office :=
  let r := ingestObservation row true ⟨now, fault.map (·.site)⟩
    ⟨{ w.ledger with skip := fault.map (·.skip) }, none⟩
  { w with ledger := { r.2.store with skip := none } }

variable (cal : Calendar) (call : CommitCall)

def CommitStage.step (fault : Option Fault) (now : Int) (w : Office) :
    CommitStage → Office × CommitStage
  | .reading => orReturn fault w <|
    match w.desk.db.drafts.find? call.draftId with
    | none => (w, .returned (.error (.anyhow ("draft not found: " ++ call.draftId))))
    | some draft =>
      if draft.status ≠ .pendingReview then
        (w, .returned (.error (.anyhow ("draft '" ++ call.draftId ++
          "' is not pending_review (status='" ++ draft.status.text ++
          "') — already committed or discarded"))))
      else (w, .creatingInstrument draft)
  | .creatingInstrument draft => orReturn fault w.draw
    ({ w with desk := (onInstruments (ingestInstrument call.key none) (.quiet now) w.desk).2 },
      .findingInstrument draft)
  | .findingInstrument draft => orReturn fault w <|
    match w.desk.db.instruments.findAny call.key with
    | none => (w, .returned (.error .queryReturnedNoRows))
    | some instrumentId =>
      ({ w.draw with
          ledger := { w.ledger with db := w.ledger.db.learnInstrument (some instrumentId) } },
        .updatingStatement ⟨draft, instrumentId, uuid w.desk.nextUuid⟩)
  | .updatingStatement c => orReturn fault w <|
    if w.desk.db.statements.contains c.stmtId then
      ({ w with
          desk := { w.desk with
            db := { w.desk.db with
              statements := w.desk.db.statements.modify c.stmtId
                (metadataPatch (call.statementRow c)) } } },
        .refreshingInstrument c)
    else (w, .insertingStatement c)
  | .insertingStatement c => orReturn fault w <|
    match w.insertStatement (call.statementRow c) (w.desk.db.file c.draft.id) with
    | some w' => (w', .refreshingInstrument c)
    | none => (w, .returned (.error (uniqueFailed "statements.id")))
  | .refreshingInstrument c => orReturn fault w (w, .insertingEntries c call.rows [])
  | .insertingEntries c (row :: rows) entryIds =>
    -- a row whose entry cannot be inserted is logged and left out
    let id := uuid w.desk.nextUuid
    match fault, w.draw.insertEntry (row.entry id c.stmtId now) with
    | none, some w' => (w', .insertingEntries c rows (entryIds ++ [id]))
    | _, _ => (w.draw, .insertingEntries c rows entryIds)
  | .insertingEntries c [] entryIds =>
    let observations :=
      buildAllObservations c.instrumentId call.rows entryIds w.ledger.nextUuid
    ({ w with
        ledger := { w.ledger with nextUuid := w.ledger.nextUuid + observations.length } },
      .ingesting c observations)
  | .ingesting c (obs :: observations) =>
    (w.ingest fault now (obs.storedAs c.stmtId), .ingesting c observations)
  | .ingesting c [] => (w, .classifying c)
  | .classifying c =>
    if evaluateUpcomingBill cal now call.edited.metadata then
      orReturn fault w (w, .retaining c)
    else (w, .retaining c)
  | .retaining c => orReturn fault w
    ({ w with
        desk := { w.desk with
          db := { w.desk.db with
            unprocessed := (w.desk.db.unprocessed.insert? (retentionRow call.draftId)).getD
              w.desk.db.unprocessed } } },
      .resolving c)
  | .resolving c => orReturn fault w
    ({ w with
        desk := { w.desk with
          db := { w.desk.db with
            unprocessed := w.desk.db.unprocessed.modify call.draftId
              (unprocessedPatch .resolved (some c.stmtId)) } } },
      .committing c)
  | .committing c => orReturn fault w
    ({ w with
        desk := { w.desk with
          db := { w.desk.db with
            drafts := w.desk.db.drafts.modify call.draftId (draftPatch .committed now) } } },
      .returned (.ok c.stmtId))
  | .returned r => (w, .returned r)

variable {cal call}

/-- The status is written last. -/
theorem CommitStage.step_drafts (fault : Option Fault) (now : Int) (w : Office)
    {stage : CommitStage} (h : ∀ c, stage ≠ .committing c) :
    (stage.step cal call fault now w).1.desk.db.drafts = w.desk.db.drafts := by
  cases stage with
  | committing c => exact absurd rfl (h c)
  | insertingEntries c rows entryIds =>
    cases rows with
    | nil => rfl
    | cons row rows =>
      simp only [CommitStage.step]
      split
      · next hw' =>
        have hdesk := Office.insertEntry_desk hw'
        rw [hdesk]
        rfl
      · rfl
  | insertingStatement c =>
    cases fault with
    | some f => rfl
    | none =>
      simp only [CommitStage.step, orReturn]
      split
      · next w' hw' =>
        obtain ⟨T, -, rfl⟩ := Option.map_eq_some_iff.mp hw'
        rfl
      · rfl
  | ingesting c observations => cases observations <;> rfl
  | reading =>
    cases fault with
    | some f => rfl
    | none =>
      simp only [CommitStage.step, orReturn]
      split
      · rfl
      · split <;> rfl
  | findingInstrument draft =>
    cases fault with
    | some f => rfl
    | none =>
      simp only [CommitStage.step, orReturn]
      split <;> rfl
  | updatingStatement c =>
    cases fault with
    | some f => rfl
    | none =>
      simp only [CommitStage.step, orReturn]
      split <;> rfl
  | classifying c =>
    simp only [CommitStage.step]
    split
    · cases fault <;> rfl
    · rfl
  | returned r => rfl
  | _ => cases fault <;> rfl

end Steps

/-! ## discarding -/

inductive DiscardStage
  /-- The stored PDF is removed next. -/
  | deletingPdf
  /-- `DELETE FROM statement_drafts`. -/
  | deletingDraft
  | returned
deriving DecidableEq

def DiscardStage.step (draftId : String) (w : Office) : DiscardStage → Office × DiscardStage
  | .deletingPdf =>
    ({ w with
        desk := { w.desk with
          db := { w.desk.db with pdfs := Function.update w.desk.db.pdfs draftId none } } },
      .deletingDraft)
  | .deletingDraft =>
    ({ w with
        desk := { w.desk with
          db := { w.desk.db with drafts := w.desk.db.drafts.keep fun r => r.id ≠ draftId } } },
      .returned)
  | .returned => (w, .returned)

end Dinero
