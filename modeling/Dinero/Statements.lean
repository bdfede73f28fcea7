import Dinero.InstrumentCommands

/-!
# Dinero.Statements

A statement on its way from a file to the ledger: upload or email scan, the
queue, the staging pipeline, the review draft, the commit.

The file's hash travels with it through three tables.  `Desk` holds these
tables, the stored PDFs and the queue, and each command of the program is a
program over it.  What a document says when it is read (`Reading`), and
whether a password opens it, are arguments of the commands: the parser runs
outside.  The entries and observations a commit derives, the bill columns it
refreshes on the instrument, saved passwords, audit rows and events are not in
the picture.
-/

namespace Dinero

open Sql

/-! ## the tables -/

inductive ParseStatus
  | queued | processing | parsed | failed
deriving DecidableEq, Repr

structure StatementsRow where
  id : String
  instrumentId : Option String
  statementType : String
  sourceType : Option String
  billingPeriodStart : String
  billingPeriodEnd : String
  dueDate : Option String
  statementDate : Option String
  currentBalance : Option Int
  minimumDue : Option Int
  rewardsSummary : Option String
  sourceMessageId : Option String
  parseStatus : ParseStatus
  isDuplicate : Bool
  fileHash : Option String
deriving DecidableEq, Repr

instance : Keyed StatementsRow String := ⟨(·.id)⟩

/-- The JSON of `statement_source_json`; the password is kept encrypted. -/
structure StatementSource where
  fileHash : Option String
  filename : Option String
  passwordBlob : Option String
deriving DecidableEq, Repr

/-- `{}`. -/
def StatementSource.empty : StatementSource := ⟨none, none, none⟩

inductive UnprocessedStatus
  | awaitingPassword | awaitingInstrumentConfirmation | pendingReview | pendingRetry
  | resolved | failed
deriving DecidableEq, Repr

structure UnprocessedStatementRow where
  id : String
  source : StatementSource
  failureType : String
  failureReason : String
  status : UnprocessedStatus
  resolvedStatementId : Option String
  passwordAttempts : Nat
deriving DecidableEq, Repr

instance : Keyed UnprocessedStatementRow String := ⟨(·.id)⟩

inductive DraftStatus
  | pendingReview | committed | discarded
deriving DecidableEq, Repr

def DraftStatus.text : DraftStatus → String
  | pendingReview => "pending_review"
  | committed => "committed"
  | discarded => "discarded"

structure StatementDraftRow where
  id : String
  origin : String
  fileHash : String
  instrumentId : Option String
  issuerName : Option String
  maskedIdentifier : Option String
  instrumentType : Option String
  billingPeriodStart : Option String
  billingPeriodEnd : Option String
  dueDate : Option String
  statementDate : Option String
  currentBalance : Option Int
  minimumDue : Option Int
  rowsJson : String
  status : DraftStatus
  updatedAt : Int
deriving DecidableEq, Repr

instance : Keyed StatementDraftRow String := ⟨(·.id)⟩

structure StatementJob where
  filename : String
  fileHash : String
  stmtId : String
  password : Option String
  origin : String
deriving DecidableEq, Repr

abbrev Bytes := List UInt8

/-- The tables, the encrypted PDFs by id, and the queue.  `file` is the one
part the program does not have: for which file each id was given out. -/
structure Desk where
  statements : Table StatementsRow
  unprocessed : Table UnprocessedStatementRow
  drafts : Table StatementDraftRow
  instruments : Instruments
  pdfs : String → Option Bytes
  queue : List StatementJob
  file : String → Option Bytes

abbrev DeskProg := Prog Empty Desk

/-- What the commands take from outside about a file. -/
class Documents where
  /-- `format!("{:x}", Sha256::digest(bytes))`. -/
  sha256 : Bytes → String
  /-- `extract_billing_period_from_filename`. -/
  extractBillingPeriodFromFilename : String → Option (String × String)

export Documents (sha256 extractBillingPeriodFromFilename)

/-! ## duplicate checks -/

inductive DuplicateCheckResult
  | noDuplicate | duplicateFileHash | duplicateBillingCycle
deriving DecidableEq, Repr

/-- Detects a byte-identical re-upload by content hash. -/
def checkFileHashDuplicate (sha256Hex : String) (d : Desk) : DuplicateCheckResult :=
  if 0 < d.statements.rows.countP fun r => r.fileHash = some sha256Hex then .duplicateFileHash
  else if 0 < d.unprocessed.rows.countP fun r => r.source.fileHash = some sha256Hex then
    .duplicateFileHash
  else .noDuplicate

/-- Detects a statement covering an already-imported billing period. -/
def checkBillingCycleDuplicate (instrumentId start stop : String) (d : Desk) :
    DuplicateCheckResult :=
  if 0 < d.statements.rows.countP fun r => r.instrumentId = some instrumentId &&
      r.billingPeriodStart = start && r.billingPeriodEnd = stop && !r.isDuplicate then
    .duplicateBillingCycle
  else .noDuplicate

def checkFilenameBillingCycleAllInstruments [Documents] (filename : String) (d : Desk) :
    Option DuplicateCheckResult :=
  (extractBillingPeriodFromFilename filename).map fun p =>
    if 0 < d.statements.rows.countP fun r => r.billingPeriodStart = p.1 &&
        r.billingPeriodEnd = p.2 && !r.isDuplicate then
      .duplicateBillingCycle
    else .noDuplicate

/-- Validates an uploaded file and returns its content hash. -/
def validateAndHash [Documents] (bytes : Bytes) : Except SqlError String :=
  if bytes = [] then .error (.anyhow "empty_file: file must not be zero bytes")
  else if bytes.take 4 ≠ [0x25, 0x50, 0x44, 0x46] then
    .error (.anyhow "invalid_file_type: file must be application/pdf")
  else if 5 * 1024 * 1024 < bytes.length then
    .error (.anyhow "file_too_large: file must not exceed 5 MB")
  else .ok (sha256 bytes)

/-- Hashes an email attachment, skipping work if already seen. -/
def hashEmailAttachmentIfNew [Documents] (bytes : Bytes) (d : Desk) : Option String :=
  match validateAndHash bytes with
  | .error _ => none
  | .ok hash => if checkFileHashDuplicate hash d = .noDuplicate then some hash else none

/-! ## statements -/

/-- A `SELECT`. -/
def look (f : Desk → α) : DeskProg α := update fun _ d => .ok (f d, d)

/-- A change nothing refuses. -/
def change (f : Desk → Desk) : DeskProg Unit := update fun _ d => .ok ((), f d)

/-- The `?` of a result computed elsewhere. -/
def orFail : Except SqlError α → DeskProg α
  | .ok a => pure a
  | .error e => Eff.fail e

def onInstruments (x : InstrumentsDb α) : DeskProg α :=
  zoom Desk.instruments (fun T d => { d with instruments := T }) x

def insertStatement (r : StatementsRow) : DeskProg Unit := update fun _ d =>
  match d.statements.insert? r with
  | some T => .ok ((), { d with statements := T })
  | none => .error (uniqueFailed "statements.id")

def insertUnprocessed (r : UnprocessedStatementRow) : DeskProg Unit := update fun _ d =>
  match d.unprocessed.insert? r with
  | some T => .ok ((), { d with unprocessed := T })
  | none => .error (uniqueFailed "unprocessed_statements.id")

/-- `INSERT OR IGNORE INTO unprocessed_statements`. -/
def insertUnprocessedOrIgnore (r : UnprocessedStatementRow) : DeskProg Unit := change fun d =>
  { d with unprocessed := (d.unprocessed.insert? r).getD d.unprocessed }

def insertDraft (r : StatementDraftRow) : DeskProg Unit := update fun now d =>
  match d.drafts.insert? { r with updatedAt := now } with
  | some T => .ok ((), { d with drafts := T })
  | none => .error (uniqueFailed "statement_drafts.id")

def queuedRow (id sourceType : String) (sourceMessageId fileHash : Option String)
    (today : String) : StatementsRow where
  id := id
  instrumentId := none
  statementType := "credit_card_statement"
  sourceType := some sourceType
  billingPeriodStart := today
  billingPeriodEnd := today
  dueDate := none
  statementDate := none
  currentBalance := none
  minimumDue := none
  rewardsSummary := none
  sourceMessageId := sourceMessageId
  parseStatus := .queued
  isDuplicate := false
  fileHash := fileHash

/-- Records a statement as queued, before parsing begins. -/
def insertQueued (id sourceType : String) (sourceMessageId fileHash : Option String)
    (today : String) : DeskProg Unit :=
  insertStatement (queuedRow id sourceType sourceMessageId fileHash today)

/-- `DELETE FROM statements WHERE id = ?1 AND parse_status = 'queued'`. -/
def Desk.dropQueued (d : Desk) (id : String) : Desk :=
  { d with statements := d.statements.keep fun r => !(r.id = id && r.parseStatus = .queued) }

def deleteOrphanedQueuedRow (stmtId : String) : DeskProg Unit := change (·.dropQueued stmtId)

/-- `DELETE FROM unprocessed_statements WHERE id = ?1`. -/
def Desk.dropUnprocessed (d : Desk) (id : String) : Desk :=
  { d with unprocessed := d.unprocessed.keep fun r => r.id ≠ id }

def storePdf (id : String) (bytes : Bytes) : DeskProg Unit := change fun d =>
  { d with pdfs := Function.update d.pdfs id (some bytes) }

def deletePdf (id : String) : DeskProg Unit := change fun d =>
  { d with pdfs := Function.update d.pdfs id none }

/-- The bytes stored for a row, which its commands start from. -/
def readPdf (id : String) : DeskProg Bytes := do
  match ← look (·.pdfs id) with
  | some bytes => return bytes
  | none => Eff.fail (.anyhow "This statement's PDF file could not be found")

/-- Note for which file an id has been drawn. -/
def noteFile (id : String) (bytes : Bytes) : DeskProg Unit := change fun d =>
  { d with file := Function.update d.file id (some bytes) }

/-- A change of a row of `unprocessed_statements` that keeps its source. -/
def unprocessedPatch (status : UnprocessedStatus) (resolvedStatementId : Option String) :
    Patch UnprocessedStatementRow :=
  ⟨fun r => { r with status := status, resolvedStatementId := resolvedStatementId },
    fun _ => rfl⟩

@[simp] theorem look_apply (f : Desk → α) (ctx : Ctx Empty) (s : Store Desk) :
    look f ctx s = (.ok (f s.db), s) := rfl

@[simp] theorem change_apply (f : Desk → Desk) (ctx : Ctx Empty) (s : Store Desk) :
    change f ctx s = (.ok (), { s with db := f s.db }) := rfl

@[simp] theorem deleteOrphanedQueuedRow_apply (id : String) (ctx : Ctx Empty) (s : Store Desk) :
    deleteOrphanedQueuedRow id ctx s = (.ok (), { s with db := s.db.dropQueued id }) := rfl

@[simp] theorem storePdf_apply (id : String) (bytes : Bytes) (ctx : Ctx Empty)
    (s : Store Desk) : storePdf id bytes ctx s = (.ok (),
      { s with db := { s.db with pdfs := Function.update s.db.pdfs id (some bytes) } }) := rfl

@[simp] theorem deletePdf_apply (id : String) (ctx : Ctx Empty) (s : Store Desk) :
    deletePdf id ctx s = (.ok (),
      { s with db := { s.db with pdfs := Function.update s.db.pdfs id none } }) := rfl

@[simp] theorem noteFile_apply (id : String) (bytes : Bytes) (ctx : Ctx Empty)
    (s : Store Desk) : noteFile id bytes ctx s = (.ok (),
      { s with db := { s.db with file := Function.update s.db.file id (some bytes) } }) := rfl

@[simp] theorem orFail_ok (a : α) (ctx : Ctx Empty) (s : Store Desk) :
    orFail (.ok a) ctx s = (.ok a, s) := rfl

@[simp] theorem orFail_error (e : SqlError) (ctx : Ctx Empty) (s : Store Desk) :
    (orFail (.error e) : DeskProg α) ctx s = (.error e, s) := rfl

/-- Storing what is stored. -/
theorem storePdf_again {id : String} {bytes : Bytes} {s : Store Desk}
    (h : s.db.pdfs id = some bytes) (ctx : Ctx Empty) :
    storePdf id bytes ctx s = (.ok (), s) := by
  rw [storePdf_apply, ← h, Function.update_eq_self]

theorem readPdf_apply {id : String} {s : Store Desk} {bytes : Bytes}
    (h : s.db.pdfs id = some bytes) (ctx : Ctx Empty) : readPdf id ctx s = (.ok bytes, s) := by
  rw [readPdf, Eff.bind_of_ok (look_apply _ ctx s), h]
  rfl

theorem readPdf_missing {id : String} {s : Store Desk} (h : s.db.pdfs id = none)
    (ctx : Ctx Empty) : readPdf id ctx s =
      (.error (.anyhow "This statement's PDF file could not be found"), s) := by
  rw [readPdf, Eff.bind_of_ok (look_apply _ ctx s), h]
  rfl

theorem insertStatement_apply {r : StatementsRow} {s : Store Desk} {T : Table StatementsRow}
    (h : s.db.statements.insert? r = some T) (ctx : Ctx Empty) :
    insertStatement r ctx s = (.ok (), { s with db := { s.db with statements := T } }) := by
  simp only [insertStatement, update, h]

theorem insertUnprocessed_apply {r : UnprocessedStatementRow} {s : Store Desk}
    {T : Table UnprocessedStatementRow} (h : s.db.unprocessed.insert? r = some T)
    (ctx : Ctx Empty) :
    insertUnprocessed r ctx s = (.ok (), { s with db := { s.db with unprocessed := T } }) := by
  simp only [insertUnprocessed, update, h]

theorem insertDraft_apply {r : StatementDraftRow} {s : Store Desk}
    {T : Table StatementDraftRow} {now : Int}
    (h : s.db.drafts.insert? { r with updatedAt := now } = some T) :
    insertDraft r (.quiet now) s = (.ok (), { s with db := { s.db with drafts := T } }) := by
  simp only [insertDraft, update, Ctx.quiet, h]

/-- A draft whose id is taken is not inserted. -/
theorem insertDraft_refused {r : StatementDraftRow} {s : Store Desk} {now : Int}
    (h : s.db.drafts.insert? { r with updatedAt := now } = none) :
    insertDraft r (.quiet now) s = (.error (uniqueFailed "statement_drafts.id"), s) := by
  simp only [insertDraft, update, Ctx.quiet, h]

/-! ## staging -/

structure StatementMetadata where
  billingPeriodStart : Option String
  billingPeriodEnd : Option String
  dueDate : Option String
  minimumDue : Option Int
  currentBalance : Option Int
  issuerName : Option String
  maskedIdentifier : Option String
  network : Option String
  rewardsSummary : Option String
  statementDate : Option String
deriving DecidableEq, Repr

structure ConfirmedInstrument where
  issuerName : String
  maskedIdentifier : String
  instrumentType : String
deriving DecidableEq, Repr

/-- What the parser makes of a document: its number of pages, its metadata, its
rows. -/
structure Reading where
  pages : Except SqlError Nat
  metadata : Except SqlError StatementMetadata
  rowsJson : Except SqlError String

inductive PipelineOutcome
  | staged (draftId : String)
  | blockedAwaitingInstrument (statementId : String)
deriving DecidableEq, Repr

/-- What the pipeline is called with; every caller names the row it comes from. -/
structure StagingCall where
  bytes : Bytes
  filename : String
  fileHash : String
  confirmedInstrument : Option ConfirmedInstrument
  password : Option String
  origin : String
  stmtId : String
  reading : Reading

/-- The instrument the statement is for, unless the gate blocks it. -/
def StagingCall.instrument (c : StagingCall) (m : StatementMetadata) :
    Option InstrumentRequest :=
  match c.confirmedInstrument with
  | some i => some ⟨i.instrumentType, i.issuerName, i.maskedIdentifier, m.network⟩
  | none =>
    match m.issuerName.filter (!isBlank ·), m.maskedIdentifier.filter (!isBlank ·) with
    | some issuer, some masked => some ⟨"credit_card", issuer, masked, m.network⟩
    | _, _ => none

/-- The cycle the document names, if it has been imported for the instrument. -/
def StatementMetadata.takenCycle (m : StatementMetadata) (instrumentId : String) (d : Desk) :
    Option (String × String) :=
  match m.billingPeriodStart, m.billingPeriodEnd with
  | some start, some stop =>
    if checkBillingCycleDuplicate instrumentId start stop d = .duplicateBillingCycle then
      some (start, stop)
    else none
  | _, _ => none

/-- The draft of a document that was read. -/
def StagingCall.draft (c : StagingCall) (m : StatementMetadata) (q : InstrumentRequest)
    (instrumentId rowsJson : String) : StatementDraftRow where
  id := c.stmtId
  origin := c.origin
  fileHash := c.fileHash
  instrumentId := some instrumentId
  issuerName := some q.issuerName
  maskedIdentifier := some q.maskedIdentifier
  instrumentType := some q.type
  billingPeriodStart := m.billingPeriodStart
  billingPeriodEnd := m.billingPeriodEnd
  dueDate := m.dueDate
  statementDate := m.statementDate
  currentBalance := m.currentBalance
  minimumDue := m.minimumDue
  rowsJson := rowsJson
  status := .pendingReview
  updatedAt := 0

def awaitingInstrumentRow (statementId fileHash filename : String) (password : Option String) :
    UnprocessedStatementRow where
  id := statementId
  source := ⟨some fileHash, some filename, password⟩
  failureType := "instrument_unresolved"
  failureReason := "Statement Instrument Gate: issuer or masked account/card number missing"
  status := .awaitingInstrumentConfirmation
  resolvedStatementId := none
  passwordAttempts := 0

def createAwaitingInstrumentRow (statementId fileHash filename : String)
    (password : Option String) : DeskProg Unit :=
  insertUnprocessed (awaitingInstrumentRow statementId fileHash filename password)

def awaitingPasswordRow (statementId fileHash filename : String) : UnprocessedStatementRow where
  id := statementId
  source := ⟨some fileHash, some filename, none⟩
  failureType := "password_required"
  failureReason := ""
  status := .awaitingPassword
  resolvedStatementId := none
  passwordAttempts := 0

def createAwaitingPasswordRow (statementId fileHash filename : String) : DeskProg Unit :=
  insertUnprocessed (awaitingPasswordRow statementId fileHash filename)

section Pipeline

variable [Extern]

/-- The gate: without an instrument the file waits for the user under a new id. -/
def blockAtGate (c : StagingCall) : DeskProg PipelineOutcome := do
  deleteOrphanedQueuedRow c.stmtId
  let unprocessedId ← newUuid uuid
  createAwaitingInstrumentRow unprocessedId c.fileHash c.filename c.password
  noteFile unprocessedId c.bytes
  storePdf unprocessedId c.bytes
  return .blockedAwaitingInstrument unprocessedId

/-- The second half of the pipeline. -/
def stageDraft (c : StagingCall) (m : StatementMetadata) (q : InstrumentRequest) :
    DeskProg PipelineOutcome := do
  let instrumentId ← onInstruments (resolveOrCreateInstrument q)
  match ← look (m.takenCycle instrumentId) with
  | some (start, stop) =>
    deleteOrphanedQueuedRow c.stmtId
    Eff.fail (.anyhow ("duplicate_billing_cycle: cycle " ++ start ++ " → " ++ stop ++
      " already imported for instrument " ++ instrumentId))
  | none =>
    let rowsJson ← orFail c.reading.rowsJson
    deleteOrphanedQueuedRow c.stmtId
    insertDraft (c.draft m q instrumentId rowsJson)
    return .staged c.stmtId

def stageParsePipeline (c : StagingCall) : DeskProg PipelineOutcome := do
  storePdf c.stmtId c.bytes
  let pages ← orFail c.reading.pages
  if pages = 0 then
    Eff.fail (.anyhow "No pages extracted from PDF — parse_failed")
  else
    let m ← orFail c.reading.metadata
    match c.instrument m with
    | none => blockAtGate c
    | some q => stageDraft c m q

end Pipeline

/-! ## files coming in -/

/-- What the unlocking of a new file came to: a password, none needed, or a
prompt for the user. -/
inductive StatementPasswordResolution
  | proceed (password : Option String)
  | prompt
deriving DecidableEq, Repr

section Commands

variable [Extern] [Documents]

/-- The user is asked for the password of a file; `recorded` goes where the
hash of the file belongs. -/
def promptFor (stmtId recorded filename : String) (bytes : Bytes) : DeskProg Unit := do
  createAwaitingPasswordRow stmtId recorded filename
  noteFile stmtId bytes
  storePdf stmtId bytes

/-- The row under which the file goes to the queue. -/
def enqueue (stmtId sourceType : String) (sourceMessageId rowHash : Option String)
    (bytes : Bytes) (today : String) (job : StatementJob) : DeskProg Unit := do
  insertQueued stmtId sourceType sourceMessageId rowHash today
  noteFile stmtId bytes
  storePdf stmtId bytes
  change fun d => { d with queue := d.queue ++ [job] }

def uploadOneStatement (bytes : Bytes) (filename today : String)
    (resolution : StatementPasswordResolution) : DeskProg Unit := do
  let fileHash ← orFail (validateAndHash bytes)
  if (← look (checkFileHashDuplicate fileHash)) ≠ .noDuplicate then
    Eff.fail (.anyhow "duplicate_file_hash: statement already imported")
  else if (← look (checkFilenameBillingCycleAllInstruments filename)) =
      some .duplicateBillingCycle then
    Eff.fail (.anyhow "duplicate_billing_cycle: statement cycle already imported")
  else
    let stmtId ← newUuid uuid
    match resolution with
    | .prompt => promptFor stmtId fileHash filename bytes
    | .proceed password =>
      enqueue stmtId "manual_upload" none (some fileHash) bytes today
        ⟨filename, fileHash, stmtId, password, "manual_upload"⟩

/-- One attachment of a statement email, in the live poll as in the historical
scan.  A prompt records the message id where the upload records the hash, and
the queued row has no hash. -/
def scanAttachment (bytes : Bytes) (filename msgId today : String)
    (resolution : StatementPasswordResolution) : DeskProg Unit := do
  match ← look (hashEmailAttachmentIfNew bytes) with
  | none => return
  | some fileHash =>
    let stmtId ← newUuid uuid
    match resolution with
    | .prompt => promptFor stmtId msgId filename bytes
    | .proceed password =>
      enqueue stmtId "gmail_email" (some msgId) none bytes today
        ⟨filename, fileHash, stmtId, password, "email_scan"⟩

/-- The call of the pipeline a job stands for. -/
def StatementJob.call (job : StatementJob) (bytes : Bytes) (reading : Reading) : StagingCall :=
  ⟨bytes, job.filename, job.fileHash, none, job.password, job.origin, job.stmtId, reading⟩

/-- A worker of the statement queue takes job `n`; up to five run at a time. -/
def runStatementJob (n : Nat) (reading : Reading) : DeskProg Unit := do
  match ← look (·.queue[n]?) with
  | none => return
  | some job =>
    change fun d => { d with queue := d.queue.eraseIdx n }
    match ← Eff.attempt (do
        let bytes ← readPdf job.stmtId
        stageParsePipeline (job.call bytes reading)) with
    | .ok (.staged _) => return
    | _ => deletePdf job.stmtId

/-! ## rows the user looks after -/

/-- The source of a row, as the commands read it back. -/
def readSource (statementId : String) : DeskProg StatementSource := do
  match ← look (·.unprocessed.find? statementId) with
  | some row => return row.source
  | none =>
    Eff.fail (.anyhow
      ("No unprocessed statement found with statement_id='" ++ statementId ++ "'"))

omit [Extern] [Documents] in
theorem readSource_apply {id : String} {s : Store Desk} {r : UnprocessedStatementRow}
    (h : s.db.unprocessed.find? id = some r) (ctx : Ctx Empty) :
    readSource id ctx s = (.ok r.source, s) := by
  rw [readSource, Eff.bind_of_ok (look_apply _ ctx s), h]
  rfl

omit [Extern] [Documents] in
theorem readSource_missing {id : String} {s : Store Desk}
    (h : s.db.unprocessed.find? id = none) (ctx : Ctx Empty) : readSource id ctx s =
      (.error (.anyhow
        ("No unprocessed statement found with statement_id='" ++ id ++ "'")), s) := by
  rw [readSource, Eff.bind_of_ok (look_apply _ ctx s), h]
  rfl

/-- The call of the pipeline when a row of `unprocessed_statements` is resumed. -/
def resumedCall (bytes : Bytes) (source : StatementSource)
    (confirmedInstrument : Option ConfirmedInstrument) (password : Option String)
    (filename statementId : String) (reading : Reading) : StagingCall :=
  ⟨bytes, filename, source.fileHash.getD "", confirmedInstrument, password, "password_unlock",
    statementId, reading⟩

/-- What the user confirmed, trimmed. -/
def confirmedInstrument (issuerName maskedIdentifier : String) (instrumentType : Option String) :
    ConfirmedInstrument :=
  ⟨String.ofList (trimText issuerName.toList), String.ofList (trimText maskedIdentifier.toList),
    instrumentType.getD "credit_card"⟩

def statementsConfirmInstrument (statementId issuerName maskedIdentifier : String)
    (instrumentType : Option String) (reading : Reading) : DeskProg PipelineOutcome := do
  if isBlank issuerName then
    Eff.fail (.anyhow "issuer_name must not be empty")
  else if isBlank maskedIdentifier then
    Eff.fail (.anyhow "masked_identifier must not be empty")
  else
    let bytes ← readPdf statementId
    let source ← readSource statementId
    stageParsePipeline (resumedCall bytes source
      (some (confirmedInstrument issuerName maskedIdentifier instrumentType))
      source.passwordBlob (source.filename.getD "statement.pdf") statementId reading)

/-- A row whose file went on under another id is removed. -/
def removeBlocked (statementId : String) : PipelineOutcome → DeskProg Unit
  | .staged _ => pure ()
  | .blockedAwaitingInstrument _ => change (·.dropUnprocessed statementId)

/-- `UPDATE unprocessed_statements SET status = 'resolved' … WHERE id = ?`. -/
def Desk.markUnlocked (d : Desk) (id : String) : Desk :=
  { d with
    unprocessed := d.unprocessed.modify id
      ⟨fun r => { r with status := .resolved }, fun _ => rfl⟩ }

/-- `password_attempts = password_attempts + 1`. -/
def Desk.countAttempt (d : Desk) (id : String) : Desk :=
  { d with
    unprocessed := d.unprocessed.modify id
      ⟨fun r => { r with passwordAttempts := r.passwordAttempts + 1 }, fun _ => rfl⟩ }

/-- `opens`: does the password the user typed open the file? -/
def statementsSubmitPassword (statementId password : String) (opens : Bool)
    (reading : Reading) : DeskProg Unit := do
  let bytes ← readPdf statementId
  if opens then
    change (·.markUnlocked statementId)
    let source ← readSource statementId
    let outcome ← stageParsePipeline (resumedCall bytes source none (some password)
      (source.filename.getD "statement.pdf") statementId reading)
    removeBlocked statementId outcome
  else
    change (·.countAttempt statementId)

/-- `stored`: the saved password that opens the file, if any does. -/
def retryOneUnprocessed (statementId : String) (stored : Option String) (reading : Reading) :
    DeskProg Unit := do
  let source ← readSource statementId
  match ← look (·.pdfs statementId) with
  | none => return
  | some bytes =>
    match stored with
    | none => return
    | some password =>
      let outcome ← stageParsePipeline (resumedCall bytes source none (some password)
        (source.filename.getD "") statementId reading)
      removeBlocked statementId outcome

def statementsDiscard (statementId : String) : DeskProg Unit := do
  let _ ← readSource statementId
  change (·.dropUnprocessed statementId)

/-! ## drafts -/

structure DraftMetadataUpdate where
  issuerName : String
  maskedIdentifier : String
  instrumentType : String
  billingPeriodStart : Option String
  billingPeriodEnd : Option String
  dueDate : Option String
  statementDate : Option String
  currentBalance : Option Int
  minimumDue : Option Int
deriving DecidableEq, Repr

def DraftMetadataUpdate.metadata (u : DraftMetadataUpdate) : StatementMetadata where
  billingPeriodStart := u.billingPeriodStart
  billingPeriodEnd := u.billingPeriodEnd
  dueDate := u.dueDate
  minimumDue := u.minimumDue
  currentBalance := u.currentBalance
  issuerName := some u.issuerName
  maskedIdentifier := some u.maskedIdentifier
  network := none
  rewardsSummary := none
  statementDate := u.statementDate

/-- The row of `write_statement_row`: what the `INSERT` has, there being no row
to update under a new id.  Its column list has no `file_hash`. -/
def StatementMetadata.statementRow (m : StatementMetadata)
    (stmtId instrumentId instrumentType : String) (sourceMessageId : Option String) :
    StatementsRow where
  id := stmtId
  instrumentId := some instrumentId
  statementType :=
    if instrumentType = "bank_account" then "bank_account_statement"
    else "credit_card_statement"
  sourceType := none
  billingPeriodStart := m.billingPeriodStart.getD "1970-01-01"
  billingPeriodEnd := m.billingPeriodEnd.getD "1970-01-01"
  dueDate := m.dueDate
  statementDate := m.statementDate
  currentBalance := m.currentBalance
  minimumDue := m.minimumDue
  rewardsSummary := m.rewardsSummary
  sourceMessageId := sourceMessageId
  parseStatus := .parsed
  isDuplicate := false
  fileHash := none

/-- The `UPDATE` of `write_statement_row`. -/
def metadataPatch (r : StatementsRow) : Patch StatementsRow where
  run old := { r with
    id := old.id
    sourceType := old.sourceType
    sourceMessageId := r.sourceMessageId.or old.sourceMessageId
    isDuplicate := old.isDuplicate
    fileHash := old.fileHash }
  key_run _ := rfl

/-- Writes the statement row derived from extracted metadata. -/
def writeStatementRow (r : StatementsRow) : DeskProg Unit := do
  if ← look (·.statements.contains r.id) then
    change fun d => { d with statements := d.statements.modify r.id (metadataPatch r) }
  else insertStatement r

/-- The row that keeps a committed draft's PDF for a while. -/
def retentionRow (draftId : String) : UnprocessedStatementRow where
  id := draftId
  source := .empty
  failureType := "staged_review"
  failureReason := ""
  status := .pendingReview
  resolvedStatementId := none
  passwordAttempts := 0

def draftPatch (status : DraftStatus) (now : Int) : Patch StatementDraftRow :=
  ⟨fun r => { r with status := status, updatedAt := now }, fun _ => rfl⟩

/-- The rows of a commit.  The hash of the draft goes into the column for the
source message. -/
def writeCommitted (draft : StatementDraftRow) (edited : DraftMetadataUpdate)
    (instrumentId : String) : DeskProg String := do
  let stmtId ← newUuid uuid
  writeStatementRow (edited.metadata.statementRow stmtId instrumentId
    edited.instrumentType (some draft.fileHash))
  change fun d => { d with file := Function.update d.file stmtId (d.file draft.id) }
  insertUnprocessedOrIgnore (retentionRow draft.id)
  change fun d => { d with
    unprocessed := d.unprocessed.modify draft.id (unprocessedPatch .resolved (some stmtId)) }
  let now ← utcNow
  change fun d => { d with
    drafts := d.drafts.modify draft.id (draftPatch .committed now) }
  return stmtId

def commitStagedDraft (draftId : String) (edited : DraftMetadataUpdate) :
    DeskProg String := do
  match ← look (·.drafts.find? draftId) with
  | none => Eff.fail (.anyhow ("draft not found: " ++ draftId))
  | some draft =>
    if draft.status ≠ .pendingReview then
      Eff.fail (.anyhow ("draft '" ++ draftId ++ "' is not pending_review (status='" ++
        draft.status.text ++ "') — already committed or discarded"))
    else
      let instrumentId ← onInstruments (resolveOrCreateInstrument
        ⟨edited.instrumentType, edited.issuerName, edited.maskedIdentifier, none⟩)
      writeCommitted draft edited instrumentId

def discardStagedDraft (draftId : String) : DeskProg Unit := do
  deletePdf draftId
  change fun d => { d with drafts := d.drafts.keep fun r => r.id ≠ draftId }

/-- Removes drafts that have been committed or discarded; `cutoff` is
`datetime('now', '-1 year')`. -/
def sweepSettledStatementDrafts (cutoff : Int) : DeskProg Unit := change fun d =>
  { d with drafts := d.drafts.keep fun r =>
    !((r.status = .committed || r.status = .discarded) && r.updatedAt < cutoff) }

/-! ## runs -/

/-- The operations on statements. -/
inductive StatementOp
  | upload (bytes : Bytes) (filename today : String)
      (resolution : StatementPasswordResolution)
  | scan (bytes : Bytes) (filename msgId today : String)
      (resolution : StatementPasswordResolution)
  | runJob (n : Nat) (reading : Reading)
  | confirmInstrument (statementId issuerName maskedIdentifier : String)
      (instrumentType : Option String) (reading : Reading)
  | submitPassword (statementId password : String) (opens : Bool) (reading : Reading)
  | retry (statementId : String) (stored : Option String) (reading : Reading)
  | discard (statementId : String)
  | commitDraft (draftId : String) (edited : DraftMetadataUpdate)
  | discardDraft (draftId : String)
  | sweepDrafts (cutoff : Int)

/-- The program of an operation; its answer is for the user. -/
def StatementOp.prog : StatementOp → DeskProg Unit
  | .upload bytes filename today resolution =>
    uploadOneStatement bytes filename today resolution
  | .scan bytes filename msgId today resolution =>
    scanAttachment bytes filename msgId today resolution
  | .runJob n reading => runStatementJob n reading
  | .confirmInstrument id issuer masked type reading => do
    let _ ← statementsConfirmInstrument id issuer masked type reading
  | .submitPassword id password opens reading =>
    statementsSubmitPassword id password opens reading
  | .retry id stored reading => retryOneUnprocessed id stored reading
  | .discard id => statementsDiscard id
  | .commitDraft id edited => do
    let _ ← commitStagedDraft id edited
  | .discardDraft id => discardStagedDraft id
  | .sweepDrafts cutoff => sweepSettledStatementDrafts cutoff

def StatementOp.run (now : Int) (s : Store Desk) (op : StatementOp) : Store Desk :=
  (op.prog (.quiet now) s).2

/-- Operations one after another, each at its time. -/
def runStatements (s : Store Desk) (ops : List (Int × StatementOp)) : Store Desk :=
  ops.foldl (fun s op => op.2.run op.1 s) s

end Commands

/-- Before the first file; the instruments are as they may be. -/
def Desk.start (instruments : Instruments) : Desk where
  statements := .empty
  unprocessed := .empty
  drafts := .empty
  instruments := instruments
  pdfs _ := none
  queue := []
  file _ := none

end Dinero
