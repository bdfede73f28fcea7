import Dinero.Cleanup
import Dinero.Edits
import Dinero.Faults

/-!
# Dinero.TagEdits

`transactions_update`, statement by statement.

The command writes the transaction and logs what changed; then it creates tags
and replaces the links of the transaction to its tags.  No transaction is opened
around it.
-/

namespace Dinero

open Sql

/-! ## tables -/

structure TagsRow where
  id : String
  name : String
  colorHex : Option String
  createdAt : Option Int
deriving DecidableEq, Repr

instance : Keyed TagsRow String := ⟨(·.id)⟩

structure TransactionTagsRow where
  transactionId : String
  tagId : String
  createdAt : Option Int
deriving DecidableEq, Repr

instance : Keyed TransactionTagsRow (String × String) := ⟨fun r => (r.transactionId, r.tagId)⟩

structure FeedbackLogRow where
  id : String
  transactionId : String
  observationId : String
  sourcePipeline : String
  fieldName : String
  oldValue : String
  newValue : String
  sourceRecordId : String
deriving DecidableEq, Repr

/-- What is joined to an observation when a correction is logged. -/
structure ObservationOrigin where
  observationId : String
  issuerName : Option String
  /-- `description_raw` of its statement entry. -/
  rowText : Option String
  /-- The member `body` of its raw payload. -/
  body : Option String
deriving DecidableEq, Repr

instance : Keyed ObservationOrigin String := ⟨(·.observationId)⟩

/-- The tables of the command. -/
structure EditTables where
  db : Database
  /-- The column `notes` of `transactions`, by id. -/
  notes : String → Option String
  location : String → Option String
  origins : Table ObservationOrigin
  feedbackLog : List FeedbackLogRow
  fieldRules : Table FieldRulesRow
  variants : Table FieldRuleVariantsRow
  tags : Table TagsRow
  transactionTags : Table TransactionTagsRow

/-- The statements of the command; a rename issues those of the merchants. -/
inductive EditStmt
  | rename (i : Stmt)
  | selectTransaction | selectObservation | insertFeedback | selectRule | recordFailure
  | updateTransaction
  | selectTags | insertTag | selectTransactionTags | deleteTransactionTag | insertTransactionTag
deriving DecidableEq, Repr

abbrev EditProg := Prog EditStmt EditTables

/-- The fault plan, as far as it is about the merchants. -/
def merchantCtx (ctx : Ctx EditStmt) : Ctx Stmt where
  now := ctx.now
  fault := match ctx.fault with
    | some (.rename i) => some i
    | _ => none

/-- Statements on the merchants. -/
def onMerchants (x : Db α) : EditProg α := fun ctx s =>
  let r := x (merchantCtx ctx) ⟨s.db.db, s.nextUuid, s.skip⟩
  (r.1, ⟨{ s.db with db := r.2.db }, r.2.nextUuid,
    match ctx.fault with
    | some (.rename _) => r.2.skip
    | _ => s.skip⟩)

/-! ## log_user_correction -/

structure CorrectionContext where
  feedbackLogId : String
  bankName : String
  sourceType : String
  sourceText : Option String
  observationId : String
  fieldName : String
  oldValue : String
  newValue : String
deriving DecidableEq, Repr

section Corrections

variable [Extern]

/-- The observation a correction is about, with what is joined to it. -/
def EditTables.correctedObservation (e : EditTables) (txId : String) :
    Option (TransactionObservationsRow × Option ObservationOrigin) :=
  ((scan (e.db.observations.rows.filter fun o => o.canonicalTransactionId = some txId)).head?).map
    fun o => (o, e.origins.find? o.id)

/-- The live rule that read a field of such a text. -/
def EditTables.firedRule (e : EditTables) (templateHash fieldName bankName sourceType : String) :
    Option String :=
  ((scan (e.variants.rows.filter fun v =>
    v.templateHash = templateHash && (v.status = .active || v.status = .trusted) &&
      e.fieldRules.rows.any fun p => p.id = v.fieldRuleId && p.fieldName = fieldName &&
        p.bankName = bankName && p.sourceType = sourceType)).head?).map (·.id)

/-- Decays the rule that read the text, if there is one; failing to is ignored. -/
def decayRule (text fieldName bankName sourceType : String) : EditProg Unit := do
  match ← Eff.attempt (query .selectRule
    (·.firedRule (computeTemplateHash text) fieldName bankName sourceType)) with
  | .ok (some ruleId) =>
    let _ ← Eff.attempt (exec .recordFailure fun now e =>
      match recordFailure ruleId now e.variants with
      | .ok V => .ok ((), { e with variants := V })
      | .error error => .error error)
    return ()
  | _ => return ()

/-- Logs a user correction, feeding both the audit trail and learning. -/
def logUserCorrection (txId fieldName oldValue newValue : String) :
    EditProg (Option CorrectionContext) := do
  match ← Eff.attempt (query .selectObservation (·.correctedObservation txId)) with
  | .ok (some (obs, origin)) =>
    let bankName := (origin.bind (·.issuerName)).getD "Unknown"
    let feedbackId ← newUuid uuid
    exec .insertFeedback fun _ e => .ok ((), { e with feedbackLog := e.feedbackLog ++ [{
      id := feedbackId, transactionId := txId, observationId := obs.id
      sourcePipeline := obs.sourcePipeline.getD "manual", fieldName := fieldName
      oldValue := oldValue, newValue := newValue
      sourceRecordId := obs.sourceRecordId.getD "" }] })
    let isStatement := obs.sourcePipeline = some "statement_pdf"
    let sourceType := if isStatement then "statement_pdf" else "email"
    let sourceText := if isStatement then origin.bind (·.rowText) else origin.bind (·.body)
    sourceText.elim (pure ()) fun text => decayRule text fieldName bankName sourceType
    return some {
      feedbackLogId := feedbackId, bankName := bankName, sourceType := sourceType
      sourceText := sourceText, observationId := obs.id, fieldName := fieldName
      oldValue := oldValue, newValue := newValue }
  | _ => return none

end Corrections

/-! ## apply_transaction_field_update -/

structure EditRequest where
  fields : TransactionUpdatePayload
  notes : Option String
  location : Option String
  tags : Option (List String)
deriving DecidableEq, Repr

/-- The row the update writes. -/
def EditRequest.newRow (q : EditRequest) (old : TransactionsRow) (merchant : MerchantColumns)
    (now : Int) : TransactionsRow := (updatePatch old q.fields merchant now).run old

section Command

variable [Extern]

/-- The fields of `CORRECTABLE_FIELDS` that are not what they were. -/
def changedFields (old new : TransactionsRow) : List (String × Option String × String) :=
  [("merchant", old.merchantDisplayName, new.merchantDisplayName),
    ("amount", old.amountMinor.map toString, new.amountMinor.map toString),
    ("direction", old.direction, new.direction),
    ("event_time", old.bestEventTime.map formatDateTime,
      new.bestEventTime.map formatDateTime)].filterMap fun (field, before, after) =>
    after.bind fun a => if before = some a then none else some (field, before, a)

/-- The contexts of the corrections that could be logged. -/
def logChanges (txId : String) : List (String × Option String × String) →
    EditProg (List CorrectionContext)
  | [] => return []
  | (field, before, after) :: rest => do
    let logged ← Eff.attempt (logUserCorrection txId field (before.getD "") after)
    let more ← logChanges txId rest
    match logged with
    | .ok (some ctx) => return ctx :: more
    | _ => return more

/-- A change of the category is logged before anything is written. -/
def logCategory (txId : String) (old : TransactionsRow) : Option String → EditProg Unit
  | none => return ()
  | some cat => do
    let oldVal := old.categoryId.getD ""
    if oldVal ≠ cat then
      let _ ← Eff.attempt (logUserCorrection txId "category_id" oldVal cat)
      return ()
    else return ()

/-- `UPDATE transactions`. -/
def writeFields (txId : String) (q : EditRequest) (old : TransactionsRow)
    (merchant : MerchantColumns) : EditProg Unit :=
  exec .updateTransaction fun now e =>
    match e.db.updateFields txId (updatePatch old q.fields merchant now) q.fields.instrumentId with
    | .ok (_, db) => .ok ((), { e with
        db := db
        notes := Function.update e.notes txId (q.notes.or (e.notes txId))
        location := Function.update e.location txId (q.location.or (e.location txId)) })
    | .error error => .error error

def writeTransaction (txId : String) (q : EditRequest) : EditProg (List CorrectionContext) := do
  match ← query .selectTransaction (·.db.getTransaction txId) with
  | none => Eff.fail (.anyhow "Transaction not found")
  | some old =>
    logCategory txId old q.fields.categoryId
    let merchant ← onMerchants (renamedMerchant old q.fields.merchantDisplayName)
    writeFields txId q old merchant
    let now ← utcNow
    logChanges txId (changedFields old (q.newRow old merchant now))

/-! ## the tags -/

/-- `eq_ignore_ascii_case`. -/
def sameName (a b : String) : Bool := a.toList.map Char.toLower = b.toList.map Char.toLower

/-- `name.trim()`. -/
def trimmedName (name : String) : String := String.ofList (trim name.toList)

/-- `SELECT * FROM tags ORDER BY name ASC`. -/
def EditTables.tagsByName (e : EditTables) : List TagsRow :=
  orderBy (fun a b => a.name ≤ b.name) e.tags.rows

/-- The links of a transaction to its tags. -/
def EditTables.linksOf (e : EditTables) (txId : String) : List TransactionTagsRow :=
  scan (e.transactionTags.rows.filter fun r => r.transactionId = txId)

/-- The tag of that name, if there is one. -/
def tagNamed (existing : List TagsRow) (name : String) : Option TagsRow :=
  existing.find? fun t => sameName t.name name

def insertTag (t : TagsRow) : EditProg Unit :=
  exec .insertTag fun _ e =>
    if e.tags.rows.any (·.name = t.name) then .error (uniqueFailed "tags.name")
    else match e.tags.insert? t with
      | some T => .ok ((), { e with tags := T })
      | none => .error (uniqueFailed "tags.id")

/-- The ids of the tags of these names.  The tags were read before: one that is created here is
not found by the names behind it. -/
def tagIds (existing : List TagsRow) : List String → EditProg (List String)
  | [] => return []
  | name :: rest => do
    let trimmed := trimmedName name
    if trimmed = "" then tagIds existing rest
    else match tagNamed existing trimmed with
      | some t => do
        let ids ← tagIds existing rest
        return t.id :: ids
      | none => do
        let newId ← newUuid uuid
        let now ← utcNow
        insertTag ⟨newId, trimmed, none, some now⟩
        let ids ← tagIds existing rest
        return newId :: ids

/-- `DELETE FROM transaction_tags`, by both columns. -/
def EditTables.unlink (r : TransactionTagsRow) (_now : Int) (e : EditTables) :
    Except SqlError (Unit × EditTables) :=
  .ok ((), { e with
    transactionTags := e.transactionTags.keep fun x => decide (Keyed.key x ≠ Keyed.key r) })

/-- `INSERT INTO transaction_tags`. -/
def EditTables.link (txId tagId : String) (now : Int) (e : EditTables) :
    Except SqlError (Unit × EditTables) :=
  match e.transactionTags.insert? ⟨txId, tagId, some now⟩ with
  | some T =>
    if e.db.transactions.contains txId && e.tags.contains tagId then
      .ok ((), { e with transactionTags := T })
    else .error foreignKeyFailed
  | none => .error (uniqueFailed "transaction_tags.transaction_id, transaction_tags.tag_id")

def deleteTransactionTag (r : TransactionTagsRow) : EditProg Unit :=
  exec .deleteTransactionTag (EditTables.unlink r)

def insertTransactionTag (txId tagId : String) : EditProg Unit :=
  exec .insertTransactionTag (EditTables.link txId tagId)

/-- The tags of the transaction are replaced, link by link. -/
def replaceTags (txId : String) (tagNames : List String) : EditProg Unit := do
  let existingTags ← query .selectTags (·.tagsByName)
  let ids ← tagIds existingTags tagNames
  let existingAssocs ← query .selectTransactionTags (·.linksOf txId)
  each deleteTransactionTag existingAssocs
  each (insertTransactionTag txId) ids

/-- `transactions_update`; `allowed` is what the checks ahead of it have to say. -/
def transactionsUpdate (allowed : Except SqlError Unit) (txId : String) (q : EditRequest) :
    EditProg (List CorrectionContext) := do
  match allowed with
  | .error e => Eff.fail e
  | .ok () =>
    let contexts ← writeTransaction txId q
    q.tags.elim (pure ()) (replaceTags txId)
    return contexts

end Command

end Dinero
