import Dinero.Matching
import Dinero.PostProcessing

/-!
# Dinero.Canonical

The canonical transaction behind observations: creating one, merging an
observation into one by the precedence of its source, and linking the
observation to it.
-/

namespace Dinero

open Sql

variable [Extern]

/-- The initial source mix for a canonical built from one pipeline. -/
def sourceMixForNewCanonical (sourcePipeline : String) : SourceMix :=
  if sourcePipeline = "gmail_transaction" then .emailOnly
  else if sourcePipeline = "statement_pdf" then .statementOnly
  else .manual

/-- The row `create_canonical_transaction` inserts. -/
def newTransaction (txId : String) (obs : IncomingObservation)
    (merchant : Option (String × String)) : TransactionsRow where
  id := txId
  instrumentId := if obs.instrumentId = "unknown" then none else some obs.instrumentId
  direction := some obs.direction
  amountMinor := some obs.amountMinor
  currency := some obs.currency
  authorizationTime := obs.eventTime.parse
  bestEventTime := obs.eventTime.parse
  eventTimeConfidence := obs.eventTimeConfidence.or (some "high")
  bestPostingDate := obs.eventTime.parse.map dateOf
  merchantDisplayName := obs.merchantRaw
  merchantNormalizedName := merchant.map (·.2)
  merchantEntityId := merchant.map (·.1)
  referenceId := obs.referenceId
  status := some .posted
  sourceMix := some (sourceMixForNewCanonical obs.sourcePipeline)
  alertFired := some false
  parentTransactionId := none
  transactionSubtype := none
  emiGroupId := none
  categoryId := none
  channel := obs.channel
  isDeleted := false
  createdAt := none
  updatedAt := none

/-- `let _ = run_post_processing(..)`, where the event time is known. -/
def postProcess (transactionId : String) (obs : IncomingObservation) : Db Unit :=
  match obs.eventTime.parse with
  | none => return ()
  | some dt => do
    let _ ← Eff.attempt (runPostProcessing transactionId obs.instrumentId obs.merchantRaw
      obs.amountMinor obs.direction dt obs.emiTotalInstallments obs.emiOriginalAmountMinor)
    return ()

/-- Creates a canonical transaction from an incoming observation. -/
def createCanonicalTransaction (obs : IncomingObservation) : Db Unit := do
  let txId ← newUuid uuid
  let merchant ← normalizedMerchant obs.merchantRaw
  insertTransaction (newTransaction txId obs merchant)
  updateCanonicalTransactionId obs.id (some txId)
  postProcess txId obs

/-! ## merging -/

/-- An audit row of the reconciliation engine about a transaction. -/
def engineAudit (id action canonicalId : String) (before after : Option AuditSnapshot) :
    AuditLogRow where
  id := id
  actorType := "system"
  actorId := "reconciliation_engine"
  action := action
  resourceType := "transaction"
  resourceId := canonicalId
  beforeJson := before
  afterJson := after
  createdAt := 0

/-- The end of every merge: update the canonical, then log the update. -/
def updateAndLog (site auditSite : Stmt) (canonicalId : String)
    (u : Int → Patch TransactionsRow) (audit : String → AuditLogRow) : Db Unit := do
  exec site fun now db => .ok ((), db.updateTransaction canonicalId (u now))
  let auditId ← newUuid uuid
  insertAudit auditSite (audit auditId)

/-- What a statement does to a canonical: its values win where it has any. -/
def statementPatch (referenceId : Option String) (postingDate : Option Int)
    (merchantDisplay : Option String) (settledAmountMinor : Option Int) (now : Int) :
    Patch TransactionsRow where
  run t := { t with
    referenceId := referenceId.or t.referenceId
    bestPostingDate := postingDate.or t.bestPostingDate
    merchantDisplayName := merchantDisplay.or t.merchantDisplayName
    amountMinor := settledAmountMinor.or t.amountMinor
    sourceMix := if t.sourceMix = some .emailOnly then some .merged else t.sourceMix
    updatedAt := some now }
  key_run _ := rfl

/-- What `before_json` shows of a canonical. -/
def statementSnapshot (t : TransactionsRow) : AuditSnapshot :=
  .statement t.referenceId t.bestPostingDate t.merchantDisplayName t.amountMinor

/-- Merges statement data into an existing canonical transaction. -/
def updateCanonicalWithStatement (canonicalId : String) (referenceId : Option String)
    (postingDate : Option TimeText) (merchantDisplay : Option String)
    (settledAmountMinor : Option Int) : Db Unit := do
  let postingDateParsed := postingDate.bind TimeText.parseDate
  let before ← Eff.attempt (query .selectBeforeStatement fun db =>
    (db.transactions.find? canonicalId).map statementSnapshot)
  updateAndLog .updateWithStatement .auditStatement canonicalId
    (statementPatch referenceId postingDateParsed merchantDisplay settledAmountMinor)
    fun auditId => engineAudit auditId "canonical_field_overwritten_by_statement" canonicalId
      (some ((before.toOption.bind id).getD (.statement none none none none)))
      (some (.statement referenceId postingDateParsed merchantDisplay settledAmountMinor))

/-- What an email does to a canonical with statement evidence: it fills gaps. -/
def emailFillPatch (referenceId merchantDisplay : Option String) (now : Int) :
    Patch TransactionsRow where
  run t := { t with
    referenceId := t.referenceId.or referenceId
    merchantDisplayName := t.merchantDisplayName.or merchantDisplay
    sourceMix := if t.sourceMix = some .statementOnly then some .merged else t.sourceMix
    updatedAt := some now }
  key_run _ := rfl

/-- Backfills null fields from an email observation. -/
def fillNullFieldsFromEmail (canonicalId : String) (referenceId merchantDisplay : Option String) :
    Db Unit :=
  updateAndLog .updateFromEmail .auditEmailFill canonicalId
    (emailFillPatch referenceId merchantDisplay)
    fun auditId => engineAudit auditId "canonical_null_fields_filled_from_email" canonicalId
      none none

def emailVsEmailConfidenceMargin : ℚ := 15 / 100

/-- The confidence of the observation the newest matching decision about the
canonical was made for. -/
def Database.confidenceByDecision (db : Database) (canonicalId obsId : String) : Option ℚ :=
  let joined := db.matchDecisions.rows.filterMap fun md =>
    md.observationId.bind fun oid =>
      (db.observations.find? oid).bind fun o =>
        if md.matchedTransactionId = some canonicalId ∧
            md.decision ∈ [.autoMatchedExact, .autoMatchedScored, .manuallyConfirmed] ∧
            o.sourcePipeline = some "gmail_transaction" ∧ o.id ≠ obsId then
          some (md.createdAt, o.confidenceScore)
        else none
  ((orderBy (fun a b => b.1 ≤ a.1) (scan joined)).head?).bind (·.2)

/-- The confidence of the oldest email observation linked to the canonical. -/
def Database.confidenceByLink (db : Database) (canonicalId obsId : String) : Option ℚ :=
  ((orderBy (fun a b => nullsFirst a.createdAt b.createdAt) (scan
    (db.observations.rows.filter fun o => o.canonicalTransactionId = some canonicalId &&
      o.sourcePipeline = some "gmail_transaction" && o.id != obsId))).head?).bind
    (·.confidenceScore)

/-- The confidence to beat: `.ok().flatten().or_else(..)` over two queries. -/
def existingConfidence (canonicalId obsId : String) : Db (Option ℚ) := do
  let byDecision ← Eff.attempt (query .selectConfidenceByDecision
    (·.confidenceByDecision canonicalId obsId))
  match byDecision.toOption.bind id with
  | some c => return some c
  | none =>
    let byLink ← Eff.attempt (query .selectConfidenceByLink
      (·.confidenceByLink canonicalId obsId))
    return byLink.toOption.bind id

/-- What a more confident email does to a canonical. -/
def emailOverwritePatch (referenceId merchantRaw : Option String) (now : Int) :
    Patch TransactionsRow where
  run t := { t with
    referenceId := referenceId.or t.referenceId
    merchantDisplayName := merchantRaw.or t.merchantDisplayName
    updatedAt := some now }
  key_run _ := rfl

/-- The overwrite itself, with its audit row. -/
def overwriteFromEmail (canonicalId : String) (obs : IncomingObservation) : Db Unit := do
  let before ← Eff.attempt (query .selectBeforeOverwrite fun db =>
    (db.transactions.find? canonicalId).map fun t =>
      AuditSnapshot.email t.referenceId t.merchantDisplayName)
  updateAndLog .updateFromConfidentEmail .auditConfidentEmail canonicalId
    (emailOverwritePatch obs.referenceId obs.merchantRaw)
    fun auditId => engineAudit auditId "canonical_field_overwritten_by_higher_confidence_email"
      canonicalId (some ((before.toOption.bind id).getD (.email none none)))
      (some (.email obs.referenceId obs.merchantRaw))

/-- Overwrites a field when the email source is more confident. -/
def maybeOverwriteFromHigherConfidenceEmail (canonicalId : String) (obs : IncomingObservation) :
    Db Unit :=
  match obs.confidenceScore with
  | none => return ()
  | some newConfidence => do
    match ← existingConfidence canonicalId obs.id with
    | none => return ()
    | some existing =>
      if newConfidence - existing ≤ emailVsEmailConfidenceMargin then return ()
      else overwriteFromEmail canonicalId obs

/-- The precedence of the sources: which merge, if any, a match calls for. -/
def applyPrecedence (obs : IncomingObservation) (matchedId : String)
    (matchedSourceMix : Option SourceMix) : Db Unit :=
  if obs.sourcePipeline = "statement_pdf" then
    updateCanonicalWithStatement matchedId obs.referenceId (some obs.eventTime) obs.merchantRaw
      (some obs.amountMinor)
  else if obs.sourcePipeline = "gmail_transaction" ∧
      (matchedSourceMix = some .statementOnly ∨ matchedSourceMix = some .merged) then
    fillNullFieldsFromEmail matchedId obs.referenceId obs.merchantRaw
  else if obs.sourcePipeline = "gmail_transaction" ∧ matchedSourceMix = some .emailOnly then
    maybeOverwriteFromHigherConfidenceEmail matchedId obs
  else return ()

/-- Applies match precedence and links the observation to its canonical. -/
def applyMatchPrecedenceAndLink (obs : IncomingObservation) (matchedId : String)
    (matchedSourceMix : Option SourceMix) : Db Unit := do
  applyPrecedence obs matchedId matchedSourceMix
  updateCanonicalTransactionId obs.id (some matchedId)
  postProcess matchedId obs

end Dinero
