import Dinero.Extraction
import Dinero.FieldRules
import Dinero.Index

/-!
# Dinero.Cleanup

The merchant-normalisation pass: corrections a model proposes are applied one
by one, each with a row that is to undo it.

A correction writes to five tables: the merchant it resolves to, up to two
aliases, the learned rule for the template of the email, the correction itself
and the transaction.
-/

namespace Dinero

open Sql

/-! ## tables -/

structure FieldRulesRow where
  id : String
  bankName : String
  fieldName : String
  sourceType : String
deriving DecidableEq, Repr

structure RuleChangeLogRow where
  id : String
  fieldRuleVariantId : Option String
  action : String
  oldPayloadJson : Option String
  newPayloadJson : Option String
  triggeringFeedbackLogId : Option String
  reason : String
deriving DecidableEq, Repr

inductive CorrectionStatus
  | applied | reverted
deriving DecidableEq, Repr

/-- The merchant and category columns of a transaction. -/
structure MerchantFields where
  entityId : Option String
  displayName : Option String
  normalizedName : Option String
  categoryId : Option String
deriving DecidableEq, Repr

/-- A row of `merchant_llm_corrections`; `prev` and `new` stand for the four
columns of that prefix. -/
structure MerchantLlmCorrectionsRow where
  id : String
  runId : String
  transactionId : String
  observationId : Option String
  prev : MerchantFields
  new : MerchantFields
  llmConfidence : ℚ
  learnedRuleId : Option String
  status : CorrectionStatus
deriving DecidableEq, Repr

instance : Keyed FieldRulesRow String := ⟨(·.id)⟩
instance : Keyed RuleChangeLogRow String := ⟨(·.id)⟩
instance : Keyed MerchantLlmCorrectionsRow String := ⟨(·.id)⟩

/-- `UNIQUE(bank_name, field_name, source_type)`. -/
def FieldRulesRow.ruleIndex (p : FieldRulesRow) : Option (String × String × String) :=
  some (p.bankName, p.fieldName, p.sourceType)

/-- `idx_field_rule_variants_live`. -/
def FieldRuleVariantsRow.liveIndex (v : FieldRuleVariantsRow) : Option (String × String) :=
  if v.status.isLive then some (v.fieldRuleId, v.templateHash) else none

structure Cleanup where
  db : Database
  categories : Table CategoriesRow
  fieldRules : Indexed FieldRulesRow FieldRulesRow.ruleIndex
  variants : Indexed FieldRuleVariantsRow FieldRuleVariantsRow.liveIndex
  ruleChangeLog : Table RuleChangeLogRow
  corrections : Table MerchantLlmCorrectionsRow

abbrev CleanupProg := Prog Empty Cleanup

/-- A statement that a constraint `error` refuses, or that leaves the tables
given. -/
def writeOr (error : SqlError) (f : Int → Cleanup → Option Cleanup) : CleanupProg Unit :=
  update fun now b => match f now b with
    | some b' => .ok ((), b')
    | none => .error error

/-! ## libraries -/

/-- What a correction takes from `regex` and `serde_json`. -/
class RuleLibraries where
  /-- `regex::escape`. -/
  escape : String → String
  /-- `Regex::new(pattern).ok()?.captures(text)?.get(1)?.as_str()`. -/
  captureFirst : String → String → Option String
  /-- `json!({ "regex": pattern, "capture_group": 1 }).to_string()`. -/
  spanPayload : String → String
  /-- `from_str(text).unwrap_or(Value::Null).to_string()`. -/
  reprint : String → String

export RuleLibraries (escape captureFirst spanPayload reprint)

/-- Patterns of plain words, which capture the second of three. -/
@[reducible] def RuleLibraries.words : RuleLibraries where
  escape := id
  captureFirst _ text := ((text.toList.splitOn ' ')[1]?).map String.ofList
  spanPayload pattern :=
    let quoted := pattern.toList.flatMap fun c => if c = '\\' ∨ c = '"' then ['\\', c] else [c]
    "\x7b\"capture_group\":1,\"regex\":\"" ++ String.ofList quoted ++ "\"\x7d"
  reprint := id

/-! ## rules from spans -/

section Spans

variable [Extern] [RuleLibraries]

def maxCapture : Nat := 80

def anchorChars : Nat := 24

/-- The length of a text in UTF-8. -/
def utf8Len (s : List Char) : Nat := (s.map Char.utf8Size).sum

omit [Extern] [RuleLibraries] in
@[simp] theorem utf8Len_nil : utf8Len [] = 0 := rfl

omit [Extern] [RuleLibraries] in
@[simp] theorem utf8Len_cons (c : Char) (s : List Char) :
    utf8Len (c :: s) = c.utf8Size + utf8Len s := by
  simp [utf8Len]

omit [Extern] [RuleLibraries] in
@[simp] theorem utf8Len_append (s t : List Char) : utf8Len (s ++ t) = utf8Len s + utf8Len t := by
  simp [utf8Len]

/-- `str::find`: what precedes the first occurrence. -/
def beforeFirst (needle : List Char) : List Char → Option (List Char)
  | [] => if needle = [] then some [] else none
  | c :: rest =>
    if needle <+: c :: rest then some []
    else (beforeFirst needle rest).map (c :: ·)

/-- The characters of the first `n` bytes, and the others.  A cut inside a
character, on which the program panics, is made behind it. -/
def splitAtByte : Nat → List Char → List Char × List Char
  | _, [] => ([], [])
  | n, c :: rest =>
    if n = 0 then ([], c :: rest)
    else
      let (before, after) := splitAtByte (n - c.utf8Size) rest
      (c :: before, after)

/-- Case-insensitive search: the text before the span, the span and the text
after it. -/
def findIgnoreCase (haystack needle : String) : Option (List Char × List Char × List Char) :=
  if needle = "" then none
  else
    let hay := haystack.toList
    let hayLower := (toLowercase haystack).toList
    let needleLower := (toLowercase needle).toList
    -- offsets into the lowercased copy are good only if it is as long
    let found := if utf8Len hayLower ≠ utf8Len hay ∨ utf8Len needleLower ≠ utf8Len needle.toList then
        (beforeFirst needle.toList hay).map fun before => (utf8Len before, utf8Len needle.toList)
      else
        (beforeFirst needleLower hayLower).map fun before => (utf8Len before, utf8Len needleLower)
    found.map fun (start, length) =>
      let (before, rest) := splitAtByte start hay
      let (span, after) := splitAtByte length rest
      (before, span, after)

/-- `char::is_ascii_digit`. -/
def isAsciiNumeral (c : Char) : Bool := '0' ≤ c && c ≤ '9'

/-- The loop of `relax_literal`; `run` is the class of the run the last
character belonged to. -/
def relaxChars (run : Option Bool) : List Char → String
  | [] => ""
  | c :: rest =>
    if isWhitespace c then
      (if run = some true then "" else "\\s+") ++ relaxChars (some true) rest
    else if isAsciiNumeral c then
      (if run = some false then "" else "\\d+") ++ relaxChars (some false) rest
    else escape (String.ofList [c]) ++ relaxChars none rest

/-- Turns literal text into a pattern tolerant of the parts that vary. -/
def relaxLiteral (text : List Char) : String := relaxChars none text

/-- `eq_ignore_ascii_case` of the trimmed texts. -/
def sameSpan (recovered needle : String) : Bool :=
  (trim recovered.toList).map Char.toLower = (trim needle.toList).map Char.toLower

/-- Builds a regex that captures the needle using its surrounding context. -/
def synthesizeSpanRegex (source needle : String) : Option String :=
  (findIgnoreCase source needle).bind fun (before, _, after) =>
    let prefixText := relaxLiteral (before.drop (before.length - anchorChars))
    let suffixText := relaxLiteral (after.take anchorChars)
    if prefixText = "" ∧ suffixText = "" then none
    else
      let pattern := "(?is)" ++ prefixText ++ "(.\x7b1," ++ toString maxCapture ++ "\x7d?)" ++ suffixText
      (captureFirst pattern source).bind fun recovered =>
        if sameSpan recovered needle then some pattern else none

/-- Runs of `p` replaced by `c`. -/
def collapse (p : Char → Bool) (c : Char) (inRun : Bool) : List Char → List Char
  | [] => []
  | x :: rest =>
    if p x then (if inRun then [] else [c]) ++ collapse p c true rest
    else x :: collapse p c false rest

/-- The hash every message of one template has. -/
def computeTemplateHash (body : String) : String :=
  let noDigits := collapse isDigit '#' false (toLowercase body).toList
  sha256Hex (String.ofList (trim (collapse isWhitespace ' ' false noDigits)))

end Spans

/-! ## field rules -/

section Rules

variable [Extern] [RuleLibraries]

/-- The arguments of `upsert_variant`. -/
structure FieldRuleVariant where
  id : String
  bankName : String
  fieldName : String
  sourceType : String
  templateHash : String
  rulePayloadJson : String
  status : RuleStatus
  successCount : Nat
  failureCount : Nat
  confidence : ℚ
  authoredBy : String
  learnedFrom : String
deriving DecidableEq, Repr

/-- Returns the parent rule for a bank/field pair, creating it if absent. -/
def getOrCreateParent (bankName fieldName sourceType : String) : CleanupProg String := do
  match ← fetch (·.fieldRules.lookup (bankName, fieldName, sourceType)) with
  | some p => return p.id
  | none =>
    let id ← newUuid uuid
    writeOr (uniqueFailed "field_rules.id") fun _ b =>
      (b.fieldRules.insert? ⟨id, bankName, fieldName, sourceType⟩).map fun T =>
        { b with fieldRules := T }
    return id

/-- Records a change to a rule, for audit and rollback. -/
def insertChangeLog (variantId : Option String) (action : String)
    (oldPayload newPayload feedbackLogId : Option String) (reason : String) :
    CleanupProg Unit := do
  let id ← newUuid uuid
  writeOr (uniqueFailed "rule_change_log.id") fun _ b =>
    (b.ruleChangeLog.insert? ⟨id, variantId, action, oldPayload, newPayload, feedbackLogId,
      reason⟩).map fun T => { b with ruleChangeLog := T }

omit [Extern] [RuleLibraries] in
/-- The `UPDATE` of `upsert_variant`. -/
def replacePatch (v : FieldRuleVariant) (now : Int) : Patch FieldRuleVariantsRow where
  run old := { old with
    rulePayloadJson := v.rulePayloadJson
    status := v.status
    successCount := v.successCount
    failureCount := v.failureCount
    confidence := v.confidence
    authoredBy := v.authoredBy
    learnedFrom := v.learnedFrom
    updatedAt := now }
  key_run _ := rfl

omit [Extern] [RuleLibraries] in
/-- The row `upsert_variant` inserts. -/
def FieldRuleVariant.row (v : FieldRuleVariant) (parentId : String) (now : Int) :
    FieldRuleVariantsRow where
  id := v.id
  fieldRuleId := parentId
  templateHash := v.templateHash
  rulePayloadJson := v.rulePayloadJson
  status := v.status
  successCount := v.successCount
  failureCount := v.failureCount
  confidence := v.confidence
  authoredBy := v.authoredBy
  learnedFrom := v.learnedFrom
  updatedAt := now

/-- Inserts or updates a rule variant for a bank and field. -/
def upsertVariant (v : FieldRuleVariant) (feedbackLogId : Option String) :
    CleanupProg String := do
  let parentId ← getOrCreateParent v.bankName v.fieldName v.sourceType
  match ← fetch (·.variants.lookup (parentId, v.templateHash)) with
  | some existing =>
    writeOr (uniqueFailed "field_rule_variants.field_rule_id, field_rule_variants.template_hash")
      fun now b => (b.variants.modify? existing.id (replacePatch v now)).map fun T =>
        { b with variants := T }
    insertChangeLog (some existing.id) "created" (some (reprint existing.rulePayloadJson))
      (some v.rulePayloadJson) feedbackLogId "replaced by a newer validated rule"
    return existing.id
  | none =>
    writeOr (uniqueFailed "field_rule_variants.id") fun now b =>
      (b.variants.insert? (v.row parentId now)).map fun T => { b with variants := T }
    insertChangeLog (some v.id) "created" none (some v.rulePayloadJson) feedbackLogId
      "synthesized from a validated correction"
    return v.id

omit [Extern] [RuleLibraries] in
/-- `UPDATE field_rule_variants SET status = 'inactive'`. -/
def retirePatch (now : Int) : Patch FieldRuleVariantsRow where
  run v := { v with status := .inactive, updatedAt := now }
  key_run _ := rfl

/-- `field_rules::revert`. -/
def revertRule (id reason : String) : CleanupProg Unit := do
  match ← fetch (·.variants.find? id) with
  | none => Eff.fail (.anyhow "Rule not found")
  | some v =>
    writeOr (uniqueFailed "field_rule_variants.field_rule_id, field_rule_variants.template_hash")
      fun now b => (b.variants.modify? id (retirePatch now)).map fun T => { b with variants := T }
    insertChangeLog (some id) "reverted" (some (reprint v.rulePayloadJson)) none none reason

end Rules

/-! ## corrections -/

structure CleanupCandidate where
  transactionId : String
  observationId : Option String
  bankName : String
  currentMerchant : String
  body : Option String
  categoryId : Option String
  merchantEntityId : Option String
  merchantDisplayName : Option String
  merchantNormalizedName : Option String
deriving DecidableEq, Repr

structure MerchantResolution where
  merchantInEmail : String
  merchantName : String
  category : String
  confidence : ℚ
deriving DecidableEq, Repr

/-- The fields of the transaction as the candidate shows them. -/
def CleanupCandidate.shown (c : CleanupCandidate) : MerchantFields :=
  ⟨c.merchantEntityId, c.merchantDisplayName, c.merchantNormalizedName, c.categoryId⟩

def TransactionsRow.merchantFields (t : TransactionsRow) : MerchantFields :=
  ⟨t.merchantEntityId, t.merchantDisplayName, t.merchantNormalizedName, t.categoryId⟩

/-- Resolves a category name back to its id. -/
def Cleanup.categoryIdForName (b : Cleanup) (name : String) : Option String :=
  (b.categories.rows.find? fun c => c.name = name && !c.isDeleted).map (·.id)

/-- `SELECT id FROM merchants WHERE normalized_name = ?1 AND is_deleted = 0`. -/
def Cleanup.liveMerchant (b : Cleanup) (normalized : String) : Option String :=
  (b.db.merchants.rows.find? fun m => m.normalizedName = normalized && !m.isDeleted).map (·.id)

/-- The merchant a normalised alias resolves to. -/
def Cleanup.resolves (b : Cleanup) (name : String) : Option String :=
  (b.db.merchantAliases.rows.find? (·.aliasNormalized = name)).map (·.merchantEntityId)

/-- `UPDATE merchants SET name = ?2, source = 'user'`. -/
def renamePatch (name : String) (now : Int) : Patch MerchantsRow where
  run m := { m with name := name, source := .user, updatedAt := some now }
  key_run _ := rfl

/-- `DO UPDATE SET` of `upsert_alias`. -/
def realiasPatch (a : MerchantAliasesRow) : Patch MerchantAliasesRow where
  run old := { old with
    merchantEntityId := a.merchantEntityId
    aliasRaw := a.aliasRaw
    confidence := a.confidence }
  key_run _ := rfl

/-- `INSERT INTO merchant_aliases … ON CONFLICT(alias_normalized) DO UPDATE`. -/
def Database.upsertAlias (a : MerchantAliasesRow) (db : Database) :
    Except SqlError (Unit × Database) :=
  match db.merchantAliases.rows.find? (·.aliasNormalized = a.aliasNormalized) with
  | some old =>
    if db.merchants.contains a.merchantEntityId then
      .ok ((), { db with
        merchantAliases := db.merchantAliases.modify old.id (realiasPatch a) })
    else .error foreignKeyFailed
  | none => db.insertAlias a

/-- A statement on the ledger's own tables. -/
def onDb (f : Int → Database → Except SqlError (α × Database)) : CleanupProg α :=
  update fun now b => match f now b.db with
    | .ok (a, db) => .ok (a, { b with db := db })
    | .error e => .error e

/-- The columns `apply_correction` sets; a category it does not know leaves
the old one. -/
def correctedPatch (new : MerchantFields) (now : Int) : Patch TransactionsRow where
  run t := { t with
    merchantDisplayName := new.displayName
    merchantNormalizedName := new.normalizedName
    merchantEntityId := new.entityId
    categoryId := new.categoryId.or t.categoryId
    updatedAt := some now }
  key_run _ := rfl

/-- The columns `revert_correction` sets. -/
def restoredPatch (prev : MerchantFields) (now : Int) : Patch TransactionsRow where
  run t := { t with
    merchantDisplayName := prev.displayName
    merchantNormalizedName := prev.normalizedName
    merchantEntityId := prev.entityId
    categoryId := prev.categoryId
    updatedAt := some now }
  key_run _ := rfl

/-- `UPDATE merchant_llm_corrections SET status = 'reverted'`. -/
def revertedPatch : Patch MerchantLlmCorrectionsRow where
  run k := { k with status := .reverted }
  key_run _ := rfl

section Corrections

variable [Extern] [RuleLibraries]

/-- Decides whether two merchant strings are close enough to alias together. -/
def safeToAlias (parserOutput merchantInEmail : String) : Bool :=
  let a := stripNoiseTokens parserOutput
  let b := stripNoiseTokens merchantInEmail
  if a = "" ∨ b = "" then false
  else if strContains a b || strContains b a then true
  else decide (80 / 100 ≤ jaroWinkler a b)

/-- Records a descriptor-to-merchant alias. -/
def upsertAlias (merchantId aliasRaw aliasNormalized : String) (confidence : ℚ) :
    CleanupProg Unit := do
  let id ← newUuid uuid
  onDb fun now db => db.upsertAlias {
    id := id, merchantEntityId := merchantId, aliasRaw := aliasRaw
    aliasNormalized := aliasNormalized, confidence := confidence, createdAt := some now }

/-- Resolves a model-supplied name to a canonical merchant, creating one if
needed. -/
def resolveCanonicalMerchant (name : String) : CleanupProg (String × String) := do
  let normalized := stripNoiseTokens name
  if normalized = "" then Eff.fail (.anyhow "LLM merchant name normalized to empty")
  else
    match ← fetch (·.liveMerchant normalized) with
    | some id =>
      onDb fun now db =>
        .ok ((), { db with merchants := db.merchants.modify id (renamePatch name now) })
      return (id, normalized)
    | none =>
      let id ← newUuid uuid
      onDb fun now db => db.insertMerchant {
        id := id, name := name, normalizedName := normalized, source := .user
        isDeleted := false, createdAt := some now, updatedAt := some now }
      return (id, normalized)

/-- The rule a correction can teach, if the body is there and the span is found
in it. -/
def learnableRule (c : CleanupCandidate) (r : MerchantResolution) : Option (String × String) :=
  c.body.bind fun body =>
    (synthesizeSpanRegex body r.merchantInEmail).map fun pattern =>
      (computeTemplateHash body, spanPayload pattern)

/-- The variant for it. -/
def learnedVariant (c : CleanupCandidate) (r : MerchantResolution) (templateHash payload : String)
    (id : String) : FieldRuleVariant where
  id := id
  bankName := c.bankName
  fieldName := "merchant"
  sourceType := "email"
  templateHash := templateHash
  rulePayloadJson := payload
  status := .active
  successCount := 1
  failureCount := 0
  confidence := r.confidence
  authoredBy := "llm"
  learnedFrom := "batch_cleanup"

/-- Teaches the rule; what goes wrong on the way is ignored. -/
def learnRule (c : CleanupCandidate) (r : MerchantResolution) : CleanupProg (Option String) := do
  match learnableRule c r with
  | none => return none
  | some (templateHash, payload) =>
    let id ← newUuid uuid
    match ← Eff.attempt (upsertVariant (learnedVariant c r templateHash payload id) none) with
    | .ok ruleId => return some ruleId
    | .error _ => return none

/-- The aliases of a correction: the span in the email, and what the parser
made of it if that is much the same. -/
def correctionAliases (c : CleanupCandidate) (r : MerchantResolution) :
    List (String × String) :=
  let span := stripNoiseTokens r.merchantInEmail
  let parsed := stripNoiseTokens c.currentMerchant
  (if span ≠ "" then [(r.merchantInEmail, span)] else []) ++
    (if parsed ≠ "" ∧ parsed ≠ span ∧ safeToAlias c.currentMerchant r.merchantInEmail = true then
      [(c.currentMerchant, parsed)] else [])

def upsertAliases (merchantId : String) (confidence : ℚ) :
    List (String × String) → CleanupProg Unit
  | [] => return ()
  | (raw, normalized) :: rest => do
    upsertAlias merchantId raw normalized confidence
    upsertAliases merchantId confidence rest

/-- `INSERT INTO merchant_llm_corrections`; the transaction has to exist. -/
def insertCorrection (k : MerchantLlmCorrectionsRow) : CleanupProg Unit :=
  update fun _ b => match b.corrections.insert? k with
    | none => .error (uniqueFailed "merchant_llm_corrections.id")
    | some T =>
      if b.db.transactions.contains k.transactionId then .ok ((), { b with corrections := T })
      else .error foreignKeyFailed

/-- Applies one merchant correction and records it for undo. -/
def applyCorrection (runId : String) (c : CleanupCandidate) (r : MerchantResolution) :
    CleanupProg Unit := do
  let (merchantId, normalized) ← resolveCanonicalMerchant r.merchantName
  upsertAliases merchantId r.confidence (correctionAliases c r)
  let newCategoryId ← fetch (·.categoryIdForName r.category)
  let learnedRuleId ← learnRule c r
  let new : MerchantFields := ⟨some merchantId, some r.merchantName, some normalized, newCategoryId⟩
  let id ← newUuid uuid
  insertCorrection {
    id := id, runId := runId, transactionId := c.transactionId, observationId := c.observationId
    prev := c.shown, new := new, llmConfidence := r.confidence, learnedRuleId := learnedRuleId
    status := .applied }
  onDb fun now db => .ok ((), db.updateTransaction c.transactionId (correctedPatch new now))

/-- Retires what a correction taught; what goes wrong is ignored. -/
def retireLearned : Option String → CleanupProg Unit
  | none => return ()
  | some ruleId => do
    let _ ← Eff.attempt (revertRule ruleId "merchant cleanup correction reverted")

/-- Reverts one correction to the merchant name it replaced. -/
def revertCorrection (correctionId : String) : CleanupProg Unit := do
  match ← fetch fun b => (b.corrections.find? correctionId).filter (·.status = .applied) with
  | none => Eff.fail .queryReturnedNoRows
  | some k =>
    onDb fun now db => .ok ((), db.updateTransaction k.transactionId (restoredPatch k.prev now))
    retireLearned k.learnedRuleId
    update fun _ b =>
      .ok ((), { b with corrections := b.corrections.modify correctionId revertedPatch })

/-- The loop of `revert_run`. -/
def revertAll : List String → CleanupProg Nat
  | [] => return 0
  | id :: ids => do
    revertCorrection id
    let n ← revertAll ids
    return n + 1

/-- Reverts every correction from a run. -/
def revertRun (runId : String) : CleanupProg Nat := do
  let ids ← fetch fun b => (scan (b.corrections.rows.filter fun k =>
    k.runId = runId && k.status = .applied)).map (·.id)
  revertAll ids

end Corrections

end Dinero
