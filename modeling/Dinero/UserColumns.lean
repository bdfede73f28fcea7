import Dinero.Edits
import Dinero.Precedence
import Dinero.Runs
import Dinero.StatementRows

/-!
# Dinero.UserColumns

What becomes of a merchant, a category or an amount the user has set.

`transactions_update` writes them where every merge writes: nothing in the row
says that a value is the user's.  So a later observation of the payment takes
the merchant back, if it is a statement line or a more confident email, and its
text may name another category.  The amount it cannot change, because nothing
is matched that does not have it.
-/

namespace Dinero

open Sql

variable [Extern]

/-! ## which emails overwrite -/

/-- The confidence an email has to beat. -/
def Database.existingConfidence (db : Database) (canonicalId obsId : String) : Option ℚ :=
  (db.confidenceByDecision canonicalId obsId).or (db.confidenceByLink canonicalId obsId)

/-- The email is more confident than the one that was there, by more than the margin. -/
def Database.outweighs (db : Database) (obs : IncomingObservation) (canonicalId : String) : Bool :=
  match obs.confidenceScore, db.existingConfidence canonicalId obs.id with
  | some newConfidence, some existing =>
    decide ¬ (newConfidence - existing ≤ emailVsEmailConfidenceMargin)
  | _, _ => false

theorem existingConfidence_quiet (canonicalId obsId : String) (now : Int) (s : Store Database) :
    Dinero.existingConfidence canonicalId obsId (.quiet now) s =
      (.ok (s.db.existingConfidence canonicalId obsId), s) := by
  unfold Dinero.existingConfidence Database.existingConfidence
  rw [Eff.bind_of_ok (Eff.attempt_apply _ _ _), query_quiet]
  cases hc : s.db.confidenceByDecision canonicalId obsId with
  | some c => simp [Except.toOption]
  | none =>
    simp only [Except.toOption, Option.bind_some, id]
    rw [Eff.bind_of_ok (Eff.attempt_apply _ _ _), query_quiet]
    rfl

omit [Extern] in
/-- Only between emails does the confidence matter. -/
theorem mergePatch_overwrite {obs : IncomingObservation} {mix : Option SourceMix}
    (h : ¬ (obs.sourcePipeline = "gmail_transaction" ∧ mix = some .emailOnly)) (a b : Bool)
    (now : Int) : mergePatch obs mix a now = mergePatch obs mix b now := by
  unfold mergePatch
  split
  · rfl
  split
  · rfl
  · rw [if_neg fun hc => h ⟨hc.1, hc.2.1⟩, if_neg fun hc => h ⟨hc.1, hc.2.1⟩]

/-- **A merge, with the confidence weighed.** -/
theorem applyPrecedence_weighed {obs : IncomingObservation} {id : String} {mix : Option SourceMix}
    {now : Int} {s s' : Store Database}
    (h : applyPrecedence obs id mix (.quiet now) s = (.ok (), s')) :
    ∃ L, s'.db = { s.db with
      transactions := s.db.transactions.modify id (mergePatch obs mix (s.db.outweighs obs id) now)
      auditLog := L } := by
  by_cases hemail : obs.sourcePipeline = "gmail_transaction" ∧ mix = some .emailOnly
  · have hmail : ("gmail_transaction" : String) ≠ "statement_pdf" := by decide
    have hmerge : mergePatch obs mix (s.db.outweighs obs id) now =
        if s.db.outweighs obs id then emailOverwritePatch obs.referenceId obs.merchantRaw now
        else .idle := by
      simp [mergePatch, hemail.1, hemail.2, hmail]
    have hidle : s.db.outweighs obs id = false → s'.db = s.db → ∃ L, s'.db = { s.db with
        transactions := s.db.transactions.modify id
          (mergePatch obs mix (s.db.outweighs obs id) now)
        auditLog := L } := by
      intro hout hdb
      refine ⟨s.db.auditLog, ?_⟩
      rw [hmerge, hout, hdb]
      simp
    have hprogram : applyPrecedence obs id mix = maybeOverwriteFromHigherConfidenceEmail id obs := by
      simp [applyPrecedence, hemail.1, hemail.2, hmail]
    rw [hprogram, maybeOverwriteFromHigherConfidenceEmail] at h
    unfold Database.outweighs at hmerge hidle ⊢
    cases hnew : obs.confidenceScore with
    | none =>
      simp only [hnew] at h hidle
      obtain ⟨-, rfl⟩ := Prod.mk.inj h
      simpa [hnew] using hidle
    | some newConfidence =>
      simp only [hnew] at h hidle hmerge ⊢
      rw [Eff.bind_of_ok (existingConfidence_quiet id obs.id now s)] at h
      cases hold : s.db.existingConfidence id obs.id with
      | none =>
        simp only [hold] at h hidle ⊢
        obtain ⟨-, rfl⟩ := Prod.mk.inj h
        simpa using hidle
      | some existing =>
        simp only [hold] at h hidle hmerge ⊢
        by_cases hle : newConfidence - existing ≤ emailVsEmailConfidenceMargin
        · rw [if_pos hle] at h
          obtain ⟨-, rfl⟩ := Prod.mk.inj h
          exact hidle (by simpa using hle) rfl
        · rw [if_neg hle] at h
          obtain ⟨before, s₂, h₂, h⟩ := Eff.bind_eq_ok.mp h
          obtain ⟨L, hL⟩ := updateAndLog_ok h
          rw [attempt_query_ok h₂] at hL
          refine ⟨L, ?_⟩
          rw [hmerge, hL]
          simp [hle, Ctx.quiet]
  · obtain ⟨overwrite, L, hL⟩ := applyPrecedence_ok h
    rw [mergePatch_overwrite hemail overwrite (s.db.outweighs obs id)] at hL
    exact ⟨L, hL⟩

/-! ## the columns -/

/-- The columns of a transaction the user corrects. -/
structure UserColumns where
  merchantDisplayName : Option String
  categoryId : Option String
  amountMinor : Option Int
deriving DecidableEq, Repr

omit [Extern] in
def TransactionsRow.userColumns (t : TransactionsRow) : UserColumns :=
  ⟨t.merchantDisplayName, t.categoryId, t.amountMinor⟩

def Database.userColumns (db : Database) (id : String) : Option UserColumns :=
  (db.transactions.find? id).map (·.userColumns)

/-- The observation writes its merchant over that of the transaction: it is a statement line,
or the more confident of two emails. -/
def IncomingObservation.Renames (obs : IncomingObservation) (outweighs : Bool)
    (t : TransactionsRow) : Prop :=
  obs.sourcePipeline = "statement_pdf" ∨
    obs.sourcePipeline = "gmail_transaction" ∧ t.sourceMix = some .emailOnly ∧ outweighs = true

instance (obs : IncomingObservation) (outweighs : Bool) (t : TransactionsRow) :
    Decidable (obs.Renames outweighs t) :=
  inferInstanceAs (Decidable (_ ∨ _))

/-- The columns after a match, post-processing included. -/
def mergedColumns (outweighs : Bool) (obs : IncomingObservation) (t : TransactionsRow) :
    UserColumns where
  merchantDisplayName :=
    if obs.Renames outweighs t then obs.merchantRaw.or t.merchantDisplayName
    else if obs.sourcePipeline = "gmail_transaction" ∧ t.HasStatement then
      t.merchantDisplayName.or obs.merchantRaw
    else t.merchantDisplayName
  categoryId :=
    if obs.direction = "credit" then t.categoryId
    else (obs.merchantRaw.bind keywordCategory).or t.categoryId
  amountMinor := if obs.sourcePipeline = "statement_pdf" then some obs.amountMinor else t.amountMinor

/-- What the merge itself writes of them. -/
theorem mergePatch_userColumns (obs : IncomingObservation) (outweighs : Bool) (now : Int)
    (t : TransactionsRow) :
    ((mergePatch obs t.sourceMix outweighs now).run t).userColumns =
      { mergedColumns outweighs obs t with categoryId := t.categoryId } := by
  have hmail : ("gmail_transaction" : String) ≠ "statement_pdf" := by decide
  unfold mergePatch mergedColumns IncomingObservation.Renames TransactionsRow.HasStatement
  by_cases hstmt : obs.sourcePipeline = "statement_pdf"
  · simp [hstmt, statementPatch, TransactionsRow.userColumns]
  · by_cases hgmail : obs.sourcePipeline = "gmail_transaction"
    · by_cases hmix : t.sourceMix = some .statementOnly ∨ t.sourceMix = some .merged
      · have hnot : t.sourceMix ≠ some .emailOnly := by
          rcases hmix with h | h <;> simp [h]
        simp [hgmail, hmail, hmix, hnot, emailFillPatch, TransactionsRow.userColumns]
      · by_cases hover : t.sourceMix = some .emailOnly ∧ outweighs = true
        · simp [hgmail, hmail, hover, emailOverwritePatch, TransactionsRow.userColumns]
        · simp [hgmail, hmail, hmix, hover, Patch.idle, TransactionsRow.userColumns]
    · simp [hstmt, hgmail, Patch.idle, TransactionsRow.userColumns]

omit [Extern] in
theorem namesPatch_userColumns (categoryId : Option String) (merchant : Option (String × String))
    (now : Int) (t : TransactionsRow) :
    ((namesPatch categoryId merchant now).run t).userColumns =
      { t.userColumns with categoryId := categoryId.or t.categoryId } := by
  rw [namesPatch_run]
  rfl

omit [Extern] in
theorem instalmentPatch_userColumns (group : Option String) (earliest : String → Option String)
    (now : Int) (t : TransactionsRow) :
    ((instalmentPatch group earliest now).run t).userColumns = t.userColumns := by
  cases group <;> rfl

/-- What post-processing writes of them: the category of its own transaction. -/
theorem Database.find?_afterPostProcessing (db : Database) (id : String)
    (obs : IncomingObservation) (dt : Int) (merchant : Option (String × String)) (now : Int)
    (k : String) :
    ((db.afterPostProcessing id obs dt merchant now).find? k).map (·.userColumns) =
      if k = id ∧ obs.direction ≠ "credit" then
        (db.transactions.find? k).map fun t =>
          { t.userColumns with
            categoryId := (obs.merchantRaw.bind keywordCategory).or t.categoryId }
      else db.userColumns k := by
  unfold afterPostProcessing
  by_cases hcredit : obs.direction = "credit"
  · rw [if_pos hcredit, if_neg fun h => h.2 hcredit]
    unfold afterRefund
    cases db.refundDebit obs.instrumentId obs.amountMinor dt with
    | none => rfl
    | some d =>
      dsimp only
      rw [Table.map_find?_modify fun _ => rfl, Table.map_find?_modify fun _ => rfl]
      rfl
  · rw [if_neg hcredit]
    unfold afterDeriving
    dsimp only
    rw [Table.map_find?_modify (instalmentPatch_userColumns _ _ _), Table.find?_modify]
    by_cases hk : k = id
    · rw [if_pos hk, if_pos ⟨hk, hcredit⟩, Option.map_map]
      exact congrArg (Option.map · _) (funext (namesPatch_userColumns _ _ now))
    · rw [if_neg hk, if_neg fun h => hk h.1]
      rfl

/-! ## an observation acted on -/

omit [Extern] in
theorem Database.userColumns_of_mem {db : Database} {t : TransactionsRow}
    (ht : t ∈ db.transactions) : db.userColumns t.id = some t.userColumns := by
  have hrow : db.transactions.find? t.id = some t := Table.find?_eq_some.mpr ⟨ht, rfl⟩
  rw [userColumns, hrow]
  rfl

/-- **A match** writes the columns of its transaction, and no others. -/
theorem autoMatch_userColumns {obs : IncomingObservation} {t : TransactionsRow} {score : ℚ}
    {decision d : DecisionType} {dt now : Int} {s s' : Store Database}
    (hdt : obs.eventTime.parse = some dt) (ht : t ∈ s.db.transactions)
    (h : autoMatch obs t.id t.sourceMix score decision (.quiet now) s = (.ok d, s'))
    (k : String) :
    s'.db.userColumns k =
      if k = t.id then some (mergedColumns (s.db.outweighs obs t.id) obs t)
      else s.db.userColumns k := by
  obtain ⟨-, s₁, s₂, s₃, h₁, h₂, h₃, h₄⟩ := autoMatch_steps h
  obtain ⟨L, hmerged⟩ := applyPrecedence_weighed h₁
  obtain ⟨-, -, hlink⟩ := updateCanonicalTransactionId_ok h₂
  have hs₂ : s₂.db.transactions = s.db.transactions.modify t.id
      (mergePatch obs t.sourceMix (s.db.outweighs obs t.id) now) := by
    rw [hlink, hmerged]
  have hpost := postProcess_quiet t.id hdt now s₂
  rw [h₃] at hpost
  have hrow : s.db.transactions.find? t.id = some t := Table.find?_eq_some.mpr ⟨ht, rfl⟩
  have hmerge := mergePatch_userColumns obs (s.db.outweighs obs t.id) now t
  unfold Database.userColumns
  rw [(appendMatchDecision_decided h₄).transactions, hpost, Database.find?_afterPostProcessing,
    Database.userColumns, hs₂, Table.find?_modify]
  by_cases hk : k = t.id
  · subst hk
    simp only [if_true, hrow, Option.map_some, true_and]
    have hcategory : ((mergePatch obs t.sourceMix (s.db.outweighs obs t.id) now).run t).categoryId =
        t.categoryId := congrArg UserColumns.categoryId hmerge
    by_cases hcredit : obs.direction = "credit"
    · rw [if_neg (not_not_intro hcredit), hmerge]
      simp [mergedColumns, hcredit]
    · rw [if_pos hcredit, hmerge, hcategory]
      simp [mergedColumns, hcredit]
  · simp [hk]

/-- What no match is made with keeps its columns. -/
theorem actOn_userColumns {obs : IncomingObservation} {t : TransactionsRow} {d : DecisionType}
    {dt now : Int} {s s' : Store Database} (hfresh : Fresh s)
    (hdt : obs.eventTime.parse = some dt) (ht : t ∈ s.db.transactions)
    (h : actOn obs (s.db.verdict obs) (.quiet now) s = (.ok d, s')) :
    s'.db.userColumns t.id =
      if (s.db.verdict obs).target = some t then
        some (mergedColumns (s.db.outweighs obs t.id) obs t)
      else some t.userColumns := by
  have hrow := Database.userColumns_of_mem ht
  have hmatch : ∀ t' score decision, t' ∈ s.db.transactions →
      (s.db.verdict obs).target = some t' →
      autoMatch obs t'.id t'.sourceMix score decision (.quiet now) s = (.ok d, s') →
      s'.db.userColumns t.id = if (s.db.verdict obs).target = some t then
        some (mergedColumns (s.db.outweighs obs t.id) obs t) else some t.userColumns := by
    intro t' score decision ht' htarget hauto
    rw [autoMatch_userColumns hdt ht' hauto, htarget, hrow]
    by_cases hid : t.id = t'.id
    · have hsame : t' = t := Table.eq_of_key_eq ht' ht hid.symm
      rw [hsame, if_pos rfl, if_pos rfl]
    · rw [if_neg hid, if_neg fun hc => hid (congrArg (·.id) (Option.some.inj hc)).symm]
  rcases s.db.verdict_cases obs with ⟨t', hx, hv⟩ | ⟨-, hv | ⟨t', htw, score, -, -, hv⟩ |
    ⟨topScore, hv⟩⟩
  · have htarget : (s.db.verdict obs).target = some t' := by
      rw [hv]
      rfl
    rw [hv] at h
    exact hmatch t' _ _ (Database.exactTarget_eq_some hx).1 htarget h
  · have hother : ¬ (s.db.verdict obs).target = some t := by
      rw [hv]
      exact fun hc => by cases hc
    rw [hv] at h
    rw [if_neg hother]
    obtain ⟨-, s₃, h₁, hdec⟩ := newCanonical_ok h
    obtain ⟨merchant, s₁, T, s₂, -, hT, -, hs₂, hpost⟩ := createCanonicalTransaction_ok h₁
    have hafter := postProcess_quiet (uuid s.nextUuid) hdt now s₂
    rw [hpost] at hafter
    have hne : t.id ≠ uuid s.nextUuid := by
      intro hid
      exact hfresh.not_mem (Database.mem_rowIds.mpr (.inl (hid ▸ Table.mem_keys.mpr ⟨t, ht, rfl⟩)))
    have hkey : Keyed.key (canonicalRow (uuid s.nextUuid) obs merchant (Ctx.quiet now : Ctx Stmt).now) =
        uuid s.nextUuid := rfl
    unfold Database.userColumns
    rw [hdec.transactions, hafter, Database.find?_afterPostProcessing, if_neg fun hc => hne hc.1,
      Database.userColumns, hs₂]
    dsimp only
    rw [Table.find?_insert? hT, hkey, if_neg hne]
    exact hrow
  · have htarget : (s.db.verdict obs).target = some t' := by
      rw [hv]
      rfl
    rw [hv] at h
    exact hmatch t' _ _ (Database.mem_windowRows.mp htw).1 htarget h
  · have hother : ¬ (s.db.verdict obs).target = some t := by
      rw [hv]
      exact fun hc => by cases hc
    rw [hv] at h
    obtain ⟨clusterId, db₁, -, hraised, hdec⟩ := raiseCluster_ok hdt h
    have hsame := hdec.transactions.trans hraised.payments.2.1
    rw [if_neg hother, Database.userColumns, hsame]
    exact hrow

/-- The observation's own row does not speak for the confidence there was. -/
theorem Database.outweighs_insertObservation {db db' : Database}
    {row : TransactionObservationsRow} {u : Unit} (h : db.insertObservation row = .ok (u, db'))
    (instrumentId canonicalId : String) :
    db'.outweighs (incomingOf row instrumentId) canonicalId =
      db.outweighs (incomingOf row instrumentId) canonicalId := by
  obtain ⟨-, -, -, T, hT, rfl⟩ := insertObservation_eq_ok.mp h
  have hlink : ({ db with observations := T } : Database).confidenceByLink canonicalId row.id =
      db.confidenceByLink canonicalId row.id := by
    unfold confidenceByLink
    rw [Table.filter_insert? hT (by simp)]
  have hdecision : ({ db with observations := T } : Database).confidenceByDecision canonicalId
      row.id = db.confidenceByDecision canonicalId row.id := by
    have hkey : Keyed.key row = row.id := rfl
    have hnone : db.observations.find? row.id = none := by
      rw [Table.find?_eq_none]
      exact (Table.insert?_eq_some.mp hT).1
    unfold confidenceByDecision
    dsimp only
    congr 5
    funext md
    congr 1
    funext oid
    rw [Table.find?_insert? hT, hkey]
    by_cases hoid : oid = row.id
    · simp [hoid, hnone]
    · rw [if_neg hoid]
  have hid : (incomingOf row instrumentId).id = row.id := rfl
  unfold outweighs existingConfidence
  rw [hid, hlink, hdecision]

/-- The ledger takes the row in and matches it with the transaction. -/
def Database.Merges (db : Database) (row : TransactionObservationsRow) (shouldReconcile : Bool)
    (t : TransactionsRow) : Prop :=
  shouldReconcile = true ∧ db.Accepts row ∧ row.eventTime.isSome ∧
    ∃ instrumentId, row.instrumentId = some instrumentId ∧ db.Matches (incomingOf row instrumentId) t

theorem Database.Merges.mem {db : Database} {row : TransactionObservationsRow}
    {shouldReconcile : Bool} {t : TransactionsRow} (h : db.Merges row shouldReconcile t) :
    t ∈ db.transactions := by
  obtain ⟨-, -, -, instrumentId, -, hmatch⟩ := h
  exact (verdict_target (verdict_target_iff.mpr hmatch)).1

/-- The columns an ingestion leaves. -/
theorem ingest_userColumns {s : Store Database} {t : TransactionsRow} (hfresh : Fresh s)
    (ht : t ∈ s.db.transactions) (now : Int) (row : TransactionObservationsRow)
    (shouldReconcile : Bool) :
    (s.db.Merges row shouldReconcile t → ∀ instrumentId, row.instrumentId = some instrumentId →
      ((Op.ingest row shouldReconcile).run now s).db.userColumns t.id =
        some (mergedColumns (s.db.outweighs (incomingOf row instrumentId) t.id)
          (incomingOf row instrumentId) t)) ∧
    (¬ s.db.Merges row shouldReconcile t →
      ((Op.ingest row shouldReconcile).run now s).db.userColumns t.id = some t.userColumns) := by
  have hrow := Database.userColumns_of_mem ht
  have hstored : ∀ {db instrumentId dt d}, s.db.insertObservation row = .ok ((), db) →
      row.eventTime = some dt →
      actOn (incomingOf row instrumentId) (db.verdict (incomingOf row instrumentId)) (.quiet now)
        { s with db := db } = (.ok d, (Op.ingest row shouldReconcile).run now s) →
      ((Op.ingest row shouldReconcile).run now s).db.userColumns t.id =
        if (db.verdict (incomingOf row instrumentId)).target = some t then
          some (mergedColumns (db.outweighs (incomingOf row instrumentId) t.id)
            (incomingOf row instrumentId) t)
        else some t.userColumns := by
    intro db instrumentId dt d hins htime hact
    have hfresh' : Fresh { s with db := db } := by
      unfold Fresh FreshWith
      rw [rowIds_insertObservation hins]
      exact hfresh
    have ht' : t ∈ db.transactions := by
      obtain ⟨-, -, -, T, -, rfl⟩ := Database.insertObservation_eq_ok.mp hins
      exact ht
    have hparse : (incomingOf row instrumentId).eventTime.parse = some dt := by
      simp [incomingOf, htime]
    exact actOn_userColumns hfresh' hparse ht' hact
  constructor
  · rintro ⟨rfl, haccepts, htime, instrumentId, hinst, hmatch⟩ instrumentId' hinst'
    have hsame : instrumentId' = instrumentId := Option.some.inj (hinst'.symm.trans hinst)
    subst hsame
    obtain ⟨dt, hdt⟩ := Option.isSome_iff_exists.mp htime
    obtain ⟨db, d, hins, hact⟩ := ingest_accepted now hfresh hinst hdt haccepts
    have htarget := Database.verdict_target_iff.mpr
      ((Database.matches_insertObservation hins instrumentId' t).mpr hmatch)
    rw [hstored hins hdt hact, if_pos htarget, Database.outweighs_insertObservation hins]
  · intro hspared
    rcases Op.ingest_cases row shouldReconcile now s with
      h | ⟨db, hins, -, hrun⟩ | ⟨db, instrumentId, dt, d, hins, hrec, hinst, htime, hact⟩
    · rw [Database.userColumns, h]
      exact hrow
    · obtain ⟨-, -, -, T, -, rfl⟩ := Database.insertObservation_eq_ok.mp hins
      rw [hrun]
      exact hrow
    · rw [hstored hins htime hact, if_neg fun htarget => hspared ?_]
      have hmatch := (Database.matches_insertObservation hins instrumentId t).mp
        (Database.verdict_target_iff.mp htarget)
      exact ⟨hrec, Database.accepts_iff.mpr ⟨db, hins⟩, by simp [htime], instrumentId, hinst, hmatch⟩

/-! ## what the user has set -/

/-- The columns an update sets. -/
def TransactionUpdatePayload.userColumns (payload : TransactionUpdatePayload) : UserColumns :=
  ⟨payload.merchantDisplayName, payload.categoryId, payload.amountMinor⟩

/-- The later of two settings, column by column. -/
def UserColumns.or (later earlier : UserColumns) : UserColumns where
  merchantDisplayName := later.merchantDisplayName.or earlier.merchantDisplayName
  categoryId := later.categoryId.or earlier.categoryId
  amountMinor := later.amountMinor.or earlier.amountMinor

/-- What has been set is what there is. -/
structure UserColumns.Stands (set columns : UserColumns) : Prop where
  merchantDisplayName : Stays set.merchantDisplayName columns.merchantDisplayName
  categoryId : Stays set.categoryId columns.categoryId
  amountMinor : Stays set.amountMinor columns.amountMinor

omit [Extern] in
theorem UserColumns.Stands.or {set columns : UserColumns} (h : set.Stands columns)
    (later : UserColumns) : (later.or set).Stands (later.or columns) := by
  have hor : ∀ {α : Type} {a b c : Option α}, Stays a b → Stays (c.or a) (c.or b) := by
    intro α a b c hab
    cases c with
    | none => exact hab
    | some v => exact Stays.refl _
  exact ⟨hor h.merchantDisplayName, hor h.categoryId, hor h.amountMinor⟩

/-- The user has set nothing. -/
def UserColumns.unset : UserColumns := ⟨none, none, none⟩

/-- A ledger, and what the user has set last of one transaction. -/
structure Corrected where
  store : Store Database
  set : UserColumns

/-- An update that succeeded on the transaction is the user's last word on what it sets. -/
def Corrected.step (id : String) (x : Corrected) (e : Int × LedgerEvent) : Corrected where
  store := e.2.run e.1 x.store
  set := match e.2 with
    | .transactionsUpdate id' payload =>
      match (applyTransactionFieldUpdate id' payload (.quiet e.1) x.store).1 with
      | .ok () => if id' = id then payload.userColumns.or x.set else x.set
      | .error _ => x.set
    | _ => x.set

/-- The transaction is there, with what the user has set. -/
def Corrected.Stands (id : String) (x : Corrected) : Prop :=
  ∃ columns, x.store.db.userColumns id = some columns ∧ x.set.Stands columns

/-- The observation brings no other merchant where it would write it, and no other category
where it would derive one. -/
structure IncomingObservation.Agrees (obs : IncomingObservation) (outweighs : Bool)
    (t : TransactionsRow) (set : UserColumns) : Prop where
  merchant : obs.Renames outweighs t → ∀ m, obs.merchantRaw = some m →
    Fills set.merchantDisplayName m
  category : obs.direction ≠ "credit" → ∀ c, obs.merchantRaw.bind keywordCategory = some c →
    Fills set.categoryId c

/-- The event takes nothing back: if it is an observation matched with the transaction, it
agrees with the user. -/
def Corrected.Spares (id : String) (x : Corrected) (e : Int × LedgerEvent) : Prop :=
  ∀ row shouldReconcile, e.2 = .ingest row shouldReconcile →
    ∀ t, t.id = id → x.store.db.Merges row shouldReconcile t →
      ∀ instrumentId, row.instrumentId = some instrumentId →
        (incomingOf row instrumentId).Agrees
          (x.store.db.outweighs (incomingOf row instrumentId) id) t x.set

/-! ## one event -/

omit [Extern] in
/-- A value over one that stands. -/
theorem stays_or {α : Type} {set old new : Option α} (h : Stays set old) :
    Stays set (new.or old) ↔ ∀ v, new = some v → Fills set v := by
  cases new with
  | none => simpa using h
  | some v => simpa using stays_some

/-- After a merge of an observation of the same amount. -/
theorem mergedColumns_stands {obs : IncomingObservation} {outweighs : Bool} {t : TransactionsRow}
    {set : UserColumns} (h : set.Stands t.userColumns)
    (hamount : obs.amountMinor = t.amountMinor.getD 0) :
    set.Stands (mergedColumns outweighs obs t) ↔ obs.Agrees outweighs t set := by
  have hname : Stays set.merchantDisplayName t.merchantDisplayName := h.merchantDisplayName
  have hcat : Stays set.categoryId t.categoryId := h.categoryId
  have hmerchant : Stays set.merchantDisplayName
      (mergedColumns outweighs obs t).merchantDisplayName ↔
        (obs.Renames outweighs t → ∀ m, obs.merchantRaw = some m →
          Fills set.merchantDisplayName m) := by
    simp only [mergedColumns]
    by_cases hrenames : obs.Renames outweighs t
    · rw [if_pos hrenames, stays_or hname]
      exact ⟨fun hfills _ => hfills, fun hfills => hfills hrenames⟩
    · have hfill : Stays set.merchantDisplayName (t.merchantDisplayName.or obs.merchantRaw) :=
        fun v hv => Stays.or _ _ v (hname v hv)
      rw [if_neg hrenames]
      refine iff_of_true ?_ fun hr => absurd hr hrenames
      split
      · exact hfill
      · exact hname
  have hcategory : Stays set.categoryId (mergedColumns outweighs obs t).categoryId ↔
      (obs.direction ≠ "credit" → ∀ c, obs.merchantRaw.bind keywordCategory = some c →
        Fills set.categoryId c) := by
    simp only [mergedColumns]
    by_cases hcredit : obs.direction = "credit"
    · rw [if_pos hcredit]
      exact iff_of_true hcat fun hdebit => absurd hcredit hdebit
    · rw [if_neg hcredit, stays_or hcat]
      exact ⟨fun hfills _ => hfills, fun hfills => hfills hcredit⟩
  have hsame : Stays set.amountMinor (mergedColumns outweighs obs t).amountMinor := by
    intro a ha
    have ht : t.amountMinor = some a := h.amountMinor a ha
    simp only [mergedColumns, hamount, ht]
    split <;> rfl
  constructor
  · intro hstands
    exact ⟨hmerchant.mp hstands.merchantDisplayName, hcategory.mp hstands.categoryId⟩
  · intro hagrees
    exact ⟨hmerchant.mpr hagrees.merchant, hcategory.mpr hagrees.category, hsame⟩

/-- What is matched has the amount of the transaction. -/
theorem Database.Matches.amountMinor {db : Database} {obs : IncomingObservation}
    {t : TransactionsRow} (h : db.Matches obs t) : obs.amountMinor = t.amountMinor.getD 0 := by
  rcases h with hx | ⟨-, top, rest, hviable, hfind, -⟩
  · obtain ⟨-, -, hverify⟩ := exactTarget_eq_some hx
    simp only [verifyExactMatch, toCanonicalCandidate, Bool.and_eq_true] at hverify
    exact of_decide_eq_true hverify.1.1.2
  · obtain ⟨t', ht', hfind', -⟩ := find_of_mem_viable (hviable ▸ List.mem_cons_self)
    have hsame : t' = t := Option.some.inj (hfind'.symm.trans hfind)
    obtain ⟨-, dt, -, hwindow⟩ := mem_windowRows.mp ht'
    obtain ⟨-, hamount, -⟩ := inWindow_iff.mp hwindow
    rw [← hsame, hamount]
    rfl

/-- An ingestion. -/
theorem Corrected.ingest_stands {id : String} {x : Corrected} (hfresh : Fresh x.store)
    (h : x.Stands id) (now : Int) (row : TransactionObservationsRow) (shouldReconcile : Bool) :
    (x.step id (now, .ingest row shouldReconcile)).Stands id ↔
      x.Spares id (now, .ingest row shouldReconcile) := by
  obtain ⟨columns, hcolumns, hstands⟩ := h
  obtain ⟨t, hfind, rfl⟩ := Option.map_eq_some_iff.mp hcolumns
  obtain ⟨ht, rfl⟩ := Table.find?_eq_some.mp hfind
  have hid : Keyed.key t = t.id := rfl
  rw [hid] at hcolumns ⊢
  obtain ⟨hmerged, hspared⟩ := ingest_userColumns hfresh ht now row shouldReconcile
  have hafter : ∀ c, ((Op.ingest row shouldReconcile).run now x.store).db.userColumns t.id = some c →
      ((x.step t.id (now, .ingest row shouldReconcile)).Stands t.id ↔ x.set.Stands c) := by
    intro c hc
    constructor
    · rintro ⟨c', hc', hstands'⟩
      have hsame : c' = c := Option.some.inj (hc'.symm.trans hc)
      exact hsame ▸ hstands'
    · exact fun hstands' => ⟨c, hc, hstands'⟩
  by_cases hmerges : x.store.db.Merges row shouldReconcile t
  · have ⟨_, _, _, instrumentId, hinst, hmatch⟩ := hmerges
    rw [hafter _ (hmerged hmerges instrumentId hinst),
      mergedColumns_stands hstands hmatch.amountMinor]
    constructor
    · rintro hagrees row' rec' he t' ht' hmerges' instrumentId' hinst'
      cases he
      have hsame : t' = t := Table.eq_of_key_eq hmerges'.mem ht ht'
      have hinsts : instrumentId' = instrumentId := Option.some.inj (hinst'.symm.trans hinst)
      rw [hsame, hinsts]
      exact hagrees
    · exact fun hspares => hspares row _ rfl t rfl hmerges instrumentId hinst
  · refine iff_of_true ((hafter _ (hspared hmerges)).mpr hstands) ?_
    rintro row' rec' he t' ht' hmerges' instrumentId' hinst'
    cases he
    have hsame : t' = t := Table.eq_of_key_eq hmerges'.mem ht ht'
    exact absurd (hsame ▸ hmerges') hmerges

/-- An update, of this transaction or of another one. -/
theorem Corrected.update_stands {id : String} {x : Corrected} (h : x.Stands id) (now : Int)
    (transactionId : String) (payload : TransactionUpdatePayload) :
    (x.step id (now, .transactionsUpdate transactionId payload)).Stands id := by
  obtain ⟨columns, hcolumns, hstands⟩ := h
  obtain ⟨t, hfind, rfl⟩ := Option.map_eq_some_iff.mp hcolumns
  have heffect := transactionsUpdate_effect transactionId payload now x.store
  unfold Corrected.Stands Corrected.step LedgerEvent.run
  dsimp only
  generalize (applyTransactionFieldUpdate transactionId payload (.quiet now) x.store).1 = answer
    at heffect ⊢
  generalize (applyTransactionFieldUpdate transactionId payload (.quiet now) x.store).2.db = db'
    at heffect ⊢
  cases heffect with
  | refused e db hlearn hrefused =>
    obtain ⟨m, a, rfl⟩ := hlearn
    exact ⟨_, hcolumns, hstands⟩
  | stored old m db hold hrename hdb hlearn hname hinst =>
    clear hdb
    obtain ⟨m', a, rfl⟩ := hlearn
    obtain ⟨hmem, hoid, -⟩ := Database.getTransaction_eq_some.mp hold
    have hafter : ∀ k, (Database.updateTransaction transactionId (updatePatch old payload m now)
        { x.store.db with merchants := m', merchantAliases := a }).userColumns k =
          if k = transactionId then (x.store.db.transactions.find? k).map fun _ =>
            payload.userColumns.or old.userColumns
          else x.store.db.userColumns k := by
      intro k
      unfold Database.userColumns Database.updateTransaction
      dsimp only
      rw [Table.find?_modify]
      split
      · rw [Option.map_map]
        refine congrArg (Option.map · _) (funext fun r => ?_)
        simp only [Function.comp_apply, updatePatch, TransactionsRow.userColumns, hname]
        rfl
      · rfl
    rw [hafter]
    by_cases hid : transactionId = id
    · subst hid
      have hsame : old = t := by
        have hthere := Table.find?_eq_some.mpr ⟨hmem, hoid⟩
        exact Option.some.inj (hthere.symm.trans hfind)
      rw [if_pos rfl, if_pos rfl, hfind]
      exact ⟨_, rfl, hsame ▸ hstands.or payload.userColumns⟩
    · rw [if_neg (Ne.symm hid), if_neg hid]
      exact ⟨_, hcolumns, hstands⟩

/-- A deletion. -/
theorem Corrected.delete_stands {id : String} {x : Corrected} (h : x.Stands id) (now : Int)
    (deleted : String) : (x.step id (now, .deleteTransaction deleted)).Stands id := by
  obtain ⟨columns, hcolumns, hstands⟩ := h
  refine ⟨columns, ?_, hstands⟩
  rcases Deletion.program_cases .deleteTransaction deleted now x.store with ⟨hsame, -⟩ | hdeleted
  · have hrun : (x.step id (now, .deleteTransaction deleted)).store = x.store := hsame
    rw [hrun]
    exact hcolumns
  · have hrun : (x.step id (now, .deleteTransaction deleted)).store = _ := hdeleted
    rw [hrun, Database.userColumns, ← hcolumns]
    exact Table.map_find?_modify (fun _ => rfl) _ _ _

/-- **One event** leaves what the user set just if it spares it. -/
theorem Corrected.step_stands {id : String} {x : Corrected} (hfresh : Fresh x.store)
    (h : x.Stands id) (e : Int × LedgerEvent) :
    (x.step id e).Stands id ↔ x.Spares id e := by
  obtain ⟨now, event⟩ := e
  cases event with
  | ingest row shouldReconcile => exact ingest_stands hfresh h now row shouldReconcile
  | transactionsUpdate transactionId payload =>
    exact iff_of_true (update_stands h now transactionId payload) fun _ _ he => by cases he
  | deleteTransaction deleted =>
    exact iff_of_true (delete_stands h now deleted) fun _ _ he => by cases he

/-- A payment an email told of. -/
def paidByEmail : Store Database :=
  (Op.ingest { observed "o1" "gmail_transaction" "debit" 500 1000 with
    fingerprint := some "fp", merchantRaw := some "ZOMATO" } true).run 1001 firstLedger

/-- The user gives it a name and a category. -/
def nameLunch : Int × LedgerEvent :=
  (1002, .transactionsUpdate (uuid 0) { merchantDisplayName := some "Team lunch"
                                        categoryId := some "cat_work" })

/-- A statement line about it. -/
def lunchLine (merchant : String) : Int × LedgerEvent :=
  (1003, .ingest { observed "o2" "statement_pdf" "debit" 500 1030 with
    fingerprint := some "fp", merchantRaw := some merchant } true)

theorem fresh_paidByEmail : Fresh paidByEmail :=
  Op.run_fresh initial_firstLedger.fresh _ _

end Dinero
