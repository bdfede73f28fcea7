import Dinero.Derived
import Dinero.References

/-!
# Dinero.Precedence

What an email changes of a canonical a statement vouches for.

The merge itself fills gaps only, but linking is followed by post-processing,
which writes what it derives from the email over what is there.
`statementKept_iff` says when nothing known is changed: when every value
derived is new, or the one already there.
-/

namespace Dinero

open Sql

/-! ## known values -/

/-- What is asked of a value only if there is one. -/
local instance decidableForallSome {α : Type} (o : Option α) (p : α → Prop) [DecidablePred p] :
    Decidable (∀ v, o = some v → p v) :=
  match o with
  | none => .isTrue fun _ h => by simp at h
  | some v => decidable_of_iff (p v) (by simp)

/-- What was known is still so. -/
def Stays {α : Type} (old new : Option α) : Prop := ∀ v, old = some v → new = some v

/-- Writing `v` over `old` changes nothing known. -/
def Fills {α : Type} (old : Option α) (v : α) : Prop := ∀ w, old = some w → w = v

theorem Stays.refl {α : Type} (old : Option α) : Stays old old := fun _ h => h

/-- Filling a gap. -/
theorem Stays.or {α : Type} (old new : Option α) : Stays old (old.or new) := by
  rintro v rfl
  rfl

/-- Overwriting. -/
theorem stays_some {α : Type} {old : Option α} {v : α} : Stays old (some v) ↔ Fills old v := by
  constructor
  · exact fun h w hw => (Option.some.inj (h w hw)).symm
  · exact fun h w hw => congrArg some (h w hw).symm

/-- Overwriting with what there is. -/
theorem stays_coalesce {α : Type} {old new : Option α} :
    Stays old (new.or old) ↔ ∀ v, new = some v → Fills old v := by
  cases new with
  | none => simp [Stays]
  | some v => simpa using stays_some

instance {α : Type} [DecidableEq α] (old : Option α) (v : α) : Decidable (Fills old v) :=
  inferInstanceAs (Decidable (∀ w, old = some w → w = v))

/-- All that was known of `t`, but for its source mix and its time of update,
is known of `t'`. -/
structure TransactionsRow.Keeps (t t' : TransactionsRow) : Prop where
  id : t'.id = t.id
  instrumentId : Stays t.instrumentId t'.instrumentId
  direction : Stays t.direction t'.direction
  amountMinor : Stays t.amountMinor t'.amountMinor
  currency : Stays t.currency t'.currency
  authorizationTime : Stays t.authorizationTime t'.authorizationTime
  bestEventTime : Stays t.bestEventTime t'.bestEventTime
  eventTimeConfidence : Stays t.eventTimeConfidence t'.eventTimeConfidence
  bestPostingDate : Stays t.bestPostingDate t'.bestPostingDate
  merchantDisplayName : Stays t.merchantDisplayName t'.merchantDisplayName
  merchantNormalizedName : Stays t.merchantNormalizedName t'.merchantNormalizedName
  merchantEntityId : Stays t.merchantEntityId t'.merchantEntityId
  referenceId : Stays t.referenceId t'.referenceId
  status : Stays t.status t'.status
  alertFired : Stays t.alertFired t'.alertFired
  parentTransactionId : Stays t.parentTransactionId t'.parentTransactionId
  transactionSubtype : Stays t.transactionSubtype t'.transactionSubtype
  emiGroupId : Stays t.emiGroupId t'.emiGroupId
  categoryId : Stays t.categoryId t'.categoryId
  channel : Stays t.channel t'.channel
  isDeleted : t'.isDeleted = t.isDeleted
  createdAt : Stays t.createdAt t'.createdAt

variable [Extern]

/-- Nothing post-processing would derive from the observation contradicts what
is known of `t`.  A merchant it has to create gets the `n`th id. -/
def Database.Confirms (db : Database) (n : Nat) (obs : IncomingObservation)
    (t : TransactionsRow) : Prop :=
  if obs.direction = "credit" then
    ∀ dt, obs.eventTime.parse = some dt →
      ∀ d, db.refundDebit obs.instrumentId obs.amountMinor dt = some d →
        Fills t.parentTransactionId d.id ∧ Fills t.transactionSubtype .refund
  else
    (∀ c, obs.merchantRaw.bind keywordCategory = some c → Fills t.categoryId c) ∧
    (∀ m, obs.merchantRaw.bind (db.normalize n) = some m →
      Fills t.merchantEntityId m.1 ∧ Fills t.merchantNormalizedName m.2) ∧
    ∀ g, obs.emiGroup (((obs.merchantRaw.bind (db.normalize n)).map (·.2)).or
        t.merchantNormalizedName) = some g →
      Fills t.emiGroupId g ∧ Fills t.transactionSubtype .emiInstallment ∧
        ∀ o, db.earliestOther g t.id = some o → Fills t.parentTransactionId o.id

instance (db : Database) (n : Nat) (obs : IncomingObservation) (t : TransactionsRow) :
    Decidable (db.Confirms n obs t) := by
  unfold Database.Confirms
  infer_instance

/-! ## the columns a match writes -/

section Columns

omit [Extern]

/-- What the email fill leaves of a canonical. -/
theorem keeps_emailFill (referenceId merchantDisplay : Option String) (now : Int)
    (t : TransactionsRow) : t.Keeps ((emailFillPatch referenceId merchantDisplay now).run t) := by
  constructor
  all_goals first | rfl | exact .refl _ | exact .or _ _

/-- The email fill, then a refund link. -/
theorem keeps_refund_iff (referenceId merchantDisplay : Option String) (parent : String)
    (now : Int) (t : TransactionsRow) :
    t.Keeps ((refundPatch parent now).run ((emailFillPatch referenceId merchantDisplay now).run t))
      ↔ Fills t.parentTransactionId parent ∧ Fills t.transactionSubtype .refund := by
  have hfill := keeps_emailFill referenceId merchantDisplay now t
  constructor
  · exact fun h => ⟨stays_some.mp h.parentTransactionId, stays_some.mp h.transactionSubtype⟩
  · rintro ⟨hparent, hsubtype⟩
    exact { hfill with
      parentTransactionId := stays_some.mpr hparent
      transactionSubtype := stays_some.mpr hsubtype }

/-- The three merchant columns, whether or not there is anything to write. -/
theorem namesPatch_run (categoryId : Option String) (merchant : Option (String × String))
    (now : Int) (t : TransactionsRow) :
    (namesPatch categoryId merchant now).run t = { t with
      categoryId := categoryId.or t.categoryId
      merchantEntityId := (merchant.map (·.1)).or t.merchantEntityId
      merchantNormalizedName := (merchant.map (·.2)).or t.merchantNormalizedName
      updatedAt := if categoryId.isSome ∨ merchant.isSome then some now else t.updatedAt } := by
  unfold namesPatch
  split
  · rfl
  · next hnone =>
      simp only [not_or, Bool.not_eq_true, Option.isSome_eq_false_iff, Option.isNone_iff_eq_none]
        at hnone
      simp [hnone.1, hnone.2, Patch.idle]

/-- The email fill, then the names. -/
theorem keeps_names_iff (referenceId merchantDisplay categoryId : Option String)
    (merchant : Option (String × String)) (now : Int) (t : TransactionsRow) :
    t.Keeps ((namesPatch categoryId merchant now).run
        ((emailFillPatch referenceId merchantDisplay now).run t)) ↔
      (∀ c, categoryId = some c → Fills t.categoryId c) ∧
      ∀ m, merchant = some m →
        Fills t.merchantEntityId m.1 ∧ Fills t.merchantNormalizedName m.2 := by
  have hfill := keeps_emailFill referenceId merchantDisplay now t
  rw [namesPatch_run]
  constructor
  · intro h
    refine ⟨stays_coalesce.mp h.categoryId, ?_⟩
    rintro m rfl
    exact ⟨stays_coalesce.mp h.merchantEntityId m.1 rfl,
      stays_coalesce.mp h.merchantNormalizedName m.2 rfl⟩
  · rintro ⟨hcategory, hmerchant⟩
    have hentity : ∀ v, merchant.map (·.1) = some v → Fills t.merchantEntityId v := by
      intro v hv
      obtain ⟨m, hm, rfl⟩ := Option.map_eq_some_iff.mp hv
      exact (hmerchant m hm).1
    have hname : ∀ v, merchant.map (·.2) = some v → Fills t.merchantNormalizedName v := by
      intro v hv
      obtain ⟨m, hm, rfl⟩ := Option.map_eq_some_iff.mp hv
      exact (hmerchant m hm).2
    exact { hfill with
      categoryId := stays_coalesce.mpr hcategory
      merchantEntityId := stays_coalesce.mpr hentity
      merchantNormalizedName := stays_coalesce.mpr hname }

/-- A link to an instalment plan on top. -/
theorem keeps_instalment_iff {t t₁ : TransactionsRow} (hgroup : t₁.emiGroupId = t.emiGroupId)
    (hsubtype : t₁.transactionSubtype = t.transactionSubtype)
    (hparent : t₁.parentTransactionId = t.parentTransactionId) (group : Option String)
    (earliest : String → Option String) (now : Int) :
    t.Keeps ((instalmentPatch group earliest now).run t₁) ↔ t.Keeps t₁ ∧
      ∀ g, group = some g → Fills t.emiGroupId g ∧ Fills t.transactionSubtype .emiInstallment ∧
        ∀ o, earliest g = some o → Fills t.parentTransactionId o := by
  cases group with
  | none => simp [instalmentPatch, Patch.idle]
  | some g =>
    constructor
    · intro h
      have hp : Stays t.parentTransactionId ((earliest g).or t₁.parentTransactionId) :=
        h.parentTransactionId
      rw [hparent] at hp
      refine ⟨{ h with
        emiGroupId := by rw [hgroup]; exact .refl _
        transactionSubtype := by rw [hsubtype]; exact .refl _
        parentTransactionId := by rw [hparent]; exact .refl _ }, ?_⟩
      intro g' hg'
      obtain rfl : g = g' := Option.some.inj hg'
      exact ⟨stays_some.mp h.emiGroupId, stays_some.mp h.transactionSubtype,
        stays_coalesce.mp hp⟩
    · rintro ⟨h, hg⟩
      obtain ⟨hemi, hsub, hpar⟩ := hg g rfl
      exact { h with
        emiGroupId := stays_some.mpr hemi
        transactionSubtype := stays_some.mpr hsub
        parentTransactionId := by
          change Stays _ ((earliest g).or t₁.parentTransactionId)
          rw [hparent]
          exact stays_coalesce.mpr hpar }

end Columns

/-! ## the run -/

omit [Extern] in
theorem updateCanonicalTransactionId_draws {id : String} {canonical : Option String}
    {ctx : Ctx Stmt} {s s' : Store Database}
    (h : updateCanonicalTransactionId id canonical ctx s = (.ok (), s')) :
    s'.nextUuid = s.nextUuid := by
  obtain ⟨count, s₁, h₁, h⟩ := Eff.bind_eq_ok.mp h
  have hdraws := (exec_ok h₁).2
  split at h
  · simp at h
  · obtain ⟨-, rfl⟩ := Prod.mk.inj h
    exact hdraws

/-- An update that is logged draws one id. -/
theorem updateAndLog_draws {site auditSite : Stmt} {id : String} {u : Int → Patch TransactionsRow}
    {audit : String → AuditLogRow} {ctx : Ctx Stmt} {s s' : Store Database}
    (h : updateAndLog site auditSite id u audit ctx s = (.ok (), s')) :
    s'.nextUuid = s.nextUuid + 1 := by
  obtain ⟨_, s₁, h₁, h⟩ := Eff.bind_eq_ok.mp h
  obtain ⟨auditId, s₂, h₂, h⟩ := Eff.bind_eq_ok.mp h
  obtain ⟨-, rfl⟩ := Prod.mk.inj h₂
  have hlast := (exec_ok h).2
  rw [hlast, (exec_ok h₁).2]

/-- A canonical with statement evidence. -/
def TransactionsRow.HasStatement (t : TransactionsRow) : Prop :=
  t.sourceMix = some .statementOnly ∨ t.sourceMix = some .merged

instance (t : TransactionsRow) : Decidable t.HasStatement :=
  inferInstanceAs (Decidable (_ ∨ _))

theorem applyPrecedence_fill {obs : IncomingObservation} {t : TransactionsRow}
    (hsrc : obs.sourcePipeline = "gmail_transaction") (hmix : t.HasStatement) :
    applyPrecedence obs t.id t.sourceMix =
      fillNullFieldsFromEmail t.id obs.referenceId obs.merchantRaw := by
  have hmail : ("gmail_transaction" : String) ≠ "statement_pdf" := by decide
  rw [applyPrecedence, hsrc, if_neg hmail, if_pos ⟨rfl, hmix⟩]

omit [Extern] in
theorem mergePatch_fill {obs : IncomingObservation} {t : TransactionsRow}
    (hsrc : obs.sourcePipeline = "gmail_transaction") (hmix : t.HasStatement) (overwrite : Bool)
    (now : Int) : mergePatch obs t.sourceMix overwrite now =
      emailFillPatch obs.referenceId obs.merchantRaw now := by
  have hmail : ("gmail_transaction" : String) ≠ "statement_pdf" := by decide
  rw [mergePatch, hsrc, if_neg hmail, if_pos ⟨rfl, hmix⟩]

/-- A merge that was made automatically is the run of `autoMatch`. -/
theorem MergesInto.autoMatch {obs : IncomingObservation} {now : Int} {s : Store Database}
    {t : TransactionsRow} (h : MergesInto obs now s t) :
    ∃ dt, obs.eventTime.parse = some dt ∧ (s.db.verdict obs).target = some t ∧
      ∃ score decision d, autoMatch obs t.id t.sourceMix score decision (.quiet now) s =
        (.ok d, (fetchAndReconcile obs (.quiet now) s).2) := by
  obtain ⟨d, s', hrun, hd, ht, hlink⟩ := h
  obtain ⟨dt, hdt, hact⟩ := fetchAndReconcile_acted hrun
  refine ⟨dt, hdt, ?_⟩
  cases hact with
  | merged d t' overwrite ht' hverdict _ hl _ =>
    obtain rfl : t' = t := Table.eq_of_key_eq ht' ht (Option.some.inj (hl.link.symm.trans hlink))
    refine ⟨hverdict, ?_⟩
    rw [fetchAndReconcile_quiet hdt] at hrun ⊢
    cases hv : s.db.verdict obs with
    | exact x =>
      rw [hv] at hverdict hrun
      obtain rfl : x = t' := Option.some.inj hverdict
      exact ⟨_, _, d, by rw [hrun]; exact hrun⟩
    | scored x score =>
      rw [hv] at hverdict hrun
      obtain rfl : x = t' := Option.some.inj hverdict
      exact ⟨_, _, d, by rw [hrun]; exact hrun⟩
    | newCanonical => simp [hv, Verdict.target] at hverdict
    | ambiguous => simp [hv, Verdict.target] at hverdict
  | created => simp at hd
  | raised => simp at hd

/-- The transactions such a merge leaves. -/
theorem MergesInto.transactions_fill {obs : IncomingObservation} {now : Int} {s : Store Database}
    {t : TransactionsRow} (h : MergesInto obs now s t)
    (hsrc : obs.sourcePipeline = "gmail_transaction") (hmix : t.HasStatement) :
    ∃ (dt : Int) (db : Database), obs.eventTime.parse = some dt ∧
      db.transactions = s.db.transactions.modify t.id
        (emailFillPatch obs.referenceId obs.merchantRaw now) ∧
      (fetchAndReconcile obs (.quiet now) s).2.db.transactions =
        db.afterPostProcessing t.id obs dt
          (obs.merchantRaw.bind (s.db.normalize (s.nextUuid + 1))) now := by
  obtain ⟨dt, hdt, -, score, decision, d, hauto⟩ := h.autoMatch
  obtain ⟨-, s₁, s₂, s₃, h₁, h₂, h₃, h₄⟩ := autoMatch_steps hauto
  obtain ⟨-, -, overwrite, L, hs₂⟩ := autoMatch_linked h₁ h₂
  rw [mergePatch_fill hsrc hmix] at hs₂
  -- the only id drawn so far is that of the audit row
  rw [applyPrecedence_fill hsrc hmix] at h₁
  have hdraws : s₂.nextUuid = s.nextUuid + 1 := by
    rw [updateCanonicalTransactionId_draws h₂, updateAndLog_draws h₁]
  have hnorm : s₂.db.normalize s₂.nextUuid = s.db.normalize (s.nextUuid + 1) := by
    rw [hdraws]
    exact funext (Database.normalize_congr (by rw [hs₂]) (by rw [hs₂]) _)
  have hpost := postProcess_quiet t.id hdt now s₂
  rw [h₃, hnorm] at hpost
  refine ⟨dt, s₂.db, hdt, by rw [hs₂]; rfl, ?_⟩
  rw [(appendMatchDecision_decided h₄).transactions, hpost]

/-- The row post-processing leaves, for a credit. -/
theorem Database.find?_afterRefund {db : Database} {id : String} {r : TransactionsRow}
    (hr : db.transactions.find? id = some r) (hdir : r.direction ≠ some "debit")
    (instrumentId : String) (amountMinor eventTime now : Int) :
    (db.afterRefund id instrumentId amountMinor eventTime now).find? id =
      match db.refundDebit instrumentId amountMinor eventTime with
      | none => some r
      | some d => some ((refundPatch d.id now).run r) := by
  unfold afterRefund
  cases hd : db.refundDebit instrumentId amountMinor eventTime with
  | none => exact hr
  | some d =>
    obtain ⟨hmem, hrefundable⟩ := refundDebit_some hd
    obtain ⟨hmem', hid⟩ := Table.find?_eq_some.mp hr
    -- the debit is another row
    have hne : id ≠ d.id := by
      rintro rfl
      obtain rfl : r = d := Table.eq_of_key_eq hmem' hmem hid
      exact hdir (direction_of_refundable hrefundable)
    simp only
    rw [Table.find?_modify, if_neg hne, Table.find?_modify, if_pos rfl, hr]
    rfl

/-- The row post-processing leaves, for anything else. -/
theorem Database.find?_afterDeriving {db : Database} {id : String} {r : TransactionsRow}
    (hr : db.transactions.find? id = some r) (obs : IncomingObservation)
    (merchant : Option (String × String)) (now : Int) :
    (db.afterDeriving id obs merchant now).find? id =
      some ((instalmentPatch (obs.emiGroup ((merchant.map (·.2)).or r.merchantNormalizedName))
        (fun g => (db.earliestOther g id).map (·.id)) now).run
          ((namesPatch (obs.merchantRaw.bind keywordCategory) merchant now).run r)) := by
  simp only [afterDeriving, Table.find?_modify, if_true, hr, Option.map_some, Option.bind_some,
    namesPatch_run]

/-- After reconciling, all that was known of `t`, but for its source mix and its
time of update, is known of it still. -/
def StatementKept (obs : IncomingObservation) (now : Int) (s : Store Database)
    (t : TransactionsRow) : Prop :=
  ∀ t' ∈ (fetchAndReconcile obs (.quiet now) s).2.db.transactions, t'.id = t.id → t.Keeps t'

/-- **Emails and statement evidence.**  An email merged into a canonical with
statement evidence changes nothing known of it exactly if nothing
post-processing derives from the email contradicts what is known. -/
theorem statementKept_iff {obs : IncomingObservation} {now : Int} {s : Store Database}
    {t : TransactionsRow} (h : MergesInto obs now s t)
    (hsrc : obs.sourcePipeline = "gmail_transaction") (hmix : t.HasStatement) :
    StatementKept obs now s t ↔ s.db.Confirms (s.nextUuid + 1) obs t := by
  obtain ⟨dt, db, hdt, hdb, hT⟩ := h.transactions_fill hsrc hmix
  obtain ⟨-, -, hverdict, -⟩ := h.autoMatch
  obtain ⟨ht, -, hdir⟩ := Database.verdict_target hverdict
  have hstored : s.db.transactions.find? t.id = some t := Table.find?_eq_some.mpr ⟨ht, rfl⟩
  have hfind : db.transactions.find? t.id =
      some ((emailFillPatch obs.referenceId obs.merchantRaw now).run t) := by
    rw [hdb, Table.find?_modify, if_pos rfl, hstored]
    rfl
  -- the canonical is one row of the final table
  have hrow : ∀ t', (fetchAndReconcile obs (.quiet now) s).2.db.transactions.find? t.id = some t' →
      (StatementKept obs now s t ↔ t.Keeps t') := by
    intro t' ht'
    obtain ⟨hmem', hid'⟩ := Table.find?_eq_some.mp ht'
    constructor
    · exact fun hkept => hkept t' hmem' hid'
    · intro hkeeps x hx hxid
      rwa [Table.eq_of_key_eq hx hmem' (hxid.trans hid'.symm)]
  rw [hT] at hrow
  unfold Database.afterPostProcessing at hrow
  unfold Database.Confirms
  by_cases hcredit : obs.direction = "credit"
  · rw [if_pos hcredit] at hrow ⊢
    have hnodebit : t.direction ≠ some "debit" := by
      intro hd
      rw [hd, hcredit] at hdir
      simp at hdir
    have hsearch := Database.refundDebit_modify hdb (by
      intro r hr hid
      obtain rfl : r = t := Table.eq_of_key_eq hr ht hid
      exact ⟨hnodebit, hnodebit⟩) obs.instrumentId obs.amountMinor dt
    have hfound := Database.find?_afterRefund hfind hnodebit obs.instrumentId obs.amountMinor dt now
    rw [hsearch] at hfound
    cases hd : s.db.refundDebit obs.instrumentId obs.amountMinor dt with
    | none =>
      rw [hd] at hfound
      refine iff_of_true ((hrow _ hfound).mpr (keeps_emailFill _ _ _ _)) ?_
      intro dt' hdt' d hd'
      obtain rfl : dt = dt' := Option.some.inj (hdt.symm.trans hdt')
      simp [hd] at hd'
    | some d =>
      rw [hd] at hfound
      rw [hrow _ hfound, keeps_refund_iff]
      constructor
      · intro hfills dt' hdt' d' hd'
        obtain rfl : dt = dt' := Option.some.inj (hdt.symm.trans hdt')
        obtain rfl : d = d' := Option.some.inj (hd.symm.trans hd')
        exact hfills
      · exact fun hall => hall dt hdt d hd
  · rw [if_neg hcredit] at hrow ⊢
    have hothers : (fun g => (db.earliestOther g t.id).map (·.id)) =
        fun g => (s.db.earliestOther g t.id).map (·.id) :=
      funext fun g => by rw [Database.earliestOther_modify hdb]
    have hfound := Database.find?_afterDeriving hfind obs
      (obs.merchantRaw.bind (s.db.normalize (s.nextUuid + 1))) now
    rw [hothers] at hfound
    rw [hrow _ hfound, keeps_instalment_iff (by rw [namesPatch_run]; rfl)
      (by rw [namesPatch_run]; rfl) (by rw [namesPatch_run]; rfl), keeps_names_iff, and_assoc]
    simp only [Option.map_eq_some_iff, forall_exists_index, and_imp,
      forall_apply_eq_imp_iff₂]
    rfl

/-- A ledger with one line of a statement, and an email about it, stored but
not reconciled. -/
def lineThenEmail (merchant : String) : Store Database :=
  (Op.ingest { observed "o2" "gmail_transaction" "debit" 500 1060 with
      fingerprint := some "fp", merchantRaw := some merchant } false).run 1061
    ((Op.ingest { observed "o1" "statement_pdf" "debit" 500 1000 with
      fingerprint := some "fp", merchantRaw := some "ZOMATO" } true).run 1001 firstLedger)

/-- The email, as it comes to be reconciled. -/
def emailAfterLine (merchant : String) : IncomingObservation :=
  incomingOf { observed "o2" "gmail_transaction" "debit" 500 1060 with
    fingerprint := some "fp", merchantRaw := some merchant } "account"

theorem fresh_lineThenEmail (merchant : String) : Fresh (lineThenEmail merchant) :=
  Op.run_fresh (Op.run_fresh initial_firstLedger.fresh _ _) _ _

omit [Extern] in
/-- An email that names the merchant of the statement. -/
theorem statementKept_sameMerchant :
    letI := Extern.ascii
    ∃ t, MergesInto (emailAfterLine "ZOMATO") 1062 (lineThenEmail "ZOMATO") t ∧
      t.categoryId = some "cat_food" ∧
      StatementKept (emailAfterLine "ZOMATO") 1062 (lineThenEmail "ZOMATO") t := by
  let := Extern.ascii
  obtain ⟨t, ht, hfacts⟩ := (Option.any_eq_true _ _).mp
    (by decide +kernel : ((lineThenEmail "ZOMATO").db.exactTarget (emailAfterLine "ZOMATO")).any
      (fun t => t.HasStatement ∧ t.categoryId = some "cat_food" ∧
        (lineThenEmail "ZOMATO").db.Confirms ((lineThenEmail "ZOMATO").nextUuid + 1)
          (emailAfterLine "ZOMATO") t) = true)
  obtain ⟨hmix, hcategory, hconfirms⟩ := of_decide_eq_true hfacts
  have hmerge := mergesInto_of_exactTarget (fresh_lineThenEmail _) (by decide +kernel) ht 1062
  exact ⟨t, hmerge, hcategory, (statementKept_iff hmerge rfl hmix).mpr hconfirms⟩

omit [Extern] in
/-- An email that names another merchant: what the statement established is
overwritten, the category to begin with. -/
theorem email_overwrites_statement :
    letI := Extern.ascii
    ∃ t, MergesInto (emailAfterLine "UBER") 1062 (lineThenEmail "UBER") t ∧ t.HasStatement ∧
      t.categoryId = some "cat_food" ∧
      ¬ StatementKept (emailAfterLine "UBER") 1062 (lineThenEmail "UBER") t := by
  let := Extern.ascii
  obtain ⟨t, ht, hfacts⟩ := (Option.any_eq_true _ _).mp
    (by decide +kernel : ((lineThenEmail "UBER").db.exactTarget (emailAfterLine "UBER")).any
      (fun t => t.HasStatement ∧ t.categoryId = some "cat_food" ∧
        ((fetchAndReconcile (emailAfterLine "UBER") (.quiet 1062)
          (lineThenEmail "UBER")).2.db.transactions.find? t.id).any
          (·.categoryId = some "cat_transport")) = true)
  obtain ⟨hmix, hcategory, hafter⟩ := of_decide_eq_true hfacts
  have hmerge := mergesInto_of_exactTarget (fresh_lineThenEmail _) (by decide +kernel) ht 1062
  refine ⟨t, hmerge, hmix, hcategory, fun hkept => ?_⟩
  unfold StatementKept at hkept
  generalize (fetchAndReconcile (emailAfterLine "UBER") (.quiet 1062)
    (lineThenEmail "UBER")).2.db.transactions = T at hafter hkept
  obtain ⟨t', hfind, hcat⟩ := (Option.any_eq_true _ _).mp hafter
  obtain ⟨hmem, hid⟩ := Table.find?_eq_some.mp hfind
  have hstays := (hkept t' hmem hid).categoryId _ hcategory
  rw [of_decide_eq_true hcat] at hstays
  simp at hstays

end Dinero
