import Dinero.Resolver
import Dinero.TagEdits

/-!
# Dinero.UpdateParts

What the steps of `transactions_update` ahead of the row leave, whichever
statement fails.

Each step is followed once, from any tables and with any fault plan: what it
leaves, and exactly when that is what was there before.
-/

namespace Dinero

open Sql

/-! ## what is logged -/

/-- `e'` differs from `e` in the statistics of the rules. -/
def Decays (e e' : EditTables) : Prop := ∃ V, e' = { e with variants := V }

theorem Decays.refl (e : EditTables) : Decays e e := ⟨e.variants, rfl⟩

theorem Decays.trans (e e' e'' : EditTables) : Decays e e' → Decays e' e'' → Decays e e'' := by
  rintro ⟨V, rfl⟩ ⟨V', rfl⟩
  exact ⟨V', rfl⟩

/-- `e'` has one more correction. -/
def OneLogged (e e' : EditTables) : Prop :=
  ∃ row V, e' = { e with feedbackLog := e.feedbackLog ++ [row], variants := V }

/-- `e'` has more corrections. -/
def LogsMore (e e' : EditTables) : Prop :=
  ∃ l V, e' = { e with feedbackLog := e.feedbackLog ++ l, variants := V }

theorem LogsMore.refl (e : EditTables) : LogsMore e e := ⟨[], e.variants, by simp⟩

theorem LogsMore.trans (e e' e'' : EditTables) :
    LogsMore e e' → LogsMore e' e'' → LogsMore e e'' := by
  rintro ⟨l, V, rfl⟩ ⟨l', V', rfl⟩
  exact ⟨l ++ l', V', by simp⟩

theorem OneLogged.more {e e' : EditTables} (h : OneLogged e e') : LogsMore e e' := by
  obtain ⟨row, V, rfl⟩ := h
  exact ⟨[row], V, rfl⟩

theorem OneLogged.ne {e e' : EditTables} (h : OneLogged e e') : e' ≠ e := by
  obtain ⟨row, V, rfl⟩ := h
  intro heq
  have hlog := congrArg (List.length ∘ EditTables.feedbackLog) heq
  simp at hlog

/-- The statements of a correction. -/
def EditStmt.isCorrection : EditStmt → Bool
  | selectObservation | insertFeedback | selectRule | recordFailure => true
  | _ => false

/-! ## the fault plan of the merchants -/

theorem deaf_onMerchants {i : EditStmt} (hi : ∀ j, i ≠ .rename j) (x : Db α) :
    Deaf i (onMerchants x) := by
  intro now s
  have hquiet : merchantCtx ⟨now, some i⟩ = merchantCtx (.quiet now) := by
    cases i with
    | rename j => exact absurd rfl (hi j)
    | _ => rfl
  simp only [onMerchants, hquiet]
  cases i with
  | rename j => exact absurd rfl (hi j)
  | _ => exact ⟨rfl, rfl⟩

/-- Programs without statements on the merchants leave the plan for those. -/
theorem fails_merchants {x : EditProg α} (hx : ∀ j, Deaf (.rename j) x) {ctx : Ctx EditStmt}
    {s : Store EditTables} {i : Stmt} {n next next' : Nat} {db db' : Database} :
    Fails i n (merchantCtx ctx) ⟨db, next, (x ctx s).2.skip⟩ ↔
      Fails i n (merchantCtx ctx) ⟨db', next', s.skip⟩ := by
  obtain ⟨now, fault⟩ := ctx
  by_cases hfault : ∃ j, fault = some (.rename j)
  · obtain ⟨j, rfl⟩ := hfault
    obtain ⟨hrun, hskip⟩ := hx j now s
    rw [hrun]
    simp only [Fails, hskip]
  · have hnone : (merchantCtx ⟨now, fault⟩).fault = none := by
      unfold merchantCtx
      dsimp only
      split
      · next j => exact absurd ⟨j, rfl⟩ hfault
      · rfl
    simp [Fails, hnone]

theorem keeps_onMerchants {N : Nat} {x : Db α} (hx : Keeps (Drawn N) x) : Keeps (Drawn N) (onMerchants x) :=
  fun ctx s h => hx (merchantCtx ctx) ⟨s.db.db, s.nextUuid, s.skip⟩ h

section Parts

variable [Extern]

/-! ## corrections -/

theorem within_decayRule (text fieldName bankName sourceType : String) :
    Within Decays (decayRule text fieldName bankName sourceType) := by
  refine .bind (.attempt (.query _ _)) fun found => ?_
  split
  · refine .bind (.attempt (.exec fun now e _ e' h => ?_)) fun _ => .pure _
    split at h
    · obtain ⟨-, rfl⟩ := Prod.mk.inj (Except.ok.inj h)
      exact ⟨_, rfl⟩
    · cases h
  · exact .pure _

theorem decayRule_ok (text fieldName bankName sourceType : String) (ctx : Ctx EditStmt)
    (s : Store EditTables) : (decayRule text fieldName bankName sourceType ctx s).1 = .ok () := by
  rw [decayRule, Eff.bind_of_ok (Eff.attempt_apply _ _ _)]
  rcases (query EditStmt.selectRule (fun e : EditTables =>
    e.firedRule (computeTemplateHash text) fieldName bankName sourceType) ctx s).1 with e | _ | id
  · rfl
  · rfl
  · rfl

/-- The correction gets its row. -/
def LogsCorrection (txId : String) (ctx : Ctx EditStmt) (s : Store EditTables) : Prop :=
  (s.db.correctedObservation txId).isSome = true ∧ ¬ Fails .selectObservation 0 ctx s ∧
    ¬ Fails .insertFeedback 0 ctx s

theorem logUserCorrection_logs {txId : String} {ctx : Ctx EditStmt} {s : Store EditTables}
    (h : LogsCorrection txId ctx s) (fieldName oldValue newValue : String) :
    OneLogged s.db (logUserCorrection txId fieldName oldValue newValue ctx s).2.db := by
  obtain ⟨hobs, hselect, hinsert⟩ := h
  obtain ⟨⟨obs, origin⟩, hfound⟩ := Option.isSome_iff_exists.mp hobs
  have hinsert' : ¬ Fails .insertFeedback 0 ctx
      ⟨s.db, s.nextUuid + 1, advance .selectObservation ctx s.skip⟩ :=
    mt (fails_advance_of_ne (by decide)).mp hinsert
  rw [logUserCorrection, Eff.bind_of_ok (Eff.attempt_apply _ _ _), query_passes hselect, hfound]
  dsimp only
  rw [Eff.bind_of_ok (newUuid_apply _ _ _), Eff.bind_of_ok (exec_ok_of_passes hinsert' rfl)]
  -- what follows is about the rules
  have hrest : ∀ (text : Option String) (f : String → EditProg Unit)
      (c : Option CorrectionContext), (∀ t, Within Decays (f t)) →
      Within Decays (do text.elim (pure ()) f; return c) := by
    intro text f c hf
    refine .bind ?_ fun _ => .pure _
    cases text with
    | none => exact .pure _
    | some t => exact hf t
  obtain ⟨V, hV⟩ := (hrest _ _ _ fun t => within_decayRule t fieldName _ _).related Decays.refl
    Decays.trans ctx _
  exact ⟨_, V, hV⟩

theorem logUserCorrection_silent {txId : String} {ctx : Ctx EditStmt} {s : Store EditTables}
    (h : ¬ LogsCorrection txId ctx s) (fieldName oldValue newValue : String) :
    (logUserCorrection txId fieldName oldValue newValue ctx s).2.db = s.db := by
  rw [logUserCorrection, Eff.bind_of_ok (Eff.attempt_apply _ _ _)]
  by_cases hselect : Fails .selectObservation 0 ctx s
  · rw [query_fails hselect]
    rfl
  · rw [query_passes hselect]
    cases hfound : s.db.correctedObservation txId with
    | none => rfl
    | some found =>
      have hinsert : Fails .insertFeedback 0 ctx
          ⟨s.db, s.nextUuid + 1, advance .selectObservation ctx s.skip⟩ := by
        rw [fails_advance_of_ne (by decide)]
        by_contra hinsert
        exact h ⟨by rw [hfound]; rfl, hselect, hinsert⟩
      obtain ⟨obs, origin⟩ := found
      dsimp only
      rw [Eff.bind_of_ok (newUuid_apply _ _ _), Eff.bind_of_error (exec_fails hinsert _)]

theorem within_logUserCorrection (txId fieldName oldValue newValue : String) :
    Within LogsMore (logUserCorrection txId fieldName oldValue newValue) := by
  intro ctx s
  refine .single ?_
  by_cases h : LogsCorrection txId ctx s
  · exact (logUserCorrection_logs h fieldName oldValue newValue).more
  · rw [logUserCorrection_silent h]
    exact .refl _

theorem deaf_logUserCorrection {i : EditStmt} (hi : i.isCorrection = false)
    (txId fieldName oldValue newValue : String) :
    Deaf i (logUserCorrection txId fieldName oldValue newValue) := by
  have hne : ∀ j : EditStmt, j.isCorrection = true → i ≠ j := by
    rintro j hj rfl
    rw [hi] at hj
    cases hj
  have hrule : ∀ text bankName sourceType, Deaf i (decayRule text fieldName bankName sourceType) := by
    intro text bankName sourceType
    refine .bind (.attempt (.query (hne _ rfl) _)) fun found => ?_
    split
    · exact .bind (.attempt (.exec (hne _ rfl) _)) fun _ => .pure _
    · exact .pure _
  have helim : ∀ (text : Option String) bankName sourceType,
      Deaf i (text.elim (pure ()) fun t => decayRule t fieldName bankName sourceType) := by
    intro text bankName sourceType
    cases text with
    | none => exact .pure _
    | some t => exact hrule t _ _
  refine .bind (.attempt (.query (hne _ rfl) _)) fun found => ?_
  split
  · refine .bind (.newUuid _) fun _ => .bind (.exec (hne _ rfl) _) fun _ =>
      .bind (helim _ _ _) fun _ => .pure _
  · exact .pure _

/-- The change of the category is logged. -/
def LogsCategory (txId : String) (old : TransactionsRow) (cat : Option String)
    (ctx : Ctx EditStmt) (s : Store EditTables) : Prop :=
  (∃ c ∈ cat, old.categoryId.getD "" ≠ c) ∧ LogsCorrection txId ctx s

theorem logCategory_spec (txId : String) (old : TransactionsRow) (cat : Option String)
    (ctx : Ctx EditStmt) (s : Store EditTables) :
    (logCategory txId old cat ctx s).1 = .ok () ∧
    LogsMore s.db (logCategory txId old cat ctx s).2.db ∧
    ((logCategory txId old cat ctx s).2.db = s.db ↔ ¬ LogsCategory txId old cat ctx s) := by
  have hidle : ¬ (∃ c ∈ cat, old.categoryId.getD "" ≠ c) →
      logCategory txId old cat ctx s = (.ok (), s) := by
    intro h
    cases cat with
    | none => rfl
    | some c =>
      have hsame : old.categoryId.getD "" = c := by
        by_contra hne
        exact h ⟨c, rfl, hne⟩
      rw [logCategory]
      simp [hsame]
  by_cases hchange : ∃ c ∈ cat, old.categoryId.getD "" ≠ c
  · obtain ⟨c, hc, hne⟩ := hchange
    obtain rfl := Option.mem_def.mp hc
    have hrun : logCategory txId old (some c) ctx s = (.ok (),
        (logUserCorrection txId "category_id" (old.categoryId.getD "") c ctx s).2) := by
      rw [logCategory]
      simp only [if_pos hne]
      rw [Eff.bind_of_ok (Eff.attempt_apply _ _ _)]
      rfl
    rw [hrun]
    refine ⟨rfl, (within_logUserCorrection txId _ _ _).related LogsMore.refl LogsMore.trans ctx s, ?_⟩
    by_cases hlogs : LogsCorrection txId ctx s
    · exact iff_of_false (logUserCorrection_logs hlogs _ _ _).ne
        (not_not_intro ⟨⟨c, rfl, hne⟩, hlogs⟩)
    · exact iff_of_true (logUserCorrection_silent hlogs _ _ _) fun h => hlogs h.2
  · rw [hidle hchange]
    exact ⟨rfl, .refl _, iff_of_true rfl fun h => hchange h.1⟩

theorem deaf_logCategory {i : EditStmt} (hi : i.isCorrection = false) (txId : String)
    (old : TransactionsRow) (cat : Option String) : Deaf i (logCategory txId old cat) := by
  cases cat with
  | none => exact .pure _
  | some c =>
    simp only [logCategory]
    split
    · exact .bind (.attempt (deaf_logUserCorrection hi _ _ _ _)) fun _ => .pure _
    · exact .pure _

theorem logChanges_spec (txId : String) (changes : List (String × Option String × String))
    (ctx : Ctx EditStmt) (s : Store EditTables) :
    ∃ contexts s', logChanges txId changes ctx s = (.ok contexts, s') ∧ LogsMore s.db s'.db := by
  induction changes generalizing s with
  | nil => exact ⟨[], s, rfl, .refl _⟩
  | cons change rest ih =>
    obtain ⟨field, before, after⟩ := change
    have hlog := (within_logUserCorrection txId field (before.getD "") after).related
      LogsMore.refl LogsMore.trans ctx s
    rw [logChanges, Eff.bind_of_ok (Eff.attempt_apply _ _ _)]
    generalize logUserCorrection txId field (before.getD "") after ctx s = r at hlog ⊢
    obtain ⟨logged, s₁⟩ := r
    obtain ⟨contexts, s', hrun, hmore⟩ := ih s₁
    rw [Eff.bind_of_ok hrun]
    rcases logged with e | _ | c
    · exact ⟨contexts, s', rfl, hlog.trans _ _ _ hmore⟩
    · exact ⟨contexts, s', rfl, hlog.trans _ _ _ hmore⟩
    · exact ⟨c :: contexts, s', rfl, hlog.trans _ _ _ hmore⟩

theorem deaf_logChanges {i : EditStmt} (hi : i.isCorrection = false) (txId : String)
    (changes : List (String × Option String × String)) : Deaf i (logChanges txId changes) := by
  induction changes with
  | nil => exact .pure _
  | cons change rest ih =>
    refine .bind (.attempt (deaf_logUserCorrection hi _ _ _ _)) fun logged =>
      .bind ih fun more => ?_
    split
    · exact .pure _
    · exact .pure _

/-! ## the merchant -/

/-- The ids to come are not in use among merchants, aliases and tags. -/
structure UndrawnIds (e : EditTables) (n : Nat) : Prop where
  merchants : ∀ k, n ≤ k → uuid k ∉ e.db.merchants.keys
  aliases : ∀ k, n ≤ k → uuid k ∉ e.db.merchantAliases.keys
  tags : ∀ k, n ≤ k → uuid k ∉ e.tags.keys
  links : ∀ k, n ≤ k → ∀ r ∈ e.transactionTags, r.tagId ≠ uuid k

/-- The old name gets its alias. -/
def LearnsAlias (oldVal cleaned : String) (ctx : Ctx Stmt) (s : Store Database) : Prop :=
  oldVal ≠ "" ∧ ¬ Fails .insertAlias 0 ctx s ∧
    ∀ a ∈ s.db.merchantAliases, a.aliasNormalized ≠ cleaned

theorem learnOldName_db {id oldVal cleaned : String} {ctx : Ctx Stmt} {s : Store Database}
    (hid : s.db.merchants.contains id = true) (hfresh : uuid s.nextUuid ∉ s.db.merchantAliases.keys) :
    (learnOldName id oldVal cleaned ctx s).2.db = s.db ↔ ¬ LearnsAlias oldVal cleaned ctx s := by
  rw [learnOldName]
  by_cases hempty : oldVal = ""
  · rw [if_pos hempty]
    exact iff_of_true rfl fun h => h.1 hempty
  · let row : MerchantAliasesRow := {
      id := uuid s.nextUuid, merchantEntityId := id, aliasRaw := oldVal, aliasNormalized := cleaned
      confidence := 1, createdAt := some ctx.now }
    have hrun : (learnAlias .insertAlias id oldVal cleaned 1 ctx s).2.db =
        if Fails .insertAlias 0 ctx s then s.db
        else applied (fun _ db => db.insertAlias row) ctx.now s.db := by
      have hexec := exec_store Stmt.insertAlias (fun _ db => Database.insertAlias row db) ctx
        { s with nextUuid := s.nextUuid + 1 }
      exact congrArg Store.db hexec
    rw [if_neg hempty, hrun]
    by_cases hfail : Fails .insertAlias 0 ctx s
    · rw [if_pos hfail]
      exact iff_of_true rfl fun h => h.2.1 hfail
    · rw [if_neg hfail]
      dsimp only [applied]
      by_cases hfree : ∀ a ∈ s.db.merchantAliases, a.aliasNormalized ≠ cleaned
      · obtain ⟨T, hT⟩ := Table.exists_insert (T := s.db.merchantAliases) (r := row)
          fun x hx hkey => hfresh (Table.mem_keys.mpr ⟨x, hx, hkey⟩)
        have hok := (Database.insertAlias_eq_ok (u := ())).mpr ⟨hfree, hid, T, hT, rfl⟩
        rw [hok]
        refine iff_of_false (fun heq => ?_) (not_not_intro ⟨hempty, hfail, hfree⟩)
        have hlength := congrArg (fun db => db.merchantAliases.rows.length) heq
        simp [(Table.insert?_eq_some.mp hT).2] at hlength
      · have hrefused : ∀ u db', s.db.insertAlias row ≠ .ok (u, db') :=
          fun u db' h => hfree (Database.insertAlias_eq_ok.mp h).1
        cases hins : Database.insertAlias row s.db with
        | ok r => exact absurd hins (hrefused r.1 r.2)
        | error e =>
          dsimp only
          exact iff_of_true rfl fun h => hfree h.2.2

theorem learnOldName_merchants (id oldVal cleaned : String) (ctx : Ctx Stmt) (s : Store Database) :
    (learnOldName id oldVal cleaned ctx s).2.db.merchants = s.db.merchants := by
  have hwithin : Within (fun db db' : Database => ∃ T, db' = { db with merchantAliases := T })
      (learnOldName id oldVal cleaned) := by
    unfold learnOldName
    split
    · exact .pure _
    · refine .bind (.newUuid _) fun _ => .bind .utcNow fun _ =>
        .bind (.attempt (.exec fun _ _ _ _ h => ?_)) fun _ => .pure _
      exact Database.insertAlias_ok h
  refine hwithin.keeps (fun db db' h => ?_) ctx s
  obtain ⟨T, rfl⟩ := h
  rfl

/-- Learning the old name is never why a rename fails. -/
theorem learnOldName_bind (id oldVal cleaned : String) (m : MerchantColumns) (ctx : Ctx Stmt)
    (s : Store Database) : ((do learnOldName id oldVal cleaned; return m : Db MerchantColumns) ctx s) =
      (.ok m, (learnOldName id oldVal cleaned ctx s).2) := by
  unfold learnOldName
  split
  · rfl
  · rfl

/-- The merchant of that name, if it could be read. -/
def readMerchant (cleaned : String) (ctx : Ctx Stmt) (s : Store Database) : Option MerchantsRow :=
  if Fails .selectByAlias 0 ctx s then none else s.db.selectByAlias cleaned

/-- The rename leaves a merchant. -/
def LearnsMerchant (cleaned : String) (ctx : Ctx Stmt) (s : Store Database) : Prop :=
  ¬ Fails .insertMerchant 0 ctx s ∧ ∀ m ∈ s.db.merchants, m.normalizedName ≠ cleaned

/-- The rename leaves an alias or a merchant. -/
def LearnsName (oldVal merch : String) (ctx : Ctx Stmt) (s : Store Database) : Prop :=
  oldVal ≠ merch ∧ stripNoiseTokens merch ≠ "" ∧
    if (readMerchant (stripNoiseTokens merch) ctx s).isSome then
      LearnsAlias oldVal (stripNoiseTokens merch) ctx s
    else LearnsMerchant (stripNoiseTokens merch) ctx s

/-- Only the tables and the plan matter. -/
theorem learnsName_congr {oldVal merch : String} {ctx : Ctx Stmt} {s t : Store Database}
    (hdb : s.db = t.db) (hplan : ∀ i, Fails i 0 ctx s ↔ Fails i 0 ctx t) :
    LearnsName oldVal merch ctx s ↔ LearnsName oldVal merch ctx t := by
  have hread : readMerchant (stripNoiseTokens merch) ctx s =
      readMerchant (stripNoiseTokens merch) ctx t := by
    by_cases hfail : Fails .selectByAlias 0 ctx s
    · rw [readMerchant, readMerchant, if_pos hfail, if_pos ((hplan _).mp hfail)]
    · rw [readMerchant, readMerchant, if_neg hfail, if_neg (mt (hplan _).mpr hfail), hdb]
  simp only [LearnsName, LearnsAlias, LearnsMerchant, hread, hdb, hplan]

theorem createUserMerchant_db {kept : MerchantColumns} {merch oldVal cleaned : String}
    {ctx : Ctx Stmt} {s : Store Database} (hfresh : uuid s.nextUuid ∉ s.db.merchants.keys) :
    (createUserMerchant kept merch oldVal cleaned ctx s).2.db = s.db ↔
      ¬ LearnsMerchant cleaned ctx s := by
  let row := userMerchant (uuid s.nextUuid) merch cleaned ctx.now
  let s₁ : Store Database := { s with nextUuid := s.nextUuid + 1 }
  rw [createUserMerchant, Eff.bind_of_ok (newUuid_apply _ _ _), Eff.bind_of_ok (utcNow_apply _ _),
    Eff.bind_of_ok (Eff.attempt_apply _ _ _)]
  by_cases hfail : Fails .insertMerchant 0 ctx s
  · have hrun : insertMerchant row ctx s₁ = (.error ioFault,
        { s₁ with skip := advance .insertMerchant ctx s.skip }) := exec_fails (s := s₁) hfail _
    rw [hrun]
    exact iff_of_true rfl fun h => h.1 hfail
  · by_cases hfree : ∀ m ∈ s.db.merchants, m.normalizedName ≠ cleaned
    · obtain ⟨T, hT⟩ := Table.exists_insert (T := s.db.merchants) (r := row)
        fun x hx hkey => hfresh (Table.mem_keys.mpr ⟨x, hx, hkey⟩)
      have hrun : insertMerchant row ctx s₁ = (.ok (), ⟨{ s.db with merchants := T },
          s.nextUuid + 1, advance .insertMerchant ctx s.skip⟩) :=
        exec_ok_of_passes (s := s₁) hfail (Database.insertMerchant_eq_ok.mpr ⟨hfree, T, hT, rfl⟩)
      rw [hrun]
      dsimp only
      rw [learnOldName_bind]
      refine iff_of_false (fun heq => ?_) (not_not_intro ⟨hfail, hfree⟩)
      have hmerchants := learnOldName_merchants (uuid s.nextUuid) oldVal cleaned ctx
        ⟨{ s.db with merchants := T }, s.nextUuid + 1, advance .insertMerchant ctx s.skip⟩
      rw [heq] at hmerchants
      have hlength := congrArg (fun T : Table MerchantsRow => T.rows.length) hmerchants
      simp [(Table.insert?_eq_some.mp hT).2] at hlength
    · have hrun : ∃ e, insertMerchant row ctx s₁ = (.error e,
          { s₁ with skip := advance .insertMerchant ctx s.skip }) := by
        rw [insertMerchant, exec_passes (s := s₁) hfail]
        cases hins : Database.insertMerchant row s₁.db with
        | ok r => exact absurd (Database.insertMerchant_eq_ok.mp hins).1 hfree
        | error e => exact ⟨e, rfl⟩
      obtain ⟨e, hrun⟩ := hrun
      rw [hrun]
      exact iff_of_true rfl fun h => hfree h.2

theorem renamedMerchant_db {old : TransactionsRow} {name : Option String} {ctx : Ctx Stmt}
    {s : Store Database} (hmerchants : uuid s.nextUuid ∉ s.db.merchants.keys)
    (haliases : uuid s.nextUuid ∉ s.db.merchantAliases.keys) :
    (renamedMerchant old name ctx s).2.db = s.db ↔
      ¬ ∃ merch ∈ name, LearnsName (old.merchantDisplayName.getD "") merch ctx s := by
  cases name with
  | none => exact iff_of_true rfl (by simp)
  | some merch =>
    simp only [Option.mem_some_iff, exists_eq_left', renamedMerchant]
    by_cases hkept : old.merchantDisplayName.getD "" = merch ∨ stripNoiseTokens merch = ""
    · rw [if_pos hkept]
      refine iff_of_true rfl fun h => ?_
      obtain hsame | hempty := hkept
      · exact h.1 hsame
      · exact h.2.1 hempty
    · let s₁ : Store Database := { s with skip := advance .selectByAlias ctx s.skip }
      have hplan : ∀ i : Stmt, i ≠ .selectByAlias → (Fails i 0 ctx s₁ ↔ Fails i 0 ctx s) :=
        fun i hi => fails_advance_of_ne hi
      rw [if_neg hkept, Eff.bind_of_ok (Eff.attempt_apply _ _ _)]
      simp only [not_or] at hkept
      simp only [LearnsName, ne_eq, hkept, not_false_eq_true, true_and]
      have hcreate : ∀ kept : MerchantColumns,
          (createUserMerchant kept merch (old.merchantDisplayName.getD "") (stripNoiseTokens merch)
            ctx s₁).2.db = s.db ↔ ¬ LearnsMerchant (stripNoiseTokens merch) ctx s := by
        intro kept
        have hdb := @createUserMerchant_db _ kept merch (old.merchantDisplayName.getD "")
          (stripNoiseTokens merch) ctx s₁ hmerchants
        rw [LearnsMerchant, hplan _ (by decide)] at hdb
        exact hdb
      by_cases hfail : Fails .selectByAlias 0 ctx s
      · rw [selectByAlias, query_fails hfail, readMerchant, if_pos hfail]
        exact hcreate _
      · rw [selectByAlias, query_passes hfail, readMerchant, if_neg hfail]
        cases hfound : s.db.selectByAlias (stripNoiseTokens merch) with
        | none => exact hcreate _
        | some existing =>
          have hthere : s.db.merchants.contains existing.id = true :=
            Table.contains_iff.mpr ⟨existing, (Database.selectByAlias_some hfound).1, rfl⟩
          have hlearn := @learnOldName_db _ existing.id (old.merchantDisplayName.getD "")
            (stripNoiseTokens merch) ctx s₁ hthere haliases
          rw [LearnsAlias, hplan _ (by decide)] at hlearn
          dsimp only
          rw [learnOldName_bind]
          exact hlearn

/-- A name the transaction has already changes nothing. -/
theorem renamedMerchant_same {old : TransactionsRow} {name : Option String}
    (h : ∀ v ∈ name, old.merchantDisplayName = some v) (ctx : Ctx Stmt) (s : Store Database) :
    renamedMerchant old name ctx s = (.ok old.merchantColumns, s) := by
  cases name with
  | none => rfl
  | some merch =>
    have hname := h merch rfl
    have hsame : old.merchantDisplayName.getD "" = merch := by rw [hname]; rfl
    simp only [renamedMerchant, hsame, true_or, if_true]
    rw [← hname]
    rfl

/-! ## ids drawn -/

section Draws

variable {N : Nat}

theorem keeps_logUserCorrection (txId fieldName oldValue newValue : String) :
    Keeps (Drawn N) (logUserCorrection txId fieldName oldValue newValue) := by
  have hrule : ∀ text bankName sourceType,
      Keeps (Drawn N) (decayRule text fieldName bankName sourceType) := by
    intro text bankName sourceType
    refine .bind (.attempt (.query _ _)) fun found => ?_
    split
    · exact .bind (.attempt (.exec_drawn _ _)) fun _ => .pure _
    · exact .pure _
  have helim : ∀ (text : Option String) bankName sourceType,
      Keeps (Drawn N)
        (text.elim (pure ()) fun t => decayRule t fieldName bankName sourceType) := by
    intro text bankName sourceType
    cases text with
    | none => exact .pure _
    | some t => exact hrule t _ _
  refine .bind (.attempt (.query _ _)) fun found => ?_
  split
  · exact .bind (.newUuid _) fun _ => .bind (.exec_drawn _ _) fun _ =>
      .bind (helim _ _ _) fun _ => .pure _
  · exact .pure _

theorem keeps_logCategory (txId : String) (old : TransactionsRow) (cat : Option String) :
    Keeps (Drawn N) (logCategory txId old cat) := by
  cases cat with
  | none => exact .pure _
  | some c =>
    simp only [logCategory]
    split
    · exact .bind (.attempt (keeps_logUserCorrection _ _ _ _)) fun _ => .pure _
    · exact .pure _

theorem keeps_logChanges (txId : String) (changes : List (String × Option String × String)) :
    Keeps (Drawn N) (logChanges txId changes) := by
  induction changes with
  | nil => exact .pure _
  | cons change rest ih =>
    refine .bind (.attempt (keeps_logUserCorrection _ _ _ _)) fun logged => .bind ih fun more => ?_
    split
    · exact .pure _
    · exact .pure _

theorem keeps_drawn_learnOldName (id oldVal cleaned : String) :
    Keeps (Drawn N) (learnOldName id oldVal cleaned) := by
  unfold learnOldName
  split
  · exact .pure _
  · exact .bind (.newUuid _) fun _ => .bind .utcNow fun _ =>
      .bind (.attempt (.exec_drawn _ _)) fun _ => .pure _

theorem keeps_drawn_renamedMerchant (old : TransactionsRow) (name : Option String) :
    Keeps (Drawn N) (renamedMerchant old name) := by
  cases name with
  | none => exact .pure _
  | some merch =>
    simp only [renamedMerchant]
    split
    · exact .pure _
    · refine .bind (.attempt (.query _ _)) fun found => ?_
      split
      · exact .bind (keeps_drawn_learnOldName _ _ _) fun _ => .pure _
      · refine .bind (.newUuid _) fun _ => .bind .utcNow fun _ =>
          .bind (.attempt (.exec_drawn _ _)) fun inserted => ?_
        split
        · exact .bind (keeps_drawn_learnOldName _ _ _) fun _ => .pure _
        · exact .pure _

end Draws

end Parts

end Dinero
