import Dinero.Merchants
import Dinero.Succeeds

/-!
# Dinero.Derived

What post-processing makes of the transactions, as a function of the database.

A credit changes two rows, its own and that of the debit it refunds
(`afterRefund`); anything else changes its own row only (`afterDeriving`).
`postProcess_quiet` says the program computes these, and `Posted` follows an
observation that was acted on down to the transactions it leaves.
-/

namespace Dinero

open Sql

variable [Extern]

/-! ## refunds -/

/-- The transactions after the refund search of a credit. -/
def Database.afterRefund (db : Database) (id instrumentId : String) (amountMinor eventTime : Int)
    (now : Int) : Table TransactionsRow :=
  match db.refundDebit instrumentId amountMinor eventTime with
  | none => db.transactions
  | some original =>
    (db.transactions.modify id (refundPatch original.id now)).modify original.id (refundedPatch now)

theorem linkRefund_quiet (id instrumentId : String) (amountMinor eventTime now : Int)
    (s : Store Database) :
    (linkRefund id instrumentId amountMinor eventTime (.quiet now) s).2.db.transactions =
      s.db.afterRefund id instrumentId amountMinor eventTime now := by
  rw [linkRefund, Eff.bind_apply, Eff.attempt_apply, query_quiet]
  simp only [Database.afterRefund]
  cases s.db.refundDebit instrumentId amountMinor eventTime with
  | none => rfl
  | some original =>
    simp only
    rw [Eff.bind_apply, exec_quiet]
    simp only
    rw [exec_quiet]
    rfl

/-- The debit found is a live debit of the amount, on the instrument and at
most thirty days old, with no parent of its own. -/
theorem Database.refundDebit_some {db : Database} {instrumentId : String}
    {amountMinor eventTime : Int} {d : TransactionsRow}
    (h : db.refundDebit instrumentId amountMinor eventTime = some d) :
    d ∈ db.transactions ∧ refundable instrumentId amountMinor eventTime d = true := by
  have hmem := List.mem_of_mem_head? h
  simpa [Table.mem_def] using hmem

omit [Extern] in
theorem direction_of_refundable {instrumentId : String} {amountMinor eventTime : Int}
    {d : TransactionsRow} (h : refundable instrumentId amountMinor eventTime d = true) :
    d.direction = some "debit" := by
  simp only [refundable, Bool.and_eq_true, decide_eq_true_eq] at h
  exact h.1.1.1.1.1

omit [Extern] in
theorem not_refundable {t : TransactionsRow} (h : t.direction ≠ some "debit")
    (instrumentId : String) (amountMinor eventTime : Int) :
    refundable instrumentId amountMinor eventTime t = false := by
  rw [Bool.eq_false_iff]
  exact fun hrefundable => h (direction_of_refundable hrefundable)

/-- What happens to a transaction that is no debit does not change the search. -/
theorem Database.refundDebit_modify {db db' : Database} {id : String} {u : Patch TransactionsRow}
    (h : db'.transactions = db.transactions.modify id u)
    (hdir : ∀ r ∈ db.transactions, r.id = id → r.direction ≠ some "debit" ∧
      (u.run r).direction ≠ some "debit") (instrumentId : String) (amountMinor eventTime : Int) :
    db'.refundDebit instrumentId amountMinor eventTime =
      db.refundDebit instrumentId amountMinor eventTime := by
  unfold refundDebit
  rw [h, Table.filter_modify]
  intro r hr hk
  obtain ⟨hold, hnew⟩ := hdir r hr hk
  exact ⟨not_refundable hold _ _ _, not_refundable hnew _ _ _⟩

/-! ## names and instalments -/

/-- The three merchant columns, if the text gave anything. -/
def namesPatch (categoryId : Option String) (merchant : Option (String × String)) (now : Int) :
    Patch TransactionsRow :=
  if categoryId.isSome ∨ merchant.isSome then
    merchantPatch categoryId (merchant.map (·.1)) (merchant.map (·.2)) now
  else .idle

/-- The instalment plan an observation belongs to under a merchant's name. -/
def IncomingObservation.emiGroup (obs : IncomingObservation) (name : Option String) :
    Option String :=
  match name, obs.emiTotalInstallments, obs.emiOriginalAmountMinor with
  | some name, some total, some original =>
    some (computeEmiGroupId obs.instrumentId name original total)
  | _, _, _ => none

/-- The columns of an instalment, if there is a plan. -/
def instalmentPatch (group : Option String) (earliest : String → Option String) (now : Int) :
    Patch TransactionsRow :=
  match group with
  | some g => emiPatch g (earliest g) now
  | none => .idle

/-- The transactions after everything derived from one that is no credit. -/
def Database.afterDeriving (db : Database) (id : String) (obs : IncomingObservation)
    (merchant : Option (String × String)) (now : Int) : Table TransactionsRow :=
  let named := db.transactions.modify id
    (namesPatch (obs.merchantRaw.bind keywordCategory) merchant now)
  named.modify id (instalmentPatch
    (obs.emiGroup ((named.find? id).bind (·.merchantNormalizedName)))
    (fun g => (db.earliestOther g id).map (·.id)) now)

omit [Extern] in
theorem assignMerchant_quiet (id : String) (categoryId : Option String)
    (merchant : Option (String × String)) (now : Int) (s : Store Database) :
    assignMerchant id categoryId merchant (.quiet now) s =
      (.ok (), { s with db := { s.db with
        transactions := s.db.transactions.modify id (namesPatch categoryId merchant now) } }) := by
  unfold assignMerchant namesPatch
  split
  · rw [exec_quiet]
    rfl
  · rw [Table.modify_idle]
    rfl

omit [Extern] in
theorem currentColumn_quiet (site : Stmt) (column : TransactionsRow → Option String) (id : String)
    (now : Int) (s : Store Database) :
    currentColumn site column id (.quiet now) s =
      (.ok ((s.db.transactions.find? id).bind column), s) := by
  rw [currentColumn, Eff.bind_apply, Eff.attempt_apply, query_quiet]
  rfl

theorem linkEmiInstallment_quiet (id : String) (obs : IncomingObservation) (name : Option String)
    (now : Int) (s : Store Database) :
    linkEmiInstallment id obs.instrumentId name obs.emiTotalInstallments
        obs.emiOriginalAmountMinor (.quiet now) s =
      (.ok (), { s with db := { s.db with
        transactions := s.db.transactions.modify id (instalmentPatch (obs.emiGroup name)
          (fun g => (s.db.earliestOther g id).map (·.id)) now) } }) := by
  unfold linkEmiInstallment IncomingObservation.emiGroup
  cases name with
  | none => simp [instalmentPatch]
  | some name =>
    cases obs.emiTotalInstallments with
    | none => simp [instalmentPatch]
    | some total =>
      cases obs.emiOriginalAmountMinor with
      | none => simp [instalmentPatch]
      | some original =>
        simp only
        rw [exec_quiet]
        rfl

/-- Whatever happens to a transaction, the earliest of the others stays. -/
theorem Database.earliestOther_modify {db db' : Database} {id : String}
    {u : Patch TransactionsRow} (h : db'.transactions = db.transactions.modify id u)
    (g : String) : db'.earliestOther g id = db.earliestOther g id := by
  unfold earliestOther
  rw [h, Table.filter_modify]
  intro r _ hk
  have hid : r.id = id := hk
  have hid' : (u.run r).id = id := (u.key_run r).trans hk
  simp [hid, hid']

theorem deriveFields_quiet (id : String) (obs : IncomingObservation) (dt now : Int)
    (s : Store Database) :
    (deriveFields id obs.instrumentId obs.merchantRaw obs.amountMinor obs.direction dt
        obs.emiTotalInstallments obs.emiOriginalAmountMinor (.quiet now) s).2.db.transactions =
      s.db.afterDeriving id obs (obs.merchantRaw.bind (s.db.normalize s.nextUuid)) now := by
  rw [deriveFields, Eff.bind_apply]
  have hanswer := normalizedMerchant_quiet obs.merchantRaw now s
  obtain ⟨m, a, hs₁⟩ : LearnsMerchants s.db (normalizedMerchant obs.merchantRaw (.quiet now) s).2.db
    := (within_normalizedMerchant obs.merchantRaw).related LearnsMerchants.refl
      LearnsMerchants.trans (.quiet now) s
  rcases hrun : normalizedMerchant obs.merchantRaw (.quiet now) s with ⟨answer, s₁⟩
  rw [hrun] at hanswer hs₁
  subst hanswer
  simp only at hs₁ ⊢
  rw [Eff.bind_of_ok (assignMerchant_quiet _ _ _ now s₁)]
  generalize hs₂ : { s₁ with db := { s₁.db with
    transactions := s₁.db.transactions.modify id (namesPatch (obs.merchantRaw.bind keywordCategory)
      (obs.merchantRaw.bind (s.db.normalize s.nextUuid)) now) } } = s₂
  have hnamed : s₂.db.transactions = s.db.transactions.modify id
      (namesPatch (obs.merchantRaw.bind keywordCategory)
        (obs.merchantRaw.bind (s.db.normalize s.nextUuid)) now) := by
    rw [← hs₂, hs₁]
  rw [Eff.bind_of_ok (currentColumn_quiet _ _ id now s₂), Eff.bind_of_ok (Eff.attempt_apply _ _ _)]
  -- recurrence leaves the transactions alone
  obtain ⟨r, hs₃⟩ : RecordsRecurring s₂.db (detectAndUpdateRecurring obs.instrumentId
      ((s₂.db.transactions.find? id).bind (·.merchantEntityId)) id obs.amountMinor obs.direction dt
      (.quiet now) s₂).2.db :=
    (within_detectAndUpdateRecurring _ _ _ _ _ _).related RecordsRecurring.refl
      RecordsRecurring.trans (.quiet now) s₂
  generalize (detectAndUpdateRecurring obs.instrumentId
    ((s₂.db.transactions.find? id).bind (·.merchantEntityId)) id obs.amountMinor obs.direction dt
    (.quiet now) s₂).2 = s₃ at hs₃ ⊢
  have hsame : s₃.db.transactions = s₂.db.transactions := by rw [hs₃]
  rw [Eff.bind_of_ok (currentColumn_quiet _ _ id now s₃), Eff.bind_of_ok (Eff.attempt_apply _ _ _),
    linkEmiInstallment_quiet]
  simp only [Eff.pure_apply, Database.afterDeriving]
  have hothers : (fun g => (s₃.db.earliestOther g id).map (·.id)) =
      fun g => (s.db.earliestOther g id).map (·.id) :=
    funext fun g => by rw [Database.earliestOther_modify (hsame.trans hnamed)]
  rw [hothers, hsame, hnamed]

/-! ## post-processing -/

/-- The transactions after post-processing. -/
def Database.afterPostProcessing (db : Database) (id : String) (obs : IncomingObservation)
    (dt : Int) (merchant : Option (String × String)) (now : Int) : Table TransactionsRow :=
  if obs.direction = "credit" then db.afterRefund id obs.instrumentId obs.amountMinor dt now
  else db.afterDeriving id obs merchant now

/-- **Post-processing, undisturbed.** -/
theorem postProcess_quiet (id : String) {obs : IncomingObservation} {dt : Int}
    (ht : obs.eventTime.parse = some dt) (now : Int) (s : Store Database) :
    (postProcess id obs (.quiet now) s).2.db.transactions =
      s.db.afterPostProcessing id obs dt (obs.merchantRaw.bind (s.db.normalize s.nextUuid)) now := by
  simp only [postProcess, ht]
  rw [Eff.bind_of_ok (Eff.attempt_apply _ _ _), Eff.pure_apply]
  unfold runPostProcessing Database.afterPostProcessing
  split
  · exact linkRefund_quiet _ _ _ _ now s
  · exact deriveFields_quiet id obs dt now s

/-- It is a matter of the transactions. -/
theorem Database.afterPostProcessing_congr {db db' : Database}
    (h : db'.transactions = db.transactions) (id : String) (obs : IncomingObservation) (dt : Int)
    (merchant : Option (String × String)) (now : Int) :
    db'.afterPostProcessing id obs dt merchant now =
      db.afterPostProcessing id obs dt merchant now := by
  simp only [afterPostProcessing, afterRefund, afterDeriving, refundDebit, earliestOther, h]

/-! ## observations acted on -/

/-- The transactions an observation leaves that was acted on, from the store
it was acted on in. -/
inductive Posted (obs : IncomingObservation) (dt now : Int) (s : Store Database)
    (T : Table TransactionsRow) : Prop
  | merged (t : TransactionsRow) (overwrite : Bool) (n : Nat) (db : Database)
      (ht : t ∈ s.db.transactions) (hverdict : (s.db.verdict obs).target = some t)
      (hdb : db.transactions =
        s.db.transactions.modify t.id (mergePatch obs t.sourceMix overwrite now))
      (hn : s.db.merchants.contains (uuid n) = false)
      (hT : T = db.afterPostProcessing t.id obs dt (obs.merchantRaw.bind (s.db.normalize n)) now)
  | created (merchant again : Option (String × String)) (db : Database)
      (hverdict : (s.db.verdict obs).target = none)
      (hmerchant : merchant = obs.merchantRaw.bind (s.db.normalize (s.nextUuid + 1)))
      (hagain : ∀ name, again.map (·.2) = some name → merchant.map (·.2) = some name)
      (hdb : s.db.transactions.insert? (canonicalRow (uuid s.nextUuid) obs merchant now) =
        some db.transactions)
      (hT : T = db.afterPostProcessing (uuid s.nextUuid) obs dt again now)
  | raised (hT : T = s.db.transactions)

theorem autoMatch_posted {obs : IncomingObservation} {dt now : Int} {score : ℚ}
    {decision d : DecisionType} {t : TransactionsRow} {s s' : Store Database} (hfresh : Fresh s)
    (hdt : obs.eventTime.parse = some dt) (ht : t ∈ s.db.transactions)
    (hverdict : (s.db.verdict obs).target = some t)
    (h : autoMatch obs t.id t.sourceMix score decision (.quiet now) s = (.ok d, s')) :
    Posted obs dt now s s'.db.transactions := by
  obtain ⟨-, s₁, s₂, s₃, h₁, h₂, h₃, h₄⟩ := autoMatch_steps h
  obtain ⟨-, -, overwrite, L, hs₂⟩ := autoMatch_linked h₁ h₂
  have hfresh₂ : Fresh s₂ := (hfresh.after (keeps_applyPrecedence _ _ _) h₁).after
    (keeps_updateCanonicalTransactionId _ _) h₂
  have hm : s₂.db.merchants = s.db.merchants := by rw [hs₂]
  have ha : s₂.db.merchantAliases = s.db.merchantAliases := by rw [hs₂]
  have hn := hfresh₂.merchants (Nat.le_refl _)
  rw [hm] at hn
  have hpost := postProcess_quiet t.id hdt now s₂
  rw [h₃] at hpost
  refine .merged t overwrite s₂.nextUuid s₂.db ht hverdict (by rw [hs₂]; rfl) hn ?_
  have hnorm : s₂.db.normalize s₂.nextUuid = s.db.normalize s₂.nextUuid :=
    funext (Database.normalize_congr hm ha _)
  rw [(appendMatchDecision_decided h₄).transactions, hpost, hnorm]

theorem newCanonical_posted {obs : IncomingObservation} {dt now : Int} {d : DecisionType}
    {s s' : Store Database} (hfresh : Fresh s) (hdt : obs.eventTime.parse = some dt)
    (hverdict : (s.db.verdict obs).target = none)
    (h : newCanonical obs (.quiet now) s = (.ok d, s')) :
    Posted obs dt now s s'.db.transactions := by
  obtain ⟨-, s₃, h₁, hdec⟩ := newCanonical_ok h
  obtain ⟨merchant, s₁, T, s₂, hfirst, hT, -, hs₂, hpost⟩ := createCanonicalTransaction_ok h₁
  have hmerchant := normalizedMerchant_quiet obs.merchantRaw now
    { s with nextUuid := s.nextUuid + 1 }
  rw [hfirst] at hmerchant
  have hT' := postProcess_quiet (uuid s.nextUuid) hdt now s₂
  rw [hpost] at hT'
  refine .created merchant (obs.merchantRaw.bind (s₂.db.normalize s₂.nextUuid)) s₂.db hverdict
    (Except.ok.inj hmerchant) ?_ (by rw [hs₂]; exact hT) ?_
  · intro name hname
    rw [Except.ok.inj hmerchant]
    cases hraw : obs.merchantRaw with
    | none => simp [hraw] at hname
    | some raw =>
      rw [hraw, normalizedMerchant_some] at hfirst
      have hs₁ := (Prod.mk.inj hfirst).2
      simp only [hraw, Option.bind_some, Option.map_eq_some_iff] at hname ⊢
      obtain ⟨⟨entityId, name'⟩, hagain, rfl⟩ := hname
      have hfresh₁ : Fresh { s with nextUuid := s.nextUuid + 1 } :=
        ⟨fun k hk => hfresh.1 k (by simp only at hk; omega), by simp⟩
      obtain ⟨entityId', hfirst'⟩ := normalize_again hfresh₁ (by rw [hs₂, hs₁]) (by rw [hs₂, hs₁])
        hagain
      exact ⟨_, hfirst', rfl⟩
  · rw [hdec.transactions, hT']

/-- **The transactions after a verdict was acted on.** -/
theorem actOn_posted {obs : IncomingObservation} {dt now : Int} {d : DecisionType}
    {s s' : Store Database} (hfresh : Fresh s) (hdt : obs.eventTime.parse = some dt)
    (h : actOn obs (s.db.verdict obs) (.quiet now) s = (.ok d, s')) :
    Posted obs dt now s s'.db.transactions := by
  rcases s.db.verdict_cases obs with ⟨t, hx, hv⟩ | ⟨-, hv | ⟨t, htw, score, -, -, hv⟩ |
    ⟨topScore, hv⟩⟩
  · rw [hv] at h
    exact autoMatch_posted hfresh hdt (Database.exactTarget_eq_some hx).1 (by rw [hv]; rfl) h
  · rw [hv] at h
    exact newCanonical_posted hfresh hdt (by rw [hv]; rfl) h
  · rw [hv] at h
    exact autoMatch_posted hfresh hdt (Database.mem_windowRows.mp htw).1 (by rw [hv]; rfl) h
  · rw [hv] at h
    obtain ⟨clusterId, db₁, -, hraised, hdec⟩ := raiseCluster_ok hdt h
    exact .raised (hdec.transactions.trans hraised.payments.2.1)

/-- The transactions an ingestion leaves: those of before, or those of an
observation acted on right after its row went in. -/
theorem Op.ingest_posted (row : TransactionObservationsRow) (shouldReconcile : Bool) (now : Int)
    {s : Store Database} (hfresh : Fresh s) :
    ((Op.ingest row shouldReconcile).run now s).db.transactions = s.db.transactions ∨
    ∃ db instrumentId dt, s.db.insertObservation row = .ok ((), db) ∧ shouldReconcile = true ∧
      row.instrumentId = some instrumentId ∧ row.eventTime = some dt ∧
      Fresh { s with db := db } ∧
      Posted (incomingOf row instrumentId) dt now { s with db := db }
        ((Op.ingest row shouldReconcile).run now s).db.transactions := by
  rcases Op.ingest_cases row shouldReconcile now s with
    h | ⟨db, hins, -, hrun⟩ | ⟨db, instrumentId, dt, d, hins, hrec, hinst, htime, hact⟩
  · exact .inl (by rw [h])
  · left
    obtain ⟨_, _, _, T, _, rfl⟩ := Database.insertObservation_eq_ok.mp hins
    rw [hrun]
  · have hfresh' : Fresh { s with db := db } := by
      unfold Fresh FreshWith
      rw [rowIds_insertObservation hins]
      exact hfresh
    exact .inr ⟨db, instrumentId, dt, hins, hrec, hinst, htime, hfresh',
      actOn_posted hfresh' (by simp [incomingOf, htime]) hact⟩

end Dinero
