import Dinero.UpdateParts

/-!
# Dinero.FieldUpdates

What `transactions_update` leaves once it comes to the row.

Up to the tags a call ends in one of two ways: `UPDATE transactions` is refused,
after corrections were logged and merchants learnt, or the row is written.
-/

namespace Dinero

open Sql

/-! ## the row -/

theorem or_eq_right_iff {a b : Option α} : a.or b = b ↔ ∀ v ∈ a, b = some v := by
  cases a with
  | none => simp
  | some v => simp [eq_comm]

/-- What was asked for is stored. -/
structure FieldsStored (q : EditRequest) (t : TransactionsRow) (notes location : Option String) :
    Prop where
  merchant : ∀ v ∈ q.fields.merchantDisplayName, t.merchantDisplayName = some v
  category : ∀ v ∈ q.fields.categoryId, t.categoryId = some v
  amount : ∀ v ∈ q.fields.amountMinor, t.amountMinor = some v
  direction : ∀ v ∈ q.fields.direction, t.direction = some v
  eventTime : ∀ v ∈ q.fields.eventTime, ∃ time, v.parse = some time ∧ t.bestEventTime = some time
  instrument : ∀ v ∈ q.fields.instrumentId, t.instrumentId = some v
  notes : ∀ v ∈ q.notes, notes = some v
  location : ∀ v ∈ q.location, location = some v

/-- The time given, if any, is one of the three forms. -/
def EditRequest.Readable (q : EditRequest) : Prop :=
  ∀ v ∈ q.fields.eventTime, v.parse.isSome = true

/-- The row that is written has what was asked for, if the time can be read. -/
theorem fieldsStored_newRow {q : EditRequest} {old : TransactionsRow} {m : MerchantColumns}
    (hm : m.displayName = q.fields.merchantDisplayName.or old.merchantDisplayName) (now : Int)
    (notes location : Option String) :
    FieldsStored q (q.newRow old m now) (q.notes.or notes) (q.location.or location) ↔
      q.Readable := by
  constructor
  · intro h v hv
    obtain ⟨time, hparse, -⟩ := h.eventTime v hv
    rw [hparse]
    rfl
  · intro h
    refine ⟨fun v hv => ?_, fun v hv => ?_, fun v hv => ?_, fun v hv => ?_, fun v hv => ?_,
      fun v hv => ?_, fun v hv => ?_, fun v hv => ?_⟩
    · simp [EditRequest.newRow, updatePatch, hm, Option.mem_def.mp hv]
    · simp [EditRequest.newRow, updatePatch, Option.mem_def.mp hv]
    · simp [EditRequest.newRow, updatePatch, Option.mem_def.mp hv]
    · simp [EditRequest.newRow, updatePatch, Option.mem_def.mp hv]
    · obtain ⟨time, hparse⟩ := Option.isSome_iff_exists.mp (h v hv)
      refine ⟨time, hparse, ?_⟩
      simp [EditRequest.newRow, updatePatch, Option.mem_def.mp hv, hparse]
    · simp [EditRequest.newRow, updatePatch, Option.mem_def.mp hv]
    · simp [Option.mem_def.mp hv]
    · simp [Option.mem_def.mp hv]

/-- Everything given is what the row holds, and it was last written in this second. -/
structure NothingNew (q : EditRequest) (old : TransactionsRow) (notes location : Option String)
    (now : Int) : Prop where
  merchant : ∀ v ∈ q.fields.merchantDisplayName, old.merchantDisplayName = some v
  category : ∀ v ∈ q.fields.categoryId, old.categoryId = some v
  amount : ∀ v ∈ q.fields.amountMinor, old.amountMinor = some v
  direction : ∀ v ∈ q.fields.direction, old.direction = some v
  eventTime : ∀ time ∈ q.fields.eventTime.bind EnteredTime.parse, old.bestEventTime = some time
  instrument : ∀ v ∈ q.fields.instrumentId, old.instrumentId = some v
  notes : ∀ v ∈ q.notes, notes = some v
  location : ∀ v ∈ q.location, location = some v
  updatedAt : old.updatedAt = some now

theorem newRow_eq_of_nothingNew {q : EditRequest} {old : TransactionsRow}
    {notes location : Option String} {now : Int} (h : NothingNew q old notes location now) :
    q.newRow old old.merchantColumns now = old := by
  simp [EditRequest.newRow, updatePatch, TransactionsRow.merchantColumns,
    or_eq_right_iff.mpr h.category, or_eq_right_iff.mpr h.amount, or_eq_right_iff.mpr h.direction,
    or_eq_right_iff.mpr h.eventTime, or_eq_right_iff.mpr h.instrument, ← h.updatedAt]

theorem nothingNew_of_newRow_eq {q : EditRequest} {old : TransactionsRow} {m : MerchantColumns}
    (hm : m.displayName = q.fields.merchantDisplayName.or old.merchantDisplayName)
    {notes location : Option String} {now : Int} (hrow : q.newRow old m now = old)
    (hnotes : q.notes.or notes = notes) (hlocation : q.location.or location = location) :
    NothingNew q old notes location now where
  merchant := or_eq_right_iff.mp (hm.symm.trans (congrArg (·.merchantDisplayName) hrow))
  category := or_eq_right_iff.mp (congrArg (·.categoryId) hrow)
  amount := or_eq_right_iff.mp (congrArg (·.amountMinor) hrow)
  direction := or_eq_right_iff.mp (congrArg (·.direction) hrow)
  eventTime := or_eq_right_iff.mp (congrArg (·.bestEventTime) hrow)
  instrument := or_eq_right_iff.mp (congrArg (·.instrumentId) hrow)
  notes := or_eq_right_iff.mp hnotes
  location := or_eq_right_iff.mp hlocation
  updatedAt := (congrArg (·.updatedAt) hrow).symm

/-! ## the statement -/

/-- `UPDATE transactions` is refused, or fails. -/
def UpdateRefused (q : EditRequest) (ctx : Ctx EditStmt) (s : Store EditTables) : Prop :=
  Fails .updateTransaction 0 ctx s ∨ refersInto s.db.db.instruments q.fields.instrumentId = false

/-- The statements about tags. -/
def EditStmt.isTag : EditStmt → Bool
  | selectTags | insertTag | selectTransactionTags | deleteTransactionTag
  | insertTransactionTag => true
  | _ => false

/-- The row of the transaction has what was asked for. -/
def EditTables.Stores (e : EditTables) (txId : String) (q : EditRequest) : Prop :=
  ∃ t, e.db.transactions.find? txId = some t ∧ FieldsStored q t (e.notes txId) (e.location txId)

/-- What `UPDATE transactions` leaves. -/
def EditTables.rewritten (e : EditTables) (txId : String) (q : EditRequest) (old : TransactionsRow)
    (m : MerchantColumns) (now : Int) : EditTables :=
  { e with
    db := e.db.updateTransaction txId (updatePatch old q.fields m now)
    notes := Function.update e.notes txId (q.notes.or (e.notes txId))
    location := Function.update e.location txId (q.location.or (e.location txId)) }

theorem writeFields_refused {q : EditRequest} {ctx : Ctx EditStmt} {s : Store EditTables}
    (h : UpdateRefused q ctx s) (txId : String) (old : TransactionsRow)
    (m : MerchantColumns) : ∃ e, writeFields txId q old m ctx s =
      (.error e, { s with skip := advance .updateTransaction ctx s.skip }) := by
  rw [writeFields]
  by_cases hfail : Fails .updateTransaction 0 ctx s
  · exact ⟨_, exec_fails hfail _⟩
  · have hinstrument := h.resolve_left hfail
    refine ⟨foreignKeyFailed, ?_⟩
    rw [exec_passes hfail]
    simp [Database.updateFields, hinstrument]

theorem writeFields_written {q : EditRequest} {ctx : Ctx EditStmt} {s : Store EditTables}
    (h : ¬ UpdateRefused q ctx s) (txId : String) (old : TransactionsRow)
    (m : MerchantColumns) : writeFields txId q old m ctx s = (.ok (),
      ⟨s.db.rewritten txId q old m ctx.now, s.nextUuid,
        advance .updateTransaction ctx s.skip⟩) := by
  simp only [UpdateRefused, not_or, Bool.not_eq_false] at h
  obtain ⟨hpass, hinstrument⟩ := h
  refine exec_ok_of_passes hpass ?_
  simp [Database.updateFields, hinstrument, EditTables.rewritten]

/-- A row that is written as it was. -/
theorem rewritten_self {e : EditTables} {txId : String} {q : EditRequest} {old : TransactionsRow}
    {now : Int} (hfound : e.db.transactions.find? txId = some old)
    (h : NothingNew q old (e.notes txId) (e.location txId) now) :
    e.rewritten txId q old old.merchantColumns now = e := by
  have hrow := newRow_eq_of_nothingNew h
  have htable : e.db.transactions.modify txId (updatePatch old q.fields old.merchantColumns now) =
      e.db.transactions := by
    refine Table.ext ?_
    rw [Table.modify]
    refine (List.map_congr_left fun r hr => ?_).trans (List.map_id _)
    by_cases hkey : Keyed.key r = txId
    · have hsame : r = old := by
        have hr' := Table.find?_eq_some.mpr ⟨hr, hkey⟩
        rw [hfound] at hr'
        exact (Option.some.inj hr').symm
      rw [if_pos hkey, hsame]
      exact hrow
    · rw [if_neg hkey]
      rfl
  rw [EditTables.rewritten, Database.updateTransaction, htable, or_eq_right_iff.mpr h.notes,
    or_eq_right_iff.mpr h.location, Function.update_eq_self, Function.update_eq_self]

theorem find?_of_getTransaction {db : Database} {txId : String} {old : TransactionsRow}
    (h : db.getTransaction txId = some old) : db.transactions.find? txId = some old := by
  rw [Database.getTransaction, Option.filter_eq_some_iff] at h
  exact h.1

/-! ## the transaction -/

section Writing

variable [Extern]

/-- The rename leaves an alias or a merchant. -/
def LearnsFrom (old : TransactionsRow) (name : Option String) (ctx : Ctx EditStmt)
    (s : Store EditTables) : Prop :=
  ∃ merch ∈ name, LearnsName (old.merchantDisplayName.getD "") merch (merchantCtx ctx)
    ⟨s.db.db, s.nextUuid, s.skip⟩

theorem logCategory_same {txId : String} {old : TransactionsRow} {cat : Option String}
    (h : ∀ v ∈ cat, old.categoryId = some v) (ctx : Ctx EditStmt) (s : Store EditTables) :
    logCategory txId old cat ctx s = (.ok (), s) := by
  cases cat with
  | none => rfl
  | some c =>
    rw [logCategory]
    simp [h c rfl]

/-- The state behind the first two steps. -/
structure Renamed (txId : String) (q : EditRequest) (old : TransactionsRow) (ctx : Ctx EditStmt)
    (s : Store EditTables) (m : MerchantColumns) (s' : Store EditTables) : Prop where
  /-- Corrections were logged, then merchants learnt. -/
  changed : ∃ log V db, LearnsMerchants s.db.db db ∧
    s'.db = { s.db with feedbackLog := s.db.feedbackLog ++ log, variants := V, db := db }
  unchanged : s'.db = s.db ↔ ¬ LogsCategory txId old q.fields.categoryId ctx s ∧
    ¬ LearnsFrom old q.fields.merchantDisplayName ctx s
  named : m.displayName = q.fields.merchantDisplayName.or old.merchantDisplayName
  kept : (∀ v ∈ q.fields.merchantDisplayName, old.merchantDisplayName = some v) →
    m = old.merchantColumns
  drawn : s.nextUuid ≤ s'.nextUuid
  plan : ∀ i : EditStmt, i.isTag = true ∨ i = .updateTransaction → ∀ n,
    (Fails i n ctx s' ↔ Fails i n ctx s)

theorem renamed_spec {txId : String} {q : EditRequest} {old : TransactionsRow}
    {ctx : Ctx EditStmt} {s : Store EditTables} (hfresh : UndrawnIds s.db s.nextUuid) :
    ∃ s₁ m s₂, logCategory txId old q.fields.categoryId ctx s = (.ok (), s₁) ∧
      onMerchants (renamedMerchant old q.fields.merchantDisplayName) ctx s₁ = (.ok m, s₂) ∧
      Renamed txId q old ctx s m s₂ := by
  obtain ⟨hok, ⟨log, V, hlog⟩, hsilent⟩ := logCategory_spec txId old q.fields.categoryId ctx s
  have hdrawn := keeps_logCategory (N := s.nextUuid) txId old q.fields.categoryId ctx s le_rfl
  have hplan := fun (i : EditStmt) (hi : i.isCorrection = false) n =>
    (deaf_logCategory hi txId old q.fields.categoryId).fails_iff n ctx s
  have hrenames : ∀ j, Deaf (.rename j) (logCategory txId old q.fields.categoryId) :=
    fun j => deaf_logCategory rfl txId old q.fields.categoryId
  have hmerchants : ∀ (i : Stmt) n, Fails i n (merchantCtx ctx)
      ⟨(logCategory txId old q.fields.categoryId ctx s).2.db.db,
        (logCategory txId old q.fields.categoryId ctx s).2.nextUuid,
        (logCategory txId old q.fields.categoryId ctx s).2.skip⟩ ↔
      Fails i n (merchantCtx ctx) ⟨s.db.db, s.nextUuid, s.skip⟩ :=
    fun i n => fails_merchants hrenames
  have hsplit : logCategory txId old q.fields.categoryId ctx s =
      (.ok (), (logCategory txId old q.fields.categoryId ctx s).2) := Prod.ext hok rfl
  generalize (logCategory txId old q.fields.categoryId ctx s).2 = s₁ at *
  -- the merchants, seen from behind the log
  let t₁ : Store Database := ⟨s₁.db.db, s₁.nextUuid, s₁.skip⟩
  have hdb : t₁.db = s.db.db := by
    have hsame := congrArg EditTables.db hlog
    exact hsame
  have hmkeys : uuid t₁.nextUuid ∉ t₁.db.merchants.keys := by
    rw [hdb]
    exact hfresh.merchants _ hdrawn
  have hakeys : uuid t₁.nextUuid ∉ t₁.db.merchantAliases.keys := by
    rw [hdb]
    exact hfresh.aliases _ hdrawn
  have hrename := @renamedMerchant_db _ old q.fields.merchantDisplayName (merchantCtx ctx) t₁
    hmkeys hakeys
  have hlearns : (∃ merch ∈ q.fields.merchantDisplayName,
      LearnsName (old.merchantDisplayName.getD "") merch (merchantCtx ctx) t₁) ↔
      LearnsFrom old q.fields.merchantDisplayName ctx s := by
    refine exists_congr fun merch => and_congr_right fun _ => ?_
    exact learnsName_congr hdb fun i => hmerchants i 0
  rw [hlearns] at hrename
  obtain ⟨m, hm, hnamed⟩ :=
    renamedMerchant_answered old q.fields.merchantDisplayName (merchantCtx ctx) t₁
  have hlearnt := (within_renamedMerchant old q.fields.merchantDisplayName).related
    LearnsMerchants.refl LearnsMerchants.trans (merchantCtx ctx) t₁
  let s₂ := (onMerchants (renamedMerchant old q.fields.merchantDisplayName) ctx s₁).2
  have hs₂ : s₂.db = { s₁.db with
      db := (renamedMerchant old q.fields.merchantDisplayName (merchantCtx ctx) t₁).2.db } := rfl
  have hdrawn₂ : s.nextUuid ≤ s₂.nextUuid :=
    keeps_onMerchants (keeps_drawn_renamedMerchant _ _) ctx s₁ hdrawn
  generalize (renamedMerchant old q.fields.merchantDisplayName (merchantCtx ctx) t₁).2.db = db₂ at *
  refine ⟨s₁, m, s₂, hsplit, Prod.ext hm rfl, ⟨log, V, db₂, hdb ▸ hlearnt, ?_⟩, ?_, hnamed,
    fun hsame => ?_, hdrawn₂, fun i hi n => ?_⟩
  · rw [hs₂, hlog]
  · rw [← hsilent, ← hrename, hs₂]
    constructor
    · intro heq
      have hfeedback := congrArg EditTables.feedbackLog heq
      have hvariants := congrArg EditTables.variants heq
      have hdb₂ := congrArg EditTables.db heq
      rw [hlog] at hfeedback hvariants
      dsimp only at hfeedback hvariants hdb₂
      refine ⟨?_, hdb₂.trans hdb.symm⟩
      rw [hlog, hfeedback, hvariants]
    · rintro ⟨hlogged, rfl⟩
      exact hlogged
  · rw [renamedMerchant_same hsame] at hm
    exact (Except.ok.inj hm).symm
  · have hother : i.isCorrection = false ∧ ∀ j, i ≠ .rename j := by
      cases i <;> simp_all [EditStmt.isTag, EditStmt.isCorrection]
    exact ((deaf_onMerchants hother.2 _).fails_iff n ctx s₁).trans (hplan i hother.1 n)

/-- The update is carried out. -/
structure Written (txId : String) (q : EditRequest) (old : TransactionsRow) (ctx : Ctx EditStmt)
    (s s' : Store EditTables) : Prop where
  stores : s'.db.Stores txId q ↔ q.Readable
  unchanged : s'.db = s.db ↔
    NothingNew q old (s.db.notes txId) (s.db.location txId) ctx.now
  present : s'.db.db.transactions.contains txId = true
  tags : s'.db.tags = s.db.tags
  links : s'.db.transactionTags = s.db.transactionTags
  drawn : s.nextUuid ≤ s'.nextUuid
  plan : ∀ i : EditStmt, i.isTag = true → ∀ n, Fails i n ctx s' ↔ Fails i n ctx s

theorem changedFields_self (t : TransactionsRow) : changedFields t t = [] := by
  have hsame : ∀ (x : Option String) (field : String),
      (x.bind fun a => if x = some a then none else some (field, x, a)) = none := by
    intro x field
    cases x with
    | none => rfl
    | some a => simp
  simp [changedFields, hsame]

/-- The update is refused or not, whatever was logged and learnt. -/
theorem Renamed.updateRefused {txId : String} {q : EditRequest} {old : TransactionsRow}
    {ctx : Ctx EditStmt} {s s' : Store EditTables} {m : MerchantColumns}
    (h : Renamed txId q old ctx s m s') : UpdateRefused q ctx s' ↔ UpdateRefused q ctx s := by
  obtain ⟨log, V, db, ⟨M, A, rfl⟩, hdb⟩ := h.changed
  rw [UpdateRefused, h.plan .updateTransaction (.inr rfl), hdb]
  rfl

/-- With nothing new there is nothing to log or to learn. -/
theorem NothingNew.silent {txId : String} {q : EditRequest} {old : TransactionsRow}
    {notes location : Option String} {now : Int} (h : NothingNew q old notes location now)
    {ctx : Ctx EditStmt} {s : Store EditTables} :
    ¬ LogsCategory txId old q.fields.categoryId ctx s ∧
      ¬ LearnsFrom old q.fields.merchantDisplayName ctx s := by
  refine ⟨?_, ?_⟩
  · rintro ⟨⟨c, hc, hne⟩, -⟩
    simp [h.category c hc] at hne
  · rintro ⟨merch, hmerch, hne, -⟩
    simp [h.merchant merch hmerch] at hne

/-- The first three steps. -/
theorem writeTransaction_renamed {txId : String} {q : EditRequest} {old : TransactionsRow}
    {ctx : Ctx EditStmt} {s : Store EditTables} (hread : ¬ Fails .selectTransaction 0 ctx s)
    (hfound : s.db.db.getTransaction txId = some old) (hfresh : UndrawnIds s.db s.nextUuid) :
    ∃ m s', Renamed txId q old ctx s m s' ∧ writeTransaction txId q ctx s = (do
      writeFields txId q old m
      let now ← utcNow
      logChanges txId (changedFields old (q.newRow old m now)) :
        EditProg (List CorrectionContext)) ctx s' := by
  let s₀ : Store EditTables := { s with skip := advance .selectTransaction ctx s.skip }
  obtain ⟨s₁, m, s₂, hlog, hrename, hafter⟩ := @renamed_spec _ txId q old ctx s₀ hfresh
  refine ⟨m, s₂, ⟨hafter.changed, ?_, hafter.named, hafter.kept, hafter.drawn, fun i hi n => ?_⟩, ?_⟩
  · have hplan : ∀ i : EditStmt, i ≠ .selectTransaction → (Fails i 0 ctx s₀ ↔ Fails i 0 ctx s) :=
      fun i hi => fails_advance_of_ne hi
    have hlogs : LogsCategory txId old q.fields.categoryId ctx s₀ ↔
        LogsCategory txId old q.fields.categoryId ctx s := by
      rw [LogsCategory, LogsCorrection, hplan .selectObservation (by decide),
        hplan .insertFeedback (by decide)]
      rfl
    have hlearns : LearnsFrom old q.fields.merchantDisplayName ctx s₀ ↔
        LearnsFrom old q.fields.merchantDisplayName ctx s := by
      refine exists_congr fun merch => and_congr_right fun _ => learnsName_congr rfl fun i => ?_
      have hquery : Fails i 0 (merchantCtx ctx) ⟨s.db.db, s.nextUuid,
          (query EditStmt.selectTransaction (fun e : EditTables => e.db.getTransaction txId)
            ctx s).2.skip⟩ ↔ Fails i 0 (merchantCtx ctx) ⟨s.db.db, s.nextUuid, s.skip⟩ :=
        fails_merchants fun j => .query (by simp) _
      rw [query_passes hread] at hquery
      exact hquery
    rw [← hlogs, ← hlearns]
    exact hafter.unchanged
  · rw [hafter.plan i hi n]
    refine fails_advance_of_ne ?_
    rintro rfl
    simp [EditStmt.isTag] at hi
  · rw [writeTransaction, Eff.bind_of_ok (query_passes hread _), hfound]
    dsimp only
    rw [Eff.bind_of_ok hlog, Eff.bind_of_ok hrename]

theorem writeTransaction_refused {txId : String} {q : EditRequest} {old : TransactionsRow}
    {ctx : Ctx EditStmt} {s : Store EditTables} (hread : ¬ Fails .selectTransaction 0 ctx s)
    (hfound : s.db.db.getTransaction txId = some old) (hfresh : UndrawnIds s.db s.nextUuid)
    (hrefused : UpdateRefused q ctx s) :
    ∃ e s', writeTransaction txId q ctx s = (.error e, s') ∧
      (s'.db = s.db ↔ ¬ LogsCategory txId old q.fields.categoryId ctx s ∧
        ¬ LearnsFrom old q.fields.merchantDisplayName ctx s) := by
  obtain ⟨m, s', hafter, hrun⟩ := writeTransaction_renamed hread hfound hfresh
  have hrefused' : UpdateRefused q ctx s' := (hafter.updateRefused).mpr hrefused
  obtain ⟨e, hwrite⟩ := writeFields_refused hrefused' txId old m
  rw [hrun, Eff.bind_of_error hwrite]
  exact ⟨e, _, rfl, hafter.unchanged⟩

theorem writeTransaction_written {txId : String} {q : EditRequest} {old : TransactionsRow}
    {ctx : Ctx EditStmt} {s : Store EditTables} (hread : ¬ Fails .selectTransaction 0 ctx s)
    (hfound : s.db.db.getTransaction txId = some old) (hfresh : UndrawnIds s.db s.nextUuid)
    (hpass : ¬ UpdateRefused q ctx s) :
    ∃ contexts s', writeTransaction txId q ctx s = (.ok contexts, s') ∧
      Written txId q old ctx s s' := by
  obtain ⟨m, s₂, hafter, hrun⟩ := writeTransaction_renamed hread hfound hfresh
  have hpass' : ¬ UpdateRefused q ctx s₂ := mt (hafter.updateRefused).mp hpass
  have hwrite := writeFields_written hpass' txId old m
  let s₃ : Store EditTables := ⟨s₂.db.rewritten txId q old m ctx.now, s₂.nextUuid,
    advance .updateTransaction ctx s₂.skip⟩
  let changes := changedFields old (q.newRow old m ctx.now)
  obtain ⟨contexts, s₄, hlogs, l, V, hmore⟩ := logChanges_spec txId changes ctx s₃
  have hfound' := find?_of_getTransaction hfound
  obtain ⟨log, V', db, ⟨M, A, rfl⟩, hdb⟩ := hafter.changed
  -- the tables at the end, from those at the beginning
  have hrow : s₄.db.db.transactions.find? txId = some (q.newRow old m ctx.now) := by
    rw [hmore]
    dsimp only [s₃, EditTables.rewritten, Database.updateTransaction]
    rw [hdb]
    dsimp only
    rw [Table.find?_modify, if_pos rfl, hfound']
    rfl
  have hnotes : s₄.db.notes txId = q.notes.or (s.db.notes txId) := by
    rw [hmore]
    dsimp only [s₃, EditTables.rewritten]
    rw [Function.update_self, hdb]
  have hlocation : s₄.db.location txId = q.location.or (s.db.location txId) := by
    rw [hmore]
    dsimp only [s₃, EditTables.rewritten]
    rw [Function.update_self, hdb]
  refine ⟨contexts, s₄, ?_, ?_, ?_, ?_, ?_, ?_, ?_, ?_⟩
  · rw [hrun, Eff.bind_of_ok hwrite, Eff.bind_of_ok (utcNow_apply _ _)]
    exact hlogs
  · rw [← fieldsStored_newRow hafter.named ctx.now (s.db.notes txId) (s.db.location txId),
      EditTables.Stores, hrow, hnotes, hlocation]
    simp
  · constructor
    · intro heq
      rw [heq] at hrow hnotes hlocation
      rw [hfound'] at hrow
      exact nothingNew_of_newRow_eq hafter.named (Option.some.inj hrow).symm hnotes.symm
        hlocation.symm
    · intro h
      obtain rfl := hafter.kept h.merchant
      have hsame : s₂.db = s.db := hafter.unchanged.mpr h.silent
      have hchanges : changes = [] := by
        dsimp only [changes]
        rw [newRow_eq_of_nothingNew h, changedFields_self]
      rw [hchanges] at hlogs
      obtain ⟨-, rfl⟩ := Prod.mk.inj hlogs
      dsimp only [s₃]
      rw [hsame]
      exact rewritten_self hfound' h
  · rw [Table.contains, hrow]
    rfl
  · rw [hmore]
    dsimp only [s₃, EditTables.rewritten]
    rw [hdb]
  · rw [hmore]
    dsimp only [s₃, EditTables.rewritten]
    rw [hdb]
  · have hdrawn := keeps_logChanges (N := s.nextUuid) txId changes ctx s₃ hafter.drawn
    rw [hlogs] at hdrawn
    exact hdrawn
  · intro i hi n
    have hother : i.isCorrection = false ∧ i ≠ .updateTransaction := by
      cases i <;> simp_all [EditStmt.isTag, EditStmt.isCorrection]
    have hlogged := (deaf_logChanges hother.1 txId changes).fails_iff n ctx s₃
    rw [hlogs] at hlogged
    exact hlogged.trans ((fails_advance_of_ne hother.2).trans (hafter.plan i (.inl hi) n))

end Writing

end Dinero
