import Dinero.Deletion
import Dinero.Merchants

/-!
# Dinero.Edits

What the user changes about a transaction.

`transactions_update` writes every column anew: the value given, or the old one.
A new merchant name also looks for the merchant of that name, and creates one
where there is none; the aliases it learns on the way may be refused, and nobody
is told.

The columns for notes and a location are not part of the model, and the log the
corrections go to is not either.
-/

namespace Dinero

open Sql

/-! ## the command -/

/-- A time as the user enters it: one of the three forms the command reads, or another text. -/
inductive EnteredTime
  /-- `%Y-%m-%d %H:%M:%S` -/
  | dateTime (t : Int)
  /-- `%Y-%m-%dT%H:%M:%S` -/
  | isoDateTime (t : Int)
  /-- `%Y-%m-%d` -/
  | date (d : Int)
  | text (s : String)
deriving DecidableEq, Repr

def EnteredTime.parse : EnteredTime → Option Int
  | dateTime t => some t
  | isoDateTime t => some t
  | date d => some (d * 86400)
  | text _ => none

structure TransactionUpdatePayload where
  merchantDisplayName : Option String := none
  categoryId : Option String := none
  amountMinor : Option Int := none
  direction : Option String := none
  eventTime : Option EnteredTime := none
  instrumentId : Option String := none
deriving DecidableEq, Repr

/-- The three merchant columns of a transaction. -/
structure MerchantColumns where
  displayName : Option String
  normalizedName : Option String
  entityId : Option String
deriving DecidableEq, Repr

def TransactionsRow.merchantColumns (t : TransactionsRow) : MerchantColumns :=
  ⟨t.merchantDisplayName, t.merchantNormalizedName, t.merchantEntityId⟩

/-- What the update sets, from the row as it was read. -/
def updatePatch (old : TransactionsRow) (payload : TransactionUpdatePayload)
    (merchant : MerchantColumns) (now : Int) : Patch TransactionsRow where
  run t := { t with
    merchantDisplayName := merchant.displayName
    merchantNormalizedName := merchant.normalizedName
    merchantEntityId := merchant.entityId
    categoryId := payload.categoryId.or old.categoryId
    amountMinor := payload.amountMinor.or old.amountMinor
    direction := payload.direction.or old.direction
    bestEventTime := (payload.eventTime.bind EnteredTime.parse).or old.bestEventTime
    instrumentId := payload.instrumentId.or old.instrumentId
    updatedAt := some now }
  key_run _ := rfl

/-- `UPDATE transactions`: an instrument that is new has to be there. -/
def Database.updateFields (transactionId : String) (u : Patch TransactionsRow)
    (instrumentId : Option String) (db : Database) : Except SqlError (Unit × Database) :=
  if refersInto db.instruments instrumentId then .ok ((), db.updateTransaction transactionId u)
  else .error foreignKeyFailed

/-- The merchant a new name creates. -/
def userMerchant (id name cleaned : String) (now : Int) : MerchantsRow where
  id := id
  name := name
  normalizedName := cleaned
  source := .user
  isDeleted := false
  createdAt := some now
  updatedAt := some now

section Command

variable [Extern]

/-- The alias row written for the old name, if there was one.  Its `alias_normalized` comes
from the new name. -/
def learnOldName (merchantEntityId oldVal cleaned : String) : Db Unit :=
  if oldVal = "" then return ()
  else learnAlias .insertAlias merchantEntityId oldVal cleaned 1

/-- No alias has the new name: a merchant of that name is created, or, failing that, the
columns stay. -/
def createUserMerchant (kept : MerchantColumns) (merch oldVal cleaned : String) :
    Db MerchantColumns := do
  let newMerchantId ← newUuid uuid
  let now ← utcNow
  match ← Eff.attempt (insertMerchant (userMerchant newMerchantId merch cleaned now)) with
  | .ok () =>
    learnOldName newMerchantId oldVal cleaned
    return ⟨some merch, some cleaned, some newMerchantId⟩
  | .error _ => return kept

/-- The merchant columns after a rename. -/
def renamedMerchant (old : TransactionsRow) : Option String → Db MerchantColumns
  | none => return old.merchantColumns
  | some merch =>
    let oldVal := old.merchantDisplayName.getD ""
    let cleaned := stripNoiseTokens merch
    let kept := { old.merchantColumns with displayName := some merch }
    if oldVal = merch ∨ cleaned = "" then return kept
    else do
      match ← Eff.attempt (selectByAlias cleaned) with
      | .ok (some existing) =>
        learnOldName existing.id oldVal cleaned
        return ⟨some merch, some existing.normalizedName, some existing.id⟩
      | _ => createUserMerchant kept merch oldVal cleaned

def applyTransactionFieldUpdate (transactionId : String) (payload : TransactionUpdatePayload) :
    Db Unit := do
  match ← fetch (·.getTransaction transactionId) with
  | none => Eff.fail (.anyhow "Transaction not found")
  | some old =>
    let merchant ← renamedMerchant old payload.merchantDisplayName
    update fun now db => db.updateFields transactionId (updatePatch old payload merchant now)
      payload.instrumentId

end Command

/-! ## what it does -/

section Effect

variable [Extern]

theorem within_learnOldName (id oldVal cleaned : String) :
    Within LearnsMerchants (learnOldName id oldVal cleaned) := by
  unfold learnOldName
  split
  · exact .pure _
  · exact within_learnAlias _ _ _ _ _

theorem within_createUserMerchant (kept : MerchantColumns) (merch oldVal cleaned : String) :
    Within LearnsMerchants (createUserMerchant kept merch oldVal cleaned) := by
  refine .bind (.newUuid _) fun _ => .bind .utcNow fun _ =>
    .bind (.attempt (within_insertMerchant _)) fun inserted => ?_
  split
  · exact .bind (within_learnOldName _ _ _) fun _ => .pure _
  · exact .pure _

/-- A rename is about the merchants and their aliases. -/
theorem within_renamedMerchant (old : TransactionsRow) (name : Option String) :
    Within LearnsMerchants (renamedMerchant old name) := by
  cases name with
  | none => exact .pure _
  | some merch =>
    simp only [renamedMerchant]
    split
    · exact .pure _
    · refine .bind (.attempt (.query _ _)) fun found => ?_
      split
      · exact .bind (within_learnOldName _ _ _) fun _ => .pure _
      · exact within_createUserMerchant _ _ _ _

theorem keeps_learnOldName {ids : List String} (id oldVal cleaned : String) :
    Keeps (FreshWith ids) (learnOldName id oldVal cleaned) := by
  unfold learnOldName
  split
  · exact .pure _
  · exact keeps_learnAlias _ _ _ _ _

theorem keeps_renamedMerchant {ids : List String} (old : TransactionsRow) (name : Option String) :
    Keeps (FreshWith ids) (renamedMerchant old name) := by
  cases name with
  | none => exact .pure _
  | some merch =>
    simp only [renamedMerchant]
    split
    · exact .pure _
    · refine .bind (.attempt (.query _ _)) fun found => ?_
      split
      · exact .bind (keeps_learnOldName _ _ _) fun _ => .pure _
      · refine keeps_newUuid_bind fun id => .bind .utcNow fun now =>
          .bind (.attempt (keeps_insertMerchant List.mem_cons_self)) fun inserted => ?_
        split
        · exact .bind (keeps_learnOldName _ _ _) fun _ => .pure _
        · exact .pure _

theorem keeps_applyTransactionFieldUpdate {ids : List String} (transactionId : String)
    (payload : TransactionUpdatePayload) :
    Keeps (FreshWith ids) (applyTransactionFieldUpdate transactionId payload) := by
  refine .bind (.update fun _ _ _ _ _ h hf => ?_) fun found => ?_
  · obtain ⟨-, rfl⟩ := Prod.mk.inj (Except.ok.inj hf)
    exact h
  · cases found with
    | none => exact .fail _
    | some old =>
      refine .bind (keeps_renamedMerchant _ _) fun merchant =>
        .update fun now n db _ db' h hf => ?_
      unfold Database.updateFields at hf
      split at hf
      · obtain ⟨-, rfl⟩ := Prod.mk.inj (Except.ok.inj hf)
        unfold FreshWith
        rw [rowIds_updateTransaction]
        exact h
      · cases hf

/-- A rename always answers, and with the name it was given. -/
theorem renamedMerchant_answered (old : TransactionsRow) (name : Option String) (ctx : Ctx Stmt)
    (s : Store Database) :
    ∃ m, (renamedMerchant old name ctx s).1 = .ok m ∧
      m.displayName = name.or old.merchantDisplayName := by
  have hlearn : ∀ id oldVal cleaned (m : MerchantColumns) (s : Store Database),
      ((do learnOldName id oldVal cleaned; return m : Db MerchantColumns) ctx s).1 = .ok m := by
    intro id oldVal cleaned m s
    unfold learnOldName
    split <;> rfl
  cases name with
  | none => exact ⟨old.merchantColumns, rfl, rfl⟩
  | some merch =>
    simp only [renamedMerchant]
    split
    · exact ⟨_, rfl, rfl⟩
    · have hcreate : ∀ s₁, ∃ m, (createUserMerchant { old.merchantColumns with
          displayName := some merch } merch (old.merchantDisplayName.getD "")
          (stripNoiseTokens merch) ctx s₁).1 = .ok m ∧ m.displayName = some merch := by
        intro s₁
        rw [createUserMerchant, Eff.bind_of_ok (newUuid_apply _ _ _),
          Eff.bind_of_ok (utcNow_apply _ _), Eff.bind_of_ok (Eff.attempt_apply _ _ _)]
        rcases insertMerchant (userMerchant (uuid s₁.nextUuid) merch (stripNoiseTokens merch)
          ctx.now) ctx { s₁ with nextUuid := s₁.nextUuid + 1 } with ⟨e | u, s₂⟩
        · exact ⟨_, rfl, rfl⟩
        · exact ⟨_, hlearn _ _ _ _ _, rfl⟩
      rw [Eff.bind_of_ok (Eff.attempt_apply _ _ _)]
      rcases selectByAlias (stripNoiseTokens merch) ctx s with ⟨e | _ | existing, s₁⟩
      · exact hcreate s₁
      · exact hcreate s₁
      · exact ⟨_, hlearn _ _ _ _ _, rfl⟩

/-- The transaction is there, and so is the instrument the update names. -/
def Database.Updatable (db : Database) (transactionId : String)
    (payload : TransactionUpdatePayload) : Prop :=
  (db.getTransaction transactionId).isSome ∧ refersInto db.instruments payload.instrumentId = true

/-- What the update leaves. -/
inductive UpdateEffect (transactionId : String) (payload : TransactionUpdatePayload) (now : Int)
    (s : Store Database) : Except SqlError Unit → Database → Prop
  | refused (e : SqlError) (db : Database) (hlearn : LearnsMerchants s.db db)
      (hrefused : ¬ s.db.Updatable transactionId payload) :
      UpdateEffect transactionId payload now s (.error e) db
  | stored (old : TransactionsRow) (m : MerchantColumns) (db : Database)
      (hold : s.db.getTransaction transactionId = some old)
      (hrename : (renamedMerchant old payload.merchantDisplayName (.quiet now) s).1 = .ok m)
      (hdb : db = (renamedMerchant old payload.merchantDisplayName (.quiet now) s).2.db)
      (hlearn : LearnsMerchants s.db db)
      (hname : m.displayName = payload.merchantDisplayName.or old.merchantDisplayName)
      (hinst : refersInto s.db.instruments payload.instrumentId = true) :
      UpdateEffect transactionId payload now s (.ok ())
        (db.updateTransaction transactionId (updatePatch old payload m now))

/-- **An update**: it is refused, or it writes the columns of one live transaction. -/
theorem transactionsUpdate_effect (transactionId : String) (payload : TransactionUpdatePayload)
    (now : Int) (s : Store Database) :
    UpdateEffect transactionId payload now s
      (applyTransactionFieldUpdate transactionId payload (.quiet now) s).1
      (applyTransactionFieldUpdate transactionId payload (.quiet now) s).2.db := by
  rw [applyTransactionFieldUpdate, Eff.bind_of_ok (fetch_apply _ _ s)]
  cases hold : s.db.getTransaction transactionId with
  | none =>
    refine .refused _ _ (.refl _) fun h => ?_
    have hthere := h.1
    rw [hold] at hthere
    cases hthere
  | some old =>
    dsimp only
    obtain ⟨m, hanswer, hname⟩ :=
      renamedMerchant_answered old payload.merchantDisplayName (.quiet now) s
    have hlearn := (within_renamedMerchant old payload.merchantDisplayName).related
      LearnsMerchants.refl LearnsMerchants.trans (.quiet now) s
    have hrun : renamedMerchant old payload.merchantDisplayName (.quiet now) s =
        (.ok m, (renamedMerchant old payload.merchantDisplayName (.quiet now) s).2) :=
      Prod.ext hanswer rfl
    have hstored : refersInto s.db.instruments payload.instrumentId = true →
        UpdateEffect transactionId payload now s (.ok ())
          ((renamedMerchant old payload.merchantDisplayName (.quiet now) s).2.db.updateTransaction
            transactionId (updatePatch old payload m now)) :=
      .stored old m _ hold hanswer rfl hlearn hname
    rw [Eff.bind_of_ok hrun]
    generalize (renamedMerchant old payload.merchantDisplayName (.quiet now) s).2 = s₁
      at hlearn hstored ⊢
    obtain ⟨M, A, hdb⟩ := hlearn
    have hsame : s₁.db.instruments = s.db.instruments := by rw [hdb]
    simp only [update, Database.updateFields, hsame, Ctx.quiet]
    by_cases hinst : refersInto s.db.instruments payload.instrumentId = true
    · rw [if_pos hinst]
      exact hstored hinst
    · rw [if_neg hinst]
      exact .refused _ _ ⟨M, A, hdb⟩ fun h => hinst h.2

end Effect

/-! ## a ledger the user edits -/

section Events

variable [Extern]

inductive LedgerEvent
  | ingest (row : TransactionObservationsRow) (shouldReconcile : Bool)
  | transactionsUpdate (transactionId : String) (payload : TransactionUpdatePayload)
  | deleteTransaction (id : String)

/-- One event on an idle connection. -/
def LedgerEvent.run (now : Int) (s : Store Database) : LedgerEvent → Store Database
  | .ingest row shouldReconcile => (Op.ingest row shouldReconcile).run now s
  | .transactionsUpdate transactionId payload =>
    (applyTransactionFieldUpdate transactionId payload (.quiet now) s).2
  | .deleteTransaction id => (Dinero.deleteTransaction id (.quiet now) s).2

/-- Events one after the other, each at its time. -/
def runLedger (s : Store Database) (es : List (Int × LedgerEvent)) : Store Database :=
  es.foldl (fun s e => e.2.run e.1 s) s

theorem LedgerEvent.run_fresh {s : Store Database} (h : Fresh s) (now : Int) (e : LedgerEvent) :
    Fresh (e.run now s) := by
  cases e with
  | ingest row shouldReconcile => exact Op.run_fresh h now _
  | transactionsUpdate transactionId payload =>
    exact keeps_applyTransactionFieldUpdate transactionId payload (.quiet now) s h
  | deleteTransaction id => exact Event.run_fresh h now (.delete .deleteTransaction id)

end Events

end Dinero
