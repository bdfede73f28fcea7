import Dinero.Extraction

/-!
# Dinero.PostProcessing

`run_post_processing`: the derivations that run once an observation is linked
to a canonical transaction.

A credit looks for the debit it refunds and does nothing else; anything else
is normalised, categorised, and checked for recurrence and instalments.
-/

namespace Dinero

open Sql

variable [Extern]

/-! ## refunds -/

def refundWindowSeconds : Int := 30 * 86400

/-- The `WHERE` clause of the refund search. -/
def refundable (instrumentId : String) (amountMinor eventTime : Int) (t : TransactionsRow) :
    Bool :=
  t.direction = some "debit" && t.instrumentId = some instrumentId &&
    t.amountMinor = some amountMinor && !t.isDeleted &&
    (t.bestEventTime.any fun bt => bt ≤ eventTime && eventTime - refundWindowSeconds ≤ bt) &&
    t.parentTransactionId.isNone

/-- The latest debit of the same amount on the instrument within 30 days. -/
def Database.refundDebit (db : Database) (instrumentId : String) (amountMinor eventTime : Int) :
    Option TransactionsRow :=
  (orderBy (fun a b => nullsFirst b.bestEventTime a.bestEventTime) (scan
    (db.transactions.rows.filter (refundable instrumentId amountMinor eventTime)))).head?

/-- What the credit gets. -/
def refundPatch (parent : String) (now : Int) : Patch TransactionsRow where
  run t := { t with
    parentTransactionId := some parent
    transactionSubtype := some .refund
    updatedAt := some now }
  key_run _ := rfl

/-- What the debit gets. -/
def refundedPatch (now : Int) : Patch TransactionsRow where
  run t := { t with status := some .refunded, updatedAt := some now }
  key_run _ := rfl

/-- The branch of `run_post_processing` for credits.  The parent was selected
just before, so the foreign key holds. -/
def linkRefund (transactionId instrumentId : String) (amountMinor eventTime : Int) : Db Unit := do
  match ← Eff.attempt (query .selectRefundDebit
      (·.refundDebit instrumentId amountMinor eventTime)) with
  | .ok (some original) =>
    exec .linkRefund fun now db =>
      .ok ((), db.updateTransaction transactionId (refundPatch original.id now))
    exec .markRefunded fun now db => .ok ((), db.updateTransaction original.id (refundedPatch now))
  | _ => return ()

/-! ## names, categories, recurrence and instalments -/

/-- The category a merchant text names by keyword. -/
def keywordCategory (merchant : String) : Option String :=
  let lower := toLowercase merchant
  if strContains lower "uber" || strContains lower "lyft" || strContains lower "transit" then
    some "cat_transport"
  else if strContains lower "amazon" || strContains lower "flipkart" then some "cat_shopping"
  else if strContains lower "swiggy" || strContains lower "zomato" ||
      strContains lower "restaurant" then some "cat_food"
  else none

/-- The normaliser's entity and name; an error of its and an empty name both
come to nothing. -/
def normalizedMerchant : Option String → Db (Option (String × String))
  | none => return none
  | some raw => do
    match ← Eff.attempt (normalizeMerchantSync raw) with
    | .ok (entityId, name) => return if name = "" then none else some (entityId, name)
    | .error _ => return none

/-- `COALESCE(?, column)` on the three merchant columns. -/
def merchantPatch (categoryId entityId name : Option String) (now : Int) :
    Patch TransactionsRow where
  run t := { t with
    categoryId := categoryId.or t.categoryId
    merchantEntityId := entityId.or t.merchantEntityId
    merchantNormalizedName := name.or t.merchantNormalizedName
    updatedAt := some now }
  key_run _ := rfl

/-- Writes what the merchant text gave, if it gave anything. -/
def assignMerchant (transactionId : String) (categoryId : Option String)
    (merchant : Option (String × String)) : Db Unit :=
  if categoryId.isSome ∨ merchant.isSome then
    exec .updateMerchant fun now db => .ok ((), db.updateTransaction transactionId
      (merchantPatch categoryId (merchant.map (·.1)) (merchant.map (·.2)) now))
  else return ()

/-- `query_row(..).unwrap_or(None)` on one column of a transaction. -/
def currentColumn (site : Stmt) (column : TransactionsRow → Option String)
    (transactionId : String) : Db (Option String) := do
  match ← Eff.attempt (query site fun db => (db.transactions.find? transactionId).bind column) with
  | .ok v => return v
  | .error _ => return none

/-- The branch of `run_post_processing` for everything but credits. -/
def deriveFields (transactionId instrumentId : String) (merchantRaw : Option String)
    (amountMinor : Int) (direction : String) (eventTime : Int)
    (emiTotalInstallments emiOriginalAmountMinor : Option Int) : Db Unit := do
  let merchant ← normalizedMerchant merchantRaw
  assignMerchant transactionId (merchantRaw.bind keywordCategory) merchant
  let entityId ← currentColumn .selectMerchantEntity (·.merchantEntityId) transactionId
  let _ ← Eff.attempt (detectAndUpdateRecurring instrumentId entityId transactionId amountMinor
    direction eventTime)
  let name ← currentColumn .selectMerchantNormalized (·.merchantNormalizedName) transactionId
  let _ ← Eff.attempt (linkEmiInstallment transactionId instrumentId name emiTotalInstallments
    emiOriginalAmountMinor)
  return ()

/-- Runs derivations that depend on the final merged transaction. -/
def runPostProcessing (transactionId instrumentId : String) (merchantRaw : Option String)
    (amountMinor : Int) (direction : String) (eventTime : Int)
    (emiTotalInstallments emiOriginalAmountMinor : Option Int) : Db Unit :=
  if direction = "credit" then linkRefund transactionId instrumentId amountMinor eventTime
  else deriveFields transactionId instrumentId merchantRaw amountMinor direction eventTime
    emiTotalInstallments emiOriginalAmountMinor

end Dinero
