import Dinero.Db

/-!
# Dinero.Extraction

The parts of `extraction/` that reconciliation calls: the merchant
normaliser, the recurring-payment detector and the linking of instalments.

Text is handled as lists of characters; a regular expression of the source is
written as the scan it amounts to.
-/

namespace Dinero

open Sql

variable [Extern]

/-! ## merchant names -/

def fuzzyMatchThreshold : ℚ := 92 / 100

def minMerchantNameLen : Nat := 3

def merchantStopwords : List String := [
    "your", "you", "us", "the", "this", "that", "please", "immediately", "block", "call",
    "calling", "contact", "sms", "click", "here", "report", "dispute", "care", "customer",
    "helpdesk", "not", "and", "or", "for", "with", "by", "to", "from", "at", "on", "was", "is",
    "card", "account", "transaction", "number", "if", "do", "did", "have", "has", "been", "a",
    "an", "of", "in", "immediate", "assistance", "help", "service", "team", "app", "visit",
    "visiting", "toll", "free", "hotline", "no", "our", "we", "kindly", "reply", "inform",
    "informing", "advise", "advised", "wish", "notice", "note", "would", "like", "hereby",
    "bring", "bank", "banking", "card", "cards", "credit", "debit", "rupay", "visa",
    "mastercard", "amex", "upi", "vpa", "neft", "imps", "rtgs", "ach", "nach", "emi", "atm",
    "pos", "transaction", "transactions", "txn", "trxn", "amount", "inr", "rs", "usd",
    "payment", "paid", "pay", "spent", "debited", "credited", "purchase", "transfer", "balance",
    "available", "avl", "limit", "ref", "reference", "biller", "name", "pot", "superpot",
    "using", "ending", "ends", "xx", "xxxx", "processing", "fee", "charges", "towards",
    "successful", "successfully", "update", "alert", "details", "detail", "info", "using"]

def paymentAggregators : List String := [
    "PAYU", "PAYTM", "PPSL", "RAZ", "RAZORPAY", "CASHFREE", "BILLDESK", "CCAVENUE", "ICCL",
    "EASEBUZZ", "INFIBEAM", "ATOM", "WORLDLINE", "PINELABS", "JUSPAY", "PHONEPE", "GPAY",
    "BHARATPE", "MOBIKWIK", "INSTAMOJO", "STRIPE", "SQ", "SQUARE", "SP", "WWW"]

/-- `trim_matches`: cut characters satisfying `p` off both ends. -/
def trimMatches (p : Char → Bool) (s : List Char) : List Char :=
  ((s.dropWhile p).reverse.dropWhile p).reverse

/-- `trim`. -/
def trim (s : List Char) : List Char := trimMatches isWhitespace s

/-- `split_whitespace`. -/
def splitWhitespace (s : List Char) : List (List Char) :=
  (s.splitOnP isWhitespace).filter (· ≠ [])

/-- Extracts the real merchant from an aggregator-prefixed descriptor. -/
def splitOnAggregatorStar (upper : List Char) : List Char :=
  if '*' ∈ upper then
    let head := trim (upper.takeWhile (· ≠ '*'))
    let tail := trim ((upper.dropWhile (· ≠ '*')).drop 1)
    let headLastToken := (splitWhitespace head).getLast?.getD head
    if String.ofList headLastToken ∈ paymentAggregators ∧ tail ≠ [] then
      tail.takeWhile (· ≠ '*')
    else head
  else upper

/-- `\s*\d{4,}\s*$` replaced by nothing.  The leftmost match starts before the
whole run of digits at the end and the whitespace in front of it. -/
def stripTrailingDigits (s : List Char) : List Char :=
  let body := s.reverse.dropWhile isWhitespace
  if 4 ≤ (body.takeWhile isDigit).length then
    ((body.dropWhile isDigit).dropWhile isWhitespace).reverse
  else s

/-- Removes acquirer codes, terminal ids and padding from a raw descriptor. -/
def stripNoiseTokens (merchantRaw : String) : String :=
  let upper := (toUppercase merchantRaw).toList
  let body := trim (stripTrailingDigits (splitOnAggregatorStar upper))
  -- `\s+` replaced by one blank, in a text that neither starts nor ends in one
  String.ofList ([' '].intercalate (splitWhitespace body))

def isPlausibleMerchantName (cleaned : String) : Bool :=
  let tokens := splitWhitespace cleaned.toList
  let isStopword (t : List Char) : Bool :=
    toLowercase (String.ofList (trimMatches (!isAlphanumeric ·) t)) ∈ merchantStopwords
  tokens ≠ [] &&
    minMerchantNameLen ≤ ((trim cleaned.toList).filter isAlphanumeric).length &&
    (tokens.filter isStopword).length * 2 < tokens.length

/-- The loop over all merchants: the first of the best scores that reach the
threshold. -/
def bestFuzzyMatch (cleaned : String) (merchants : List MerchantsRow) :
    Option (ℚ × MerchantsRow) :=
  merchants.foldl (fun best m =>
    let score := jaroWinkler cleaned m.normalizedName
    if fuzzyMatchThreshold ≤ score ∧ best.all (·.1 < score) then some (score, m) else best) none

/-- Records that `cleaned` now names `merchantEntityId`; failing to is ignored. -/
def learnAlias (site : Stmt) (merchantEntityId merchantRaw cleaned : String) (confidence : ℚ) :
    Db Unit := do
  let aliasId ← newUuid uuid
  let now ← utcNow
  let _ ← Eff.attempt (insertAlias site {
    id := aliasId, merchantEntityId := merchantEntityId, aliasRaw := merchantRaw,
    aliasNormalized := cleaned, confidence := confidence, createdAt := some now })
  return ()

/-- The last resort of the normaliser: a merchant of its own. -/
def createMerchant (merchantRaw cleaned : String) : Db (String × String) := do
  let newId ← newUuid uuid
  let now ← utcNow
  insertMerchant {
    id := newId, name := merchantRaw, normalizedName := cleaned, source := .system,
    isDeleted := false, createdAt := some now, updatedAt := some now }
  learnAlias .insertAlias newId merchantRaw cleaned 1
  return (newId, cleaned)

/-- Resolves a descriptor to a merchant: by alias, by likeness, or by creating
one if the name is plausible. -/
def normalizeMerchantSync (merchantRaw : String) : Db (String × String) :=
  let cleaned := stripNoiseTokens merchantRaw
  if cleaned = "" then return ("", cleaned)
  else do
    match ← selectByAlias cleaned with
    | some m => return (m.id, m.normalizedName)
    | none =>
      match bestFuzzyMatch cleaned (← selectAllMerchants) with
      | some (score, m) =>
        learnAlias .insertFuzzyAlias m.id merchantRaw cleaned score
        return (m.id, m.normalizedName)
      | none =>
        if isPlausibleMerchantName cleaned then createMerchant merchantRaw cleaned
        else return ("", "")

/-! ## recurring payments -/

def amountToleranceFraction : ℚ := 5 / 100

def minOccurrences : Nat := 3

/-- Whether two amounts are close enough to belong to the same subscription. -/
def amountWithinTolerance (a b : Int) : Bool :=
  if b = 0 then a = 0
  else (((a - b).natAbs : Nat) : ℚ) ≤ ((b.natAbs : Nat) : ℚ) * amountToleranceFraction

/-- Classifies a mean interval. -/
def classifyCadence (meanIntervalDays : ℚ) : Cadence :=
  if 5 ≤ meanIntervalDays ∧ meanIntervalDays ≤ 9 then .weekly
  else if 25 ≤ meanIntervalDays ∧ meanIntervalDays ≤ 35 then .monthly
  else .custom

def mean (xs : List ℚ) : ℚ := xs.sum / xs.length

/-- One minus the coefficient of variation, clamped to `[0, 1]`. -/
def confidenceFromIntervals (intervalsDays : List ℚ) : ℚ :=
  let m := mean intervalsDays
  if m ≤ 0 then 0
  else
    let variance := mean (intervalsDays.map fun d => (d - m) ^ 2)
    max 0 (min 1 (1 - Extern.sqrt variance / m))

/-- The occurrences a new charge is compared with, itself included, in order of
time. -/
def occurrences (priors : List TransactionsRow) (amountMinor eventTime : Int) :
    List (Int × Int) :=
  let similar := priors.filter fun t => t.amountMinor.any (amountWithinTolerance · amountMinor)
  let dated := similar.filterMap fun t =>
    t.bestEventTime.map fun dt => (dt, t.amountMinor.getD 0)
  orderBy (fun a b => a.1 ≤ b.1) (dated ++ [(eventTime, amountMinor)])

/-- The intervals between neighbours, in days. -/
def intervalsDays (occ : List (Int × Int)) : List ℚ :=
  List.zipWith (fun a b => ((b.1 - a.1 : Int) : ℚ) / 86400) occ occ.tail

/-- Writes the schedule the occurrences suggest into `recurring_payments`. -/
def recordRecurring (instrumentId merchantEntityId : String) (amountMinor eventTime : Int)
    (occ : List (Int × Int)) : Db Unit := do
  let intervals := intervalsDays occ
  let meanInterval := mean intervals
  let confidence := confidenceFromIntervals intervals
  let cadence := classifyCadence meanInterval
  let lastEventTime := (occ.getLast?.map (·.1)).getD eventTime
  let nextPredictedDate := dateOf lastEventTime + f64Round meanInterval
  match ← findRecurring instrumentId merchantEntityId with
  | some row =>
    updateRecurring { row with
      amountMinor := some amountMinor
      cadence := some cadence
      nextPredictedDate := some nextPredictedDate
      nextPredictedAmount := some (amountMinor / 100)
      confidence := some confidence }
  | none =>
    let now ← utcNow
    let id ← newUuid uuid
    insertRecurring {
      id := id, merchantEntityId := some merchantEntityId, instrumentId := some instrumentId,
      amountMinor := some amountMinor, cadence := some cadence,
      nextPredictedDate := some nextPredictedDate,
      nextPredictedAmount := some (amountMinor / 100), confidence := some confidence,
      status := some "active", source := "inferred", createdAt := now, updatedAt := now }

/-- Detects recurring payments from transaction history and records them. -/
def detectAndUpdateRecurring (instrumentId : String) (merchantEntityId : Option String)
    (transactionId : String) (amountMinor : Int) (direction : String) (eventTime : Int) :
    Db Unit :=
  if direction ≠ "debit" then return ()
  else match merchantEntityId with
    | none => return ()
    | some merchantEntityId => do
      let priors ← findPriorOccurrencesForMerchant instrumentId merchantEntityId transactionId
      let occ := occurrences priors amountMinor eventTime
      if occ.length < minOccurrences then return ()
      else recordRecurring instrumentId merchantEntityId amountMinor eventTime occ

/-! ## instalments -/

/-- Derives a stable identifier for an instalment plan. -/
def computeEmiGroupId (instrumentId merchantNormalized : String)
    (emiOriginalAmountMinor emiTotalInstallments : Int) : String :=
  sha256Hex (instrumentId ++ "|" ++ merchantNormalized ++ "|" ++
    toString emiOriginalAmountMinor ++ "|" ++ toString emiTotalInstallments)

/-- The sub-select of the link: the earliest live member of the group other
than the transaction itself. -/
def Database.earliestOther (db : Database) (groupId transactionId : String) :
    Option TransactionsRow :=
  (orderBy (fun a b => nullsFirst a.bestEventTime b.bestEventTime) (scan
    (db.transactions.rows.filter fun t =>
      t.emiGroupId = some groupId && t.id != transactionId && !t.isDeleted))).head?

/-- The columns the link sets. -/
def emiPatch (groupId : String) (parent : Option String) (now : Int) : Patch TransactionsRow where
  run t := { t with
    emiGroupId := some groupId
    transactionSubtype := some .emiInstallment
    parentTransactionId := parent.or t.parentTransactionId
    updatedAt := some now }
  key_run _ := rfl

def Database.linkEmi (transactionId groupId : String) (now : Int) (db : Database) : Database :=
  db.updateTransaction transactionId
    (emiPatch groupId ((db.earliestOther groupId transactionId).map (·.id)) now)

/-- Attaches a transaction to its instalment group. -/
def linkEmiInstallment (transactionId instrumentId : String) (merchantNormalized : Option String)
    (emiTotalInstallments emiOriginalAmountMinor : Option Int) : Db Unit :=
  match merchantNormalized, emiTotalInstallments, emiOriginalAmountMinor with
  | some merchantNormalized, some total, some originalAmount =>
    let groupId := computeEmiGroupId instrumentId merchantNormalized originalAmount total
    exec .updateEmi fun now db => .ok ((), db.linkEmi transactionId groupId now)
  | _, _, _ => return ()

end Dinero
