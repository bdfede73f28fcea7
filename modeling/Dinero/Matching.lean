import Dinero.Db

/-!
# Dinero.Matching

What is compared and how: the incoming observation, the candidates a query
projects transactions to, the exact-match test of the fingerprint path and the
scorer of the other one.  Scores are exact rationals.
-/

namespace Dinero

open Sql

variable [Extern]

structure IncomingObservation where
  id : String
  instrumentId : String
  amountMinor : Int
  currency : String
  direction : String
  eventTime : TimeText
  referenceId : Option String
  merchantRaw : Option String
  sourcePipeline : String
  sourceRecordId : String
  emiTotalInstallments : Option Int
  emiOriginalAmountMinor : Option Int
  fingerprint : Option String
  confidenceScore : Option ℚ
  eventTimeConfidence : Option String
  channel : Option String
deriving DecidableEq, Repr

structure CanonicalCandidate where
  id : String
  instrumentId : String
  amountMinor : Int
  currency : String
  direction : String
  eventTime : TimeText
  referenceId : Option String
  merchantNormalizedName : Option String
  sourceMix : Option SourceMix
deriving DecidableEq, Repr

/-- Projects a transaction row into a match candidate. -/
def toCanonicalCandidate (r : TransactionsRow) : CanonicalCandidate where
  id := r.id
  instrumentId := r.instrumentId.getD ""
  amountMinor := r.amountMinor.getD 0
  currency := r.currency.getD ""
  direction := r.direction.getD ""
  eventTime := .ofOption r.bestEventTime
  referenceId := r.referenceId
  merchantNormalizedName := r.merchantNormalizedName
  sourceMix := r.sourceMix

/-! ## the fingerprint path -/

/-- The observation a fingerprint leads to: the oldest live linked one. -/
def Database.fingerprintHit (db : Database) (fingerprint excludeObservationId : String) :
    Option TransactionObservationsRow :=
  (orderBy (fun a b => nullsFirst a.createdAt b.createdAt) (scan
    (db.observations.rows.filter fun o =>
      o.fingerprint = some fingerprint && o.id != excludeObservationId &&
        o.canonicalTransactionId.isSome && !o.isDeleted))).head?

/-- Narrows candidates by fingerprint before the expensive scoring pass. -/
def fingerprintPrefilterLookup (fingerprint excludeObservationId : String) :
    Db (Option String) :=
  query .selectByFingerprint fun db =>
    (db.fingerprintHit fingerprint excludeObservationId).bind (·.canonicalTransactionId)

def exactMatchTimeToleranceSeconds : Int := 120

/-- Whether two timestamps fall within tolerance. -/
def timeWithinTolerance (a b : TimeText) (toleranceSeconds : Int) : Bool :=
  match a.parse, b.parse with
  | some ta, some tb => (ta - tb).natAbs ≤ toleranceSeconds
  | _, _ => false

/-- Confirms every distinguishing attribute agrees. -/
def verifyExactMatch (obs : IncomingObservation) (candidate : CanonicalCandidate) : Bool :=
  obs.instrumentId = candidate.instrumentId && obs.direction = candidate.direction &&
    obs.amountMinor = candidate.amountMinor && obs.currency = candidate.currency &&
    timeWithinTolerance obs.eventTime candidate.eventTime exactMatchTimeToleranceSeconds

/-! ## the scorer -/

def merchantSimilarityWeight : ℚ := 30 / 100
def referenceIdMatchWeight : ℚ := 25 / 100
def referenceIdPartialWeight : ℚ := 10 / 100
def referenceIdMismatchPenalty : ℚ := -25 / 100
def amountExactnessWeight : ℚ := 10 / 100
def directionConsistencyWeight : ℚ := 5 / 100
def crossSourceComplementarityBonus : ℚ := 5 / 100

structure ScoredCandidate where
  candidateId : String
  score : ℚ
deriving DecidableEq, Repr

/-- The merchant's share of the score. -/
def merchantScore (obs : IncomingObservation) (c : CanonicalCandidate) : ℚ :=
  match obs.merchantRaw, c.merchantNormalizedName with
  | some obsMerchant, some candMerchant =>
    let similarity := jaroWinkler (toLowercase obsMerchant) (toLowercase candMerchant)
    if 0 < similarity then merchantSimilarityWeight * similarity else 0
  | _, _ => 0

/-- Two reference ids that say different things: both present, different, and
neither a part of the other. -/
def referencesConflict (a b : Option String) : Bool :=
  match a, b with
  | some a, some b => a != b && !strContains a b && !strContains b a
  | _, _ => false

/-- The reference ids' share of the score. -/
def referenceScore (obs : IncomingObservation) (c : CanonicalCandidate) : ℚ :=
  match obs.referenceId, c.referenceId with
  | some obsRef, some candRef =>
    if obsRef = candRef then referenceIdMatchWeight
    else if strContains obsRef candRef || strContains candRef obsRef then
      referenceIdPartialWeight
    else referenceIdMismatchPenalty
  | _, _ => 0

/-- `a.len() >= n && b.len() >= n && a[..n] == b[..n]`, in bytes. -/
def samePrefix (n : Nat) (a b : String) : Bool :=
  n ≤ a.utf8ByteSize && n ≤ b.utf8ByteSize &&
    a.toUTF8.toList.take n = b.toUTF8.toList.take n

/-- Scores how close two timestamps are. -/
def computeTimeProximityScore (obsTime candTime : TimeText) : ℚ :=
  match obsTime.parse, candTime.parse with
  | some obsDt, some candDt =>
    let deltaSeconds : ℚ := ((obsDt - candDt).natAbs : Nat)
    if deltaSeconds ≤ 86400 then 15 / 100 + 10 / 100 * (1 - deltaSeconds / 86400)
    else if deltaSeconds ≤ 3 * 86400 then
      10 / 100 * (1 - (deltaSeconds - 86400) / (2 * 86400))
    else 0
  | _, _ =>
    if samePrefix 10 obsTime.render candTime.render then 25 / 100
    else if samePrefix 7 obsTime.render candTime.render then 10 / 100
    else 0

/-- Whether two observations come from complementary sources. -/
def isCrossSourceComplementary (obsSourcePipeline : String)
    (candidateSourceMix : Option SourceMix) : Bool :=
  (obsSourcePipeline = "statement_pdf" && candidateSourceMix = some .emailOnly) ||
    (obsSourcePipeline = "gmail_transaction" && candidateSourceMix = some .statementOnly)

/-- The weighted sum, before it is clamped. -/
def rawScore (obs : IncomingObservation) (c : CanonicalCandidate) : ℚ :=
  merchantScore obs c + referenceScore obs c +
    (if obs.amountMinor = c.amountMinor then amountExactnessWeight else 0) +
    (if obs.direction = c.direction then directionConsistencyWeight else 0) +
    computeTimeProximityScore obs.eventTime c.eventTime +
    (if isCrossSourceComplementary obs.sourcePipeline c.sourceMix then
      crossSourceComplementarityBonus else 0)

def scoreCandidate (obs : IncomingObservation) (c : CanonicalCandidate) : ScoredCandidate where
  candidateId := c.id
  score := max 0 (min 1 (rawScore obs c))

/-- Scores candidates on amount, timing, merchant and instrument agreement,
best first. -/
def scoreCandidates (obs : IncomingObservation) (candidates : List CanonicalCandidate) :
    List ScoredCandidate :=
  orderBy (fun a b => b.score ≤ a.score) (candidates.map (scoreCandidate obs))

end Dinero
