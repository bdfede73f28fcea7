import Dinero.Cluster

/-!
# Dinero.Engine

The matching engine: fetch candidates, score them, act on the verdict, and the
two entry points that wrap this in a transaction.
-/

namespace Dinero

open Sql

variable [Extern]

def baseViabilityFloor : ℚ := 55 / 100

def ambiguityMarginThreshold : ℚ := 15 / 100

/-- Fetches plausible match candidates for an observation. -/
def fetchCandidates (obs : IncomingObservation) : Db (List CanonicalCandidate) :=
  match obs.eventTime.parse with
  | none => Eff.fail (.anyhow ("Observation " ++ obs.id ++ " has an unparseable event_time " ++
      obs.eventTime.render ++ ". Refusing to reconcile: searching a candidate window around " ++
      "the Unix epoch would create a duplicate canonical transaction instead of matching the " ++
      "existing one."))
  | some eventTimeDt => do
    let rows ← findCandidatesWithinWindow obs.instrumentId obs.amountMinor obs.currency
      obs.direction eventTimeDt 3
    return rows.map toCanonicalCandidate

/-- The fast path: a live canonical reached through an equal fingerprint, if it
agrees with the observation. -/
def fingerprintMatch (obs : IncomingObservation) : Db (Option CanonicalCandidate) :=
  match obs.fingerprint with
  | none => return none
  | some fp => do
    match ← fingerprintPrefilterLookup fp obs.id with
    | none => return none
    | some canonicalId =>
      match ← getTransaction canonicalId with
      | none => return none
      | some row =>
        let candidate := toCanonicalCandidate row
        return if verifyExactMatch obs candidate then some candidate else none

/-- Merge into a canonical and record why. -/
def autoMatch (obs : IncomingObservation) (candidateId : String)
    (sourceMix : Option SourceMix) (score : ℚ) (decision : DecisionType) : Db DecisionType := do
  applyMatchPrecedenceAndLink obs candidateId sourceMix
  appendMatchDecision obs.id (some candidateId) score decision none
  return decision

/-- No candidate will do: the observation gets a canonical of its own. -/
def newCanonical (obs : IncomingObservation) : Db DecisionType := do
  createCanonicalTransaction obs
  appendMatchDecision obs.id none 0 .newCanonical none
  return .newCanonical

/-- The scorer will not choose: leave it to the user. -/
def raiseCluster (obs : IncomingObservation) (topScore : ℚ) (viable : List ScoredCandidate) :
    Db DecisionType := do
  let clusterId ← createAmbiguityCluster obs.id obs.instrumentId obs.amountMinor obs.direction
    obs.eventTime topScore viable
  appendMatchDecision obs.id none topScore (.ambiguousPending clusterId) none
  return .ambiguousPending clusterId

/-- The source mix of the candidate a scored candidate stands for. -/
def candidateSourceMix (candidates : List CanonicalCandidate) (candidateId : String) :
    Option SourceMix :=
  (candidates.find? (·.id = candidateId)).bind (·.sourceMix)

/-- The slow path: score, and act on who is viable.  With no candidates at all
nobody is. -/
def reconcileScored (obs : IncomingObservation) (candidates : List CanonicalCandidate) :
    Db DecisionType :=
  match (scoreCandidates obs candidates).filter (baseViabilityFloor ≤ ·.score) with
  | [] => newCanonical obs
  | [top] =>
    autoMatch obs top.candidateId (candidateSourceMix candidates top.candidateId) top.score
      .autoMatchedScored
  | top :: second :: rest =>
    if ambiguityMarginThreshold < top.score - second.score then
      autoMatch obs top.candidateId (candidateSourceMix candidates top.candidateId) top.score
        .autoMatchedScored
    else raiseCluster obs top.score (top :: second :: rest)

/-- Reconciles an observation, merging it or raising a cluster. -/
def reconcile (obs : IncomingObservation) (candidates : List CanonicalCandidate) :
    Db DecisionType := do
  match ← fingerprintMatch obs with
  | some candidate => autoMatch obs candidate.id candidate.sourceMix 1 .autoMatchedExact
  | none => reconcileScored obs candidates

/-- `fetch_candidates(..).and_then(|candidates| reconcile(..))`. -/
def fetchAndReconcile (obs : IncomingObservation) : Db DecisionType := do
  let candidates ← fetchCandidates obs
  reconcile obs candidates

/-- The observation a row stands for, defaults filled in. -/
def incomingOf (row : TransactionObservationsRow) (instrumentId : String) :
    IncomingObservation where
  id := row.id
  instrumentId := instrumentId
  amountMinor := row.amountMinor.getD 0
  currency := row.currency.getD "INR"
  direction := row.direction.getD "debit"
  eventTime := .ofOption row.eventTime
  referenceId := row.referenceId
  merchantRaw := row.merchantRaw
  sourcePipeline := row.sourcePipeline.getD ""
  sourceRecordId := row.sourceRecordId.getD ""
  emiTotalInstallments := row.emiTotalInstallments
  emiOriginalAmountMinor := row.emiOriginalAmountMinor
  fingerprint := row.fingerprint
  confidenceScore := row.confidenceScore
  eventTimeConfidence := row.eventTimeConfidence
  channel := row.channel

/-- `let _ = conn.execute_batch("ROLLBACK")`, then the error. -/
def abandon (site : Stmt) (e : SqlError) : Session Stmt Database α := do
  let _ ← Eff.attempt (rollback site)
  Eff.fail e

/-- The part of an ingestion that decides and commits; both a failing decision
and a failing `COMMIT` are rolled back. -/
def reconcileAndCommit (obs : IncomingObservation) :
    Session Stmt Database (InsertObservationOutcome × Option DecisionType) := do
  match ← Eff.attempt (Session.lift (fetchAndReconcile obs)) with
  | .ok decision =>
    match ← Eff.attempt (commit .commitReconciled) with
    | .ok () => return (.inserted, some decision)
    | .error e => abandon .rollbackFailedCommit e
  | .error e => abandon .rollbackFailedReconcile e

/-- `conn.execute_batch("COMMIT")?` and the result: when `COMMIT` fails this
returns at once, and nobody issues `ROLLBACK`. -/
def commitAndReturn (site : Stmt) (outcome : InsertObservationOutcome) :
    Session Stmt Database (InsertObservationOutcome × Option DecisionType) := do
  commit site
  return (outcome, none)

/-- The single shared reconciliation entry point. -/
def ingestObservation (row : TransactionObservationsRow) (shouldReconcile : Bool) :
    Session Stmt Database (InsertObservationOutcome × Option DecisionType) := do
  beginImmediate .beginIngest
  match ← Eff.attempt (Session.lift (insertObservationIdempotent row)) with
  | .ok .inserted =>
    if !shouldReconcile || row.instrumentId.isNone then
      commitAndReturn .commitUnreconciled .inserted
    else reconcileAndCommit (incomingOf row (row.instrumentId.getD ""))
  | .ok .duplicateSkipped => commitAndReturn .commitDuplicate .duplicateSkipped
  | .error e => abandon .rollbackFailedInsert e

/-- Reconciles within a transaction, so matching and the resulting write commit
together. -/
def reconcileTransactionally (obs : IncomingObservation) : Session Stmt Database DecisionType := do
  beginImmediate .beginReconcile
  match ← Eff.attempt (Session.lift (fetchAndReconcile obs)) with
  | .ok decision =>
    commit .commitReconcile
    return decision
  | .error e => abandon .rollbackReconcile e

end Dinero
