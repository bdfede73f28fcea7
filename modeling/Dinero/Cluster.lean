import Dinero.Canonical

/-!
# Dinero.Cluster

Match decisions, and the ambiguity clusters that stand in for a decision the
scorer would not take: creating or extending one, resolving one, reopening one,
and the two read models over them (the review queue and the pending amount).
-/

namespace Dinero

open Sql

variable [Extern]

/-! ## match decisions -/

inductive DecisionType
  | autoMatchedExact
  | autoMatchedScored
  | ambiguousPending (clusterId : String)
  | newCanonical
  | manuallyConfirmed
  | manuallyCorrected
  | rejectedMatch
deriving DecidableEq, Repr

/-- `as_str`, the value of the `decision` column. -/
def DecisionType.toDecision : DecisionType → Decision
  | autoMatchedExact => .autoMatchedExact
  | autoMatchedScored => .autoMatchedScored
  | ambiguousPending _ => .ambiguousPending
  | newCanonical => .newCanonical
  | manuallyConfirmed => .manuallyConfirmed
  | manuallyCorrected => .manuallyCorrected
  | rejectedMatch => .rejectedMatch

def reviewStatusOf (decision : DecisionType) (reviewedBy : Option String) : ReviewStatus :=
  match decision with
  | .ambiguousPending _ => .pendingReview
  | _ => if reviewedBy.isSome then .reviewed else .notRequired

/-- The row `append_match_decision` inserts. -/
def matchDecisionRow (id observationId : String) (matchedCanonicalId : Option String)
    (score : ℚ) (decision : DecisionType) (reviewedBy : Option String) (now : Int) :
    MatchDecisionsRow where
  id := id
  observationId := some observationId
  matchedTransactionId := matchedCanonicalId
  decision := decision.toDecision
  score := score
  reviewStatus := reviewStatusOf decision reviewedBy
  reviewedBy := reviewedBy
  createdAt := now

/-- Records a match decision with its score. -/
def appendMatchDecision (observationId : String) (matchedCanonicalId : Option String)
    (score : ℚ) (decision : DecisionType) (reviewedBy : Option String) : Db Unit := do
  let id ← newUuid uuid
  exec .insertMatchDecision fun now db => db.insertMatchDecision
    (matchDecisionRow id observationId matchedCanonicalId score decision reviewedBy now)

/-! ## creating and extending clusters -/

def clusterOverlapWindowDays : Int := 3

def highScoreClusterReasonThreshold : ℚ := 75 / 100

/-- `INSERT INTO reconciliation_clusters`. -/
def Database.insertCluster (r : ReconciliationClustersRow) (db : Database) :
    Except SqlError (Unit × Database) :=
  insertInto db.clusters "reconciliation_clusters.id" r true fun T => { db with clusters := T }

/-- `INSERT INTO reconciliation_cluster_members`. -/
def Database.insertMember (r : ReconciliationClusterMembersRow) (db : Database) :
    Except SqlError (Unit × Database) :=
  insertInto db.clusterMembers "reconciliation_cluster_members.id" r
    (db.clusters.contains r.clusterId && refersInto db.observations r.observationId &&
      refersInto db.transactions r.canonicalTransactionId)
    fun T => { db with clusterMembers := T }

/-- The membership of an observation waiting for a decision. -/
def incomingMember (id clusterId observationId : String) (now : Int) :
    ReconciliationClusterMembersRow where
  id := id
  clusterId := clusterId
  observationId := some observationId
  canonicalTransactionId := none
  memberRole := .incoming
  addedAt := now
  matchScore := none

/-- An incoming member, added at one of two places. -/
def insertIncoming (site : Stmt) (clusterId observationId : String) : Db Unit := do
  let id ← newUuid uuid
  exec site fun now db => db.insertMember (incomingMember id clusterId observationId now)

/-- `candidate_roles.get(i)`. -/
def candidateRole : Nat → MemberRole
  | 0 => .candidateA
  | 1 => .candidateB
  | _ => .candidateOther

/-- The membership of a competing transaction. -/
def candidateMember (id clusterId : String) (i : Nat) (candidate : ScoredCandidate) (now : Int) :
    ReconciliationClusterMembersRow where
  id := id
  clusterId := clusterId
  observationId := none
  canonicalTransactionId := some candidate.candidateId
  memberRole := candidateRole i
  addedAt := now
  matchScore := some candidate.score

/-- The loop over the competing candidates, from position `i` on. -/
def insertCandidates (clusterId : String) : Nat → List ScoredCandidate → Db Unit
  | _, [] => return ()
  | i, candidate :: rest => do
    let id ← newUuid uuid
    exec .insertCandidate fun now db =>
      db.insertMember (candidateMember id clusterId i candidate now)
    insertCandidates clusterId (i + 1) rest

/-- Does a member, through its transaction or else its observation, describe a
payment like this one?  Each column is a `COALESCE` over the two joins. -/
def Database.memberOverlaps (db : Database) (instrumentId : String) (amountMinor : Int)
    (direction : String) (eventTime windowSeconds : Int)
    (m : ReconciliationClusterMembersRow) : Bool :=
  let t := m.canonicalTransactionId.bind db.transactions.find?
  let o := m.observationId.bind db.observations.find?
  (t.bind (·.instrumentId)).or (o.bind (·.instrumentId)) = some instrumentId &&
    (t.bind (·.amountMinor)).or (o.bind (·.amountMinor)) = some amountMinor &&
    (t.bind (·.direction)).or (o.bind (·.direction)) = some direction &&
    ((t.bind (·.bestEventTime)).or (o.bind (·.eventTime))).any fun at_ =>
      (at_ - eventTime).natAbs ≤ windowSeconds

/-- The open clusters with an overlapping member. -/
def Database.overlappingOpen (db : Database) (instrumentId : String) (amountMinor : Int)
    (direction : String) (eventTime windowSeconds : Int) (c : ReconciliationClustersRow) : Bool :=
  c.clusterStatus = .open && db.clusterMembers.rows.any fun m => m.clusterId = c.id &&
    db.memberOverlaps instrumentId amountMinor direction eventTime windowSeconds m

/-- Finds an existing open cluster overlapping these members. -/
def findOverlappingOpenCluster (instrumentId : String) (amountMinor : Int) (direction : String)
    (eventTime : TimeText) : Db (Option String) :=
  let windowSeconds := clusterOverlapWindowDays * 24 * 60 * 60
  query .selectOverlappingCluster fun db => eventTime.parse.bind fun t =>
    ((scan (db.clusters.rows.filter
      (db.overlappingOpen instrumentId amountMinor direction t windowSeconds))).head?).map (·.id)

/-- A cluster of its own for the observation and its candidates. -/
def createCluster (observationId : String) (topScore : ℚ)
    (competingCandidates : List ScoredCandidate) : Db String := do
  let clusterId ← newUuid uuid
  let reason := if highScoreClusterReasonThreshold < topScore then
    ClusterReason.multipleHighScoreCandidates else .midRangeScore
  exec .insertCluster fun now db => db.insertCluster {
    id := clusterId, clusterStatus := .open, reason := some reason, createdAt := now,
    resolvedAt := none }
  insertIncoming .insertIncoming clusterId observationId
  insertCandidates clusterId 0 competingCandidates
  return clusterId

/-- Creates a cluster recording an unresolved ambiguity, or extends the one
that already does. -/
def createAmbiguityCluster (observationId instrumentId : String) (amountMinor : Int)
    (direction : String) (eventTime : TimeText) (topScore : ℚ)
    (competingCandidates : List ScoredCandidate) : Db String := do
  match ← findOverlappingOpenCluster instrumentId amountMinor direction eventTime with
  | some existingClusterId =>
    insertIncoming .extendCluster existingClusterId observationId
    return existingClusterId
  | none => createCluster observationId topScore competingCandidates

/-! ## resolving clusters -/

/-- A status update, by `WHERE id = ?1`. -/
def statusPatch (status : ClusterStatus) (resolvedAt : Option Int → Option Int) :
    Patch ReconciliationClustersRow where
  run c := { c with clusterStatus := status, resolvedAt := resolvedAt c.resolvedAt }
  key_run _ := rfl

def Database.setClusterStatus (clusterId : String) (status : ClusterStatus)
    (resolvedAt : Option Int → Option Int) (db : Database) : Database :=
  { db with clusters := db.clusters.modify clusterId (statusPatch status resolvedAt) }

/-- An audit row about what the user did to a cluster. -/
def insertUserAudit (site : Stmt) (action clusterId : String) : Db Unit := do
  let id ← newUuid uuid
  insertAudit site {
    id := id, actorType := "user", actorId := "user_id", action := action,
    resourceType := "reconciliation_cluster", resourceId := clusterId, beforeJson := none,
    afterJson := none, createdAt := 0 }

/-- The observation as `keep_separate` re-reads it from its row. -/
def separateObservation (row : TransactionObservationsRow) : IncomingObservation where
  id := row.id
  instrumentId := row.instrumentId.getD ""
  amountMinor := row.amountMinor.getD 0
  currency := row.currency.getD ""
  direction := row.direction.getD ""
  eventTime := .ofOption row.eventTime
  referenceId := row.referenceId
  merchantRaw := row.merchantRaw
  sourcePipeline := row.sourcePipeline.getD ""
  sourceRecordId := row.sourceRecordId.getD ""
  emiTotalInstallments := row.emiTotalInstallments
  emiOriginalAmountMinor := row.emiOriginalAmountMinor
  fingerprint := none
  confidenceScore := none
  eventTimeConfidence := row.eventTimeConfidence
  channel := row.channel

/-- What the action does to the observation. -/
def resolveObservation (observationId action : String) (chosenCanonicalId : Option String) :
    Db Unit :=
  if action = "confirm_match" then
    match chosenCanonicalId with
    | some canonicalId => updateCanonicalTransactionId observationId (some canonicalId)
    | none => return ()
  else if action = "keep_separate" then do
    match ← getObservation observationId with
    | some row => createCanonicalTransaction (separateObservation row)
    | none => return ()
  else return ()

/-- The actions that close a cluster. -/
def closeCluster (clusterId observationId action : String) (chosenCanonicalId : Option String) :
    Db Unit := do
  let newStatus := if action = "reject_candidate" then ClusterStatus.rejected else .resolved
  exec .closeCluster fun now db =>
    .ok ((), db.setClusterStatus clusterId newStatus fun _ => some now)
  resolveObservation observationId action chosenCanonicalId
  appendMatchDecision observationId chosenCanonicalId 1 .manuallyConfirmed (some "user_id")
  insertUserAudit .auditResolved "cluster_resolved" clusterId

/-- Applies the user's decision and records it as training signal.  The
statements run one by one, outside any transaction. -/
def resolveCluster (clusterId observationId action : String)
    (chosenCanonicalId : Option String) : Db Unit :=
  if action ∉ ["confirm_match", "reject_candidate", "keep_separate", "mark_unresolved"] then
    Eff.fail (.anyhow ("Unknown cluster resolution action: '" ++ action ++ "'"))
  else if action = "mark_unresolved" then do
    exec .deferCluster fun _ db => .ok ((), db.setClusterStatus clusterId .deferred id)
    insertUserAudit .auditDeferred "cluster_deferred" clusterId
  else closeCluster clusterId observationId action chosenCanonicalId

/-- `reconciliation_clusters_unmerge`: the number of rows it reopened decides
between success and "cluster not found". -/
def unmerge (clusterId : String) : Db Unit := do
  let count ← exec .reopenCluster fun _ db =>
    .ok (if db.clusters.contains clusterId then 1 else 0,
      db.setClusterStatus clusterId .open fun _ => none)
  if count = 0 then Eff.fail (.anyhow "cluster not found")

/-! ## reading clusters -/

/-- `do_fetch_unresolved_clusters`: the clusters of the review queue. -/
def Database.unresolvedClusters (db : Database) : List ReconciliationClustersRow :=
  db.clusters.rows.filter fun c => c.clusterStatus = .open || c.clusterStatus = .deferred

/-- The join behind the pending-review metric: one entry for each membership of
a transaction in an open cluster. -/
def Database.pendingMemberships (db : Database) :
    List (TransactionsRow × ReconciliationClusterMembersRow) :=
  db.transactions.rows.flatMap fun t =>
    (db.clusterMembers.rows.filter fun m => m.canonicalTransactionId = some t.id &&
      (db.clusters.find? m.clusterId).any (·.clusterStatus = .open)).map fun m => (t, m)

end Dinero
