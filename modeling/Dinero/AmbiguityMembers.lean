import Dinero.Overlap

/-!
# Dinero.AmbiguityMembers

What a cluster holds when an observation is left to the user: the observation,
and the candidates among which nobody chose.

A cluster that is founded for them holds both.  A cluster that was open before
takes in the observation; the candidates it has are those it had.
-/

namespace Dinero

open Sql

/-- The observation waits in the cluster. -/
def ReconciliationClusterMembersRow.Waits (m : ReconciliationClusterMembersRow)
    (clusterId obsId : String) : Prop :=
  m.clusterId = clusterId ∧ m.observationId = some obsId ∧ m.memberRole = .incoming

instance decidableWaits (m : ReconciliationClusterMembersRow) (clusterId obsId : String) :
    Decidable (m.Waits clusterId obsId) :=
  inferInstanceAs (Decidable (m.clusterId = clusterId ∧ m.observationId = some obsId ∧
    m.memberRole = .incoming))

namespace Database

/-- The transaction is on the list of the cluster. -/
def Lists (db : Database) (clusterId transactionId : String) : Prop :=
  ∃ m ∈ db.clusterMembers.rows, m.clusterId = clusterId ∧
    m.canonicalTransactionId = some transactionId ∧ m.memberRole ≠ .incoming

instance decidableLists (db : Database) (clusterId transactionId : String) :
    Decidable (db.Lists clusterId transactionId) :=
  inferInstanceAs (Decidable (∃ m ∈ db.clusterMembers.rows, m.clusterId = clusterId ∧
    m.canonicalTransactionId = some transactionId ∧ m.memberRole ≠ .incoming))

/-- The cluster puts the whole question: it is open, the observation waits in it once, and every
candidate is on its list, in the currency of the observation. -/
structure Presents (db : Database) (obs : IncomingObservation) (viable : List ScoredCandidate)
    (clusterId : String) : Prop where
  isOpen : db.IsOpen clusterId
  once : (db.clusterMembers.rows.countP fun m => decide (m.Waits clusterId obs.id)) = 1
  lists : ∀ v ∈ viable, db.Lists clusterId v.candidateId
  currency : ∀ v ∈ viable, ∃ t ∈ db.transactions, t.id = v.candidateId ∧
    t.currency = some obs.currency

/-- Memberships belong to known clusters. -/
def MembersKnown (db : Database) : Prop :=
  ∀ m ∈ db.clusterMembers.rows, ∃ c ∈ db.clusters.rows, c.id = m.clusterId

variable [Extern]

/-- The cluster the observation comes to, if one is open: it has not been waiting there, and its
candidates are on the list. -/
def Expects (db : Database) (obs : IncomingObservation) : Prop :=
  ∀ dt ∈ obs.eventTime.parse, ∀ c ∈ db.overlapping? obs dt,
    (∀ m ∈ db.clusterMembers.rows, ¬ m.Waits c.id obs.id) ∧
      ∀ v ∈ db.viable obs, db.Lists c.id v.candidateId

/-- A candidate is in the currency of the observation. -/
theorem currency_of_mem_viable {db : Database} {obs : IncomingObservation} {v : ScoredCandidate}
    (hv : v ∈ db.viable obs) :
    ∃ t ∈ db.transactions, t.id = v.candidateId ∧ t.currency = some obs.currency := by
  obtain ⟨t, ht, hfind, -⟩ := find_of_mem_viable hv
  obtain ⟨hmem, dt, -, hwindow⟩ := mem_windowRows.mp ht
  exact ⟨t, hmem, (Table.find?_eq_some.mp hfind).2, (inWindow_iff.mp hwindow).2.2.1⟩

end Database

variable [Extern]

omit [Extern] in
theorem IncomingMember.waits {clusterId obsId : String} {m : ReconciliationClusterMembersRow}
    (h : IncomingMember clusterId obsId m) : m.Waits clusterId obsId :=
  ⟨h.clusterId, h.observationId, h.memberRole⟩

/-- An observation that was left to the user was put into the cluster that is named. -/
theorem fetchAndReconcile_ambiguous {obs : IncomingObservation} {now : Int} {clusterId : String}
    {s s' : Store Database}
    (h : fetchAndReconcile obs (.quiet now) s = (.ok (.ambiguousPending clusterId), s')) :
    ∃ dt topScore s₁, obs.eventTime.parse = some dt ∧
      createAmbiguityCluster obs.id obs.instrumentId obs.amountMinor obs.direction obs.eventTime
        topScore (s.db.viable obs) (.quiet now) s = (.ok clusterId, s₁) ∧
      s'.db.clusters = s₁.db.clusters ∧ s'.db.clusterMembers = s₁.db.clusterMembers ∧
      s'.db.transactions = s₁.db.transactions := by
  cases ht : obs.eventTime.parse with
  | none =>
    obtain ⟨e, he⟩ := fetchAndReconcile_unparseable ht (.quiet now) s
    simp [he] at h
  | some dt =>
    rw [fetchAndReconcile_quiet ht] at h
    obtain ⟨t, -, hv⟩ | ⟨-, hv | ⟨t, -, score, -, -, hv⟩ | ⟨topScore, hv⟩⟩ :=
      s.db.verdict_cases obs <;> rw [hv] at h
    · exact absurd (autoMatch_effect h).1 (by simp)
    · exact absurd (newCanonical_ok h).1 (by simp)
    · exact absurd (autoMatch_effect h).1 (by simp)
    · obtain ⟨cid, s₁, h₁, h⟩ := Eff.bind_eq_ok.mp h
      obtain ⟨_, s₂, h₂, h⟩ := Eff.bind_eq_ok.mp h
      obtain ⟨hd, rfl⟩ := Prod.mk.inj h
      obtain rfl : cid = clusterId := by simpa using Except.ok.inj hd
      obtain ⟨r, D, -, -, -, -, hdb⟩ := (appendMatchDecision_decided h₂).row
      exact ⟨dt, topScore, s₁, rfl, h₁, by rw [hdb], by rw [hdb], by rw [hdb]⟩

omit [Extern] in
/-- The first two of three purchases are booked, the third is stored. -/
def beforeAmbiguity : Store Database :=
  letI := Extern.ascii
  runAll firstLedger (ambiguousRun.take 2 ++ [(1003, .ingest (purchase "o3" 1000 none) false)])

def dollars (row : TransactionObservationsRow) : TransactionObservationsRow :=
  { row with currency := some "USD" }

omit [Extern] in
/-- Three purchases in rupees, and as many for as many dollars; the last is stored. -/
def beforeDollars : Store Database :=
  letI := Extern.ascii
  runAll firstLedger (ambiguousRun ++
    [(1004, .ingest (dollars (purchase "o4" 1000 (some "UTR111"))) true),
      (1005, .ingest (dollars (purchase "o5" 1000 (some "IMPS999"))) true),
      (1006, .ingest (dollars (purchase "o6" 1000 none)) false)])

end Dinero
