import Dinero.Deletion
import Dinero.Layer6Replay
import Dinero.ReviewQueue
import Dinero.Runs
import Dinero.TransactionQueue

/-!
# Dinero.StatementRows

The rows of a statement on their way into the ledger.

Each row becomes an observation, and the observations are ingested one after the
other, each against what the ones before it left.  A row has a date but no time:
two equal purchases of one day have one fingerprint, and the second finds the
first.
-/

namespace Dinero

open Sql

variable [Extern]

/-! ## rows and their observations -/

/-- One extracted row, as the user may have edited it. -/
structure StatementRow where
  transactionDate : TimeText
  merchantRaw : String
  amountMinor : Int
  currency : String
  direction : String
  referenceId : Option String
  rowIndex : Nat
deriving DecidableEq, Repr

/-- Converts one statement row into a transaction observation. -/
def buildObservation (statementEntryId instrumentId : String) (row : StatementRow)
    (id : String) : IncomingObservation where
  id := id
  instrumentId := instrumentId
  amountMinor := row.amountMinor
  currency := row.currency
  direction := row.direction
  eventTime := row.transactionDate
  referenceId := row.referenceId
  merchantRaw := some row.merchantRaw
  sourcePipeline := "statement_pdf"
  sourceRecordId := statementEntryId
  emiTotalInstallments := none
  emiOriginalAmountMinor := none
  fingerprint := some (computeFingerprint instrumentId row.direction row.amountMinor
    (row.transactionDate.render ++ "T00:00") instrumentId)
  confidenceScore := none
  eventTimeConfidence := none
  channel := none

/-- Converts every row of a statement into observations, under the ids drawn from
`drawn` on. -/
def buildAllObservations (instrumentId : String) (rows : List StatementRow)
    (statementEntriesIds : List String) (drawn : Nat) : List IncomingObservation :=
  ((rows.zip statementEntriesIds).zipIdx drawn).map fun x =>
    buildObservation x.1.2 instrumentId x.1.1 (uuid x.2)

/-- The row `commit_staged_draft` stores for an observation. -/
def IncomingObservation.storedAs (statementId : String) (obs : IncomingObservation) :
    TransactionObservationsRow where
  id := obs.id
  canonicalTransactionId := none
  sourcePipeline := some obs.sourcePipeline
  sourceRecordId := some obs.sourceRecordId
  statementId := some statementId
  statementEntryId := some obs.sourceRecordId
  instrumentId := some obs.instrumentId
  direction := some obs.direction
  amountMinor := some obs.amountMinor
  currency := some obs.currency
  eventTime := obs.eventTime.parse
  eventTimeConfidence := obs.eventTimeConfidence
  merchantRaw := obs.merchantRaw
  referenceId := obs.referenceId
  fingerprint := obs.fingerprint
  confidenceScore := obs.confidenceScore
  emiTotalInstallments := obs.emiTotalInstallments
  emiOriginalAmountMinor := obs.emiOriginalAmountMinor
  channel := none
  isDeleted := false
  createdAt := none
  updatedAt := none

/-- What the engine makes of that row again. -/
def IncomingObservation.reread (statementId : String) (obs : IncomingObservation) :
    IncomingObservation :=
  incomingOf (obs.storedAs statementId) obs.instrumentId

/-- The observations of a statement, each to be ingested at its time. -/
def timed (clock : Nat → Int) (observations : List IncomingObservation) :
    List (Int × IncomingObservation) :=
  observations.zipIdx.map fun x => (clock x.2, x.1)

/-- Builds the observations of a statement and ingests them in order. -/
def ingestRows (clock : Nat → Int) (statementId instrumentId : String) (rows : List StatementRow)
    (statementEntriesIds : List String) (s : Store Database) : Store Database :=
  let observations := buildAllObservations instrumentId rows statementEntriesIds s.nextUuid
  runAll { s with nextUuid := s.nextUuid + observations.length }
    ((timed clock observations).map fun e => (e.1, .ingest (e.2.storedAs statementId) true))

/-! ## what is asked -/

/-- The transaction an observation is linked to. -/
def Database.linkOf (db : Database) (observationId : String) : Option String :=
  (db.observations.find? observationId).bind (·.canonicalTransactionId)

/-- The observation is linked, or waits in the review queue. -/
def Database.Accounted (db : Database) (observationId : String) : Prop :=
  db.linkOf observationId ≠ none ∨ db.Listed observationId

/-- The observations account for as many payments: each is linked or waits, and no two are
linked to one transaction. -/
structure Database.AccountsFor (db : Database) (ids : List String) : Prop where
  accounted : ∀ a ∈ ids, db.Accounted a
  apart : ∀ a ∈ ids, ∀ b ∈ ids, a ≠ b → ∀ c, db.linkOf a = some c → db.linkOf b ≠ some c

/-- The transaction `reconcile` matches the observation with: the one an equal fingerprint
leads to, or else the best candidate, when it is the only one or well ahead. -/
def Database.Matches (db : Database) (obs : IncomingObservation) (t : TransactionsRow) : Prop :=
  db.exactTarget obs = some t ∨
    db.exactTarget obs = none ∧ ∃ top rest, db.viable obs = top :: rest ∧
      db.transactions.find? top.candidateId = some t ∧
      ∀ second ∈ rest.head?, ambiguityMarginThreshold < top.score - second.score

theorem Database.verdict_target_iff {db : Database} {obs : IncomingObservation}
    {t : TransactionsRow} : (db.verdict obs).target = some t ↔ db.Matches obs t := by
  have hscored : ∀ top ∈ db.viable obs, (db.scoredVerdict top).target = some t ↔
      db.transactions.find? top.candidateId = some t := by
    intro top htop
    obtain ⟨t', -, hfind, -⟩ := find_of_mem_viable htop
    simp [scoredVerdict, hfind, Verdict.target]
  unfold verdict Matches
  cases hx : db.exactTarget obs with
  | some t' => simp [Verdict.target]
  | none =>
    rcases hv : db.viable obs with _ | ⟨top, _ | ⟨second, rest⟩⟩
    · simp [Verdict.target]
    · simp [hscored top (by simp [hv])]
    · have htop := hscored top (by simp [hv])
      by_cases hahead : ambiguityMarginThreshold < top.score - second.score
      · simp [hahead, htop]
      · simp [hahead, Verdict.target]

/-- Storing the observation itself does not change what it is matched with. -/
theorem Database.matches_insertObservation {db db' : Database}
    {row : TransactionObservationsRow} {u : Unit} (h : db.insertObservation row = .ok (u, db'))
    (instrumentId : String) (t : TransactionsRow) :
    db'.Matches (incomingOf row instrumentId) t ↔ db.Matches (incomingOf row instrumentId) t := by
  obtain ⟨-, -, -, T, hT, rfl⟩ := insertObservation_eq_ok.mp h
  have hhit : ∀ fp, ({ db with observations := T } : Database).fingerprintHit fp row.id =
      db.fingerprintHit fp row.id := by
    intro fp
    unfold fingerprintHit
    rw [Table.filter_insert? hT (by simp)]
  have hexact : ({ db with observations := T } : Database).exactTarget
      (incomingOf row instrumentId) = db.exactTarget (incomingOf row instrumentId) := by
    have hid : (incomingOf row instrumentId).id = row.id := rfl
    simp only [exactTarget, hid, hhit]
    rfl
  unfold Matches
  rw [hexact]
  rfl

/-! ## one row -/

/-- Nothing speaks of the observation yet. -/
structure Database.Unused (db : Database) (observationId : String) : Prop where
  observation : observationId ∉ db.observations.keys
  member : ∀ m ∈ db.clusterMembers, m.observationId ≠ some observationId

/-- What ingesting a row does about the links: it is matched, or gets a transaction of its
own, or is left for review. -/
inductive RowOutcome (db : Database) (obs : IncomingObservation) (db' : Database) : Prop
  | matched (t : TransactionsRow) (ht : t ∈ db.transactions) (hmatch : db.Matches obs t)
      (hlink : db'.linkOf obs.id = some t.id)
  | created (id : String) (hnone : ∀ t, ¬ db.Matches obs t) (hnew : id ∉ db.transactions.keys)
      (hkept : id ∈ db'.transactions.keys) (hlink : db'.linkOf obs.id = some id)
  | listed (hnone : ∀ t, ¬ db.Matches obs t) (hlink : db'.linkOf obs.id = none)
      (hlisted : db'.Listed obs.id)

/-- What it leaves alone. -/
structure RowFrame (obsId : String) (db db' : Database) : Prop where
  link : ∀ a, a ≠ obsId → db'.linkOf a = db.linkOf a
  listed : ∀ a, db.Listed a → db'.Listed a
  unused : ∀ a, a ≠ obsId → db.Unused a → db'.Unused a
  transactions : ∀ id ∈ db.transactions.keys, id ∈ db'.transactions.keys

omit [Extern] in
theorem RowFrame.trans {obsId : String} {a b c : Database} (h : RowFrame obsId a b)
    (h' : RowFrame obsId b c) : RowFrame obsId a c where
  link x hx := (h'.link x hx).trans (h.link x hx)
  listed x hx := h'.listed x (h.listed x hx)
  unused x hne hx := h'.unused x hne (h.unused x hne hx)
  transactions id hid := h'.transactions id (h.transactions id hid)

omit [Extern] in
theorem LinkedTo.keys {obsId id : String} {now : Int} {T : Table TransactionsRow}
    {db db' : Database} (h : LinkedTo obsId id now T db db') : db'.transactions.keys = T.keys := by
  have hids := congrArg (List.map (·.id)) h.settled
  rw [List.map_map, List.map_map] at hids
  exact hids

omit [Extern] in
theorem LinkedTo.rowFrame {obsId id : String} {now : Int} {T : Table TransactionsRow}
    {db db' : Database} (h : LinkedTo obsId id now T db db')
    (hT : ∀ k ∈ db.transactions.keys, k ∈ T.keys) : RowFrame obsId db db' where
  link a hne := by
    unfold Database.linkOf
    rw [h.observations, Table.find?_modify, if_neg hne]
  listed a ha := by
    unfold Database.Listed Database.Incoming Database.unresolvedClusters at ha ⊢
    rw [h.clusters, h.clusterMembers]
    exact ha
  unused a hne ha := by
    refine ⟨fun hmem => ha.observation ?_, fun m hm => ha.member m (h.clusterMembers ▸ hm)⟩
    rw [h.observations] at hmem
    simpa using hmem
  transactions k hk := by
    rw [h.keys]
    exact hT k hk

omit [Extern] in
theorem rowFrame_insertObservation {db db' : Database} {row : TransactionObservationsRow}
    {u : Unit} (h : db.insertObservation row = .ok (u, db')) : RowFrame row.id db db' := by
  obtain ⟨-, -, -, T, hT, rfl⟩ := Database.insertObservation_eq_ok.mp h
  refine ⟨fun a hne => ?_, fun _ ha => ha, fun a hne ha => ⟨fun hmem => ?_, ha.member⟩,
    fun _ hk => hk⟩
  · have hkey : a ≠ Keyed.key row := hne
    unfold Database.linkOf
    rw [Table.find?_insert? hT, if_neg hkey]
  · rcases (Table.mem_keys_of_insert? hT).mp hmem with hold | hnew
    · exact ha.observation hold
    · exact hne hnew

omit [Extern] in
/-- A row goes in with the link it has. -/
theorem Database.linkOf_insertObservation {db db' : Database} {row : TransactionObservationsRow}
    {u : Unit} (h : db.insertObservation row = .ok (u, db')) :
    db'.linkOf row.id = row.canonicalTransactionId := by
  obtain ⟨-, -, -, T, hT, rfl⟩ := insertObservation_eq_ok.mp h
  have hkey : Keyed.key row = row.id := rfl
  unfold linkOf
  rw [Table.find?_insert? hT, hkey, if_pos rfl, Option.bind_some]

omit [Extern] in
/-- Who joins a cluster is the observation itself, or a transaction. -/
theorem Raised.rowFrame {obs : IncomingObservation} {dt : Int} {viable : List ScoredCandidate}
    {db db' : Database} (h : Raised obs dt viable db db') : RowFrame obs.id db db' := by
  obtain ⟨hobs, htx, -, -⟩ := h.payments
  have hmember : ∀ m ∈ db'.clusterMembers, m ∈ db.clusterMembers ∨ m.observationId = none ∨
      m.observationId = some obs.id := by
    intro x hx
    cases h with
    | extend c m M _ _ hm hM hdb =>
      subst hdb
      rcases (Table.mem_of_insert? hM).mp hx with hold | rfl
      · exact .inl hold
      · exact .inr (.inr hm.observationId)
    | found c C m ms M _ _ _ hm hms _ hM hdb =>
      subst hdb
      rw [Table.mem_def, hM, List.mem_append, List.mem_cons] at hx
      rcases hx with hold | rfl | hnew
      · exact .inl hold
      · exact .inr (.inr hm.observationId)
      · exact .inr (.inl (hms x hnew).observationId)
  refine ⟨fun a _ => ?_, h.listed.1, fun a hne ha => ⟨?_, fun m hm heq => ?_⟩, fun k hk => ?_⟩
  · unfold Database.linkOf
    rw [hobs]
  · rw [hobs]
    exact ha.observation
  · rcases hmember m hm with hold | hnone | hown
    · exact ha.member m hold heq
    · rw [hnone] at heq
      cases heq
    · exact hne (Option.some.inj (heq.symm.trans hown))
  · rw [htx]
    exact hk

/-- A decision that was acted on, as a row's outcome. -/
theorem actOn_rowOutcome {obs : IncomingObservation} {dt now : Int} {d : DecisionType}
    {s s' : Store Database} (ht : obs.eventTime.parse = some dt)
    (hfree : s.db.linkOf obs.id = none)
    (h : actOn obs (s.db.verdict obs) (.quiet now) s = (.ok d, s')) :
    RowOutcome s.db obs s'.db ∧ RowFrame obs.id s.db s'.db := by
  have hnone : (s.db.verdict obs).target = none → ∀ t, ¬ s.db.Matches obs t := by
    intro hv t hm
    rw [Database.verdict_target_iff.mpr hm] at hv
    cases hv
  cases actOn_acted ht h with
  | merged _ t overwrite hmem hverdict _ hl _ =>
    refine ⟨.matched t hmem (Database.verdict_target_iff.mp hverdict) hl.link,
      hl.rowFrame fun k hk => ?_⟩
    simpa using hk
  | created id merchant T hT hl _ =>
    have hv : s.db.verdict obs = .newCanonical := actOn_newCanonical ht h
    have hnew : id ∉ s.db.transactions.keys := by
      intro hmem
      obtain ⟨r, hr, hk⟩ := Table.mem_keys.mp hmem
      exact (Table.insert?_eq_some.mp hT).1 r hr hk
    have hkeys : ∀ k, k ∈ T.keys ↔ k ∈ s.db.transactions.keys ∨ k = id :=
      fun k => Table.mem_keys_of_insert? hT
    refine ⟨.created id (hnone (by rw [hv]; rfl)) hnew ?_ hl.link,
      hl.rowFrame fun k hk => (hkeys k).mpr (.inl hk)⟩
    rw [hl.keys, hkeys]
    exact .inr rfl
  | raised clusterId db₁ D hraised hdb _ =>
    have hambiguous : (s.db.verdict obs).isAmbiguous = true :=
      (actOn_ambiguous_iff ht h).mpr ⟨clusterId, rfl⟩
    have htarget : (s.db.verdict obs).target = none := by
      cases hv : s.db.verdict obs with
      | ambiguous topScore viable => rfl
      | _ => simp [hv, Verdict.isAmbiguous] at hambiguous
    have hframe : RowFrame obs.id s.db s'.db := by
      have hf := hraised.rowFrame
      rw [hdb]
      exact ⟨hf.link, hf.listed, fun a hne ha => ⟨(hf.unused a hne ha).observation,
        (hf.unused a hne ha).member⟩, hf.transactions⟩
    refine ⟨.listed (hnone htarget) ?_ ?_, hframe⟩
    · unfold Database.linkOf at hfree ⊢
      rw [hdb]
      rwa [hraised.payments.1]
    · rw [hdb]
      exact hraised.listed.2

/-- A row it does not accept, or of no known time, changes nothing. -/
theorem ingest_refused {row : TransactionObservationsRow} {s : Store Database} (now : Int)
    (hinst : row.instrumentId ≠ none) (h : ¬ (s.db.Accepts row ∧ row.eventTime ≠ none)) :
    ((Op.ingest row true).run now s).db = s.db := by
  rcases Op.ingest_cases row true now s with
    hsame | ⟨_, _, hskip, _⟩ | ⟨db, instrumentId, dt, d, hins, _, _, htime, _⟩
  · exact hsame
  · rcases hskip with hfalse | hnone
    · cases hfalse
    · exact absurd hnone hinst
  · refine absurd ⟨Database.accepts_iff.mpr ⟨db, hins⟩, ?_⟩ h
    simp [htime]

/-- What ingesting a row does, from the tables before it was stored. -/
theorem ingest_rowOutcome {row : TransactionObservationsRow} {instrumentId : String} {dt : Int}
    {s : Store Database} (now : Int) (h : Fresh s) (hlink : row.canonicalTransactionId = none)
    (hinst : row.instrumentId = some instrumentId) (htime : row.eventTime = some dt)
    (haccepts : s.db.Accepts row) :
    RowOutcome s.db (incomingOf row instrumentId) ((Op.ingest row true).run now s).db ∧
      RowFrame row.id s.db ((Op.ingest row true).run now s).db := by
  obtain ⟨db, d, hins, hact⟩ := ingest_accepted now h hinst htime haccepts
  have hfree : db.linkOf row.id = none := (Database.linkOf_insertObservation hins).trans hlink
  have hparse : (incomingOf row instrumentId).eventTime.parse = some dt := by
    simp [incomingOf, htime]
  obtain ⟨houtcome, hframe⟩ := actOn_rowOutcome (s := { s with db := db }) hparse hfree hact
  have htx : db.transactions = s.db.transactions := by
    obtain ⟨-, -, -, T, -, rfl⟩ := Database.insertObservation_eq_ok.mp hins
    rfl
  have hmatches := Database.matches_insertObservation hins instrumentId
  refine ⟨?_, (rowFrame_insertObservation hins).trans hframe⟩
  cases houtcome with
  | matched t ht hmatch hown => exact .matched t (htx ▸ ht) ((hmatches t).mp hmatch) hown
  | created id hnone hnew hkept hown =>
    exact .created id (fun t hm => hnone t ((hmatches t).mpr hm)) (htx ▸ hnew) hkept hown
  | listed hnone hown hlisted =>
    exact .listed (fun t hm => hnone t ((hmatches t).mpr hm)) hown hlisted

/-! ## the rows of a statement -/

/-- The ledger, and the observations ingested so far. -/
structure RowRun where
  ledger : Store Database
  done : List String

def ingestRow (statementId : String) (r : RowRun) (e : Int × IncomingObservation) : RowRun :=
  ⟨(Op.ingest (e.2.storedAs statementId) true).run e.1 r.ledger, e.2.id :: r.done⟩

/-- The row is accepted when its turn comes, its date can be read, and it is not matched with
a transaction that an earlier row of the statement is linked to. -/
structure RowSound (statementId : String) (r : RowRun) (e : Int × IncomingObservation) :
    Prop where
  accepted : r.ledger.db.Accepts (e.2.storedAs statementId)
  dated : e.2.eventTime.parse ≠ none
  untaken : ∀ t ∈ r.ledger.db.transactions, r.ledger.db.Matches (e.2.reread statementId) t →
    ∀ a ∈ r.done, r.ledger.db.linkOf a ≠ some t.id

/-- The state between two rows, with the rows to come. -/
structure RowRun.Ready (r : RowRun) (es : List (Int × IncomingObservation)) : Prop where
  fresh : Fresh r.ledger
  distinct : (es.map (·.2.id)).Nodup
  unused : ∀ e ∈ es, r.ledger.db.Unused e.2.id ∧ e.2.id ∉ r.done
  linked : ∀ a ∈ r.done, ∀ c, r.ledger.db.linkOf a = some c → c ∈ r.ledger.db.transactions.keys
  known : ∀ a ∈ r.done, r.ledger.db.Accounted a ∨ r.ledger.db.Unused a

omit [Extern] in
theorem Database.Unused.linkOf {db : Database} {a : String} (h : db.Unused a) :
    db.linkOf a = none := by
  have hfind : db.observations.find? a = none := by
    rw [Table.find?_eq_none]
    exact fun r hr hk => h.observation (Table.mem_keys.mpr ⟨r, hr, hk⟩)
  rw [Database.linkOf, hfind]
  rfl

omit [Extern] in
theorem Database.Unused.not_accounted {db : Database} {a : String} (h : db.Unused a) :
    ¬ db.Accounted a := by
  rintro (hlinked | ⟨c, -, m, hm, -, hobs, -⟩)
  · exact hlinked h.linkOf
  · exact h.member m hm hobs

omit [Extern] in
theorem RowFrame.accounted {obsId a : String} {db db' : Database} (h : RowFrame obsId db db')
    (hne : a ≠ obsId) (ha : db.Accounted a) : db'.Accounted a := by
  rcases ha with hlink | hlisted
  · exact .inl (by rwa [h.link a hne])
  · exact .inr (h.listed a hlisted)

omit [Extern] in
/-- One more observation accounts for one more payment when it is linked to nothing the
others are linked to, or waits. -/
theorem accountsFor_cons {obsId : String} {ids : List String} {db db' : Database}
    (h : RowFrame obsId db db') (hnew : obsId ∉ ids)
    (hknown : ∀ a ∈ ids, db.Accounted a ∨ db.Unused a) :
    db'.AccountsFor (obsId :: ids) ↔ db.AccountsFor ids ∧ db'.Accounted obsId ∧
      ∀ c, db'.linkOf obsId = some c → ∀ a ∈ ids, db.linkOf a ≠ some c := by
  have hne : ∀ a ∈ ids, a ≠ obsId := fun a ha heq => hnew (heq ▸ ha)
  constructor
  · intro hall
    refine ⟨⟨fun a ha => ?_, fun a ha b hb hab c hc => ?_⟩, hall.accounted _ (by simp),
      fun c hc a ha => ?_⟩
    · rcases hknown a ha with hacc | hunused
      · exact hacc
      · exact absurd (hall.accounted a (by simp [ha])) (h.unused a (hne a ha) hunused).not_accounted
    · rw [← h.link b (hne b hb)]
      rw [← h.link a (hne a ha)] at hc
      exact hall.apart a (by simp [ha]) b (by simp [hb]) hab c hc
    · rw [← h.link a (hne a ha)]
      exact hall.apart obsId (by simp) a (by simp [ha]) (hne a ha).symm c hc
  · rintro ⟨hold, hacc, hown⟩
    have hlink : ∀ a ∈ ids, db'.linkOf a = db.linkOf a := fun a ha => h.link a (hne a ha)
    refine ⟨fun a ha => ?_, fun a ha b hb hab c hc => ?_⟩
    · rcases List.mem_cons.mp ha with rfl | ha
      · exact hacc
      · exact h.accounted (hne a ha) (hold.accounted a ha)
    · rcases List.mem_cons.mp ha with rfl | ha' <;> rcases List.mem_cons.mp hb with rfl | hb'
      · exact absurd rfl hab
      · rw [hlink b hb']
        exact hown c hc b hb'
      · intro hown'
        rw [hlink a ha'] at hc
        exact hown c hown' a ha' hc
      · rw [hlink a ha'] at hc
        rw [hlink b hb']
        exact hold.apart a ha' b hb' hab c hc

theorem RowOutcome.accounted {obs : IncomingObservation} {db db' : Database}
    (h : RowOutcome db obs db') : db'.Accounted obs.id := by
  cases h with
  | matched t _ _ hlink => exact .inl (by simp [hlink])
  | created id _ _ _ hlink => exact .inl (by simp [hlink])
  | listed _ _ hlisted => exact .inr hlisted

/-- The outcome of a row, for the count. -/
theorem RowOutcome.accounted_iff {obs : IncomingObservation} {ids : List String}
    {db db' : Database} (h : RowOutcome db obs db')
    (hlinked : ∀ a ∈ ids, ∀ c, db.linkOf a = some c → c ∈ db.transactions.keys) :
    (db'.Accounted obs.id ∧
      ∀ c, db'.linkOf obs.id = some c → ∀ a ∈ ids, db.linkOf a ≠ some c) ↔
    ∀ t ∈ db.transactions, db.Matches obs t → ∀ a ∈ ids, db.linkOf a ≠ some t.id := by
  have hacc : db'.Accounted obs.id := h.accounted
  cases h with
  | matched t ht hmatch hlink =>
    have honly : ∀ t', db.Matches obs t' → t' = t := by
      intro t' hmatch'
      rw [← Database.verdict_target_iff] at hmatch hmatch'
      exact Option.some.inj (hmatch'.symm.trans hmatch)
    constructor
    · rintro ⟨-, hown⟩ t' - hmatch'
      rw [honly t' hmatch']
      exact hown t.id hlink
    · intro hall
      refine ⟨hacc, fun c hc => ?_⟩
      rw [hlink] at hc
      obtain rfl := Option.some.inj hc
      exact hall t ht hmatch
  | created id hnone hnew _ hlink =>
    refine iff_of_true ⟨hacc, fun c hc a ha hlink' => ?_⟩ fun t _ hmatch => absurd hmatch (hnone t)
    rw [hlink] at hc
    obtain rfl := Option.some.inj hc
    exact hnew (hlinked a ha _ hlink')
  | listed hnone hlink hlisted =>
    refine iff_of_true ⟨hacc, fun c hc => ?_⟩ fun t _ hmatch => absurd hmatch (hnone t)
    rw [hlink] at hc
    cases hc

theorem RowOutcome.linked {obs : IncomingObservation} {db db' : Database}
    (h : RowOutcome db obs db') (hkeys : ∀ k ∈ db.transactions.keys, k ∈ db'.transactions.keys)
    {c : String} (hc : db'.linkOf obs.id = some c) : c ∈ db'.transactions.keys := by
  cases h with
  | matched t ht _ hlink =>
    rw [hlink] at hc
    obtain rfl := Option.some.inj hc
    exact hkeys _ (Table.mem_keys.mpr ⟨t, ht, rfl⟩)
  | created id _ _ hkept hlink =>
    rw [hlink] at hc
    obtain rfl := Option.some.inj hc
    exact hkept
  | listed _ hlink _ =>
    rw [hlink] at hc
    cases hc

/-- **One row.** -/
theorem ingestRow_step {statementId : String} {r : RowRun} {e : Int × IncomingObservation}
    {es : List (Int × IncomingObservation)} (h : r.Ready (e :: es)) :
    (ingestRow statementId r e).Ready es ∧
      ((ingestRow statementId r e).ledger.db.AccountsFor (ingestRow statementId r e).done ↔
        r.ledger.db.AccountsFor r.done ∧ RowSound statementId r e) := by
  obtain ⟨hhead, hrest⟩ := List.nodup_cons.mp h.distinct
  obtain ⟨hunused, hnew⟩ := h.unused e (by simp)
  have hne : ∀ e' ∈ es, e'.2.id ≠ e.2.id := by
    intro e' he' heq
    exact hhead (List.mem_map.mpr ⟨e', he', heq⟩)
  have hfresh : Fresh (ingestRow statementId r e).ledger := Op.run_fresh h.fresh e.1 _
  by_cases hok : r.ledger.db.Accepts (e.2.storedAs statementId) ∧ e.2.eventTime.parse ≠ none
  · obtain ⟨dt, hdt⟩ := Option.ne_none_iff_exists'.mp hok.2
    obtain ⟨houtcome, hframe⟩ : RowOutcome r.ledger.db (e.2.reread statementId)
        (ingestRow statementId r e).ledger.db ∧
        RowFrame e.2.id r.ledger.db (ingestRow statementId r e).ledger.db :=
      ingest_rowOutcome e.1 h.fresh rfl rfl hdt hok.1
    have hacc : (ingestRow statementId r e).ledger.db.Accounted e.2.id := houtcome.accounted
    have hdone : (ingestRow statementId r e).done = e.2.id :: r.done := rfl
    have hiff : (ingestRow statementId r e).ledger.db.Accounted e.2.id ∧
        (∀ c, (ingestRow statementId r e).ledger.db.linkOf e.2.id = some c →
          ∀ a ∈ r.done, r.ledger.db.linkOf a ≠ some c) ↔
        ∀ t ∈ r.ledger.db.transactions, r.ledger.db.Matches (e.2.reread statementId) t →
          ∀ a ∈ r.done, r.ledger.db.linkOf a ≠ some t.id := houtcome.accounted_iff h.linked
    refine ⟨⟨hfresh, hrest, fun e' he' => ?_, fun a ha c hc => ?_, fun a ha => ?_⟩, ?_⟩
    · obtain ⟨hunused', hnew'⟩ := h.unused e' (by simp [he'])
      exact ⟨hframe.unused _ (hne e' he') hunused', by simp [ingestRow, hne e' he', hnew']⟩
    · rcases List.mem_cons.mp ha with rfl | ha
      · exact houtcome.linked hframe.transactions hc
      · have hne' : a ≠ e.2.id := fun heq => hnew (heq ▸ ha)
        rw [hframe.link a hne'] at hc
        exact hframe.transactions c (h.linked a ha c hc)
    · rcases List.mem_cons.mp ha with rfl | ha
      · exact .inl hacc
      · have hne' : a ≠ e.2.id := fun heq => hnew (heq ▸ ha)
        rcases h.known a ha with hknown | hknown
        · exact .inl (hframe.accounted hne' hknown)
        · exact .inr (hframe.unused a hne' hknown)
    · rw [hdone, accountsFor_cons hframe hnew h.known, hiff]
      constructor
      · rintro ⟨hold, huntaken⟩
        exact ⟨hold, hok.1, hok.2, huntaken⟩
      · rintro ⟨hold, hsound⟩
        exact ⟨hold, hsound.untaken⟩
  · have hsame : (ingestRow statementId r e).ledger.db = r.ledger.db :=
      ingest_refused e.1 (by simp [IncomingObservation.storedAs]) hok
    refine ⟨⟨hfresh, hrest, fun e' he' => ?_, fun a ha c hc => ?_, fun a ha => ?_⟩, ?_⟩
    · obtain ⟨hunused', hnew'⟩ := h.unused e' (by simp [he'])
      rw [hsame]
      exact ⟨hunused', by simp [ingestRow, hne e' he', hnew']⟩
    · rw [hsame] at hc ⊢
      rcases List.mem_cons.mp ha with rfl | ha
      · rw [hunused.linkOf] at hc
        cases hc
      · exact h.linked a ha c hc
    · rw [hsame]
      rcases List.mem_cons.mp ha with rfl | ha
      · exact .inr hunused
      · exact h.known a ha
    · rw [hsame]
      refine iff_of_false (fun hall => ?_) fun hboth => hok ⟨hboth.2.accepted, hboth.2.dated⟩
      exact hunused.not_accounted (hall.accounted e.2.id (by simp [ingestRow]))

/-! ## the statement as a whole -/

theorem foldl_ingestRow (statementId : String) (es : List (Int × IncomingObservation))
    (r : RowRun) : (es.foldl (ingestRow statementId) r).ledger =
      runAll r.ledger (es.map fun e => (e.1, .ingest (e.2.storedAs statementId) true)) := by
  induction es generalizing r with
  | nil => rfl
  | cons e es ih => exact ih _

theorem mem_done_foldl (statementId : String) (es : List (Int × IncomingObservation))
    (r : RowRun) (a : String) : a ∈ (es.foldl (ingestRow statementId) r).done ↔
      a ∈ r.done ∨ a ∈ es.map (·.2.id) := by
  induction es generalizing r with
  | nil => simp
  | cons e es ih =>
    rw [List.foldl_cons, ih]
    simp only [ingestRow, List.mem_cons, List.map_cons]
    tauto

omit [Extern] in
theorem accountsFor_congr {db : Database} {ids ids' : List String} (h : ∀ a, a ∈ ids ↔ a ∈ ids') :
    db.AccountsFor ids ↔ db.AccountsFor ids' := by
  have hset : ∀ {l l' : List String}, (∀ a, a ∈ l' → a ∈ l) → db.AccountsFor l →
      db.AccountsFor l' := fun hsub hall =>
    ⟨fun a ha => hall.accounted a (hsub a ha),
      fun a ha b hb => hall.apart a (hsub a ha) b (hsub b hb)⟩
  exact ⟨hset fun a => (h a).mpr, hset fun a => (h a).mp⟩

omit [Extern] in
theorem timed_ids (clock : Nat → Int) (observations : List IncomingObservation) :
    (timed clock observations).map (·.2.id) = observations.map (·.id) := by
  have hfst : observations.zipIdx.map (fun x => x.1.id) =
      (observations.zipIdx.map Prod.fst).map (·.id) := by
    rw [List.map_map]
    rfl
  rw [timed, List.map_map]
  exact hfst.trans (by rw [List.zipIdx_map_fst])

/-- The ids of the observations: those drawn. -/
theorem buildAllObservations_ids (instrumentId : String) (rows : List StatementRow)
    (statementEntriesIds : List String) (drawn : Nat) :
    (buildAllObservations instrumentId rows statementEntriesIds drawn).map (·.id) =
      (List.range' drawn (rows.zip statementEntriesIds).length).map uuid := by
  rw [← List.zipIdx_map_snd, List.map_map, buildAllObservations, List.map_map]
  rfl

instance (db : Database) (row : TransactionObservationsRow) : Decidable (db.Accepts row) :=
  decidable_of_iff ((db.insertObservation row).toOption.isSome = true) (by
    rw [Database.accepts_iff]
    rcases db.insertObservation row with e | ⟨u, db'⟩ <;> simp [Except.toOption])

instance (db : Database) (obs : IncomingObservation) (t : TransactionsRow) :
    Decidable (db.Matches obs t) := decidable_of_iff _ Database.verdict_target_iff

instance (statementId : String) (r : RowRun) (e : Int × IncomingObservation) :
    Decidable (RowSound statementId r e) :=
  decidable_of_iff (r.ledger.db.Accepts (e.2.storedAs statementId) ∧ e.2.eventTime.parse ≠ none ∧
      ∀ t ∈ r.ledger.db.transactions, r.ledger.db.Matches (e.2.reread statementId) t →
        ∀ a ∈ r.done, r.ledger.db.linkOf a ≠ some t.id)
    ⟨fun ⟨h₁, h₂, h₃⟩ => ⟨h₁, h₂, h₃⟩, fun ⟨h₁, h₂, h₃⟩ => ⟨h₁, h₂, h₃⟩⟩

/-- The first ledger, with a statement of two entries. -/
def statementLedger : Store Database :=
  { firstLedger with
    db := { firstLedger.db with statements := ["s"], statementEntries := ["e1", "e2"] } }

/-- A purchase on the statement, on the tenth day. -/
def lunch (amountMinor : Int) (rowIndex : Nat) : StatementRow :=
  ⟨.date 10, "ZOMATO", amountMinor, "INR", "debit", none, rowIndex⟩

theorem unused_statementLedger (k : Nat) : statementLedger.db.Unused (uuid k) where
  observation := by simp [statementLedger, firstLedger, Table.keys, Table.empty]
  member m hm := absurd hm (Table.not_mem_empty m)

end Dinero
