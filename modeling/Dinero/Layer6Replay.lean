import Dinero.Layer6

/-!
# Dinero.Layer6Replay

A Layer 6 job over crashes and restarts: between any two statements the process
may stop, and as long as the job is persisted it is run again, with another
answer of the model perhaps.

A link is made once and stays, and with it the one transaction the job may
create.  What a replay can undo is the review queue's view: an observation left
to the user before the crash may be linked after it (`Layer6Event.Sound`).
-/

namespace Dinero

open Sql

variable [Extern]

/-! ## runs -/

/-- The intake, and the job being run, if one is. -/
structure Layer6Life where
  intake : Intake
  stage : Layer6Stage := .ended

inductive Layer6Event
  /-- The job is taken up, for the first time or again, and the model answers. -/
  | start (outcome : Layer6Outcome)
  | step (now : Int)
  | crash

variable (job : Layer6Job) (env : Layer6Env)

def Layer6Event.apply (l : Layer6Life) : Layer6Event → Layer6Life
  | .start outcome =>
    if l.stage = .ended ∧ l.intake.layer6Jobs.contains job.unassignedId = true then
      { l with stage := .answered outcome }
    else l
  | .step now =>
    let r := job.step env now l.intake l.stage
    ⟨r.1, r.2⟩
  | .crash => { l with stage := .ended }

def runLayer6 (l : Layer6Life) (es : List Layer6Event) : Layer6Life :=
  es.foldl (Layer6Event.apply job env) l

/-! ## what is asked of a run -/

/-- The observation waits in an open cluster. -/
def Database.InOpenCluster (db : Database) (observationId : String) : Prop :=
  ∃ m ∈ db.clusterMembers, m.observationId = some observationId ∧
    ∃ c ∈ db.clusters, c.id = m.clusterId ∧ c.clusterStatus = .open

/-- The observation is linked to a transaction that is not deleted. -/
def Database.LinkedLive (db : Database) (observationId : String) : Prop :=
  ∃ o ∈ db.observations, o.id = observationId ∧
    ∃ t ∈ db.transactions, o.canonicalTransactionId = some t.id ∧ t.isDeleted = false

instance (db : Database) (observationId : String) : Decidable (db.InOpenCluster observationId) :=
  inferInstanceAs (Decidable (∃ m ∈ db.clusterMembers, _))

instance (db : Database) (observationId : String) : Decidable (db.LinkedLive observationId) :=
  inferInstanceAs (Decidable (∃ o ∈ db.observations, _))

/-- Over the run, a link once made is not replaced; at its end, at most one transaction is
new, and the observation is not both booked and waiting. -/
structure AtMostOnce (l : Layer6Life) (es : List Layer6Event) : Prop where
  link : ∀ pre post c, es = pre ++ post →
    (runLayer6 job env l pre).intake.linkOf job.observationId = some c →
      (runLayer6 job env l es).intake.linkOf job.observationId = some c
  created : ∀ t ∈ (runLayer6 job env l es).intake.ledger.db.transactions,
    ∀ t' ∈ (runLayer6 job env l es).intake.ledger.db.transactions,
      t.id ∉ l.intake.ledger.db.transactions.keys →
        t'.id ∉ l.intake.ledger.db.transactions.keys → t = t'
  apart : ¬ ((runLayer6 job env l es).intake.ledger.db.LinkedLive job.observationId ∧
    (runLayer6 job env l es).intake.ledger.db.InOpenCluster job.observationId)

/-- A step that would put the row into the ledger finds it in no open cluster, or finds
the choice as open as before. -/
def Layer6Event.Sound (l : Layer6Life) : Layer6Event → Prop
  | .step _ =>
    match l.stage with
    | .written row =>
      ∀ instrumentId ∈ readyInstrument row, row.eventTime ≠ none →
        l.intake.ledger.db.InOpenCluster job.observationId →
          (l.intake.ledger.db.verdict (layer6Incoming row instrumentId)).isAmbiguous = true
    | _ => True
  | _ => True

instance decidableSoundLayer6Event (l : Layer6Life) (e : Layer6Event) :
    Decidable (e.Sound job l) := by
  unfold Layer6Event.Sound
  split
  · split <;> infer_instance
  · infer_instance

/-- Every event of the run meets its condition. -/
def SoundLayer6 (l : Layer6Life) : List Layer6Event → Prop
  | [] => True
  | e :: es => e.Sound job l ∧ SoundLayer6 (e.apply job env l) es

instance decidableSoundLayer6 : (es : List Layer6Event) → (l : Layer6Life) →
    Decidable (SoundLayer6 job env l es)
  | [], _ => isTrue trivial
  | e :: es, l =>
    have := decidableSoundLayer6 es (e.apply job env l)
    inferInstanceAs (Decidable (e.Sound job l ∧ SoundLayer6 job env (e.apply job env l) es))

/-! ## what a run keeps -/

variable {job env}

/-- The row stands for the job's observation, which is stored and not linked. -/
structure TransactionObservationsRow.Pending (row : TransactionObservationsRow) (job : Layer6Job)
    (db : Database) : Prop where
  id : row.id = job.observationId
  unlinked : row.canonicalTransactionId = none
  live : row.isDeleted = false
  stored : ∃ o, db.getObservation job.observationId = some o ∧ o.canonicalTransactionId = none

/-- What the stages remember of the tables. -/
def Layer6Stage.Agrees (job : Layer6Job) (db : Database) : Layer6Stage → Prop
  | .enriched row _ => row.Pending job db
  | .attributed row | .written row => row.Pending job db ∧
      ∀ id ∈ row.instrumentId, db.instruments.contains id = true
  | _ => True

/-- The state of a run: the transactions are those of before, and one that the observation
is linked to; a booked observation waits in no cluster. -/
structure Layer6Life.Consistent (job : Layer6Job) (keys : List String) (l : Layer6Life) : Prop where
  fresh : Fresh l.intake.ledger
  agrees : l.stage.Agrees job l.intake.ledger.db
  created : ∀ t ∈ l.intake.ledger.db.transactions, t.id ∉ keys →
    l.intake.linkOf job.observationId = some t.id
  apart : ¬ (l.intake.ledger.db.LinkedLive job.observationId ∧
    l.intake.ledger.db.InOpenCluster job.observationId)

omit [Extern] in
theorem Database.LinkedLive.link {db : Database} {id : String} (h : db.LinkedLive id) :
    (db.observations.find? id).bind (·.canonicalTransactionId) ≠ none := by
  obtain ⟨o, ho, hid, t, -, hlink, -⟩ := h
  have hfind : db.observations.find? id = some o := Table.find?_eq_some.mpr ⟨ho, hid⟩
  rw [hfind]
  simp [hlink]

omit [Extern] in
/-- The link of a pending observation. -/
theorem TransactionObservationsRow.Pending.linkOf {row : TransactionObservationsRow}
    {w : Intake} (h : row.Pending job w.ledger.db) : w.linkOf job.observationId = none := by
  obtain ⟨o, ho, hlink⟩ := h.stored
  rw [Intake.linkOf, (getObservation_eq_some ho).1]
  exact hlink

/-! ## reconciling, in this state -/

/-- A decision that is not left to the user links the observation to a live transaction. -/
theorem Acted.linkedLive {obs : IncomingObservation} {dt now : Int} {db db' : Database}
    {d : DecisionType} (h : Acted obs dt now db db' d) (hd : ∀ c, d ≠ .ambiguousPending c) :
    db'.LinkedLive obs.id := by
  have hlive : ∀ {id : String} {T : Table TransactionsRow}, LinkedTo obs.id id now T db db' →
      (∃ t ∈ T, t.id = id ∧ t.isDeleted = false) → db'.LinkedLive obs.id := by
    rintro id T hl ⟨t, ht, rfl, hdel⟩
    obtain ⟨o, ho, hlink⟩ := Option.bind_eq_some_iff.mp hl.link
    obtain ⟨hmem, hid⟩ := Table.find?_eq_some.mp ho
    obtain ⟨t', ht', heq⟩ := Table.exists_of_map_eq hl.settled.symm ht
    have hid' : t'.id = t.id := (congrArg TransactionsRow.id heq :)
    have hdel' : t'.isDeleted = t.isDeleted := (congrArg TransactionsRow.isDeleted heq :)
    exact ⟨o, hmem, hid, t', ht', hid' ▸ hlink, hdel'.trans hdel⟩
  cases h with
  | merged _ t overwrite ht hverdict _ hl _ =>
    refine hlive hl ⟨_, Table.mem_modify_of_mem ht rfl, ?_, ?_⟩
    · exact Patch.key_run _ t
    · rw [mergePatch_isDeleted]
      exact (Database.verdict_target hverdict).2.1
  | created id merchant T hT hl _ =>
    exact hlive hl ⟨_, (Table.mem_of_insert? hT).mpr (.inr rfl), rfl, rfl⟩
  | raised clusterId _ _ _ _ _ => exact absurd rfl (hd clusterId)

/-- The answer tells whether the choice was left to the user. -/
theorem actOn_ambiguous_iff {obs : IncomingObservation} {dt : Int} {v : Verdict} {ctx : Ctx Stmt}
    {d : DecisionType} {s s' : Store Database} (ht : obs.eventTime.parse = some dt)
    (h : actOn obs v ctx s = (.ok d, s')) :
    v.isAmbiguous = true ↔ ∃ c, d = .ambiguousPending c := by
  cases v with
  | exact t =>
    rw [(autoMatch_steps h).1]
    simp [Verdict.isAmbiguous]
  | scored t score =>
    rw [(autoMatch_steps h).1]
    simp [Verdict.isAmbiguous]
  | newCanonical =>
    rw [(newCanonical_ok h).1]
    simp [Verdict.isAmbiguous]
  | ambiguous topScore viable =>
    obtain ⟨clusterId, _, hd, -⟩ := raiseCluster_ok ht h
    simp [Verdict.isAmbiguous, hd]

theorem fetchAndReconcile_ambiguous_iff {obs : IncomingObservation} {now : Int}
    {d : DecisionType} {s s' : Store Database}
    (h : fetchAndReconcile obs (.quiet now) s = (.ok d, s')) :
    (s.db.verdict obs).isAmbiguous = true ↔ ∃ c, d = .ambiguousPending c := by
  obtain ⟨dt, hdt, -⟩ := fetchAndReconcile_acted h
  rw [fetchAndReconcile_quiet hdt] at h
  exact actOn_ambiguous_iff hdt h

theorem reconcileOn_ambiguous_iff {obs : IncomingObservation} {now : Int} {d : DecisionType}
    {s s' : Store Database} (h : reconcileOn obs now s = (.ok d, s')) :
    (s.db.verdict obs).isAmbiguous = true ↔ ∃ c, d = .ambiguousPending c := by
  rw [reconcileOn_eq] at h
  rcases hrun : fetchAndReconcile obs (.quiet now) s with ⟨e | decision, s₁⟩
  · rw [hrun] at h
    cases h
  · rw [hrun] at h
    obtain ⟨hd, rfl⟩ := Prod.mk.inj h
    obtain rfl := Except.ok.inj hd
    exact fetchAndReconcile_ambiguous_iff hrun

/-- What reconciling does to links, transactions and clusters: either the choice is left to
the user, or the observation is linked, to the one transaction that may be new. -/
theorem Acted.booked {obs : IncomingObservation} {dt now : Int} {db db' : Database}
    {d : DecisionType} (h : Acted obs dt now db db' d) :
    ((∃ c, d = .ambiguousPending c) ∧ db'.observations = db.observations ∧
      db'.transactions = db.transactions) ∨
    ((∀ c, d ≠ .ambiguousPending c) ∧
      (db'.InOpenCluster obs.id ↔ db.InOpenCluster obs.id) ∧
      ∃ id, (db'.observations.find? obs.id).bind (·.canonicalTransactionId) = some id ∧
        ∀ t ∈ db'.transactions, t.id = id ∨ ∃ t₀ ∈ db.transactions, t₀.id = t.id) := by
  have hsame : ∀ {id : String} {T : Table TransactionsRow}, LinkedTo obs.id id now T db db' →
      (db'.InOpenCluster obs.id ↔ db.InOpenCluster obs.id) := by
    intro id T hl
    unfold Database.InOpenCluster
    rw [hl.clusters, hl.clusterMembers]
  cases h with
  | merged _ t overwrite ht _ htarget hl _ =>
    have hd : ∀ c, d ≠ .ambiguousPending c := by
      intro c hc
      rcases htarget with ⟨h, -⟩ | ⟨h, -⟩
      · exact DecisionType.noConfusion (h.symm.trans hc)
      · exact DecisionType.noConfusion (h.symm.trans hc)
    refine .inr ⟨hd, hsame hl, t.id, hl.link, ?_⟩
    intro t' ht'
    obtain ⟨t₁, ht₁, heq⟩ := Table.exists_of_map_eq hl.settled ht'
    have hid : t₁.id = t'.id := (congrArg TransactionsRow.id heq :)
    obtain ⟨t₀, ht₀, rfl⟩ := Table.mem_modify.mp ht₁
    refine .inr ⟨t₀, ht₀, ?_⟩
    rw [← hid]
    split
    · exact (Patch.key_run _ t₀).symm
    · rfl
  | created id merchant T hT hl _ =>
    refine .inr ⟨fun c hc => DecisionType.noConfusion hc, hsame hl, id, hl.link, ?_⟩
    intro t' ht'
    obtain ⟨t₁, ht₁, heq⟩ := Table.exists_of_map_eq hl.settled ht'
    have hid : t₁.id = t'.id := (congrArg TransactionsRow.id heq :)
    rcases (Table.mem_of_insert? hT).mp ht₁ with hold | rfl
    · exact .inr ⟨t₁, hold, hid⟩
    · exact .inl hid.symm
  | raised clusterId db₁ D hraised hdb _ =>
    obtain ⟨hobs, htx, -, -⟩ := hraised.payments
    rw [hdb]
    exact .inl ⟨⟨clusterId, rfl⟩, hobs, htx⟩

theorem fresh_reconcileOn {obs : IncomingObservation} {now : Int} {s : Store Database}
    (h : Fresh s) : Fresh (reconcileOn obs now s).2 := by
  have hkeeps : Fresh (fetchAndReconcile obs (.quiet now) s).2 :=
    keeps_fetchAndReconcile obs (.quiet now) s h
  have hle := nextUuid_le_of_keeps (fun _ => keeps_fetchAndReconcile obs) h (.quiet now)
  rw [reconcileOn_eq]
  rcases hrun : fetchAndReconcile obs (.quiet now) s with ⟨e | decision, s'⟩
  · rw [hrun] at hle
    exact ⟨fun k hk => h.1 k (Nat.le_trans hle hk), by simp⟩
  · rw [hrun] at hkeeps
    exact hkeeps

/-! ## one step of the job -/

variable {keys : List String} {l : Layer6Life}

/-- A step that leaves the ledger alone. -/
theorem Layer6Life.Consistent.of_ledger (h : l.Consistent job keys) {w : Intake}
    {stage : Layer6Stage} (hledger : w.ledger = l.intake.ledger)
    (hstage : stage.Agrees job l.intake.ledger.db) :
    Layer6Life.Consistent job keys ⟨w, stage⟩ := by
  have hlink : w.linkOf job.observationId = l.intake.linkOf job.observationId := by
    unfold Intake.linkOf
    rw [hledger]
  refine ⟨hledger ▸ h.fresh, hledger ▸ hstage, ?_, hledger ▸ h.apart⟩
  intro t ht hnew
  dsimp only at ht ⊢
  rw [hlink]
  exact h.created t (hledger ▸ ht) hnew

/-- As long as the observation is pending, the transactions are those of before. -/
theorem Layer6Life.Consistent.mem_keys (h : l.Consistent job keys)
    {row : TransactionObservationsRow} (hrow : row.Pending job l.intake.ledger.db)
    {t : TransactionsRow} (ht : t ∈ l.intake.ledger.db.transactions) : t.id ∈ keys := by
  by_contra hnew
  have hlink := h.created t ht hnew
  rw [hrow.linkOf] at hlink
  cases hlink

/-- A step that leaves the observation unlinked, and the transactions alone. -/
theorem Layer6Life.Consistent.of_unlinked (h : l.Consistent job keys)
    {row : TransactionObservationsRow} (hrow : row.Pending job l.intake.ledger.db)
    {ledger : Store Database} {stage : Layer6Stage} (hfresh : Fresh ledger)
    (htx : ledger.db.transactions = l.intake.ledger.db.transactions)
    (hlink : (ledger.db.observations.find? job.observationId).bind (·.canonicalTransactionId) =
      none)
    (hstage : stage.Agrees job ledger.db) :
    Layer6Life.Consistent job keys ⟨{ l.intake with ledger }, stage⟩ := by
  refine ⟨hfresh, hstage, ?_, fun hboth => hboth.1.link hlink⟩
  intro t ht hnew
  have ht' : t ∈ l.intake.ledger.db.transactions := htx ▸ ht
  exact absurd (h.mem_keys hrow ht') hnew

omit [Extern] in
theorem attempt_ledger (w : Intake) (r : Except SqlError Entries) (next : Layer6Stage) :
    (w.try r next).1.ledger = w.ledger := by
  cases r <;> rfl

omit [Extern] in
/-- The stages behind a queue statement remember nothing. -/
theorem attempt_agrees (w : Intake) (r : Except SqlError Entries) {next : Layer6Stage}
    (db : Database) (hnext : next.Agrees job db) : (w.try r next).2.Agrees job db := by
  cases r with
  | ok T => exact hnext
  | error e => trivial

theorem Layer6Life.Consistent.attempt (h : l.Consistent job keys) (r : Except SqlError Entries)
    {next : Layer6Stage} (hnext : next.Agrees job l.intake.ledger.db) :
    Layer6Life.Consistent job keys
      ⟨(l.intake.try r next).1, (l.intake.try r next).2⟩ :=
  h.of_ledger (attempt_ledger l.intake r next) (attempt_agrees l.intake r _ hnext)

/-- Reconciling a row that is pending. -/
theorem Layer6Life.Consistent.reconcile (h : l.Consistent job keys)
    {row : TransactionObservationsRow} (hpending : row.Pending job l.intake.ledger.db)
    {instrumentId : String} (now : Int)
    (hsound : row.eventTime ≠ none → l.intake.ledger.db.InOpenCluster job.observationId →
      (l.intake.ledger.db.verdict (layer6Incoming row instrumentId)).isAmbiguous = true)
    (stage : Layer6Stage) (hnext : ∀ db, stage.Agrees job db) :
    Layer6Life.Consistent job keys ⟨{ l.intake with
      ledger := (reconcileOn (layer6Incoming row instrumentId) now l.intake.ledger).2 }, stage⟩ := by
  have hfresh : Fresh (reconcileOn (layer6Incoming row instrumentId) now l.intake.ledger).2 :=
    fresh_reconcileOn h.fresh
  have hnone := hpending.linkOf
  have hid : (layer6Incoming row instrumentId).id = job.observationId := hpending.id
  rcases hrun : reconcileOn (layer6Incoming row instrumentId) now l.intake.ledger with ⟨e | d, s'⟩
  · -- refused: the tables are those of before
    rw [hrun] at hfresh
    have hdb : s'.db = l.intake.ledger.db := reconcileOn_error hrun
    refine h.of_unlinked hpending hfresh ?_ ?_ (hnext _)
    · rw [hdb]
    · rw [hdb]
      exact hnone
  · rw [hrun] at hfresh
    obtain ⟨dt, hdt, hacted⟩ := reconcileOn_acted hrun
    rcases hacted.booked with ⟨-, hobs, htx⟩ | ⟨hd, hcluster, id, hlink, htx⟩
    · refine h.of_unlinked hpending hfresh htx ?_ (hnext _)
      rw [hobs]
      exact hnone
    · rw [hid] at hlink hcluster
      refine ⟨hfresh, hnext _, ?_, ?_⟩
      · intro t ht hnew
        rcases htx t ht with rfl | ⟨t₀, ht₀, hsame⟩
        · exact hlink
        · exact absurd (hsame ▸ h.mem_keys hpending ht₀) hnew
      · -- linked, so the choice was not left to the user, so no cluster was open
        rintro ⟨-, hopen⟩
        have htime : row.eventTime ≠ none := by
          have : row.eventTime = some dt := (TimeText.parse_ofOption row.eventTime).symm.trans hdt
          simp [this]
        obtain ⟨c, hc⟩ := (reconcileOn_ambiguous_iff hrun).mp (hsound htime (hcluster.mp hopen))
        exact hd c hc

omit [Extern] in
/-- Filling a row in leaves its name, its link and its being there. -/
theorem enrich_keeps (env : Layer6Env) (enriched : ExtractionResult) (seconds : Option Int)
    (row : TransactionObservationsRow) :
    (env.enrich enriched seconds row).id = row.id ∧
      (env.enrich enriched seconds row).canonicalTransactionId = row.canonicalTransactionId ∧
      (env.enrich enriched seconds row).isDeleted = row.isDeleted := by
  unfold Layer6Env.enrich
  dsimp only
  split
  · split <;> exact ⟨rfl, rfl, rfl⟩
  · exact ⟨rfl, rfl, rfl⟩

omit [Extern] in
/-- A row that was read is pending, however it is filled in. -/
theorem pending_enrich {db : Database} {row : TransactionObservationsRow}
    (hrow : db.getObservation job.observationId = some row)
    (hlink : row.canonicalTransactionId = none) (enriched : ExtractionResult)
    (seconds : Option Int) : (env.enrich enriched seconds row).Pending job db := by
  obtain ⟨hid, hcanonical, hdeleted⟩ := enrich_keeps env enriched seconds row
  obtain ⟨-, hrowId, hlive⟩ := getObservation_eq_some hrow
  exact ⟨hid.trans hrowId, hcanonical.trans hlink, hdeleted.trans hlive, row, hrow, hlink⟩

/-- Finding the instrument of a pending row. -/
theorem Layer6Life.Consistent.attribute (h : l.Consistent job keys)
    {row : TransactionObservationsRow} (hpending : row.Pending job l.intake.ledger.db)
    (instrument : Option InstrumentsRow) :
    Layer6Life.Consistent job keys ⟨{ l.intake with ledger := { l.intake.ledger with
      db := l.intake.ledger.db.resolveInstrument instrument } },
      .attributed { row with instrumentId := instrument.map (·.id) }⟩ := by
  obtain ⟨I, hI⟩ := resolveInstrument_eq l.intake.ledger.db instrument
  refine h.of_unlinked hpending ?_ ?_ ?_ ⟨⟨hpending.id, hpending.unlinked, hpending.live, ?_⟩, ?_⟩
  · unfold Fresh
    dsimp only
    rw [hI]
    exact h.fresh
  · dsimp only
    rw [hI]
  · dsimp only
    rw [hI]
    exact hpending.linkOf
  · dsimp only
    rw [hI]
    exact hpending.stored
  · intro id hid
    cases instrument with
    | none => cases hid
    | some r =>
      obtain rfl := Option.some.inj hid
      exact contains_resolveInstrument _ r

/-- Writing a pending row back. -/
theorem Layer6Life.Consistent.writeBack (h : l.Consistent job keys)
    {row : TransactionObservationsRow} (hpending : row.Pending job l.intake.ledger.db)
    (hinst : ∀ id ∈ row.instrumentId, l.intake.ledger.db.instruments.contains id = true)
    {db : Database} (hdb : l.intake.ledger.db.updateObservation row = some db) :
    Layer6Life.Consistent job keys
      ⟨{ l.intake with ledger := { l.intake.ledger with db } }, .written row⟩ := by
  obtain ⟨o, ho, -⟩ := hpending.stored
  have hfind : db.observations.find? job.observationId = some ((rowPatch row).run o) ∧
      db = { l.intake.ledger.db with
        observations := l.intake.ledger.db.observations.modify row.id (rowPatch row) } := by
    unfold Database.updateObservation at hdb
    split at hdb
    · obtain rfl := Option.some.inj hdb
      refine ⟨?_, rfl⟩
      rw [hpending.id, Table.find?_modify, if_pos rfl, (getObservation_eq_some ho).1]
      rfl
    · cases hdb
  obtain ⟨hfind, rfl⟩ := hfind
  have hwritten : ((rowPatch row).run o).canonicalTransactionId = none := hpending.unlinked
  refine h.of_unlinked hpending h.fresh rfl ?_ ⟨⟨hpending.id, hpending.unlinked, hpending.live,
    (rowPatch row).run o, ?_, hwritten⟩, hinst⟩
  · rw [hfind]
    exact hwritten
  · have hlive : ((rowPatch row).run o).isDeleted = false := hpending.live
    rw [Database.getObservation, hfind]
    simp [hlive]

/-- Every step that meets its condition keeps the state consistent. -/
theorem Layer6Life.Consistent.step (h : l.Consistent job keys) (now : Int)
    (hsound : (Layer6Event.step now).Sound job l) :
    Layer6Life.Consistent job keys ((Layer6Event.step now).apply job env l) := by
  obtain ⟨w, stage⟩ := l
  have hagrees := h.agrees
  unfold Layer6Event.apply
  cases stage with
  | answered outcome =>
    cases outcome with
    | extracted enriched instrument =>
      by_cases hopen : w.entries.isOpen job.unassignedId = true
      · simp only [Layer6Job.step, if_pos hopen]
        exact h.of_ledger rfl trivial
      · simp only [Layer6Job.step, if_neg hopen]
        exact h.of_ledger rfl trivial
    | rejected | timedOut =>
      simp only [Layer6Job.step]
      split
      · exact h.attempt _ trivial
      · exact h.of_ledger rfl trivial
    | notATransaction => exact h.attempt _ trivial
    | failed => exact h.of_ledger rfl trivial
  | opened enriched instrument =>
    simp only [Layer6Job.step]
    split
    · exact h.of_ledger rfl trivial
    · next row hrow =>
      split
      · exact h.of_ledger rfl trivial
      · next hlink =>
        exact h.of_ledger rfl (pending_enrich hrow (by simpa using hlink) _ _)
  | applied => exact h.of_ledger rfl trivial
  | enriched row instrument => exact h.attribute hagrees instrument
  | attributed row =>
    simp only [Layer6Job.step]
    split
    · next db hdb => exact h.writeBack hagrees.1 hagrees.2 hdb
    · exact h.of_ledger rfl trivial
  | written row =>
    simp only [Layer6Job.step]
    split
    · next instrumentId hready =>
      have hkept := fun stage => h.reconcile hagrees.1 now (hsound instrumentId hready)
        stage
      split
      · next d ledger hrun =>
        rw [hrun] at hkept
        exact hkept .reconciled fun _ => trivial
      · next e ledger hrun =>
        rw [hrun] at hkept
        exact hkept (.finished false) fun _ => trivial
    · exact h.attempt _ trivial
  | reconciled => exact h.of_ledger rfl trivial
  | ignoring => exact h.attempt _ trivial
  | finished completed => exact h.of_ledger (ledger_close w job completed) trivial
  | ended => exact h.of_ledger rfl trivial

theorem Layer6Life.Consistent.apply (h : l.Consistent job keys) {e : Layer6Event}
    (hsound : e.Sound job l) : (e.apply job env l).Consistent job keys := by
  cases e with
  | start outcome =>
    unfold Layer6Event.apply
    dsimp only
    split
    · exact h.of_ledger rfl trivial
    · exact h
  | step now => exact h.step now hsound
  | crash => exact h.of_ledger rfl trivial

/-- An observation that is linked is left alone. -/
theorem Layer6Life.Consistent.linked_apply (h : l.Consistent job keys) (e : Layer6Event)
    (hlink : l.intake.linkOf job.observationId ≠ none) :
    (e.apply job env l).intake.ledger = l.intake.ledger := by
  cases e with
  | start outcome =>
    unfold Layer6Event.apply
    dsimp only
    split <;> rfl
  | crash => rfl
  | step now =>
    obtain ⟨w, stage⟩ := l
    have hagrees := h.agrees
    show (job.step env now w stage).1.ledger = w.ledger
    cases stage with
    | answered outcome =>
      cases outcome with
      | extracted enriched instrument =>
        simp only [Layer6Job.step]
        split <;> rfl
      | rejected | timedOut =>
        simp only [Layer6Job.step]
        split
        · exact attempt_ledger w _ _
        · rfl
      | notATransaction => exact attempt_ledger w _ _
      | failed => rfl
    | opened enriched instrument =>
      simp only [Layer6Job.step]
      split
      · rfl
      · split <;> rfl
    -- from here on the row is pending
    | enriched row instrument => exact absurd hagrees.linkOf hlink
    | attributed row => exact absurd hagrees.1.linkOf hlink
    | written row => exact absurd hagrees.1.linkOf hlink
    | applied => rfl
    | reconciled => rfl
    | ignoring => exact attempt_ledger w _ _
    | finished completed => exact ledger_close w job completed
    | ended => rfl

/-! ## whole runs -/

theorem Layer6Life.Consistent.run (h : l.Consistent job keys) {es : List Layer6Event}
    (hsound : SoundLayer6 job env l es) : (runLayer6 job env l es).Consistent job keys := by
  induction es generalizing l with
  | nil => exact h
  | cons e es ih => exact ih (h.apply hsound.1) hsound.2

theorem runLayer6_append (es es' : List Layer6Event) :
    runLayer6 job env l (es ++ es') = runLayer6 job env (runLayer6 job env l es) es' :=
  List.foldl_append

theorem soundLayer6_append {es es' : List Layer6Event} :
    SoundLayer6 job env l (es ++ es') ↔
      SoundLayer6 job env l es ∧ SoundLayer6 job env (runLayer6 job env l es) es' := by
  induction es generalizing l with
  | nil => simp [SoundLayer6, runLayer6]
  | cons e es ih =>
    show e.Sound job l ∧ SoundLayer6 job env (e.apply job env l) (es ++ es') ↔
      (e.Sound job l ∧ SoundLayer6 job env (e.apply job env l) es) ∧ _
    rw [ih, and_assoc]
    rfl

/-- From a link on, the ledger is what it is. -/
theorem Layer6Life.Consistent.linked_run (h : l.Consistent job keys) {es : List Layer6Event}
    (hsound : SoundLayer6 job env l es) (hlink : l.intake.linkOf job.observationId ≠ none) :
    (runLayer6 job env l es).intake.ledger = l.intake.ledger := by
  induction es generalizing l with
  | nil => rfl
  | cons e es ih =>
    have hledger : (e.apply job env l).intake.ledger = l.intake.ledger := h.linked_apply e hlink
    have hlink' : (e.apply job env l).intake.linkOf job.observationId ≠ none := by
      unfold Intake.linkOf
      rw [hledger]
      exact hlink
    exact (ih (h.apply hsound.1) hsound.2 hlink').trans hledger

/-- A sound run makes one link and one transaction at most. -/
theorem Layer6Life.Consistent.atMostOnce
    (h : l.Consistent job l.intake.ledger.db.transactions.keys) {es : List Layer6Event}
    (hsound : SoundLayer6 job env l es) : AtMostOnce job env l es := by
  have hend := h.run hsound
  refine ⟨?_, ?_, hend.apart⟩
  · rintro before after c rfl hlink
    obtain ⟨hbefore, hafter⟩ := soundLayer6_append.mp hsound
    have hne : (runLayer6 job env l before).intake.linkOf job.observationId ≠ none := by
      simp [hlink]
    have hledger := (h.run hbefore).linked_run hafter hne
    rw [runLayer6_append]
    unfold Intake.linkOf at hlink ⊢
    rw [hledger]
    exact hlink
  · intro t ht t' ht' hnew hnew'
    have hsame : t.id = t'.id := by
      have := (hend.created t ht hnew).symm.trans (hend.created t' ht' hnew')
      exact Option.some.inj this
    exact Table.eq_of_key_eq ht ht' hsame

/-- A step that does not meet its condition books an observation that waits. -/
theorem Layer6Life.Consistent.booked_and_waiting (env : Layer6Env)
    (h : l.Consistent job keys) {e : Layer6Event}
    (he : ¬ e.Sound job l) :
    (e.apply job env l).intake.ledger.db.LinkedLive job.observationId ∧
      (e.apply job env l).intake.ledger.db.InOpenCluster job.observationId := by
  obtain ⟨w, stage⟩ := l
  cases e with
  | start outcome => exact absurd trivial he
  | crash => exact absurd trivial he
  | step now =>
    cases stage with
    | written row =>
      have hagrees := h.agrees
      simp only [Layer6Event.Sound, not_forall] at he
      obtain ⟨instrumentId, hready, htime, hopen, hdecided⟩ := he
      obtain ⟨o, ho, -⟩ := hagrees.1.stored
      have hid : (layer6Incoming row instrumentId).id = job.observationId := hagrees.1.id
      have hobs : w.ledger.db.observations.contains
          (layer6Incoming row instrumentId).id = true := by
        obtain ⟨hmem, hkey⟩ := Table.find?_eq_some.mp (getObservation_eq_some ho).1
        exact Table.contains_iff.mpr ⟨o, hmem, hkey.trans hid.symm⟩
      have hinst := hagrees.2 instrumentId (readyInstrument_eq_some hready)
      have hparse : (layer6Incoming row instrumentId).eventTime.parse ≠ none := by
        rw [show (layer6Incoming row instrumentId).eventTime.parse = row.eventTime from
          TimeText.parse_ofOption row.eventTime]
        exact htime
      obtain ⟨d, ledger, hrun⟩ : ∃ d s', reconcileOn (layer6Incoming row instrumentId) now
          w.ledger = (.ok d, s') := (reconcileOn_ok_iff h.fresh hobs hinst).mpr hparse
      have hledger : ((Layer6Event.step now).apply job env ⟨w, .written row⟩).intake.ledger =
          ledger := by
        simp only [Layer6Event.apply, Layer6Job.step, show readyInstrument row = _ from hready,
          hrun]
      obtain ⟨dt, -, hacted⟩ := reconcileOn_acted hrun
      have hdec : ∀ c, d ≠ .ambiguousPending c := fun c hc =>
        hdecided ((reconcileOn_ambiguous_iff hrun).mpr ⟨c, hc⟩)
      rw [hledger, ← hid]
      refine ⟨hacted.linkedLive hdec, ?_⟩
      rcases hacted.booked with ⟨⟨c, hc⟩, -⟩ | ⟨-, hcluster, -⟩
      · exact absurd hc (hdec c)
      · exact hcluster.mpr (hid.symm ▸ hopen)
    | _ => exact absurd trivial he

/-- The third of three purchases, seen first without its merchant and its account. -/
def replayedJob : Layer6Job := { queuedJob with observationId := "o3" }

def beforeReplay : Layer6Life where
  intake := {
    ledger := (Op.ingest { purchase "o3" 1000 none with
      instrumentId := none, merchantRaw := none } false).run 1003
        (runAll firstLedger (ambiguousRun.take 2))
    entries := ⟨[⟨"e1", "o3", "pending_llm_enrichment", .open⟩], by simp⟩
    layer6Jobs := ⟨[replayedJob.pending], by simp⟩ }

theorem fresh_beforeReplay : Fresh beforeReplay.intake.ledger := by
  unfold beforeReplay
  exact Op.run_fresh (runAll_fresh initial_firstLedger.fresh (ambiguousRun.take 2)) 1003 _

/-- The merchant and the account, and a reference id or none. -/
def replied (referenceId : Option String) : Layer6Outcome :=
  .extracted { merchantRaw := some "ZOMATO", referenceId, confidenceScore := some (9 / 10) }
    (some ⟨"account", account_ne⟩)

/-- The process stops after the ledger was written, and the job is replayed up to there. -/
def stoppedThenReplayed (referenceId : Option String) : List Layer6Event :=
  .start (replied none) :: List.replicate 5 (.step 2000) ++
    .crash :: .start (replied referenceId) :: List.replicate 4 (.step 3000)

end Dinero
