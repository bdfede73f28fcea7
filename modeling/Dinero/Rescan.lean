import Dinero.Outcomes

/-!
# Dinero.Rescan

Ingesting the same source record again.

A rescan of a mailbox or a statement hands the ledger rows whose pair of
pipeline and source record was ingested before, under ids of their own.  The
ledger tells them by the message of the error `UNIQUE(source_pipeline,
source_record_id)` raises; `isSourceRecordDuplicate_insertObservation` says the
message tells them apart from every other error, and
`rescan_skips` that a rescan leaves everything as it was.
-/

namespace Dinero

open Sql

/-! ## the pair of a row -/

/-- Some stored observation came from this record of this pipeline. -/
def Database.HasSource (db : Database) (pipeline record : String) : Prop :=
  ∃ o ∈ db.observations, o.sourcePipeline = some pipeline ∧ o.sourceRecordId = some record

/-- The unique constraint is violated by what is stored already. -/
theorem Database.hasSourceRecord_iff {db : Database} {row : TransactionObservationsRow} :
    db.hasSourceRecord row = true ↔ ∃ pipeline record, row.sourcePipeline = some pipeline ∧
      row.sourceRecordId = some record ∧ db.HasSource pipeline record := by
  simp only [hasSourceRecord, HasSource, List.any_eq_true, Bool.and_eq_true, decide_eq_true_eq,
    Option.isSome_iff_exists]
  constructor
  · rintro ⟨o, ho, ⟨⟨⟨p, hp⟩, ⟨r, hr⟩⟩, hpe⟩, hre⟩
    exact ⟨p, r, hpe ▸ hp, hre ▸ hr, o, ho, hp, hr⟩
  · rintro ⟨p, r, hp, hr, o, ho, hop, hor⟩
    exact ⟨o, ho, ⟨⟨⟨p, hop⟩, ⟨r, hor⟩⟩, hop.trans hp.symm⟩, hor.trans hr.symm⟩

/-- Pairs survive wherever only links change. -/
theorem Database.HasSource.of_unlinked {db db' : Database} {pipeline record : String}
    (h : db.HasSource pipeline record)
    (hdb : db'.observations.rows.map TransactionObservationsRow.unlinked =
      db.observations.rows.map TransactionObservationsRow.unlinked) :
    db'.HasSource pipeline record := by
  obtain ⟨o, ho, hp, hr⟩ := h
  obtain ⟨o', ho', heq⟩ := Table.exists_of_map_eq hdb.symm ho
  refine ⟨o', ho', ?_, ?_⟩
  · exact (congrArg TransactionObservationsRow.sourcePipeline heq).trans hp
  · exact (congrArg TransactionObservationsRow.sourceRecordId heq).trans hr

/-! ## the error, classified -/

/-- The error of a repeated pair. -/
def duplicatePair : SqlError := uniqueFailed
  "transaction_observations.source_pipeline, transaction_observations.source_record_id"

/-- **The message tells a repeated pair apart**: of all the errors an insertion
can end in, `insert_observation_idempotent` takes this one for a duplicate, and
it ends in this one only when the pair is taken. -/
theorem isSourceRecordDuplicate_insertObservation {db : Database}
    {row : TransactionObservationsRow} {e : SqlError} (h : db.insertObservation row = .error e) :
    isSourceRecordDuplicate e = true ↔
      pipelineAllowed row.sourcePipeline = true ∧ db.hasSourceRecord row = true := by
  unfold Database.insertObservation at h
  split at h
  · next hcheck =>
      obtain rfl := Except.error.inj h
      simp only [Bool.not_eq_true'] at hcheck
      simp only [hcheck, Bool.false_eq_true, false_and, iff_false, Bool.not_eq_true]
      decide +kernel
  next hcheck =>
  split at h
  · next hpair =>
      obtain rfl := Except.error.inj h
      simp only [Bool.not_eq_true', Bool.not_eq_false] at hcheck
      simp only [hcheck, hpair, and_self, iff_true]
      decide +kernel
  next hpair =>
  simp only [hpair, and_false, iff_false, Bool.not_eq_true, Bool.false_eq_true]
  unfold insertInto at h
  split at h
  · obtain rfl := Except.error.inj h
    decide +kernel
  · split at h
    · simp at h
    · obtain rfl := Except.error.inj h
      decide +kernel

/-- A repeated pair fails with its own error, before the id is looked at. -/
theorem Database.insertObservation_duplicate {db : Database} {row : TransactionObservationsRow}
    (hp : pipelineAllowed row.sourcePipeline = true) (hs : db.hasSourceRecord row = true) :
    db.insertObservation row = .error duplicatePair := by
  simp [insertObservation, hp, hs, duplicatePair]

variable [Extern]

/-! ## ingesting a list -/

/-- A row to ingest, with the time it arrives and whether to reconcile it. -/
structure Arrival where
  now : Int
  row : TransactionObservationsRow
  shouldReconcile : Bool

/-- What an ingestion answers. -/
abbrev Outcome := Except SqlError (InsertObservationOutcome × Option DecisionType)

/-- Ingest one arrival on an idle connection. -/
def Arrival.ingest (a : Arrival) (s : Store Database) : Outcome × Store Database :=
  let r := ingestObservation a.row a.shouldReconcile (.quiet a.now) ⟨s, none⟩
  (r.1, r.2.store)

/-- Ingest a list, in order: the answers, and the ledger at the end. -/
def ingestAll (s : Store Database) : List Arrival → List Outcome × Store Database
  | [] => ([], s)
  | a :: rest =>
    let r := a.ingest s
    let rs := ingestAll r.2 rest
    (r.1 :: rs.1, rs.2)

/-- Some arrival of the list with this pair was ingested: its call succeeded. -/
def Ingested (s : Store Database) (pipeline record : String) : List Arrival → Prop
  | [] => False
  | a :: rest => (a.row.sourcePipeline = some pipeline ∧ a.row.sourceRecordId = some record ∧
      ∃ answer, (a.ingest s).1 = .ok answer) ∨ Ingested (a.ingest s).2 pipeline record rest

/-! ## pairs stay -/

omit [Extern] in
/-- A stored row brings its pair with it and drives out no other. -/
theorem hasSource_insertObservation {row : TransactionObservationsRow} {db db' : Database}
    {u : Unit} (h : db.insertObservation row = .ok (u, db')) {pipeline record : String} :
    db'.HasSource pipeline record ↔ db.HasSource pipeline record ∨
      (row.sourcePipeline = some pipeline ∧ row.sourceRecordId = some record) := by
  obtain ⟨_, _, _, T, hT, rfl⟩ := Database.insertObservation_eq_ok.mp h
  simp only [Database.HasSource, Table.mem_of_insert? hT]
  constructor
  · rintro ⟨o, ho | rfl, hp⟩
    · exact .inl ⟨o, ho, hp⟩
    · exact .inr hp
  · rintro (⟨o, ho, hp⟩ | hp)
    · exact ⟨o, .inl ho, hp⟩
    · exact ⟨row, .inr rfl, hp⟩

/-- **No operation loses a pair.** -/
theorem Op.run_hasSource {s : Store Database} {pipeline record : String}
    (h : s.db.HasSource pipeline record) (now : Int) (op : Op) :
    (op.run now s).db.HasSource pipeline record := by
  cases op with
  | ingest row shouldReconcile =>
    cases Op.ingest_effect row shouldReconcile now s with
    | unchanged hdb => rwa [hdb]
    | stored hins => exact (hasSource_insertObservation hins).mpr (.inl h)
    | acted db₁ _ _ _ hins _ _ hact =>
      exact ((hasSource_insertObservation hins).mpr (.inl h)).of_unlinked hact.unlinked
  | resolve clusterId obsId action chosen =>
    rcases resolve_cases clusterId obsId action chosen now s with hdb | hconc | ⟨-, hrun⟩
    · rwa [hdb]
    · have hconc : Concerns obsId _ _ := hconc.concerns
      exact h.of_unlinked hconc.unlinked
    · rw [hrun]
      exact h.of_unlinked (concerns_recordResolution _ _ _ _ _ _).unlinked
  | unmerge clusterId =>
    simp only [Op.run, unmerge_quiet]
    exact h

theorem runAll_hasSource {ops : List (Int × Op)} {s : Store Database} {pipeline record : String}
    (h : s.db.HasSource pipeline record) : (runAll s ops).db.HasSource pipeline record := by
  induction ops generalizing s with
  | nil => exact h
  | cons op ops ih => exact ih (Op.run_hasSource h op.1 op.2)

/-! ## repeats -/

/-- A call that succeeded leaves the pair of its row stored, and the pipeline
passed its check. -/
theorem Arrival.ingest_ok {a : Arrival} {s : Store Database}
    {answer : InsertObservationOutcome × Option DecisionType} {pipeline record : String}
    (hp : a.row.sourcePipeline = some pipeline) (hr : a.row.sourceRecordId = some record)
    (h : (a.ingest s).1 = .ok answer) :
    pipelineAllowed (some pipeline) = true ∧ (a.ingest s).2.db.HasSource pipeline record := by
  simp only [Arrival.ingest, ingest_quiet] at h ⊢
  cases hins : s.db.insertObservation a.row with
  | error e =>
    simp only [hins] at h ⊢
    split at h
    · next hdup =>
        obtain ⟨hallowed, hsrc⟩ := (isSourceRecordDuplicate_insertObservation hins).mp hdup
        obtain ⟨p, r, hp', hr', hsrc⟩ := Database.hasSourceRecord_iff.mp hsrc
        obtain rfl := Option.some.inj (hp'.symm.trans hp)
        obtain rfl := Option.some.inj (hr'.symm.trans hr)
        rw [hp] at hallowed
        simpa [hdup, hallowed] using hsrc
    · simp at h
  | ok r =>
    obtain ⟨u, db⟩ := r
    have hallowed := (Database.insertObservation_eq_ok.mp hins).1
    have hdb := (hasSource_insertObservation hins).mpr (.inr ⟨hp, hr⟩)
    rw [hp] at hallowed
    refine ⟨hallowed, ?_⟩
    simp only [hins] at h ⊢
    split at h
    · next hskip => simpa [hskip] using hdb
    · next hskip =>
        simp only [hskip]
        rcases hrun : fetchAndReconcile (incomingOf a.row (a.row.instrumentId.getD ""))
          (.quiet a.now) { s with db := db } with ⟨_ | d, s'⟩
        · simp [hrun] at h
        · obtain ⟨_, _, hact⟩ := fetchAndReconcile_acted hrun
          exact hdb.of_unlinked hact.unlinked

/-- What was ingested somewhere in a list is stored at its end. -/
theorem Ingested.hasSource {s : Store Database} {pipeline record : String} {first : List Arrival}
    (h : Ingested s pipeline record first) :
    pipelineAllowed (some pipeline) = true ∧
      (ingestAll s first).2.db.HasSource pipeline record := by
  have hkeep : ∀ (rest : List Arrival) (t : Store Database), t.db.HasSource pipeline record →
      (ingestAll t rest).2.db.HasSource pipeline record := by
    intro rest
    induction rest with
    | nil => exact fun _ ht => ht
    | cons a rest ih =>
      exact fun t ht => ih _ (Op.run_hasSource ht a.now (.ingest a.row a.shouldReconcile))
  induction first generalizing s with
  | nil => exact h.elim
  | cons a rest ih =>
    rcases h with ⟨hp, hr, answer, hok⟩ | h
    · obtain ⟨hallowed, hsrc⟩ := Arrival.ingest_ok hp hr hok
      exact ⟨hallowed, hkeep rest _ hsrc⟩
    · exact ih h

/-- A repeat is skipped and leaves everything as it is. -/
theorem Arrival.ingest_duplicate {b : Arrival} {s : Store Database} {pipeline record : String}
    (hp : b.row.sourcePipeline = some pipeline) (hr : b.row.sourceRecordId = some record)
    (hallowed : pipelineAllowed (some pipeline) = true) (h : s.db.HasSource pipeline record) :
    b.ingest s = (.ok (.duplicateSkipped, none), s) := by
  have hsrc := Database.hasSourceRecord_iff.mpr ⟨pipeline, record, hp, hr, h⟩
  have hins := Database.insertObservation_duplicate (hp ▸ hallowed) hsrc
  have hdup := (isSourceRecordDuplicate_insertObservation hins).mpr ⟨hp ▸ hallowed, hsrc⟩
  simp [Arrival.ingest, ingest_quiet, hins, hdup]

/-- **A rescan changes nothing.**  Whatever else happened since, ingesting rows
whose pairs were ingested before answers `DuplicateSkipped` to each and leaves
the whole ledger as it was.  And no constraint violation but that of the pair
is ever answered so. -/
theorem rescan_skips (s : Store Database) (first repeats : List Arrival)
    (between : List (Int × Op))
    (hrepeats : ∀ b ∈ repeats, ∃ pipeline record, b.row.sourcePipeline = some pipeline ∧
      b.row.sourceRecordId = some record ∧ Ingested s pipeline record first) :
    ingestAll (runAll (ingestAll s first).2 between) repeats =
        (repeats.map fun _ => .ok (.duplicateSkipped, none),
          runAll (ingestAll s first).2 between) ∧
      ∀ (a : Arrival) (t : Store Database) (d : Option DecisionType),
        (a.ingest t).1 = .ok (.duplicateSkipped, d) →
          t.db.insertObservation a.row = .error duplicatePair ∧
            t.db.hasSourceRecord a.row = true ∧ d = none ∧ (a.ingest t).2 = t := by
  constructor
  · have hstored : ∀ b ∈ repeats, ∃ pipeline record, b.row.sourcePipeline = some pipeline ∧
        b.row.sourceRecordId = some record ∧ pipelineAllowed (some pipeline) = true ∧
        (runAll (ingestAll s first).2 between).db.HasSource pipeline record := by
      intro b hb
      obtain ⟨p, r, hp, hr, hing⟩ := hrepeats b hb
      obtain ⟨hallowed, hsrc⟩ := hing.hasSource
      exact ⟨p, r, hp, hr, hallowed, runAll_hasSource hsrc⟩
    clear hrepeats
    induction repeats with
    | nil => rfl
    | cons b rest ih =>
      obtain ⟨p, r, hp, hr, hallowed, hsrc⟩ := hstored b (by simp)
      have hb := Arrival.ingest_duplicate hp hr hallowed hsrc
      simp only [ingestAll, hb, List.map_cons]
      rw [ih fun c hc => hstored c (by simp [hc])]
  · intro a t d h
    simp only [Arrival.ingest, ingest_quiet] at h ⊢
    cases hins : t.db.insertObservation a.row with
    | error e =>
      simp only [hins] at h ⊢
      split at h
      · next hdup =>
          obtain ⟨hallowed, hsrc⟩ := (isSourceRecordDuplicate_insertObservation hins).mp hdup
          rw [Database.insertObservation_duplicate hallowed hsrc] at hins
          obtain rfl := Except.error.inj hins
          simp only [Except.ok.injEq, Prod.mk.injEq, true_and] at h
          simp [hsrc, hdup, h]
      · simp at h
    | ok r =>
      obtain ⟨u, db⟩ := r
      simp only [hins] at h
      split at h
      · simp at h
      · rcases hrun : fetchAndReconcile (incomingOf a.row (a.row.instrumentId.getD ""))
          (.quiet a.now) { t with db := db } with ⟨_ | d, s'⟩
        · simp [hrun] at h
        · simp [hrun] at h

omit [Extern] in
/-- An email ingested twice, the second time under another id and with another
amount, after somebody tried to reopen a cluster. -/
theorem rescan_skips_email :
    letI := Extern.ascii
    let first : Arrival := ⟨100, observed "o1" "gmail_transaction" "debit" 500 90, true⟩
    let again : Arrival :=
      ⟨200, { observed "o2" "gmail_transaction" "debit" 700 190 with sourceRecordId := some "o1" },
        true⟩
    let s := runAll (ingestAll firstLedger [first]).2 [(150, .unmerge "c")]
    ingestAll s [again] = ([.ok (.duplicateSkipped, none)], s) := by
  intro first again s
  let := Extern.ascii
  refine (rescan_skips firstLedger [first] [again] [(150, .unmerge "c")] ?_).1
  intro b hb
  obtain rfl := List.mem_singleton.mp hb
  exact ⟨"gmail_transaction", "o1", rfl, rfl, .inl ⟨rfl, rfl, (.inserted, some .newCanonical),
    by decide +kernel⟩⟩

end Dinero
