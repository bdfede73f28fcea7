import Dinero.InstrumentCommands
import Dinero.Layer6
import Dinero.Rescan

/-!
# Dinero.TransactionQueue

The queue every payment found in the mail goes through: the instrument is
resolved, the extraction becomes an observation, the observation is ingested.

`Registry` has the ledger and, beside it, the whole rows of `instruments`, of
which the ledger's foreign keys see the ids.  Each draws its ids from a supply of
its own.
-/

namespace Dinero

open Sql

variable [Extern]

/-! ## resolve_instrument -/

/-- `COLLATE NOCASE`: the case of ASCII letters does not count. -/
def sameNoCase (a b : String) : Bool := a.map Char.toLower = b.map Char.toLower

/-- Resolves an issuer name to an instrument, but only when it is unambiguous. -/
def Instruments.resolveSingleInstrumentByIssuer (T : Instruments) (issuerName : String) :
    Option String :=
  match T.rows.filter fun r => sameNoCase r.issuerName issuerName && !r.isDeleted with
  | [r] => some r.id
  | _ => none

/-- What a source says about the instrument. -/
structure InstrumentSignal where
  instrumentType : Option String
  issuerName : Option String
  maskedIdentifier : Option String
  network : Option String
deriving DecidableEq, Repr

/-- Single instrument resolution path used by all ingestion pipelines. -/
def resolveInstrument (q : InstrumentSignal) : InstrumentsDb (Option String) :=
  match q.instrumentType, q.issuerName, q.maskedIdentifier with
  | some itype, some iname, some masked => do
    return some (← getOrCreateInstrument ⟨itype, iname, masked, q.network⟩)
  | none, some iname, none => readInstruments (·.resolveSingleInstrumentByIssuer iname)
  | _, _, _ => return none

structure Registry where
  ledger : Store Database
  instruments : Store Instruments

/-- The ids the foreign keys see, after a row was found or created. -/
def Database.learnInstrument (db : Database) (instrumentId : Option String) : Database :=
  match instrumentId with
  | some id => if h : id ≠ "" then db.resolveInstrument (some ⟨id, h⟩) else db
  | none => db

omit [Extern] in
theorem learnInstrument_eq (db : Database) (id : Option String) :
    ∃ I, db.learnInstrument id = { db with instruments := I } := by
  unfold Database.learnInstrument
  cases id with
  | none => exact ⟨_, rfl⟩
  | some id =>
    dsimp only
    split
    · exact ⟨_, rfl⟩
    · exact ⟨_, rfl⟩

/-- `resolve_instrument(..).unwrap_or(None)`. -/
def Registry.resolve (now : Int) (q : InstrumentSignal) (w : Registry) :
    Option String × Registry :=
  let r := resolveInstrument q (.quiet now) w.instruments
  let instrumentId := r.1.toOption.join
  (instrumentId, {
    ledger := { w.ledger with db := w.ledger.db.learnInstrument instrumentId }
    instruments := r.2 })

/-! ## the observation -/

/-- What the queue takes from `chrono`: the range of its times, and
`format("%Y-%m-%dT%H:%M")`. -/
structure QueueEnv where
  inRange : Int → Bool
  minuteBucket : Int → String

/-- Computes the deduplication fingerprint for an observation. -/
def computeFingerprint (instrumentId direction : String) (amountMinor : Int)
    (eventTimeMinuteBucket connectedAccountId : String) : String :=
  sha256Hex (instrumentId ++ "|" ++ direction ++ "|" ++ toString amountMinor ++ "|" ++
    eventTimeMinuteBucket ++ "|" ++ connectedAccountId)

/-- `normalize_observation`, for an extraction with nothing on instalments and no
cross-checked date. -/
def normalizeObservation (env : QueueEnv) (raw : ExtractionResult)
    (sourcePipeline sourceMessageId id : String) (now : Int) : TransactionObservationsRow where
  id := id
  canonicalTransactionId := none
  sourcePipeline := some sourcePipeline
  sourceRecordId := some sourceMessageId
  statementId := none
  statementEntryId := none
  instrumentId := none
  direction :=
    match raw.direction.map toLowercase with
    | some d =>
      if strContains d "cr" || strContains d "credit" || strContains d "received" then
        some "credit"
      else some "debit"
    | none => some "debit"
  amountMinor := raw.amountMinor
  currency := some ((raw.currency.map toUppercase).getD "INR")
  eventTime := (raw.eventTime.filter env.inRange).map (· + (5 * 3600 + 30 * 60))
  eventTimeConfidence := none
  merchantRaw := raw.merchantRaw
  referenceId := raw.referenceId
  fingerprint := none
  confidenceScore := raw.confidenceScore
  emiTotalInstallments := none
  emiOriginalAmountMinor := none
  channel := raw.channel
  isDeleted := false
  createdAt := some now
  updatedAt := some now

/-- The fingerprint, of an observation that has all it is made from. -/
def fingerprinted (env : QueueEnv) (connectedAccountId : String)
    (row : TransactionObservationsRow) : TransactionObservationsRow :=
  match row.instrumentId, row.direction, row.amountMinor with
  | some instrumentId, some direction, some amountMinor =>
    { row with
      fingerprint := some (computeFingerprint instrumentId direction amountMinor
        ((row.eventTime.map env.minuteBucket).getD "") connectedAccountId) }
  | _, _, _ => row

/-! ## process_transaction_job -/

structure TransactionJob where
  obs : ExtractionResult
  sourcePipeline : String
  sourceRecordId : String
  connectedAccountId : String
deriving DecidableEq, Repr

def ExtractionResult.instrumentSignal (obs : ExtractionResult) : InstrumentSignal :=
  ⟨obs.instrumentType, obs.issuerName, obs.maskedIdentifier, obs.network⟩

/-- The row a job ingests, given the instrument and a drawn id. -/
def TransactionJob.row (job : TransactionJob) (env : QueueEnv) (instrumentId : Option String)
    (id : String) (now : Int) : TransactionObservationsRow :=
  fingerprinted env job.connectedAccountId
    { normalizeObservation env job.obs job.sourcePipeline job.sourceRecordId id now with
      instrumentId }

/-- An ingestion under a newly drawn id, by its effect on the ledger. -/
def ingestDrawn (now : Int) (row : String → TransactionObservationsRow) (shouldReconcile : Bool)
    (s : Store Database) : Store Database :=
  (Op.ingest (row (uuid s.nextUuid)) shouldReconcile).run now { s with nextUuid := s.nextUuid + 1 }

def processTransactionJob (env : QueueEnv) (now : Int) (job : TransactionJob) (w : Registry) :
    Registry :=
  let (instrumentId, w) := w.resolve now job.obs.instrumentSignal
  { w with
    ledger := ingestDrawn now (job.row env instrumentId · now) instrumentId.isSome w.ledger }

/-! ## resolving again -/

/-- From here on the signal resolves to `answer`, and nothing is created for it. -/
def Settled (q : InstrumentSignal) (T : Instruments) (answer : Option String) : Prop :=
  ∀ (s : Store Instruments) (now : Int), s.db = T →
    (resolveInstrument q (.quiet now) s).1.toOption.join = answer ∧
      (resolveInstrument q (.quiet now) s).2.db = T

omit [Extern] in
/-- The row an ingestion would insert is not taken, whatever its id. -/
theorem insertOrIgnore_refused {T : Instruments} {k : NaturalKey} (h : ¬ T.Obtainable k)
    (network : Option String) (id : String) (now : Int) :
    T.insertOrIgnore (ingestedInstrument k network id now) = T := by
  rcases T.insertOrIgnore_cases (ingestedInstrument k network id now) with ⟨hallowed, hT⟩ | ⟨hT, -⟩
  · have hfree := (Indexed.insert?_eq_some.mp hT).2.1
    refine absurd (.inr ⟨ingestedInstrument_allowed.mp hallowed, ?_⟩) h
    intro r hr hk
    exact hfree r hr k hk rfl
  · exact hT

theorem settled_of_hasLive {q : InstrumentRequest} {T : Instruments} {id : String}
    (h : T.HasLive q.key id) :
    Settled ⟨some q.type, some q.issuerName, some q.maskedIdentifier, q.network⟩ T (some id) := by
  rintro s now rfl
  have hfind : s.db.findLive q.key = some id := Instruments.findLive_eq_some.mpr h
  have hrun : getOrCreateInstrument q (.quiet now) s = (.ok id, s) := by
    rw [getOrCreateInstrument_quiet, hfind]
  have hresolve : resolveInstrument ⟨some q.type, some q.issuerName, some q.maskedIdentifier,
      q.network⟩ (.quiet now) s = (.ok (some id), s) := by
    simp only [resolveInstrument]
    rw [Eff.bind_of_ok hrun]
    rfl
  rw [hresolve]
  exact ⟨rfl, rfl⟩

theorem settled_of_refused {q : InstrumentRequest} {T : Instruments} (h : ¬ T.Obtainable q.key) :
    Settled ⟨some q.type, some q.issuerName, some q.maskedIdentifier, q.network⟩ T none := by
  rintro s now rfl
  have hnone : s.db.findLive q.key = none := by
    by_contra hne
    obtain ⟨id, hid⟩ := Option.ne_none_iff_exists'.mp hne
    exact h (.inl ⟨id, Instruments.findLive_eq_some.mp hid⟩)
  have hsame : (afterIngest q.key q.network now s).db = s.db :=
    insertOrIgnore_refused h q.network _ now
  have hrun : getOrCreateInstrument q (.quiet now) s =
      (.error .queryReturnedNoRows, afterIngest q.key q.network now s) := by
    rw [getOrCreateInstrument_quiet, hnone, hsame, hnone]
  have hresolve : resolveInstrument ⟨some q.type, some q.issuerName, some q.maskedIdentifier,
      q.network⟩ (.quiet now) s =
        (.error .queryReturnedNoRows, afterIngest q.key q.network now s) := by
    simp only [resolveInstrument]
    rw [Eff.bind_of_error hrun]
  rw [hresolve]
  exact ⟨rfl, hsame⟩

/-- A call ends with a live row for its key, or there can be none. -/
theorem getOrCreate_ends (q : InstrumentRequest) {s : Store Instruments} (hunused : UnusedIds s)
    (now : Int) :
    (∃ id s', getOrCreateInstrument q (.quiet now) s = (.ok id, s') ∧ s'.db.HasLive q.key id) ∨
      ∃ e s', getOrCreateInstrument q (.quiet now) s = (.error e, s') ∧
        ¬ s'.db.Obtainable q.key := by
  rw [getOrCreateInstrument_quiet]
  cases hfirst : s.db.findLive q.key with
  | some id => exact .inl ⟨id, s, rfl, Instruments.findLive_eq_some.mp hfirst⟩
  | none =>
    dsimp only
    have hfresh : ∀ r ∈ s.db, r.id ≠ uuid s.nextUuid := hunused s.nextUuid (Nat.le_refl _)
    have hiff : (∃ id, (afterIngest q.key q.network now s).db.HasLive q.key id) ↔
        s.db.Obtainable q.key := Instruments.insertOrIgnore_obtains hfresh
    cases hsecond : (afterIngest q.key q.network now s).db.findLive q.key with
    | some id => exact .inl ⟨id, _, rfl, Instruments.findLive_eq_some.mp hsecond⟩
    | none =>
      refine .inr ⟨_, _, rfl, ?_⟩
      have hnot : ¬ s.db.Obtainable q.key := by
        rw [← hiff]
        rintro ⟨id, hid⟩
        rw [Instruments.findLive_eq_some.mpr hid] at hsecond
        cases hsecond
      have hsame : (afterIngest q.key q.network now s).db = s.db :=
        insertOrIgnore_refused hnot q.network _ now
      rw [hsame]
      exact hnot

/-- **Once resolved, a signal is settled.** -/
theorem settled_resolve (q : InstrumentSignal) {s : Store Instruments} (hunused : UnusedIds s)
    (now : Int) : Settled q (resolveInstrument q (.quiet now) s).2.db
      (resolveInstrument q (.quiet now) s).1.toOption.join := by
  by_cases hall : ∃ itype iname masked network, q = ⟨some itype, some iname, some masked, network⟩
  · obtain ⟨itype, iname, masked, network, rfl⟩ := hall
    rcases getOrCreate_ends ⟨itype, iname, masked, network⟩ hunused now with
      ⟨id, s', hrun, hlive⟩ | ⟨e, s', hrun, hnot⟩
    · have hresolve : resolveInstrument ⟨some itype, some iname, some masked, network⟩
          (.quiet now) s = (.ok (some id), s') := Eff.bind_of_ok hrun
      rw [hresolve]
      exact settled_of_hasLive (q := ⟨itype, iname, masked, network⟩) hlive
    · have hresolve : resolveInstrument ⟨some itype, some iname, some masked, network⟩
          (.quiet now) s = (.error e, s') := Eff.bind_of_error hrun
      rw [hresolve]
      exact settled_of_refused (q := ⟨itype, iname, masked, network⟩) hnot
  · -- nothing is written, so the answer is a matter of the table
    have hread : ∃ f : Instruments → Option String, ∀ (s : Store Instruments) (now : Int),
        resolveInstrument q (.quiet now) s = (.ok (f s.db), s) := by
      obtain ⟨itype, iname, masked, network⟩ := q
      cases itype with
      | none =>
        cases iname with
        | none => exact ⟨fun _ => none, fun _ _ => rfl⟩
        | some iname =>
          cases masked with
          | none => exact ⟨(·.resolveSingleInstrumentByIssuer iname), fun _ _ => rfl⟩
          | some masked => exact ⟨fun _ => none, fun _ _ => rfl⟩
      | some itype =>
        cases iname with
        | none => exact ⟨fun _ => none, fun _ _ => rfl⟩
        | some iname =>
          cases masked with
          | none => exact ⟨fun _ => none, fun _ _ => rfl⟩
          | some masked => exact absurd ⟨itype, iname, masked, network, rfl⟩ hall
    obtain ⟨f, hf⟩ := hread
    rw [hf]
    intro s' now' hdb
    dsimp only at hdb ⊢
    rw [hf, hdb]
    exact ⟨rfl, rfl⟩

/-! ## a job twice -/

/-- A row with an instrument and no event time is refused, one way or another. -/
theorem ingestDrawn_untimed {now : Int} {row : String → TransactionObservationsRow}
    (hinst : ∀ id, (row id).instrumentId.isSome) (htime : ∀ id, (row id).eventTime = none)
    (s : Store Database) : (ingestDrawn now row true s).db = s.db := by
  rcases Op.ingest_cases (row (uuid s.nextUuid)) true now { s with nextUuid := s.nextUuid + 1 } with
    h | ⟨db, -, hskip, -⟩ | ⟨db, instrumentId, dt, d, -, -, -, hdt, -⟩
  · exact h
  · rcases hskip with hfalse | hnone
    · cases hfalse
    · have := hinst (uuid s.nextUuid)
      rw [hnone] at this
      cases this
  · rw [htime] at hdt
    cases hdt

/-- A row without an instrument goes in, if it goes in at all, unreconciled. -/
theorem ingestDrawn_unreconciled (now : Int) (row : String → TransactionObservationsRow)
    (s : Store Database) :
    (ingestDrawn now row false s).db =
      match s.db.insertObservation (row (uuid s.nextUuid)) with
      | .ok (_, db) => db
      | .error _ => s.db := by
  unfold ingestDrawn
  simp only [Op.run]
  rw [ingest_quiet]
  dsimp only
  cases s.db.insertObservation (row (uuid s.nextUuid)) with
  | error e =>
    dsimp only
    split <;> rfl
  | ok r => rfl

/-- The row of a message: where it came from, and that it refers to nothing. -/
structure FromMessage (row : TransactionObservationsRow) (pipeline record : String) : Prop where
  sourcePipeline : row.sourcePipeline = some pipeline
  sourceRecordId : row.sourceRecordId = some record
  canonicalTransactionId : row.canonicalTransactionId = none
  instrumentId : row.instrumentId = none
  statementId : row.statementId = none
  statementEntryId : row.statementEntryId = none

omit [Extern] in
/-- A record the pipeline has seen, or a pipeline there is not. -/
theorem insertObservation_seen {db : Database} {row : TransactionObservationsRow}
    {pipeline record : String} (hrow : FromMessage row pipeline record)
    (hseen : pipelineAllowed (some pipeline) = true → db.HasSource pipeline record) :
    ∃ e, db.insertObservation row = .error e := by
  cases hins : db.insertObservation row with
  | error e => exact ⟨e, rfl⟩
  | ok r =>
    obtain ⟨hallowed, hnew, -⟩ := Database.insertObservation_eq_ok.mp hins
    rw [hrow.sourcePipeline] at hallowed
    have hold : db.hasSourceRecord row = true := Database.hasSourceRecord_iff.mpr
      ⟨pipeline, record, hrow.sourcePipeline, hrow.sourceRecordId, hseen hallowed⟩
    rw [hold] at hnew
    cases hnew

omit [Extern] in
/-- After an insertion under a fresh id the record has been seen. -/
theorem insertObservation_stores {db : Database} {row : TransactionObservationsRow}
    {pipeline record : String} (hrow : FromMessage row pipeline record)
    (hfresh : row.id ∉ db.observations.keys) (hallowed : pipelineAllowed (some pipeline) = true) :
    db.HasSource pipeline record ∨
      ∃ u db', db.insertObservation row = .ok (u, db') ∧ db'.HasSource pipeline record := by
  by_cases hseen : db.HasSource pipeline record
  · exact .inl hseen
  · right
    have hnew : db.hasSourceRecord row = false := by
      rw [Bool.eq_false_iff]
      intro hold
      obtain ⟨p, r, hp, hr, hsource⟩ := Database.hasSourceRecord_iff.mp hold
      rw [hrow.sourcePipeline] at hp
      rw [hrow.sourceRecordId] at hr
      cases hp
      cases hr
      exact hseen hsource
    cases hT : db.observations.insert? row with
    | none =>
      obtain ⟨x, hx, hid⟩ := Table.insert?_eq_none.mp hT
      exact absurd (Table.mem_keys.mpr ⟨x, hx, hid⟩) hfresh
    | some T =>
      have hok : db.insertObservation row = .ok ((), { db with observations := T }) := by
        refine Database.insertObservation_eq_ok.mpr ⟨?_, hnew, ?_, T, hT, rfl⟩
        · rw [hrow.sourcePipeline]
          exact hallowed
        · simp [hrow.canonicalTransactionId, hrow.instrumentId, hrow.statementId,
            hrow.statementEntryId, refersInto]
      exact ⟨(), _, hok, row, (Table.mem_of_insert? hT).mpr (.inr rfl), hrow.sourcePipeline,
        hrow.sourceRecordId⟩

/-- The second time a message comes without an instrument, nothing happens. -/
theorem ingestDrawn_again {pipeline record : String} {row row' : String → TransactionObservationsRow}
    (hrow : ∀ id, FromMessage (row id) pipeline record) (hid : ∀ id, (row id).id = id)
    (hrow' : ∀ id, FromMessage (row' id) pipeline record) {now now' : Int} {s s' : Store Database}
    (hfresh : uuid s.nextUuid ∉ s.db.observations.keys)
    (hobs : s'.db.observations = (ingestDrawn now row false s).db.observations) :
    (ingestDrawn now' row' false s').db = s'.db := by
  have hseen : pipelineAllowed (some pipeline) = true → s'.db.HasSource pipeline record := by
    intro hallowed
    unfold Database.HasSource
    rw [hobs, ingestDrawn_unreconciled]
    rcases insertObservation_stores (hrow (uuid s.nextUuid))
      (by rw [hid]; exact hfresh) hallowed with hold | ⟨u, db', hins, hnew⟩
    · obtain ⟨e, he⟩ := insertObservation_seen (hrow (uuid s.nextUuid)) fun _ => hold
      rw [he]
      exact hold
    · rw [hins]
      exact hnew
  rw [ingestDrawn_unreconciled]
  obtain ⟨e, he⟩ := insertObservation_seen (hrow' (uuid s'.nextUuid)) hseen
  rw [he]

end Dinero
