import Dinero.Outcomes
import Dinero.Unassigned

/-!
# Dinero.Layer6

`process_layer6_job`: what becomes of an unassigned payment once the language
model has answered.

The job goes through `Layer6Stage`s.  One step is one statement, or the one
transaction `reconcile_transactionally` opens; between two steps other callers
may get in, and the process may stop.  A job left to itself is through after
seven (`processLayer6Job`).

`Layer6Env` is what the job calls besides the database: the extraction ladder
and `chrono`.  What `resolve_instrument` answers comes with the model's answer;
it is an instrument of the table, old or new, or none.
-/

namespace Dinero

open Sql

/-! ## the model's answer -/

/-- The part of an `ExtractionResult` the job uses. -/
structure ExtractionResult where
  amountMinor : Option Int := none
  currency : Option String := none
  direction : Option String := none
  merchantRaw : Option String := none
  referenceId : Option String := none
  channel : Option String := none
  eventTime : Option Int := none
  confidenceScore : Option ℚ := none
  instrumentType : Option String := none
  issuerName : Option String := none
  maskedIdentifier : Option String := none
  network : Option String := none
deriving DecidableEq, Repr

/-- What the model made of the message; with a result, the instrument
`resolve_instrument` will find or create for it. -/
inductive Layer6Outcome
  | extracted (enriched : ExtractionResult) (instrument : Option InstrumentsRow)
  | rejected
  | timedOut
  | notATransaction
  | failed
deriving DecidableEq

structure Layer6Job where
  observationId : String
  unassignedId : String
  bankName : String
  bodyText : String
  internalDateSeconds : Option Int
deriving DecidableEq, Repr

/-- A job as it is persisted, and as it is replayed. -/
def Layer6Job.pending (job : Layer6Job) : PendingLayer6Job where
  id := job.unassignedId
  observationId := job.observationId
  bankName := job.bankName
  bodyText := job.bodyText
  internalDateSeconds := job.internalDateSeconds

/-- The extraction ladder, and the range of `chrono`'s times. -/
structure Layer6Env where
  applyInstrumentSignals : ExtractionResult → String → String → ExtractionResult
  detectChannel : ExtractionResult → String → Option String
  selfTransferDestinationAccount : Option String → Option String
  inRange : Int → Bool

/-- A result as the ladder hands it on. -/
def Layer6Env.signalled (env : Layer6Env) (job : Layer6Job) (enriched : ExtractionResult) :
    ExtractionResult :=
  let enriched := env.applyInstrumentSignals enriched job.bankName job.bodyText
  { enriched with channel := env.detectChannel enriched job.bodyText }

/-! ## the observation, filled in -/

def isSelfTransfer (row : TransactionObservationsRow) : Bool :=
  row.channel = some "internal_transfer"

/-- The row with the gaps filled: a field the model left empty keeps what was there. -/
def Layer6Env.enrich (env : Layer6Env) (enriched : ExtractionResult)
    (internalDateSeconds : Option Int) (row : TransactionObservationsRow) :
    TransactionObservationsRow :=
  let row := { row with
    amountMinor := enriched.amountMinor.or row.amountMinor
    currency := enriched.currency.or row.currency
    direction := enriched.direction.or row.direction
    merchantRaw := enriched.merchantRaw.or row.merchantRaw
    referenceId := enriched.referenceId.or row.referenceId
    channel := enriched.channel.or row.channel }
  let row := if isSelfTransfer row then
      match env.selfTransferDestinationAccount row.merchantRaw with
      | some account => { row with merchantRaw := some ("Internal Transfer (A/c " ++ account ++ ")") }
      | none => row
    else row
  { row with
    -- Indian time; an unusable time is left as it was
    eventTime := (((enriched.eventTime.filter env.inRange).or
      (internalDateSeconds.filter env.inRange)).map (· + (5 * 3600 + 30 * 60))).or row.eventTime
    confidenceScore := enriched.confidenceScore }

def layer6AutoResolveConfidenceThreshold : ℚ := 75 / 100

/-- `evaluate_gate3`. -/
def evaluateGate3 (hasAmount hasEntity hasBalance hasInstrument : Bool) : Bool :=
  hasAmount && hasEntity && hasInstrument || hasBalance

/-- The instrument the row is ready to be reconciled on. -/
def readyInstrument (row : TransactionObservationsRow) : Option String :=
  let hasNonzeroAmount := row.amountMinor.any (0 < ·)
  let confidentEnough := isSelfTransfer row ||
    row.confidenceScore.any (layer6AutoResolveConfidenceThreshold ≤ ·)
  row.instrumentId.filter fun _ => hasNonzeroAmount && confidentEnough &&
    evaluateGate3 row.amountMinor.isSome row.merchantRaw.isSome false true

/-- Why the row is not ready. -/
def gate3Reason (row : TransactionObservationsRow) : String :=
  if row.amountMinor.isNone then "gate3_failed:missing_amount"
  else if row.merchantRaw.isNone then "gate3_failed:missing_counterparty"
  else if row.instrumentId.isNone then "gate3_failed:missing_instrument"
  else "gate3_failed:low_confidence"

/-- The observation the job reconciles. -/
def layer6Incoming (row : TransactionObservationsRow) (instrumentId : String) :
    IncomingObservation :=
  { incomingOf row instrumentId with
    sourcePipeline := row.sourcePipeline.getD "gmail_transaction" }

/-! ## statements on the ledger -/

/-- `resolve_instrument`, by its answer: a new instrument is added to the table. -/
def Database.resolveInstrument (instrument : Option InstrumentsRow) (db : Database) : Database :=
  match instrument with
  | none => db
  | some r => { db with instruments := (db.instruments.insert? r).getD db.instruments }

/-- All columns but the id and the two times. -/
def rowPatch (row : TransactionObservationsRow) : Patch TransactionObservationsRow where
  run old := { row with id := old.id, createdAt := old.createdAt, updatedAt := old.updatedAt }
  key_run _ := rfl

/-- `UPDATE transaction_observations SET .. WHERE id = ?1 AND is_deleted = 0`; `none` if there
is no such row. -/
def Database.updateObservation (row : TransactionObservationsRow) (db : Database) :
    Option Database :=
  if (db.getObservation row.id).isSome then
    some { db with observations := db.observations.modify row.id (rowPatch row) }
  else none

variable [Extern]

/-- `reconcile_transactionally` on an idle connection, with no statement failing by itself. -/
def reconcileOn (obs : IncomingObservation) (now : Int) (s : Store Database) :
    Except SqlError DecisionType × Store Database :=
  let r := reconcileTransactionally obs (.quiet now) ⟨s, none⟩
  (r.1, r.2.store)

/-! ## the stages -/

/-- How far a job has come, with what it holds in memory. -/
inductive Layer6Stage
  /-- The model has answered. -/
  | answered (outcome : Layer6Outcome)
  /-- The entry was open. -/
  | opened (enriched : ExtractionResult) (instrument : Option InstrumentsRow)
  /-- The observation has a canonical already. -/
  | applied
  /-- The observation is read and filled in. -/
  | enriched (row : TransactionObservationsRow) (instrument : Option InstrumentsRow)
  /-- Its instrument is known, or known not to be. -/
  | attributed (row : TransactionObservationsRow)
  /-- It is written back. -/
  | written (row : TransactionObservationsRow)
  /-- It is in the ledger. -/
  | reconciled
  /-- It is no transaction, and the reason says so. -/
  | ignoring
  /-- The outcome is settled, or the job is to be replayed. -/
  | finished (completed : Bool)
  | ended
deriving DecidableEq

/-- A statement that may be refused, and what follows when it is not. -/
def Intake.try (w : Intake) (r : Except SqlError Entries) (next : Layer6Stage) :
    Intake × Layer6Stage :=
  match r with
  | .ok T => ({ w with entries := T }, next)
  | .error _ => (w, .finished false)

/-- The persisted row is deleted, if the job is completed. -/
def Intake.close (w : Intake) (job : Layer6Job) (completed : Bool) : Intake :=
  if completed then
    { w with layer6Jobs := w.layer6Jobs.keep fun j => j.id != job.unassignedId }
  else w

/-- The next statement of the job. -/
def Layer6Job.step (job : Layer6Job) (env : Layer6Env) (now : Int) (w : Intake) :
    Layer6Stage → Intake × Layer6Stage
  | .answered (.extracted enriched instrument) =>
    if w.entries.isOpen job.unassignedId then (w, .opened (env.signalled job enriched) instrument)
    else (w, .finished true)
  | .answered .rejected | .answered .timedOut =>
    if (w.entries.find? job.unassignedId).map (·.reason) = some "pending_llm_enrichment" then
      w.try (w.entries.updateReason job.unassignedId "extraction_failed") (.finished true)
    else (w, .finished true)
  | .answered .notATransaction =>
    w.try (w.entries.updateReason job.unassignedId "not_a_transaction") .ignoring
  | .answered .failed => (w, .finished false)
  | .ignoring => w.try (w.entries.updateStatus job.unassignedId .ignored) (.finished true)
  | .opened enriched instrument =>
    match w.ledger.db.getObservation job.observationId with
    | none => (w, .finished true)
    | some row =>
      if row.canonicalTransactionId.isSome then (w, .applied)
      else (w, .enriched (env.enrich enriched job.internalDateSeconds row) instrument)
  | .applied =>
    ({ w with entries := w.entries.settleIfOpen job.unassignedId .resolved }, .finished true)
  | .enriched row instrument =>
    ({ w with ledger := { w.ledger with db := w.ledger.db.resolveInstrument instrument } },
      .attributed { row with instrumentId := instrument.map (·.id) })
  | .attributed row =>
    match w.ledger.db.updateObservation row with
    | some db => ({ w with ledger := { w.ledger with db := db } }, .written row)
    | none => (w, .finished false)
  | .written row =>
    match readyInstrument row with
    | some instrumentId =>
      match reconcileOn (layer6Incoming row instrumentId) now w.ledger with
      | (.ok _, ledger) => ({ w with ledger }, .reconciled)
      | (.error _, ledger) => ({ w with ledger }, .finished false)
    | none => w.try (w.entries.updateReason job.unassignedId (gate3Reason row)) (.finished true)
  | .reconciled =>
    ({ w with entries := w.entries.settleIfOpen job.unassignedId .resolved }, .finished true)
  | .finished completed => (w.close job completed, .ended)
  | .ended => (w, .ended)

/-- `n` steps in a row. -/
def Layer6Job.steps (job : Layer6Job) (env : Layer6Env) (now : Int) :
    Nat → Intake × Layer6Stage → Intake × Layer6Stage
  | 0, p => p
  | n + 1, p => job.steps env now n (job.step env now p.1 p.2)

/-- `process_layer6_job`, left to itself. -/
def processLayer6Job (job : Layer6Job) (env : Layer6Env) (now : Int) (outcome : Layer6Outcome)
    (w : Intake) : Intake :=
  (job.steps env now 7 (w, .answered outcome)).1

/-! ## reconciling on an idle connection -/

/-- What was decided is committed; after an error the tables are those of before. -/
theorem reconcileOn_eq (obs : IncomingObservation) (now : Int) (s : Store Database) :
    reconcileOn obs now s = match fetchAndReconcile obs (.quiet now) s with
      | (.ok decision, s') => (.ok decision, s')
      | (.error e, s') => (.error e, { s' with db := s.db }) := by
  unfold reconcileOn reconcileTransactionally
  rw [Eff.bind_of_ok (beginImmediate_quiet rfl _ now), Eff.bind_apply, Eff.attempt_apply,
    Session.lift_apply]
  rcases fetchAndReconcile obs (.quiet now) s with ⟨e | decision, s'⟩
  · dsimp only
    rw [abandon_quiet]
  · dsimp only
    rw [Eff.bind_of_ok (commit_quiet rfl _ now)]
    rfl

/-- A reconciliation that succeeded acted on an observation of a known time. -/
theorem reconcileOn_acted {obs : IncomingObservation} {now : Int} {s s' : Store Database}
    {d : DecisionType} (h : reconcileOn obs now s = (.ok d, s')) :
    ∃ dt, obs.eventTime.parse = some dt ∧ Acted obs dt now s.db s'.db d := by
  rw [reconcileOn_eq] at h
  rcases hrun : fetchAndReconcile obs (.quiet now) s with ⟨e | decision, s₁⟩
  · rw [hrun] at h
    cases h
  · rw [hrun] at h
    obtain ⟨hd, rfl⟩ := Prod.mk.inj h
    obtain rfl := Except.ok.inj hd
    exact fetchAndReconcile_acted hrun

/-- One that failed left the tables alone. -/
theorem reconcileOn_error {obs : IncomingObservation} {now : Int} {s s' : Store Database}
    {e : SqlError} (h : reconcileOn obs now s = (.error e, s')) : s'.db = s.db := by
  rw [reconcileOn_eq] at h
  rcases hrun : fetchAndReconcile obs (.quiet now) s with ⟨e' | decision, s₁⟩
  · rw [hrun] at h
    obtain ⟨-, rfl⟩ := Prod.mk.inj h
    rfl
  · rw [hrun] at h
    cases h

/-- With the observation and its instrument stored, it is a matter of the event time. -/
theorem reconcileOn_ok_iff {obs : IncomingObservation} {now : Int} {s : Store Database}
    (hfresh : Fresh s) (hobs : s.db.observations.contains obs.id = true)
    (hinst : s.db.instruments.contains obs.instrumentId = true) :
    (∃ d s', reconcileOn obs now s = (.ok d, s')) ↔ obs.eventTime.parse ≠ none := by
  constructor
  · rintro ⟨d, s', h⟩
    obtain ⟨dt, hdt, -⟩ := reconcileOn_acted h
    simp [hdt]
  · intro h
    obtain ⟨dt, hdt⟩ := Option.ne_none_iff_exists'.mp h
    have hsucceeds : Succeeds now (fetchAndReconcile obs) s :=
      fetchAndReconcile_succeeds hfresh hdt hobs hinst
    obtain ⟨d, s', hrun⟩ := hsucceeds
    exact ⟨d, s', by rw [reconcileOn_eq, hrun]⟩

/-! ## how a job ends -/

section Ends

variable (job : Layer6Job) (env : Layer6Env) (now : Int)

theorem steps_add (m n : Nat) (p : Intake × Layer6Stage) :
    job.steps env now (m + n) p = job.steps env now n (job.steps env now m p) := by
  induction m generalizing p with
  | zero => rw [Nat.zero_add]; rfl
  | succ m ih =>
    rw [Nat.succ_add]
    exact ih _

theorem steps_ended (n : Nat) (w : Intake) : job.steps env now n (w, .ended) = (w, .ended) := by
  induction n with
  | zero => rfl
  | succ n ih => exact ih

/-- A job that is finished within six steps has closed after seven. -/
theorem processLayer6Job_eq {n : Nat} (hn : n ≤ 6) {outcome : Layer6Outcome} {w w₁ : Intake}
    {completed : Bool} (h : job.steps env now n (w, .answered outcome) = (w₁, .finished completed)) :
    processLayer6Job job env now outcome w = w₁.close job completed := by
  obtain ⟨k, hk⟩ : ∃ k, 7 = n + (k + 1) := ⟨6 - n, by omega⟩
  unfold processLayer6Job
  rw [hk, steps_add, h]
  show (job.steps env now k (w₁.close job completed, .ended)).1 = _
  rw [steps_ended]

variable {job env now}

omit [Extern] in
/-- Closing leaves no job, or does nothing. -/
theorem close_iff {w : Intake} {completed : Bool} :
    (∀ j ∈ (w.close job completed).layer6Jobs, j.id ≠ job.unassignedId) ↔
      (∀ j ∈ w.layer6Jobs, j.id ≠ job.unassignedId) ∨ completed = true := by
  cases completed with
  | false => simp [Intake.close]
  | true => simp [Intake.close]

end Ends

omit [Extern] in
@[simp] theorem entries_close (w : Intake) (job : Layer6Job) (completed : Bool) :
    (w.close job completed).entries = w.entries := by
  cases completed <;> rfl

omit [Extern] in
@[simp] theorem ledger_close (w : Intake) (job : Layer6Job) (completed : Bool) :
    (w.close job completed).ledger = w.ledger := by
  cases completed <;> rfl

/-- The canonical an observation is linked to. -/
def Intake.linkOf (w : Intake) (observationId : String) : Option String :=
  (w.ledger.db.observations.find? observationId).bind (·.canonicalTransactionId)

/-- No job is left for the entry, and an entry that had been settled is what it was. -/
def Layer6Job.Converges (job : Layer6Job) (w w' : Intake) : Prop :=
  (∀ j ∈ w'.layer6Jobs, j.id ≠ job.unassignedId) ∧
    ∀ entry, w.entries.find? job.unassignedId = some entry → entry.status ≠ .open →
      w'.entries.find? job.unassignedId = some entry ∧
        w'.linkOf entry.observationId = w.linkOf entry.observationId

/-- The row the job would write back. -/
def Layer6Job.attributed (job : Layer6Job) (env : Layer6Env) (enriched : ExtractionResult)
    (instrument : Option InstrumentsRow) (row : TransactionObservationsRow) :
    TransactionObservationsRow :=
  { env.enrich (env.signalled job enriched) job.internalDateSeconds row with
    instrumentId := instrument.map (·.id) }

/-- The outcome can be settled in the state it meets:
* a result for an open entry with an unlinked observation has an event time, if it is
  ready for the ledger;
* what is no transaction has an entry, and a resolved one it has not. -/
def Layer6Outcome.Settles (job : Layer6Job) (env : Layer6Env) (w : Intake) : Layer6Outcome → Prop
  | .extracted enriched instrument =>
    w.entries.isOpen job.unassignedId = true →
      ∀ row ∈ w.ledger.db.getObservation job.observationId, row.canonicalTransactionId = none →
        (readyInstrument (job.attributed env enriched instrument row)).isSome = true →
          (job.attributed env enriched instrument row).eventTime ≠ none
  | .rejected | .timedOut => True
  | .notATransaction =>
    w.entries.currentStatus job.unassignedId = some .open ∨
      w.entries.currentStatus job.unassignedId = some .ignored
  | .failed => False

instance decidableSettlesOutcome (job : Layer6Job) (env : Layer6Env) (w : Intake)
    (outcome : Layer6Outcome) :
    Decidable (outcome.Settles job env w) := by
  unfold Layer6Outcome.Settles
  split <;> infer_instance

/-- How a job ends: within six steps, with the persisted jobs untouched so far. -/
structure Layer6Job.Ends (job : Layer6Job) (env : Layer6Env) (now : Int) (outcome : Layer6Outcome)
    (w w₁ : Intake) (completed : Bool) : Prop where
  run : ∃ n ≤ 6, job.steps env now n (w, .answered outcome) = (w₁, .finished completed)
  jobs : w₁.layer6Jobs = w.layer6Jobs
  settled : ∀ entry, w.entries.find? job.unassignedId = some entry → entry.status ≠ .open →
    w₁.entries.find? job.unassignedId = some entry ∧ w₁.ledger = w.ledger
  completed_iff : completed = true ↔ outcome.Settles job env w

omit [Extern] in
/-- A refused statement ends the job where it is. -/
theorem try_cases (w : Intake) (r : Except SqlError Entries) (next : Layer6Stage) :
    (∃ T, r = .ok T ∧ w.try r next = ({ w with entries := T }, next)) ∨
      ((¬ ∃ T, r = .ok T) ∧ w.try r next = (w, .finished false)) := by
  cases r with
  | ok T => exact .inl ⟨T, rfl, rfl⟩
  | error e => exact .inr ⟨by simp, rfl⟩

variable {job : Layer6Job} {env : Layer6Env} {now : Int} {w : Intake}

theorem ends_rejected {outcome : Layer6Outcome} (h : outcome = .rejected ∨ outcome = .timedOut) :
    ∃ w₁ completed, job.Ends env now outcome w w₁ completed := by
  have hstep : job.step env now w (.answered outcome) =
      if (w.entries.find? job.unassignedId).map (·.reason) = some "pending_llm_enrichment" then
        w.try (w.entries.updateReason job.unassignedId "extraction_failed") (.finished true)
      else (w, .finished true) := by
    rcases h with rfl | rfl <;> rfl
  have hsettles : outcome.Settles job env w := by
    rcases h with rfl | rfl <;> trivial
  by_cases hreason : (w.entries.find? job.unassignedId).map (·.reason) =
      some "pending_llm_enrichment"
  · rw [if_pos hreason] at hstep
    rcases try_cases w (w.entries.updateReason job.unassignedId "extraction_failed")
      (.finished true) with ⟨T, hT, htry⟩ | ⟨hT, -⟩
    · refine ⟨_, true, ⟨1, by omega, hstep.trans htry⟩, rfl, ?_, by simp [hsettles]⟩
      intro entry hentry hclosed
      exact ⟨Entries.updateReason_keeps hT hentry hclosed, rfl⟩
    · -- an entry with a reason is there
      rw [Entries.updateReason_ok_iff, not_ne_iff, Entries.currentStatus_eq_none] at hT
      rw [hT] at hreason
      simp at hreason
  · rw [if_neg hreason] at hstep
    exact ⟨w, true, ⟨1, by omega, hstep⟩, rfl, fun entry hentry _ => ⟨hentry, rfl⟩,
      by simp [hsettles]⟩

theorem ends_notATransaction :
    ∃ w₁ completed, job.Ends env now .notATransaction w w₁ completed := by
  have hstatus : ∀ T, w.entries.updateReason job.unassignedId "not_a_transaction" = .ok T →
      T.currentStatus job.unassignedId = w.entries.currentStatus job.unassignedId := by
    intro T hT
    unfold Entries.updateReason at hT
    split at hT
    · simp at hT
    · obtain rfl := Except.ok.inj hT
      exact Entries.currentStatus_reason _ _
  rcases try_cases w (w.entries.updateReason job.unassignedId "not_a_transaction") .ignoring with
    ⟨T, hT, htry⟩ | ⟨hT, htry⟩
  · have hreason : ∀ entry, w.entries.find? job.unassignedId = some entry → entry.status ≠ .open →
        T.find? job.unassignedId = some entry := fun _ => Entries.updateReason_keeps hT
    rcases try_cases { w with entries := T } (Entries.updateStatus T job.unassignedId .ignored)
      (.finished true) with ⟨T', hT', htry'⟩ | ⟨hT', htry'⟩
    · refine ⟨{ w with entries := T' }, true, ⟨2, by omega, ?_⟩, rfl, ?_, ?_⟩
      · show job.steps env now 1 (w.try _ _) = _
        rw [htry]
        exact htry'
      · intro entry hentry hclosed
        exact ⟨Entries.updateStatus_keeps hT' (hreason entry hentry hclosed) hclosed, rfl⟩
      · have hmoved := Entries.updateStatus_ok_iff.mp ⟨T', hT'⟩
        rw [hstatus T hT] at hmoved
        simpa [Layer6Outcome.Settles] using hmoved
    · refine ⟨{ w with entries := T }, false, ⟨2, by omega, ?_⟩, rfl, ?_, ?_⟩
      · show job.steps env now 1 (w.try _ _) = _
        rw [htry]
        exact htry'
      · exact fun entry hentry hclosed => ⟨hreason entry hentry hclosed, rfl⟩
      · rw [Entries.updateStatus_ok_iff, hstatus T hT] at hT'
        simpa [Layer6Outcome.Settles] using hT'
  · refine ⟨w, false, ⟨1, by omega, htry⟩, rfl, fun entry hentry _ => ⟨hentry, rfl⟩, ?_⟩
    rw [Entries.updateReason_ok_iff, not_ne_iff] at hT
    simp [Layer6Outcome.Settles, hT]

omit [Extern] in
/-- The instrument found or created is in the table. -/
theorem contains_resolveInstrument (db : Database) (r : InstrumentsRow) :
    (db.resolveInstrument (some r)).instruments.contains r.id = true := by
  simp only [Database.resolveInstrument]
  cases hT : db.instruments.insert? r with
  | none =>
    obtain ⟨x, hx, hid⟩ := Table.insert?_eq_none.mp hT
    exact Table.contains_iff.mpr ⟨x, hx, hid⟩
  | some T => exact Table.contains_iff.mpr ⟨r, (Table.mem_of_insert? hT).mpr (.inr rfl), rfl⟩

omit [Extern] in
theorem resolveInstrument_eq (db : Database) (instrument : Option InstrumentsRow) :
    ∃ I, db.resolveInstrument instrument = { db with instruments := I } := by
  cases instrument with
  | none => exact ⟨db.instruments, rfl⟩
  | some r => exact ⟨_, rfl⟩

omit [Extern] in
theorem readyInstrument_eq_some {row : TransactionObservationsRow} {id : String}
    (h : readyInstrument row = some id) : row.instrumentId = some id :=
  (Option.filter_eq_some_iff.mp h).1

omit [Extern] in
theorem getObservation_eq_some {db : Database} {id : String} {row : TransactionObservationsRow}
    (h : db.getObservation id = some row) :
    db.observations.find? id = some row ∧ row.id = id ∧ row.isDeleted = false := by
  obtain ⟨hfind, hlive⟩ := Option.filter_eq_some_iff.mp h
  exact ⟨hfind, (Table.find?_eq_some.mp hfind).2, by simpa using hlive⟩

omit [Extern] in
/-- Filling a row in leaves its name and its link. -/
theorem attributed_id (enriched : ExtractionResult) (instrument : Option InstrumentsRow)
    (row : TransactionObservationsRow) :
    (job.attributed env enriched instrument row).id = row.id ∧
      (job.attributed env enriched instrument row).canonicalTransactionId =
        row.canonicalTransactionId := by
  unfold Layer6Job.attributed Layer6Env.enrich
  dsimp only
  split
  · split <;> exact ⟨rfl, rfl⟩
  · exact ⟨rfl, rfl⟩

/-- The tables once the row is written back. -/
def Database.writtenBack (db : Database) (instrument : Option InstrumentsRow)
    (row : TransactionObservationsRow) : Database :=
  { db.resolveInstrument instrument with
    observations := db.observations.modify row.id (rowPatch row) }

/-- A result for an unlinked observation is written back in four steps. -/
theorem steps_written (env : Layer6Env) (now : Int) (enriched : ExtractionResult)
    (instrument : Option InstrumentsRow) {row : TransactionObservationsRow} (hopen : w.entries.isOpen job.unassignedId = true)
    (hrow : w.ledger.db.getObservation job.observationId = some row)
    (hlink : row.canonicalTransactionId = none) :
    let full := job.attributed env enriched instrument row
    job.steps env now 4 (w, .answered (.extracted enriched instrument)) =
      ({ w with ledger := { w.ledger with db := w.ledger.db.writtenBack instrument full } },
        .written full) := by
  intro full
  obtain ⟨I, hI⟩ := resolveInstrument_eq w.ledger.db instrument
  obtain ⟨-, hid, -⟩ := getObservation_eq_some hrow
  have hfull : full.id = job.observationId := (attributed_id enriched instrument row).1.trans hid
  have hopened : job.step env now w (.answered (.extracted enriched instrument)) =
      (w, .opened (env.signalled job enriched) instrument) := if_pos hopen
  have henriched : job.step env now w (.opened (env.signalled job enriched) instrument) =
      (w, .enriched (env.enrich (env.signalled job enriched) job.internalDateSeconds row)
        instrument) := by
    simp only [Layer6Job.step, hrow, hlink]
    rfl
  have hwrite : (w.ledger.db.resolveInstrument instrument).updateObservation full =
      some (w.ledger.db.writtenBack instrument full) := by
    have hstored : ((w.ledger.db.resolveInstrument instrument).getObservation full.id).isSome =
        true := by
      rw [hfull, hI]
      exact Option.isSome_iff_exists.mpr ⟨row, hrow⟩
    rw [Database.updateObservation, if_pos hstored, Database.writtenBack, hI]
  show job.steps env now 3 (job.step env now w _) = _
  rw [hopened]
  show job.steps env now 2 (job.step env now w _) = _
  rw [henriched]
  show job.steps env now 1 ({ w with ledger := { w.ledger with
    db := w.ledger.db.resolveInstrument instrument } }, .attributed full) = _
  show job.step env now _ (.attributed full) = _
  simp only [Layer6Job.step, hwrite]

theorem fresh_writtenBack {s : Store Database} (h : Fresh s) (instrument : Option InstrumentsRow)
    (row : TransactionObservationsRow) :
    Fresh { s with db := s.db.writtenBack instrument row } := by
  obtain ⟨I, hI⟩ := resolveInstrument_eq s.db instrument
  unfold Fresh Database.writtenBack
  rw [hI]
  exact h

/-- A row that is ready goes into the ledger if it has an event time. -/
theorem reconcileOn_writtenBack (now : Int) {s : Store Database} (h : Fresh s)
    {instrument : Option InstrumentsRow} {row full : TransactionObservationsRow}
    (hrow : s.db.getObservation full.id = some row)
    (hfull : full.instrumentId = instrument.map (·.id)) {instrumentId : String}
    (hready : readyInstrument full = some instrumentId) :
    (∃ d s', reconcileOn (layer6Incoming full instrumentId) now
      { s with db := s.db.writtenBack instrument full } = (.ok d, s')) ↔ full.eventTime ≠ none := by
  obtain ⟨r, hr, rfl⟩ : ∃ r, instrument = some r ∧ r.id = instrumentId := by
    have := hfull.symm.trans (readyInstrument_eq_some hready)
    simpa using this
  subst hr
  have hobs : (s.db.writtenBack (some r) full).observations.contains full.id = true := by
    have hfind := (getObservation_eq_some hrow).1
    simp [Database.writtenBack, Table.contains, Table.find?_modify, hfind]
  have htime : (layer6Incoming full r.id).eventTime.parse = full.eventTime :=
    TimeText.parse_ofOption full.eventTime
  rw [← htime]
  exact reconcileOn_ok_iff (fresh_writtenBack h (some r) full) hobs
    (contains_resolveInstrument s.db r)

theorem ends_extracted (hfresh : Fresh w.ledger) (enriched : ExtractionResult)
    (instrument : Option InstrumentsRow) :
    ∃ w₁ completed, job.Ends env now (.extracted enriched instrument) w w₁ completed := by
  by_cases hopen : w.entries.isOpen job.unassignedId = true
  · -- the entry is open, so nothing is asked about settled ones
    have hclosed : ∀ entry, w.entries.find? job.unassignedId = some entry → entry.status ≠ .open →
        False := by
      intro entry hentry hstatus
      rw [Entries.isOpen_iff, Entries.currentStatus, hentry] at hopen
      exact hstatus (by simpa using hopen)
    have hopened : job.step env now w (.answered (.extracted enriched instrument)) =
        (w, .opened (env.signalled job enriched) instrument) := if_pos hopen
    cases hrow : w.ledger.db.getObservation job.observationId with
    | none =>
      refine ⟨w, true, ⟨2, by omega, ?_⟩, rfl, fun e he hs => (hclosed e he hs).elim, ?_⟩
      · show job.steps env now 1 (job.step env now w _) = _
        rw [hopened]
        show job.step env now w (.opened (env.signalled job enriched) instrument) = _
        simp only [Layer6Job.step, hrow]
      · simp [Layer6Outcome.Settles, hrow]
    | some row =>
      cases hlink : row.canonicalTransactionId with
      | some c =>
        refine ⟨{ w with entries := w.entries.settleIfOpen job.unassignedId .resolved }, true,
          ⟨3, by omega, ?_⟩, rfl, fun e he hs => (hclosed e he hs).elim, ?_⟩
        · show job.steps env now 2 (job.step env now w _) = _
          rw [hopened]
          show job.steps env now 1 (job.step env now w _) = _
          have happlied : job.step env now w (.opened (env.signalled job enriched) instrument) =
              (w, .applied) := by
            simp [Layer6Job.step, hrow, hlink]
          rw [happlied]
          rfl
        · simp [Layer6Outcome.Settles, hrow, hlink]
      | none =>
        have hfour := steps_written env now enriched instrument hopen hrow hlink
        dsimp only at hfour
        generalize hfull : job.attributed env enriched instrument row = full at hfour
        have hsettles : (Layer6Outcome.extracted enriched instrument).Settles job env w ↔
            ((readyInstrument full).isSome = true → full.eventTime ≠ none) := by
          simp only [Layer6Outcome.Settles, hopen, hrow, Option.mem_some_iff, forall_eq', hlink,
            forall_const, hfull]
        cases hready : readyInstrument full with
        | none =>
          have hentry : w.entries.currentStatus job.unassignedId ≠ none := by
            rw [Entries.isOpen_iff.mp hopen]
            simp
          obtain ⟨T, hT⟩ : ∃ T, w.entries.updateReason job.unassignedId (gate3Reason full) = .ok T :=
            Entries.updateReason_ok_iff.mpr hentry
          refine ⟨{ w with
              ledger := { w.ledger with db := w.ledger.db.writtenBack instrument full }
              entries := T }, true, ⟨5, by omega, ?_⟩, rfl,
            fun e he hs => (hclosed e he hs).elim, ?_⟩
          · rw [show (5 : Nat) = 4 + 1 from rfl, steps_add, hfour]
            show job.step env now _ (.written full) = _
            simp only [Layer6Job.step, hready, Intake.try, hT]
          · simp [hsettles, hready]
        | some instrumentId =>
          have hid : full.id = job.observationId := by
            rw [← hfull, (attributed_id enriched instrument row).1]
            exact (getObservation_eq_some hrow).2.1
          have hiff := reconcileOn_writtenBack now hfresh (hid ▸ hrow : _ = some row)
            (by rw [← hfull]; rfl : full.instrumentId = instrument.map (·.id)) hready
          rcases hrun : reconcileOn (layer6Incoming full instrumentId) now
            { w.ledger with db := w.ledger.db.writtenBack instrument full } with ⟨e | d, ledger⟩
          · refine ⟨{ w with ledger }, false, ⟨5, by omega, ?_⟩, rfl,
              fun e he hs => (hclosed e he hs).elim, ?_⟩
            · rw [show (5 : Nat) = 4 + 1 from rfl, steps_add, hfour]
              show job.step env now _ (.written full) = _
              simp only [Layer6Job.step, hready, hrun]
            · rw [hrun] at hiff
              simpa [hsettles, hready] using hiff
          · refine ⟨{ w with
                ledger
                entries := w.entries.settleIfOpen job.unassignedId .resolved }, true,
              ⟨6, by omega, ?_⟩, rfl, fun e he hs => (hclosed e he hs).elim, ?_⟩
            · rw [show (6 : Nat) = 4 + 2 from rfl, steps_add, hfour]
              show job.steps env now 1 (job.step env now _ (.written full)) = _
              simp only [Layer6Job.step, hready, hrun]
              rfl
            · rw [hrun] at hiff
              simpa [hsettles, hready] using hiff
  · have hstep : job.step env now w (.answered (.extracted enriched instrument)) =
        (w, .finished true) := if_neg hopen
    exact ⟨w, true, ⟨1, by omega, hstep⟩, rfl, fun entry hentry _ => ⟨hentry, rfl⟩,
      by simp [Layer6Outcome.Settles, hopen]⟩

/-- Every outcome comes to an end. -/
theorem Layer6Outcome.ends (job : Layer6Job) (env : Layer6Env) (now : Int)
    (hfresh : Fresh w.ledger) (outcome : Layer6Outcome) :
    ∃ w₁ completed, job.Ends env now outcome w w₁ completed := by
  cases outcome with
  | extracted enriched instrument => exact ends_extracted hfresh enriched instrument
  | rejected => exact ends_rejected (.inl rfl)
  | timedOut => exact ends_rejected (.inr rfl)
  | notATransaction => exact ends_notATransaction
  | failed => exact ⟨w, false, ⟨1, by omega, rfl⟩, rfl, fun entry hentry _ => ⟨hentry, rfl⟩,
      by simp [Layer6Outcome.Settles]⟩

/-- **When a job converges**: it was not persisted, or its outcome can be settled. -/
theorem layer6_converges_iff (hfresh : Fresh w.ledger) (outcome : Layer6Outcome) :
    job.Converges w (processLayer6Job job env now outcome w) ↔
      (∀ j ∈ w.layer6Jobs, j.id ≠ job.unassignedId) ∨ outcome.Settles job env w := by
  obtain ⟨w₁, completed, hends⟩ := outcome.ends job env now hfresh
  obtain ⟨n, hn, hrun⟩ := hends.run
  rw [processLayer6Job_eq job env now hn hrun, Layer6Job.Converges, close_iff, hends.jobs,
    hends.completed_iff]
  refine and_iff_left_of_imp fun _ entry hentry hclosed => ?_
  obtain ⟨hkept, hledger⟩ := hends.settled entry hentry hclosed
  rw [entries_close, Intake.linkOf, ledger_close, hledger]
  exact ⟨hkept, rfl⟩

/-- A ladder with nothing to add. -/
def plainLadder : Layer6Env where
  applyInstrumentSignals enriched _ _ := enriched
  detectChannel enriched _ := enriched.channel
  selfTransferDestinationAccount _ := none
  inRange _ := true

/-- The job of an entry, for an observation nobody has an instrument for. -/
def queuedJob : Layer6Job := ⟨"o1", "e1", "HDFC Bank", "Rs 500 debited", none⟩

def queued (status : EntryStatus) : Intake where
  ledger := (Op.ingest { observed "o1" "gmail_transaction" "debit" 500 1000 with
    instrumentId := none } false).run 1000 firstLedger
  entries := ⟨[⟨"e1", "o1", "pending_llm_enrichment", status⟩], by simp⟩
  layer6Jobs := ⟨[queuedJob.pending], by simp⟩

omit [Extern] in
theorem account_ne : "account" ≠ "" := by decide

/-- A confident answer that names the account. -/
def confident : Layer6Outcome :=
  .extracted { merchantRaw := some "ZOMATO", confidenceScore := some (9 / 10) }
    (some ⟨"account", account_ne⟩)

omit [Extern] in
theorem layer6_converges_open :
    letI := Extern.ascii
    queuedJob.Converges (queued .open)
      (processLayer6Job queuedJob plainLadder 2000 confident (queued .open)) := by
  let := Extern.ascii
  have hfresh : Fresh (queued .open).ledger :=
    Op.run_fresh initial_firstLedger.fresh 1000 _
  exact (layer6_converges_iff hfresh confident).mpr (.inr (by decide +kernel))

omit [Extern] in
/-- The user has resolved the entry, and the model finds no transaction: the job stays. -/
theorem layer6_resolved_replays :
    letI := Extern.ascii
    ¬ queuedJob.Converges (queued .resolved)
      (processLayer6Job queuedJob plainLadder 2000 .notATransaction (queued .resolved)) := by
  let := Extern.ascii
  have hstays : ∃ j ∈ (processLayer6Job queuedJob plainLadder 2000 .notATransaction
      (queued .resolved)).layer6Jobs, j.id = queuedJob.unassignedId := by decide +kernel
  obtain ⟨j, hj, hid⟩ := hstays
  exact fun h => h.1 j hj hid

end Dinero
