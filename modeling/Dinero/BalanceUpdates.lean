import Dinero.Deletion
import Dinero.Layer6Replay
import Dinero.Mandates
import Dinero.Runs

/-!
# Dinero.BalanceUpdates

Mail that reports a balance and no payment.

The message processor gives such a message the amount zero and hands it to the
transaction queue, as the mandate worker does with its events.  `Mailbox` has
the queue beside the ledger and the jobs of the language model; what each event
makes of the canonical transactions is compared with `BooksPayments`.
-/

namespace Dinero

open Sql

variable [Extern]

/-! ## the message processor -/

/-- An `ExtractionResult` with the balance it reports. -/
structure AlertExtraction extends ExtractionResult where
  balanceAfter : Option Int := none
deriving DecidableEq, Repr

/-- The classes of content that are extracted. -/
inductive ContentClass
  | transactionAlert
  | balanceUpdate
deriving DecidableEq, Repr

/-- Records a balance-only update as a placeholder observation. -/
def applyBalanceUpdatePlaceholder (contentClass : ContentClass) (obs : AlertExtraction) :
    AlertExtraction :=
  if obs.balanceAfter.isNone then obs
  else if contentClass = .balanceUpdate then
    { obs with
      merchantRaw := some "Balance Update"
      amountMinor := some 0
      direction := some "unknown"
      currency := some "INR" }
  else if obs.merchantRaw.isNone then
    { obs with
      merchantRaw := some "Balance Update"
      amountMinor := obs.amountMinor.or (some 0)
      direction := obs.direction.or (some "unknown")
      currency := obs.currency.or (some "INR") }
  else obs

def ExtractionResult.hasInstrument (obs : ExtractionResult) : Bool :=
  obs.instrumentType.isSome && obs.issuerName.isSome && obs.maskedIdentifier.isSome

/-- Gate 3: whether extraction recovered enough to record a transaction. -/
def AlertExtraction.passesGate3 (obs : AlertExtraction) : Bool :=
  evaluateGate3 obs.amountMinor.isSome obs.merchantRaw.isSome obs.balanceAfter.isSome
    obs.hasInstrument

/-- Names precisely which part of gate 3 failed. -/
def gate3FailureReason (obs : AlertExtraction) : String :=
  match obs.amountMinor.isSome, obs.merchantRaw.isSome, obs.hasInstrument with
  | false, _, _ => "gate3_failed:missing_amount"
  | true, false, _ => "gate3_failed:missing_counterparty"
  | true, true, false => "gate3_failed:missing_instrument"
  | true, true, true => "gate3_failed"

/-- A message whose body is an alert, and what the ladder made of it. -/
structure AlertMessage where
  id : String
  accountId : String
  bankName : String
  bodyText : String
  contentClass : ContentClass
  /-- `internal_date_fallback`. -/
  internalDateSeconds : Option Int
  extracted : Option AlertExtraction
deriving DecidableEq, Repr

/-- What the processor does to an extraction before gate 3. -/
def AlertMessage.prepared (m : AlertMessage)
    (selfTransferDestinationAccount : Option String → Option String) (obs : AlertExtraction) :
    AlertExtraction :=
  let merchantRaw := match selfTransferDestinationAccount obs.merchantRaw with
    | some account => some ("Internal Transfer (A/c " ++ account ++ ")")
    | none => obs.merchantRaw
  applyBalanceUpdatePlaceholder m.contentClass { obs with
    eventTime := obs.eventTime.or m.internalDateSeconds
    merchantRaw := merchantRaw.filter fun raw => isPlausibleMerchantName (stripNoiseTokens raw) }

def AlertMessage.job (m : AlertMessage) (obs : AlertExtraction) : TransactionJob where
  obs := obs.toExtractionResult
  sourcePipeline := "gmail_transaction"
  sourceRecordId := m.id
  connectedAccountId := m.accountId

/-- A balance-only message passes gate 3, and what it queues is no payment. -/
theorem AlertMessage.balance_update (m : AlertMessage)
    (selfTransferDestinationAccount : Option String → Option String) {obs : AlertExtraction}
    (hclass : m.contentClass = .balanceUpdate) (hbalance : obs.balanceAfter.isSome = true) :
    (m.prepared selfTransferDestinationAccount obs).passesGate3 = true ∧
      (m.job (m.prepared selfTransferDestinationAccount obs)).obs.amountMinor = some 0 := by
  have hnone : obs.balanceAfter.isNone = false := by
    rw [← Option.not_isSome, hbalance]
    rfl
  unfold AlertMessage.prepared applyBalanceUpdatePlaceholder AlertMessage.job
  simp [hnone, hclass, AlertExtraction.passesGate3, evaluateGate3, hbalance]

/-! ## the mailbox -/

structure Mailbox extends Registry where
  entries : Entries
  layer6Jobs : Table PendingLayer6Job
  /-- Jobs the transaction queue has not got to. -/
  queue : List TransactionJob

/-- The tables a Layer 6 job works on. -/
def Mailbox.intake (w : Mailbox) : Intake := ⟨w.ledger, w.entries, w.layer6Jobs⟩

def Mailbox.withIntake (w : Mailbox) (i : Intake) : Mailbox :=
  { w with ledger := i.ledger, entries := i.entries, layer6Jobs := i.layer6Jobs }

/-- Records an observation and its entry in one transaction, and a job for the language model
where the entry may be recovered. -/
def Mailbox.recordUnassigned (env : QueueEnv) (now : Int) (llmEligible : Bool) (m : AlertMessage)
    (obs : ExtractionResult) (reason : String) (w : Mailbox) : Mailbox :=
  let observationId := uuid w.ledger.nextUuid
  let unassignedId := uuid (w.ledger.nextUuid + 1)
  let row := normalizeObservation env obs "gmail_transaction" m.id observationId now
  let entry : UnassignedTransaction := ⟨unassignedId, observationId, reason, .open⟩
  let drawn := { w.ledger with nextUuid := w.ledger.nextUuid + 2 }
  match w.ledger.db.insertObservation row, w.entries.insert? entry with
  | .ok (_, db), some entries =>
    let recoverable := reason = "gate3_failed:missing_counterparty" ∨
      reason = "gate3_failed:missing_instrument" ∨ reason = "pending_llm_enrichment"
    let pending := (⟨observationId, unassignedId, m.bankName, m.bodyText,
      m.internalDateSeconds⟩ : Layer6Job).pending
    { w with
      ledger := { drawn with db := db }
      entries := entries
      layer6Jobs := if recoverable ∧ llmEligible = true then
          (w.layer6Jobs.insert? pending).getD w.layer6Jobs
        else w.layer6Jobs }
  | _, _ => { w with ledger := drawn }

/-- What can happen to the mailbox. -/
inductive MailEvent
  /-- An alert is processed. -/
  | alert (env : QueueEnv) (selfTransferDestinationAccount : Option String → Option String)
      (now : Int) (llmEligible : Bool) (m : AlertMessage)
  /-- A mandate event is handed on; its bookkeeping writes no transaction. -/
  | mandate (extraction : MandateExtraction) (eventType : MandateEventType)
      (messageId accountId : String)
  /-- A worker of the transaction queue takes the next job. -/
  | work (env : QueueEnv) (now : Int)
  /-- A Layer 6 job, for the first time or replayed, executes its next statement. -/
  | layer6 (job : Layer6Job) (env : Layer6Env) (now : Int) (stage : Layer6Stage)
  /-- The process stops, and the queue with it. -/
  | restart

def MailEvent.apply (w : Mailbox) : MailEvent → Mailbox
  | .alert env selfTransfer now llmEligible m =>
    match m.extracted with
    | some extracted =>
      let obs := m.prepared selfTransfer extracted
      if obs.passesGate3 then { w with queue := w.queue ++ [m.job obs] }
      else w.recordUnassigned env now llmEligible m obs.toExtractionResult (gate3FailureReason obs)
    | none =>
      w.recordUnassigned env now llmEligible m {}
        (if llmEligible then "pending_llm_enrichment" else "extraction_failed")
  | .mandate extraction eventType messageId accountId =>
    let job : MandateJob := ⟨extraction, eventType, "gmail_transaction", messageId, accountId⟩
    { w with queue := w.queue ++ [job.transactionJob] }
  | .work env now =>
    match w.queue with
    | [] => w
    | job :: rest =>
      { w with toRegistry := processTransactionJob env now job w.toRegistry, queue := rest }
  | .layer6 job env now stage => w.withIntake (job.step env now w.intake stage).1
  | .restart => { w with queue := [] }

def runMail (w : Mailbox) (es : List MailEvent) : Mailbox := es.foldl MailEvent.apply w

/-! ## what is asked of an event -/

/-- The amount an event is about to book, if there is one. -/
def MailEvent.amount (w : Mailbox) : MailEvent → Option Int
  | .work _ _ => w.queue.head?.bind (·.obs.amountMinor)
  | .layer6 _ _ _ (.written row) => row.amountMinor
  | .alert _ _ _ _ _ | .mandate _ _ _ _ | .layer6 _ _ _ _ | .restart => none

/-- A payment: an amount above zero. -/
def IsPayment (amount : Option Int) : Prop := ∃ a, amount = some a ∧ 0 < a

instance decidableIsPayment (amount : Option Int) : Decidable (IsPayment amount) :=
  decidable_of_iff (amount.any (0 < ·) = true) (by cases amount <;> simp [IsPayment])

/-- Whatever is created is a payment; and where there is none, nothing is created and no amount
changes. -/
structure BooksPayments (amount : Option Int) (db db' : Database) : Prop where
  created : ∀ t ∈ db'.transactions, t.id ∉ db.transactions.keys → IsPayment t.amountMinor
  untouched : ¬ IsPayment amount → ∀ t ∈ db'.transactions,
    ∃ t₀ ∈ db.transactions, t₀.id = t.id ∧ t₀.amountMinor = t.amountMinor

/-- The observation a job brings to the ledger, and the instrument it is for. -/
def TransactionJob.incoming (job : TransactionJob) (env : QueueEnv) (now : Int) (w : Registry) :
    Option String × TransactionObservationsRow × Database :=
  let (instrumentId, w) := w.resolve now job.obs.instrumentSignal
  (instrumentId, job.row env instrumentId (uuid w.ledger.nextUuid) now, w.ledger.db)

/-- The job gets a canonical transaction of its own: its instrument is known, it has a time, the
ledger takes the observation in and no live transaction takes it. -/
def TransactionJob.Creates (job : TransactionJob) (env : QueueEnv) (now : Int) (w : Registry) :
    Prop :=
  let (instrumentId, row, db) := job.incoming env now w
  ∃ i, instrumentId = some i ∧ row.eventTime ≠ none ∧ db.Accepts row ∧
    ¬ ∃ t, db.Takes (incomingOf row i) t

/-- A job without a payment creates nothing. -/
def MailEvent.Sound (w : Mailbox) : MailEvent → Prop
  | .work env now => ∀ job ∈ w.queue.head?, ¬ IsPayment job.obs.amountMinor →
      ¬ job.Creates env now w.toRegistry
  | .alert _ _ _ _ _ | .mandate _ _ _ _ | .layer6 _ _ _ _ | .restart => True

/-! ## what happens to canonical transactions -/

omit [Extern] in
theorem mergePatch_amountMinor {obs : IncomingObservation} (h : obs.sourcePipeline ≠ "statement_pdf")
    (mix : Option SourceMix) (overwrite : Bool) (now : Int) (t : TransactionsRow) :
    ((mergePatch obs mix overwrite now).run t).amountMinor = t.amountMinor := by
  unfold mergePatch
  rw [if_neg h]
  split
  · rfl
  split <;> rfl

/-- After a decision a transaction is an old one, whose amount only a statement changes, or the
new one, with the amount of the observation. -/
theorem Acted.amounts {obs : IncomingObservation} {dt now : Int} {d : DecisionType}
    {db db' : Database} (h : Acted obs dt now db db' d) {t : TransactionsRow}
    (ht : t ∈ db'.transactions) :
    (∃ t₀ ∈ db.transactions, t₀.id = t.id ∧
        (obs.sourcePipeline ≠ "statement_pdf" → t₀.amountMinor = t.amountMinor)) ∨
      (d = .newCanonical ∧ t.amountMinor = some obs.amountMinor) := by
  cases h with
  | merged _ t₁ overwrite _ _ _ hl _ =>
    left
    obtain ⟨u, hu, heq⟩ := Table.exists_of_map_eq hl.settled ht
    have hid : u.id = t.id := (congrArg TransactionsRow.id heq :)
    have hamount : u.amountMinor = t.amountMinor := (congrArg TransactionsRow.amountMinor heq :)
    rcases Table.mem_modify_cases hu with ⟨hold, -⟩ | ⟨r, hold, -, rfl⟩
    · exact ⟨u, hold, hid, fun _ => hamount⟩
    · refine ⟨r, hold, (Patch.key_run _ r).symm.trans hid, fun hpipeline => ?_⟩
      rw [← hamount, mergePatch_amountMinor hpipeline]
  | created id merchant T hT hl _ =>
    obtain ⟨u, hu, heq⟩ := Table.exists_of_map_eq hl.settled ht
    have hid : u.id = t.id := (congrArg TransactionsRow.id heq :)
    have hamount : u.amountMinor = t.amountMinor := (congrArg TransactionsRow.amountMinor heq :)
    rcases (Table.mem_of_insert? hT).mp hu with hold | rfl
    · exact .inl ⟨u, hold, hid, fun _ => hamount⟩
    · exact .inr ⟨rfl, hamount.symm⟩
  | raised clusterId db₁ D hraised hdb _ =>
    left
    rw [hdb] at ht
    have hsame : db₁.transactions = db.transactions := hraised.payments.2.1
    exact ⟨t, by rwa [hsame] at ht, rfl, fun _ => rfl⟩

namespace BooksPayments

omit [Extern]

theorem of_eq {amount : Option Int} {db db' : Database}
    (h : db'.transactions = db.transactions) : BooksPayments amount db db' where
  created t ht hnew := absurd (Table.mem_keys.mpr ⟨t, by rwa [h] at ht, rfl⟩) hnew
  untouched _ t ht := ⟨t, by rwa [h] at ht, rfl, rfl⟩

end BooksPayments

/-! ## the transaction queue -/

/-- An ingestion of mail keeps the amounts, but for a transaction of its own. -/
theorem ingest_amounts {row : TransactionObservationsRow}
    (hpipeline : row.sourcePipeline = some "gmail_transaction") (shouldReconcile : Bool)
    (now : Int) (s : Store Database) {t : TransactionsRow}
    (ht : t ∈ ((Op.ingest row shouldReconcile).run now s).db.transactions) :
    (∃ t₀ ∈ s.db.transactions, t₀.id = t.id ∧ t₀.amountMinor = t.amountMinor) ∨
      (t.amountMinor = some (row.amountMinor.getD 0) ∧
        ∃ i, row.instrumentId = some i ∧ row.eventTime ≠ none ∧ s.db.Accepts row ∧
          ¬ ∃ t, s.db.Takes (incomingOf row i) t) := by
  rcases Op.ingest_cases row shouldReconcile now s with
    hdb | ⟨db, hins, -, hrun⟩ | ⟨db, i, dt, d, hins, -, hi, hdt, hact⟩
  · exact .inl ⟨t, by rwa [hdb] at ht, rfl, rfl⟩
  · rw [hrun, transactions_insertObservation hins] at ht
    exact .inl ⟨t, ht, rfl, rfl⟩
  · have hparse : (incomingOf row i).eventTime.parse = some dt := by simp [incomingOf, hdt]
    have hmail : (incomingOf row i).sourcePipeline ≠ "statement_pdf" := by
      simp [incomingOf, hpipeline]
    rcases (actOn_acted (s := { s with db := db }) hparse hact).amounts ht with
      ⟨t₀, ht₀, hid, hamount⟩ | ⟨rfl, hamount⟩
    · rw [transactions_insertObservation hins] at ht₀
      exact .inl ⟨t₀, ht₀, hid, hamount hmail⟩
    · have hverdict := actOn_newCanonical hparse hact
      rw [Database.verdict_eq_newCanonical] at hverdict
      simp only [Database.takes_insertObservation hins] at hverdict
      exact .inr ⟨hamount, i, hi, by simp [hdt], Database.accepts_iff.mpr ⟨db, hins⟩, hverdict⟩

theorem resolve_ledger (w : Registry) (now : Int) (q : InstrumentSignal) :
    ∃ I, (w.resolve now q).2.ledger =
      { w.ledger with db := { w.ledger.db with instruments := I } } := by
  obtain ⟨I, hI⟩ := learnInstrument_eq w.ledger.db
    (resolveInstrument q (.quiet now) w.instruments).1.toOption.join
  exact ⟨I, by rw [Registry.resolve, hI]⟩

/-- What a job brings is what was extracted. -/
theorem job_row (job : TransactionJob) (env : QueueEnv) (instrumentId : Option String)
    (id : String) (now : Int) :
    (job.row env instrumentId id now).sourcePipeline = some job.sourcePipeline ∧
      (job.row env instrumentId id now).amountMinor = job.obs.amountMinor ∧
      (job.row env instrumentId id now).instrumentId = instrumentId := by
  unfold TransactionJob.row fingerprinted
  split <;> simp [normalizeObservation]

theorem Fresh.drawn {s : Store Database} (h : Fresh s) {n : Nat} (hn : s.nextUuid ≤ n) :
    Fresh { s with nextUuid := n } :=
  ⟨fun k hk => h.1 k (hn.trans hk), by simp⟩

/-- A job without a payment has to create nothing. -/
theorem processTransactionJob_books_iff {w : Registry} (hfresh : Fresh w.ledger)
    {job : TransactionJob} (hmail : job.sourcePipeline = "gmail_transaction") (env : QueueEnv)
    (now : Int) :
    BooksPayments job.obs.amountMinor w.ledger.db (processTransactionJob env now job w).ledger.db ↔
      (¬ IsPayment job.obs.amountMinor → ¬ job.Creates env now w) := by
  obtain ⟨I, hledger⟩ := resolve_ledger w now job.obs.instrumentSignal
  rcases hresolve : w.resolve now job.obs.instrumentSignal with ⟨instrumentId, w₁⟩
  rw [hresolve] at hledger
  have hsame : w₁.ledger.db.transactions = w.ledger.db.transactions := by rw [hledger]
  let s : Store Database := { w₁.ledger with nextUuid := w₁.ledger.nextUuid + 1 }
  let row := job.row env instrumentId (uuid w₁.ledger.nextUuid) now
  have hrun : (processTransactionJob env now job w).ledger =
      (Op.ingest row instrumentId.isSome).run now s := by
    unfold processTransactionJob ingestDrawn
    rw [hresolve]
  have hcreates : job.Creates env now w ↔ ∃ i, instrumentId = some i ∧ row.eventTime ≠ none ∧
      s.db.Accepts row ∧ ¬ ∃ t, s.db.Takes (incomingOf row i) t := by
    unfold TransactionJob.Creates TransactionJob.incoming
    rw [hresolve]
  obtain ⟨hpipeline, hamount, hinst⟩ := job_row job env instrumentId (uuid w₁.ledger.nextUuid) now
  rw [hmail] at hpipeline
  have hfresh' : Fresh s := by
    have hfresh₁ : Fresh w₁.ledger := by
      rw [hledger]
      exact hfresh
    exact hfresh₁.drawn (Nat.le_succ _)
  rw [hrun, hcreates]
  constructor
  · -- a transaction of its own has an id nothing had
    rintro hbooks hnone ⟨i, rfl, htime, haccepts, htakes⟩
    obtain ⟨dt, hdt⟩ := Option.ne_none_iff_exists'.mp htime
    obtain ⟨t, ht, hid, -⟩ := ingest_creates now hfresh' hinst hdt haccepts htakes
    obtain ⟨t₀, ht₀, hid₀, -⟩ := hbooks.untouched hnone t ht
    have hmem : uuid s.nextUuid ∈ s.db.transactions.keys := by
      refine Table.mem_keys.mpr ⟨t₀, ?_, hid₀.trans hid⟩
      show t₀ ∈ w₁.ledger.db.transactions
      rwa [hsame]
    exact hfresh'.not_mem (Database.mem_rowIds.mpr (.inl hmem))
  · intro hsound
    have hrows : ∀ t ∈ ((Op.ingest row instrumentId.isSome).run now s).db.transactions,
        (∃ t₀ ∈ w.ledger.db.transactions, t₀.id = t.id ∧ t₀.amountMinor = t.amountMinor) ∨
          (t.amountMinor = job.obs.amountMinor ∧ IsPayment job.obs.amountMinor) := by
      intro t ht
      rcases ingest_amounts hpipeline _ now s ht with hold | ⟨ht', i, hi, hcond⟩
      · left
        rwa [← hsame]
      · right
        have hpay : IsPayment job.obs.amountMinor := by
          by_contra hnone
          exact hsound hnone ⟨i, hinst.symm.trans hi, hcond⟩
        obtain ⟨a, ha, hpos⟩ := hpay
        refine ⟨?_, a, ha, hpos⟩
        rw [ht', show row.amountMinor = some a from hamount.trans ha, ha]
        rfl
    constructor
    · intro t ht hnew
      rcases hrows t ht with ⟨t₀, ht₀, hid, -⟩ | ⟨ht', hpay⟩
      · exact absurd (Table.mem_keys.mpr ⟨t₀, ht₀, hid⟩) hnew
      · rwa [ht']
    · intro hnone t ht
      rcases hrows t ht with hold | ⟨-, hpay⟩
      · exact hold
      · exact absurd hpay hnone

/-! ## the Layer 6 queue -/

omit [Extern] in
/-- What is ready for the ledger is a payment. -/
theorem isPayment_of_ready {row : TransactionObservationsRow} {instrumentId : String}
    (h : readyInstrument row = some instrumentId) : IsPayment row.amountMinor := by
  obtain ⟨-, hguard⟩ := Option.filter_eq_some_iff.mp h
  simp only [Bool.and_eq_true] at hguard
  have hpos := hguard.1.1
  rcases hamount : row.amountMinor with _ | a
  · rw [hamount] at hpos
    contradiction
  · rw [hamount] at hpos
    exact ⟨a, rfl, of_decide_eq_true hpos⟩

/-- But for the reconciliation, a step of a job changes instruments and observations at most. -/
theorem layer6_ledger (job : Layer6Job) (env : Layer6Env) (now : Int) (w : Intake)
    (stage : Layer6Stage) (h : ∀ row, stage = .written row → readyInstrument row = none) :
    ∃ I O, (job.step env now w stage).1.ledger =
      { w.ledger with db := { w.ledger.db with instruments := I, observations := O } } := by
  have hsame : ∀ {w' : Intake}, w'.ledger = w.ledger → ∃ I O, w'.ledger =
      { w.ledger with db := { w.ledger.db with instruments := I, observations := O } } :=
    fun hw => ⟨_, _, hw⟩
  have hattempt : ∀ r next, (w.try r next).1.ledger = w.ledger :=
    fun r next => attempt_ledger w r next
  cases stage with
  | answered outcome =>
    cases outcome with
    | extracted enriched instrument =>
      simp only [Layer6Job.step]
      split <;> exact hsame rfl
    | rejected | timedOut =>
      simp only [Layer6Job.step]
      split
      · exact hsame (hattempt _ _)
      · exact hsame rfl
    | notATransaction => exact hsame (hattempt _ _)
    | failed => exact hsame rfl
  | opened enriched instrument =>
    simp only [Layer6Job.step]
    split
    · exact hsame rfl
    · split <;> exact hsame rfl
  | applied => exact hsame rfl
  | enriched row instrument =>
    obtain ⟨I, hI⟩ := resolveInstrument_eq w.ledger.db instrument
    exact ⟨I, w.ledger.db.observations, by simp only [Layer6Job.step, hI]⟩
  | attributed row =>
    simp only [Layer6Job.step]
    split
    · next db hdb =>
      unfold Database.updateObservation at hdb
      split at hdb
      · rw [← Option.some.inj hdb]
        exact ⟨_, _, rfl⟩
      · contradiction
    · exact hsame rfl
  | written row =>
    simp only [Layer6Job.step, h row rfl]
    exact hsame (hattempt _ _)
  | reconciled => exact hsame rfl
  | ignoring => exact hsame (hattempt _ _)
  | finished completed => exact hsame (ledger_close w job completed)
  | ended => exact hsame rfl

/-- A Layer 6 job books payments only, whatever it has in memory. -/
theorem layer6_books (job : Layer6Job) (env : Layer6Env) (now : Int) (w : Mailbox)
    (stage : Layer6Stage) :
    BooksPayments ((MailEvent.layer6 job env now stage).amount w) w.ledger.db
      (job.step env now w.intake stage).1.ledger.db := by
  by_cases hready : ∃ row instrumentId, stage = .written row ∧
      readyInstrument row = some instrumentId
  · obtain ⟨row, instrumentId, rfl, hready⟩ := hready
    have hpay := isPayment_of_ready hready
    simp only [Layer6Job.step, hready]
    rcases hrun : reconcileOn (layer6Incoming row instrumentId) now w.intake.ledger with
      ⟨e | d, ledger⟩
    · refine .of_eq ?_
      rw [show ledger.db = w.ledger.db from reconcileOn_error hrun]
    · obtain ⟨dt, -, hacted⟩ := reconcileOn_acted hrun
      refine ⟨fun t ht hnew => ?_, fun hnone => absurd hpay hnone⟩
      rcases hacted.amounts ht with ⟨t₀, ht₀, hid, -⟩ | ⟨-, hamount⟩
      · exact absurd (Table.mem_keys.mpr ⟨t₀, ht₀, hid⟩) hnew
      · obtain ⟨a, ha, hpos⟩ := hpay
        refine ⟨a, ?_, hpos⟩
        rw [hamount]
        simp [layer6Incoming, incomingOf, ha]
  · obtain ⟨I, O, hledger⟩ := layer6_ledger job env now w.intake stage fun row hrow => by
      rcases hr : readyInstrument row with _ | instrumentId
      · rfl
      · exact absurd ⟨row, instrumentId, hrow, hr⟩ hready
    refine .of_eq ?_
    rw [hledger]
    rfl

theorem layer6_fresh {w : Mailbox} (h : Fresh w.ledger) (job : Layer6Job) (env : Layer6Env)
    (now : Int) (stage : Layer6Stage) : Fresh (job.step env now w.intake stage).1.ledger := by
  by_cases hready : ∃ row instrumentId, stage = .written row ∧
      readyInstrument row = some instrumentId
  · obtain ⟨row, instrumentId, rfl, hready⟩ := hready
    have hfresh : Fresh (reconcileOn (layer6Incoming row instrumentId) now w.intake.ledger).2 :=
      fresh_reconcileOn h
    simp only [Layer6Job.step, hready]
    rcases hrun : reconcileOn (layer6Incoming row instrumentId) now w.intake.ledger with
      ⟨e | d, ledger⟩
    · rwa [hrun] at hfresh
    · rwa [hrun] at hfresh
  · obtain ⟨I, O, hledger⟩ := layer6_ledger job env now w.intake stage fun row hrow => by
      rcases hr : readyInstrument row with _ | instrumentId
      · rfl
      · exact absurd ⟨row, instrumentId, hrow, hr⟩ hready
    rw [hledger]
    exact h

/-! ## runs -/

/-- The draws to come are unused, and whatever waits came by mail. -/
structure Mailbox.Sane (w : Mailbox) : Prop where
  fresh : Fresh w.ledger
  mail : ∀ job ∈ w.queue, job.sourcePipeline = "gmail_transaction"

theorem Mailbox.Sane.enqueue {w : Mailbox} (h : w.Sane) {job : TransactionJob}
    (hmail : job.sourcePipeline = "gmail_transaction") :
    Mailbox.Sane { w with queue := w.queue ++ [job] } := by
  refine ⟨h.fresh, fun j hj => ?_⟩
  rcases List.mem_append.mp hj with hj | hj
  · exact h.mail j hj
  · rw [List.mem_singleton.mp hj]
    exact hmail

/-- An entry for the user is no transaction. -/
theorem Mailbox.Sane.recordUnassigned {w : Mailbox} (h : w.Sane) (env : QueueEnv) (now : Int)
    (llmEligible : Bool) (m : AlertMessage) (obs : ExtractionResult) (reason : String) :
    (w.recordUnassigned env now llmEligible m obs reason).Sane ∧
      (w.recordUnassigned env now llmEligible m obs reason).ledger.db.transactions =
        w.ledger.db.transactions := by
  have hdrawn : Fresh { w.ledger with nextUuid := w.ledger.nextUuid + 2 } :=
    h.fresh.drawn (by omega)
  unfold Mailbox.recordUnassigned
  dsimp only
  split
  · next db entries hins hentry =>
    refine ⟨⟨?_, h.mail⟩, transactions_insertObservation hins⟩
    unfold Fresh FreshWith
    rw [rowIds_insertObservation hins]
    exact hdrawn
  · exact ⟨⟨hdrawn, h.mail⟩, rfl⟩

theorem processTransactionJob_fresh {w : Registry} (h : Fresh w.ledger) (env : QueueEnv)
    (now : Int) (job : TransactionJob) : Fresh (processTransactionJob env now job w).ledger := by
  obtain ⟨I, hledger⟩ := resolve_ledger w now job.obs.instrumentSignal
  have hfresh : Fresh (w.resolve now job.obs.instrumentSignal).2.ledger := by
    rw [hledger]
    exact h
  exact Op.run_fresh (hfresh.drawn (Nat.le_succ _)) now _

/-- One event: its condition is exact. -/
theorem MailEvent.step {w : Mailbox} (h : w.Sane) (e : MailEvent) :
    (e.apply w).Sane ∧
      (BooksPayments (e.amount w) w.ledger.db (e.apply w).ledger.db ↔ e.Sound w) := by
  cases e with
  | alert env selfTransfer now llmEligible m =>
    have hunassigned := h.recordUnassigned env now llmEligible m
    unfold MailEvent.apply MailEvent.Sound
    dsimp only
    split
    · split
      · exact ⟨h.enqueue rfl, iff_of_true (.of_eq rfl) trivial⟩
      · obtain ⟨hsane, hsame⟩ := hunassigned _ _
        exact ⟨hsane, iff_of_true (.of_eq hsame) trivial⟩
    · obtain ⟨hsane, hsame⟩ := hunassigned {}
        (if llmEligible then "pending_llm_enrichment" else "extraction_failed")
      exact ⟨hsane, iff_of_true (.of_eq hsame) trivial⟩
  | mandate extraction eventType messageId accountId =>
    exact ⟨h.enqueue rfl, iff_of_true (.of_eq rfl) trivial⟩
  | work env now =>
    rcases hqueue : w.queue with _ | ⟨job, rest⟩
    · have hidle : (MailEvent.work env now).apply w = w := by
        simp only [MailEvent.apply, hqueue]
      rw [hidle]
      refine ⟨h, iff_of_true (.of_eq rfl) ?_⟩
      simp [MailEvent.Sound, hqueue]
    · have hmail : job.sourcePipeline = "gmail_transaction" := h.mail job (by simp [hqueue])
      have hrest : ∀ j ∈ rest, j.sourcePipeline = "gmail_transaction" :=
        fun j hj => h.mail j (by simp [hqueue, hj])
      have hrun : (MailEvent.work env now).apply w =
          { w with toRegistry := processTransactionJob env now job w.toRegistry, queue := rest } := by
        simp only [MailEvent.apply, hqueue]
      have hamount : (MailEvent.work env now).amount w = job.obs.amountMinor := by
        simp [MailEvent.amount, hqueue]
      have hsound : (MailEvent.work env now).Sound w ↔
          (¬ IsPayment job.obs.amountMinor → ¬ job.Creates env now w.toRegistry) := by
        simp [MailEvent.Sound, hqueue]
      rw [hrun, hamount, hsound]
      exact ⟨⟨processTransactionJob_fresh h.fresh env now job, hrest⟩,
        processTransactionJob_books_iff h.fresh hmail env now⟩
  | layer6 job env now stage =>
    exact ⟨⟨layer6_fresh h.fresh job env now stage, h.mail⟩,
      iff_of_true (layer6_books job env now w stage) trivial⟩
  | restart =>
    exact ⟨⟨h.fresh, fun j hj => absurd hj List.not_mem_nil⟩, iff_of_true (.of_eq rfl) trivial⟩

theorem runMail_sane {w : Mailbox} (h : w.Sane) (es : List MailEvent) : (runMail w es).Sane := by
  induction es generalizing w with
  | nil => exact h
  | cons e es ih => exact ih (e.step h).1

omit [Extern] in
def emptyMailbox : Mailbox where
  ledger := firstLedger
  instruments := ⟨.empty, 0, none⟩
  entries := .empty
  layer6Jobs := .empty
  queue := []

omit [Extern] in
/-- An alert for an account of the bank. -/
def accountAlert (contentClass : ContentClass) (amountMinor : Option Int)
    (merchantRaw : Option String) : AlertMessage where
  id := "m1"
  accountId := "mail"
  bankName := "HDFC"
  bodyText := "Avl Bal Rs 5,000.00"
  contentClass := contentClass
  internalDateSeconds := some 1750000000
  extracted := some {
    amountMinor := amountMinor
    merchantRaw := merchantRaw
    balanceAfter := some 500000
    instrumentType := some "bank_account"
    issuerName := some "HDFC"
    maskedIdentifier := some "XX1234" }

omit [Extern] in
/-- A message that reports the balance alone, and its job. -/
def balanceReported : List MailEvent := [
  .alert minutes (fun _ => none) 10 true (accountAlert .balanceUpdate none none),
  .work minutes 11]

omit [Extern] in
theorem balanceReported_creates :
    letI := Extern.ascii
    ¬ ∀ t ∈ (runMail emptyMailbox balanceReported).ledger.db.transactions,
      t.id ∉ (runMail emptyMailbox (balanceReported.take 1)).ledger.db.transactions.keys →
        IsPayment t.amountMinor := by
  let := Extern.ascii
  decide +kernel

end Dinero
