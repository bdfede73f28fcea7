import Dinero.Merchants
import Dinero.Recurring
import Dinero.TransactionQueue

/-!
# Dinero.Mandates

A bank's message that a standing instruction was registered or cancelled.

The bookkeeping comes first, `recurring_payments` or the table of cancellations
nothing was found for; behind it goes a payment of zero, which is meant to mark
the message as seen.  `MandateDesk` has, beside the registry, that last table
with a supply of ids of its own.
-/

namespace Dinero

open Sql

variable [Extern]

/-! ## the message -/

structure MandateExtraction where
  merchant : Option String
  cadence : Option String
  maxLimitAmount : Option Int
  externalMandateId : Option String
  instrumentType : Option String
  issuerName : Option String
  maskedIdentifier : Option String
deriving DecidableEq, Repr

inductive MandateEventType
  | registration
  | cancellation
deriving DecidableEq, Repr

structure MandateJob where
  extraction : MandateExtraction
  eventType : MandateEventType
  sourcePipeline : String
  sourceRecordId : String
  connectedAccountId : String
deriving DecidableEq, Repr

def MandateExtraction.instrumentSignal (x : MandateExtraction) : InstrumentSignal :=
  ⟨x.instrumentType, x.issuerName, x.maskedIdentifier, none⟩

/-- The zero payment. -/
def MandateJob.transactionJob (job : MandateJob) : TransactionJob where
  obs :=
    { amountMinor := some 0
      currency := some "INR"
      direction := some "debit"
      merchantRaw := job.extraction.merchant
      instrumentType := job.extraction.instrumentType
      issuerName := job.extraction.issuerName
      maskedIdentifier := job.extraction.maskedIdentifier }
  sourcePipeline := job.sourcePipeline
  sourceRecordId := job.sourceRecordId
  connectedAccountId := job.connectedAccountId

/-! ## the tables -/

/-- The JSON object `raw_signal` holds. -/
structure CancellationSignal where
  merchant : Option String
  externalMandateId : Option String
  instrumentId : Option String
deriving DecidableEq, Repr

structure UnresolvedMandateCancellation where
  id : String
  rawSignal : CancellationSignal
  candidateIds : List String
  status : String
  createdAt : Int
  resolvedAt : Option Int
deriving DecidableEq, Repr

instance instKeyedUnresolvedMandateCancellation : Keyed UnresolvedMandateCancellation String :=
  ⟨(·.id)⟩

structure MandateDesk extends Registry where
  unresolved : Store (Table UnresolvedMandateCancellation)

/-- Records a cancellation notice with no matching mandate yet. -/
def insertUnresolved (rawSignal : CancellationSignal) (candidateIds : List String) (now : Int)
    (s : Store (Table UnresolvedMandateCancellation)) :
    Store (Table UnresolvedMandateCancellation) :=
  { s with
    db := (s.db.insert? ⟨uuid s.nextUuid, rawSignal, candidateIds, "unresolved", now, none⟩).getD s.db
    nextUuid := s.nextUuid + 1 }

def RecurringPaymentsRow.isActive (r : RecurringPaymentsRow) : Bool := r.status = some "active"

/-- Active payments that a cancellation notice might refer to. -/
def Database.findActiveCandidatesForCancellation (db : Database)
    (instrumentId merchantEntityId externalMandateId : Option String) :
    List RecurringPaymentsRow :=
  let byMandate := match externalMandateId with
    | some e => scan (db.recurringPayments.rows.filter fun r =>
        r.externalMandateId = some e && r.isActive)
    | none => []
  if byMandate ≠ [] then byMandate
  else match instrumentId, merchantEntityId with
    | some i, some m => scan (db.recurringPayments.rows.filter fun r => r.isFor i m && r.isActive)
    | _, _ => []

/-- What `mark_cancelled` sets. -/
def cancelledPatch (now : Int) : Patch RecurringPaymentsRow where
  run r := { r with status := some "cancelled", updatedAt := now }
  key_run _ := rfl

/-- Marks a recurring payment cancelled, stopping future predictions for it. -/
def Database.markCancelled (db : Database) (id : String) (now : Int) : Database :=
  { db with recurringPayments := db.recurringPayments.modify id (cancelledPatch now) }

/-! ## process_mandate_job -/

/-- `normalize_merchant_sync(..).ok()`, by the entity, where the message names a merchant. -/
def Registry.merchantEntity (now : Int) (merchant : Option String) (w : Registry) :
    Option String × Registry :=
  match merchant with
  | some raw =>
    let r := normalizeMerchantSync raw (.quiet now) w.ledger
    (entityOf r.1, { w with ledger := r.2 })
  | none => (none, w)

/-- The instrument and the merchant of a message. -/
def Registry.identify (now : Int) (x : MandateExtraction) (w : Registry) :
    (Option String × Option String) × Registry :=
  let a := w.resolve now x.instrumentSignal
  let b := a.2.merchantEntity now x.merchant
  ((a.1, b.1), b.2)

def MandateExtraction.mandate (x : MandateExtraction) (instrumentId merchantEntityId : String) :
    Mandate :=
  ⟨instrumentId, merchantEntityId, x.maxLimitAmount, "INR", x.cadence, x.externalMandateId⟩

/-- The arm of a registration. -/
def MandateDesk.register (now : Int) (x : MandateExtraction)
    (instrumentId merchantEntityId : Option String) (w : MandateDesk) : MandateDesk :=
  match instrumentId, merchantEntityId with
  | some i, some m => { w with ledger := (upsertExplicit (x.mandate i m) (.quiet now) w.ledger).2 }
  | _, _ => w

/-- The arm of a cancellation. -/
def MandateDesk.cancel (now : Int) (x : MandateExtraction)
    (instrumentId merchantEntityId : Option String) (w : MandateDesk) : MandateDesk :=
  match w.ledger.db.findActiveCandidatesForCancellation instrumentId merchantEntityId
      x.externalMandateId with
  | [r] => { w with ledger := { w.ledger with db := w.ledger.db.markCancelled r.id now } }
  | candidates =>
    { w with
      unresolved := insertUnresolved ⟨x.merchant, x.externalMandateId, instrumentId⟩
        (candidates.map (·.id)) now w.unresolved }

/-- The bookkeeping of a message. -/
def MandateDesk.record (now : Int) (job : MandateJob) (w : MandateDesk) : MandateDesk :=
  let a := w.toRegistry.identify now job.extraction
  let w : MandateDesk := { w with toRegistry := a.2 }
  match job.eventType with
  | .registration => w.register now job.extraction a.1.1 a.1.2
  | .cancellation => w.cancel now job.extraction a.1.1 a.1.2

/-- Processes one mandate event; `later` the transaction queue gets to the zero payment. -/
def processMandateJob (env : QueueEnv) (now later : Int) (job : MandateJob) (w : MandateDesk) :
    MandateDesk :=
  let w := w.record now job
  { w with toRegistry := processTransactionJob env later job.transactionJob w.toRegistry }

/-! ## what a message declares -/

/-- The instrument a signal resolves to; one that has to be created gets the `n`th id. -/
def Instruments.answer (T : Instruments) (n : Nat) (q : InstrumentSignal) : Option String :=
  match q.instrumentType, q.issuerName, q.maskedIdentifier with
  | some itype, some iname, some masked =>
    let key := InstrumentRequest.key ⟨itype, iname, masked, q.network⟩
    match T.findLive key with
    | some id => some id
    | none =>
      if key.1 ∈ validInstrumentTypes ∧ T.findAny key = none then some (uuid n) else none
  | none, some iname, none => T.resolveSingleInstrumentByIssuer iname
  | _, _, _ => none

/-- The pair a registration writes a row for, if it writes one.  The row has to refer to an
instrument, and no instrument has an empty id. -/
def MandateDesk.declared (w : MandateDesk) (x : MandateExtraction) : Option (String × String) :=
  match w.instruments.db.answer w.instruments.nextUuid x.instrumentSignal,
      x.merchant.bind (w.ledger.db.merchantEntity w.ledger.nextUuid) with
  | some i, some m =>
    if (w.ledger.db.explicitFor i m).isSome ∨ i ≠ "" then some (i, m) else none
  | _, _ => none

omit [Extern] in
theorem Instruments.findAny_eq_none {T : Instruments} {k : NaturalKey} :
    T.findAny k = none ↔ ∀ r ∈ T, r.naturalKey ≠ some k := by
  unfold findAny
  rw [Option.map_eq_none_iff, List.find?_eq_none]
  simp [Indexed.mem_def]

theorem getOrCreateInstrument_answer (q : InstrumentRequest) {s : Store Instruments}
    (hunused : UnusedIds s) (now : Int) :
    (getOrCreateInstrument q (.quiet now) s).1.toOption =
      match s.db.findLive q.key with
      | some id => some id
      | none =>
        if q.key.1 ∈ validInstrumentTypes ∧ s.db.findAny q.key = none then some (uuid s.nextUuid)
        else none := by
  rw [getOrCreateInstrument_quiet]
  cases hfirst : s.db.findLive q.key with
  | some id => rfl
  | none =>
    dsimp only
    have hdead : ¬ ∃ id, s.db.HasLive q.key id := by
      rintro ⟨id, hid⟩
      rw [Instruments.findLive_eq_some.mpr hid] at hfirst
      cases hfirst
    by_cases hfits : q.key.1 ∈ validInstrumentTypes ∧ s.db.findAny q.key = none
    · -- the row goes in, and it is the live one
      have hfree := Instruments.findAny_eq_none.mp hfits.2
      have hin : (afterIngest q.key q.network now s).db.HasLive q.key (uuid s.nextUuid) := by
        have hobtained : ∃ id, (afterIngest q.key q.network now s).db.HasLive q.key id :=
          (Instruments.insertOrIgnore_obtains (hunused s.nextUuid (Nat.le_refl _))).mpr
            (.inr ⟨hfits.1, hfree⟩)
        obtain ⟨id, r, hr, hk, hlive, rfl⟩ := hobtained
        rcases Instruments.mem_of_mem_insertOrIgnore hr with hold | rfl
        · exact absurd hk (hfree r hold)
        · exact ⟨_, hr, hk, hlive, rfl⟩
      rw [if_pos hfits, Instruments.findLive_eq_some.mpr hin]
      rfl
    · rw [if_neg hfits]
      have hnot : ¬ s.db.Obtainable q.key := by
        rintro (hlive | ⟨htype, hfree⟩)
        · exact hdead hlive
        · exact hfits ⟨htype, Instruments.findAny_eq_none.mpr hfree⟩
      have hsame : (afterIngest q.key q.network now s).db = s.db :=
        insertOrIgnore_refused hnot q.network _ now
      rw [hsame, hfirst]
      rfl

/-- The code resolves to `answer`. -/
theorem resolveInstrument_answer (q : InstrumentSignal) {s : Store Instruments}
    (hunused : UnusedIds s) (now : Int) :
    (resolveInstrument q (.quiet now) s).1.toOption.join = s.db.answer s.nextUuid q := by
  obtain ⟨itype, iname, masked, network⟩ := q
  cases itype with
  | none =>
    cases iname with
    | none => rfl
    | some iname => cases masked <;> rfl
  | some itype =>
    cases iname with
    | none => rfl
    | some iname =>
      cases masked with
      | none => rfl
      | some masked =>
        have hrun := getOrCreateInstrument_answer ⟨itype, iname, masked, network⟩ hunused now
        simp only [resolveInstrument, Instruments.answer]
        rw [← hrun, Eff.bind_apply]
        obtain ⟨answer, s'⟩ := getOrCreateInstrument ⟨itype, iname, masked, network⟩ (.quiet now) s
        cases answer <;> rfl

/-! ## identifying again -/

/-- The desk's ids: none that is still to be drawn names a row. -/
structure MandateDesk.Unused (w : MandateDesk) : Prop where
  ledger : Fresh w.ledger
  recurringPayments : ∀ n, w.ledger.nextUuid ≤ n → uuid n ∉ w.ledger.db.recurringPayments.keys
  observations : ∀ n, w.ledger.nextUuid ≤ n → uuid n ∉ w.ledger.db.observations.keys
  instruments : UnusedIds w.instruments
  unresolved : ∀ n, w.unresolved.nextUuid ≤ n → uuid n ∉ w.unresolved.db.keys

omit [Extern] in
/-- An instrument with an id is one the foreign keys see. -/
theorem learnInstrument_contains {db : Database} {id : String} (h : id ≠ "") :
    (db.learnInstrument (some id)).instruments.contains id = true := by
  rw [Table.contains_iff]
  simp only [Database.learnInstrument, dif_pos h, Database.resolveInstrument]
  cases hT : db.instruments.insert? ⟨id, h⟩ with
  | some T =>
    have hin : (⟨id, h⟩ : InstrumentsRow) ∈ T := (Table.mem_of_insert? hT).mpr (.inr rfl)
    exact ⟨⟨id, h⟩, hin, rfl⟩
  | none =>
    obtain ⟨x, hx, hid⟩ := Table.insert?_eq_none.mp hT
    exact ⟨x, hx, hid⟩

/-- Naming a merchant writes merchants and aliases, under new ids. -/
theorem merchantEntity_effect (now : Int) (merchant : Option String) (w : Registry) :
    (w.merchantEntity now merchant).2.instruments = w.instruments ∧
      LearnsMerchants w.ledger.db (w.merchantEntity now merchant).2.ledger.db := by
  cases merchant with
  | none => exact ⟨rfl, .refl _⟩
  | some raw =>
    have hlearn := (within_normalizeMerchantSync raw).related LearnsMerchants.refl
      LearnsMerchants.trans (.quiet now) w.ledger
    simp only [Registry.merchantEntity]
    exact ⟨trivial, hlearn⟩

/-- The answer is a matter of the merchants and their aliases. -/
theorem Database.merchantEntity_congr {db db' : Database} (hm : db'.merchants = db.merchants)
    (ha : db'.merchantAliases = db.merchantAliases) (n : Nat) (raw : String) :
    db'.merchantEntity n raw = db.merchantEntity n raw := by
  simp only [merchantEntity, Database.selectByAlias, liveMerchants, hm, ha]

/-- Resolving the instrument is nothing to the other tables. -/
theorem resolve_effect (now : Int) (q : InstrumentSignal) (w : Registry) :
    ∃ I, (w.resolve now q).2.ledger = { w.ledger with db := { w.ledger.db with instruments := I } } := by
  obtain ⟨I, hlearn⟩ := learnInstrument_eq w.ledger.db (w.resolve now q).1
  refine ⟨I, ?_⟩
  rw [← hlearn]
  rfl

/-- What identifying a message leaves of the ledger. -/
theorem identify_effect (now : Int) (x : MandateExtraction) (w : Registry) :
    (w.identify now x).2.ledger.db.recurringPayments = w.ledger.db.recurringPayments ∧
      (w.identify now x).2.ledger.db.observations = w.ledger.db.observations := by
  obtain ⟨-, T, A, hdb⟩ := merchantEntity_effect now x.merchant (w.resolve now x.instrumentSignal).2
  obtain ⟨I, hledger⟩ := resolve_effect now x.instrumentSignal w
  simp only [Registry.identify, hdb, hledger, and_self]

/-- The merchant a message names, and what its run of the normaliser comes to. -/
theorem merchantEntity_run (now : Int) (raw : String) (w : Registry) :
    ∃ answer, (w.merchantEntity now (some raw)).1 = answer.filter (· ≠ "") ∧
      NormalizerRun raw w.ledger answer (w.merchantEntity now (some raw)).2.ledger.db := by
  simp only [Registry.merchantEntity]
  exact normalizerRun raw now w.ledger

/-- The instrument and the merchant are those the state before has for them. -/
theorem identify_answer {w : Registry} (hunused : UnusedIds w.instruments) (now : Int)
    (x : MandateExtraction) : (w.identify now x).1 =
      (w.instruments.db.answer w.instruments.nextUuid x.instrumentSignal,
        x.merchant.bind (w.ledger.db.merchantEntity w.ledger.nextUuid)) := by
  refine Prod.ext (resolveInstrument_answer x.instrumentSignal hunused now) ?_
  simp only [Registry.identify]
  cases x.merchant with
  | none => rfl
  | some raw =>
    obtain ⟨answer, hentity, hrun⟩ := merchantEntity_run now raw
      (w.resolve now x.instrumentSignal).2
    obtain ⟨I, hledger⟩ := resolve_effect now x.instrumentSignal w
    have hsame : ({ w.ledger.db with instruments := I } : Database).merchantEntity
        w.ledger.nextUuid raw = w.ledger.db.merchantEntity w.ledger.nextUuid raw :=
      Database.merchantEntity_congr rfl rfl _ raw
    have hanswer := hrun.merchantEntity_eq
    rw [hledger, hsame] at hanswer
    rw [hentity, ← hanswer, Option.bind_some]

/-- **Identified again, a message names the same.** -/
theorem identify_again {w w' : Registry} (hunused : UnusedIds w.instruments)
    (hfresh : Fresh w.ledger) (hself : ∀ a : String, jaroWinkler a a = 1) {now : Int}
    {x : MandateExtraction}
    (hT : w'.instruments.db = (w.identify now x).2.instruments.db)
    (hm : w'.ledger.db.merchants = (w.identify now x).2.ledger.db.merchants)
    (ha : w'.ledger.db.merchantAliases = (w.identify now x).2.ledger.db.merchantAliases)
    (now' : Int) :
    (w'.identify now' x).1 = (w.identify now x).1 ∧
      (w'.identify now' x).2.instruments.db = w'.instruments.db := by
  have hinstruments := (merchantEntity_effect now x.merchant (w.resolve now x.instrumentSignal).2).1
  have hinstruments' := (merchantEntity_effect now' x.merchant
    (w'.resolve now' x.instrumentSignal).2).1
  have hstore : w'.instruments.db =
      (resolveInstrument x.instrumentSignal (.quiet now) w.instruments).2.db :=
    hT.trans (congrArg (·.db) hinstruments)
  obtain ⟨hanswer, hsame⟩ := settled_resolve x.instrumentSignal hunused now w'.instruments now'
    hstore
  constructor
  · refine Prod.ext hanswer ?_
    simp only [Registry.identify] at hm ha ⊢
    obtain ⟨I, hledger⟩ := resolve_effect now x.instrumentSignal w
    obtain ⟨I', hledger'⟩ := resolve_effect now' x.instrumentSignal w'
    cases hmerchant : x.merchant with
    | none => rfl
    | some raw =>
      rw [hmerchant] at hm ha
      obtain ⟨answer, hentity, hrun⟩ := merchantEntity_run now raw
        (w.resolve now x.instrumentSignal).2
      obtain ⟨answer', hentity', hrun'⟩ := merchantEntity_run now' raw
        (w'.resolve now' x.instrumentSignal).2
      have hfree : (w.resolve now x.instrumentSignal).2.ledger.db.merchants.contains
          (uuid (w.resolve now x.instrumentSignal).2.ledger.nextUuid) = false := by
        rw [hledger]
        exact hfresh.merchants (Nat.le_refl _)
      have hmerchants : (w'.resolve now' x.instrumentSignal).2.ledger.db.merchants =
          w'.ledger.db.merchants := by rw [hledger']
      have haliases : (w'.resolve now' x.instrumentSignal).2.ledger.db.merchantAliases =
          w'.ledger.db.merchantAliases := by rw [hledger']
      rw [hentity, hentity', ← hrun'.merchantEntity_eq]
      exact hrun.again hself hfree (hmerchants.trans hm) (haliases.trans ha)
  · exact (congrArg (·.db) hinstruments').trans (hsame.trans hstore.symm)

/-- What a message names, the foreign keys see. -/
theorem identify_contains {now : Int} {x : MandateExtraction} {w : Registry} {i m : String}
    (hi : (w.identify now x).1.1 = some i) (hm : (w.identify now x).1.2 = some m) (hne : i ≠ "") :
    (w.identify now x).2.ledger.db.instruments.contains i = true ∧
      (w.identify now x).2.ledger.db.merchants.contains m = true := by
  have hresolve : (w.resolve now x.instrumentSignal).2.ledger.db.instruments.contains i = true := by
    have hfirst : (w.resolve now x.instrumentSignal).1 = some i := hi
    have hdb : (w.resolve now x.instrumentSignal).2.ledger.db =
      w.ledger.db.learnInstrument (w.resolve now x.instrumentSignal).1 := rfl
    rw [hdb, hfirst]
    exact learnInstrument_contains hne
  obtain ⟨-, T, A, hdb⟩ := merchantEntity_effect now x.merchant (w.resolve now x.instrumentSignal).2
  constructor
  · simp only [Registry.identify, hdb, hresolve]
  · simp only [Registry.identify] at hm ⊢
    cases hmerchant : x.merchant with
    | none =>
      rw [hmerchant] at hm
      cases hm
    | some raw =>
      rw [hmerchant] at hm
      obtain ⟨answer, hentity, hrun⟩ := merchantEntity_run now raw
        (w.resolve now x.instrumentSignal).2
      rw [hentity] at hm
      exact hrun.contains (Option.filter_eq_some_iff.mp hm).1

/-- Identifying draws ids and leaves the others fresh. -/
theorem identify_fresh {w : Registry} (hfresh : Fresh w.ledger) (now : Int)
    (x : MandateExtraction) : Fresh (w.identify now x).2.ledger ∧
      w.ledger.nextUuid ≤ (w.identify now x).2.ledger.nextUuid := by
  obtain ⟨I, hledger⟩ := resolve_effect now x.instrumentSignal w
  have hresolved : Fresh (w.resolve now x.instrumentSignal).2.ledger := by
    rw [hledger]
    exact hfresh
  have hnext : (w.resolve now x.instrumentSignal).2.ledger.nextUuid = w.ledger.nextUuid := by
    rw [hledger]
  simp only [Registry.identify]
  cases x.merchant with
  | none => exact ⟨hresolved, Nat.le_of_eq hnext.symm⟩
  | some raw =>
    have hkeeps : Fresh (normalizeMerchantSync raw (.quiet now)
        (w.resolve now x.instrumentSignal).2.ledger).2 :=
      keeps_normalizeMerchantSync raw (.quiet now) _ hresolved
    have hle := nextUuid_le_of_keeps (fun _ => keeps_normalizeMerchantSync raw) hresolved
      (.quiet now)
    rw [hnext] at hle
    simp only [Registry.merchantEntity]
    exact ⟨hkeeps, hle⟩

/-! ## the bookkeeping and the zero payment -/

/-- A declaration writes one table. -/
theorem upsertExplicit_effect (d : Mandate) (now : Int) (s : Store Database) :
    (∃ R, (upsertExplicit d (.quiet now) s).2.db = { s.db with recurringPayments := R }) ∧
      s.nextUuid ≤ (upsertExplicit d (.quiet now) s).2.nextUuid := by
  unfold upsertExplicit
  rw [Eff.bind_of_ok (show update (fun _ db => .ok (db.explicitFor d.instrumentId
    d.merchantEntityId, db)) (.quiet now) s = (.ok (s.db.explicitFor d.instrumentId
    d.merchantEntityId), s) from rfl)]
  rcases s.db.explicitFor d.instrumentId d.merchantEntityId with _ | r
  · dsimp only
    rw [Eff.bind_of_ok (newUuid_apply _ _ _), Eff.bind_apply]
    simp only [update, Ctx.quiet]
    rcases hins : s.db.insertRecurring (d.row (uuid s.nextUuid) now) now with e | ⟨u, db⟩
    · exact ⟨⟨_, rfl⟩, Nat.le_succ _⟩
    · obtain ⟨T', -, -, rfl⟩ := insertInto_eq_ok.mp hins
      exact ⟨⟨T', rfl⟩, Nat.le_succ _⟩
  · exact ⟨⟨_, rfl⟩, Nat.le_refl _⟩

/-- What the bookkeeping leaves of the registry. -/
theorem record_effect (now : Int) (job : MandateJob) (w : MandateDesk) :
    (∃ R, (w.record now job).ledger.db =
      { (w.identify now job.extraction).2.ledger.db with recurringPayments := R }) ∧
      (w.record now job).instruments = (w.identify now job.extraction).2.instruments ∧
      (w.identify now job.extraction).2.ledger.nextUuid ≤ (w.record now job).ledger.nextUuid := by
  unfold MandateDesk.record
  cases job.eventType with
  | registration =>
    simp only [MandateDesk.register]
    split
    · next i m _ _ =>
        obtain ⟨hdb, hnext⟩ := upsertExplicit_effect (job.extraction.mandate i m) now
          (w.identify now job.extraction).2.ledger
        exact ⟨hdb, rfl, hnext⟩
    · exact ⟨⟨_, rfl⟩, rfl, Nat.le_refl _⟩
  | cancellation =>
    simp only [MandateDesk.cancel]
    split
    · exact ⟨⟨_, rfl⟩, rfl, Nat.le_refl _⟩
    · exact ⟨⟨_, rfl⟩, rfl, Nat.le_refl _⟩

/-- The fingerprint is the only column added. -/
theorem zeroPayment_row (env : QueueEnv) (later : Int) (job : MandateJob)
    (instrumentId : Option String) (id : String) :
    (job.transactionJob.row env instrumentId id later).instrumentId = instrumentId ∧
      (job.transactionJob.row env instrumentId id later).eventTime = none := by
  unfold TransactionJob.row fingerprinted
  split <;> exact ⟨rfl, rfl⟩

/-- The zero payment has no event time: with an instrument it is not ingested. -/
theorem zeroPayment_effect (env : QueueEnv) (later : Int) (job : MandateJob) (w : Registry) :
    ∃ I T, (processTransactionJob env later job.transactionJob w).ledger.db =
      { w.ledger.db with instruments := I, observations := T } ∧
      ((w.resolve later job.extraction.instrumentSignal).1.isSome →
        T = w.ledger.db.observations) := by
  obtain ⟨I, hledger⟩ := resolve_effect later job.extraction.instrumentSignal w
  have hledger' : (processTransactionJob env later job.transactionJob w).ledger =
    ingestDrawn later (job.transactionJob.row env
      (w.resolve later job.extraction.instrumentSignal).1 · later)
      (w.resolve later job.extraction.instrumentSignal).1.isSome
      (w.resolve later job.extraction.instrumentSignal).2.ledger := rfl
  rw [hledger', hledger]
  cases hanswer : (w.resolve later job.extraction.instrumentSignal).1 with
  | some i =>
    have hinst : ∀ id,
        (job.transactionJob.row env (some i) id later).instrumentId.isSome = true := by
      intro id
      rw [(zeroPayment_row env later job (some i) id).1]
      rfl
    have hsame : (ingestDrawn later (job.transactionJob.row env (some i) · later) true
        { w.ledger with db := { w.ledger.db with instruments := I } }).db =
          { w.ledger.db with instruments := I } :=
      ingestDrawn_untimed hinst (fun id => (zeroPayment_row env later job (some i) id).2) _
    exact ⟨I, _, hsame, fun _ => rfl⟩
  | none =>
    dsimp only [Option.isSome]
    rw [ingestDrawn_unreconciled]
    split
    · next u db hins =>
        obtain ⟨-, -, -, T, -, rfl⟩ := Database.insertObservation_eq_ok.mp hins
        exact ⟨I, T, rfl, fun h => absurd h (by simp)⟩
    · exact ⟨I, _, rfl, fun _ => rfl⟩

/-! ## the message again -/

/-- What holds of a desk a message has been processed at: the message names the same. -/
structure MandateDesk.Knows (w : MandateDesk) (x : MandateExtraction)
    (named : Option String × Option String) : Prop where
  settled : Settled x.instrumentSignal w.instruments.db named.1
  identify : ∀ now, (w.identify now x).1 = named

omit [Extern] in
theorem Settled.resolve [Extern] {q : InstrumentSignal} {T : Instruments} {answer : Option String}
    (h : Settled q T answer) {w : Registry} (hT : w.instruments.db = T) (now : Int) :
    (w.resolve now q).1 = answer ∧ (w.resolve now q).2.instruments.db = T :=
  h w.instruments now hT

/-- Whatever is written behind it, the instrument of an identified message is settled. -/
theorem identify_settled {w : Registry} (hunused : UnusedIds w.instruments) (now : Int)
    (x : MandateExtraction) :
    Settled x.instrumentSignal (w.identify now x).2.instruments.db (w.identify now x).1.1 := by
  have hfirst := (merchantEntity_effect now x.merchant (w.resolve now x.instrumentSignal).2).1
  simp only [Registry.identify, hfirst]
  exact settled_resolve x.instrumentSignal hunused now

/-- **After a message its instrument and merchant are known.** -/
theorem process_knows {w : MandateDesk} (hunused : w.Unused)
    (hself : ∀ a : String, jaroWinkler a a = 1) (env : QueueEnv) (now later : Int)
    (job : MandateJob) :
    (processMandateJob env now later job w).Knows job.extraction
      (w.identify now job.extraction).1 := by
  obtain ⟨⟨R, hrecord⟩, hinstruments, -⟩ := record_effect now job w
  obtain ⟨I, T, hzero, -⟩ := zeroPayment_effect env later job (w.record now job).toRegistry
  have hsettled := identify_settled hunused.instruments now job.extraction
  have hT : (processMandateJob env now later job w).instruments.db =
      (w.identify now job.extraction).2.instruments.db :=
    (hsettled.resolve (w := (w.record now job).toRegistry) (congrArg (·.db) hinstruments)
      later).2
  refine ⟨?_, ?_⟩
  · rw [hT]
    exact hsettled
  · intro now'
    have hm : (processMandateJob env now later job w).ledger.db.merchants =
        (w.identify now job.extraction).2.ledger.db.merchants := by
      simp only [processMandateJob, hzero, hrecord]
    have ha : (processMandateJob env now later job w).ledger.db.merchantAliases =
        (w.identify now job.extraction).2.ledger.db.merchantAliases := by
      simp only [processMandateJob, hzero, hrecord]
    exact (identify_again hunused.instruments hunused.ledger hself hT hm ha now').1

/-- The bookkeeping of a message whose instrument is settled leaves it so. -/
theorem Settled.record {w : MandateDesk} {now : Int} {job : MandateJob} {answer : Option String}
    (h : Settled job.extraction.instrumentSignal w.instruments.db answer) :
    (w.record now job).instruments.db = w.instruments.db := by
  obtain ⟨-, hinstruments, -⟩ := record_effect now job w
  have hmerchant := (merchantEntity_effect now job.extraction.merchant
    (w.resolve now job.extraction.instrumentSignal).2).1
  rw [hinstruments]
  simp only [Registry.identify, hmerchant]
  exact (h.resolve (w := w.toRegistry) rfl now).2

/-- The zero payment, given the answer of `resolve_instrument`. -/
theorem zeroPayment_ledger {env : QueueEnv} {later : Int} {job : MandateJob} {w : Registry}
    {answer : Option String}
    (h : (w.resolve later job.extraction.instrumentSignal).1 = answer) :
    (processTransactionJob env later job.transactionJob w).ledger =
      ingestDrawn later (job.transactionJob.row env answer · later) answer.isSome
        (w.resolve later job.extraction.instrumentSignal).2.ledger := by
  subst h
  rfl

/-- Without an instrument the zero payment is stored as it came. -/
theorem zeroPayment_fromMessage (env : QueueEnv) (later : Int) (job : MandateJob) (id : String) :
    FromMessage (job.transactionJob.row env none id later) job.sourcePipeline
      job.sourceRecordId :=
  ⟨rfl, rfl, rfl, rfl, rfl, rfl⟩

/-- **The second time a message leaves no observation.** -/
theorem observations_again {w : MandateDesk} (hunused : w.Unused)
    (hself : ∀ a : String, jaroWinkler a a = 1) (env : QueueEnv) (now later now' later' : Int)
    (job : MandateJob) :
    (processMandateJob env now' later' job
        (processMandateJob env now later job w)).ledger.db.observations =
      (processMandateJob env now later job w).ledger.db.observations := by
  have hknows := process_knows hunused hself env now later job
  generalize hrun : processMandateJob env now later job w = w₁ at hknows ⊢
  obtain ⟨⟨R, hrecord⟩, -, -⟩ := record_effect now' job w₁
  obtain ⟨-, hidentify⟩ := identify_effect now' job.extraction w₁.toRegistry
  have hbefore : (w₁.record now' job).ledger.db.observations = w₁.ledger.db.observations := by
    rw [hrecord]
    exact hidentify
  have hresolve := (hknows.settled.resolve (w := (w₁.record now' job).toRegistry)
    (Settled.record hknows.settled) later').1
  cases hanswer : (w.identify now job.extraction).1.1 with
  | some i =>
    obtain ⟨I, T, hzero, hT⟩ := zeroPayment_effect env later' job (w₁.record now' job).toRegistry
    have hsome := hT (by rw [hresolve, hanswer]; rfl)
    simp only [processMandateJob, hzero, hsome, hbefore]
  | none =>
    obtain ⟨-, hinstruments, hle⟩ := record_effect now job w
    obtain ⟨⟨R', hrecord'⟩, -, -⟩ := record_effect now job w
    have hfirst := ((identify_settled hunused.instruments now job.extraction).resolve
      (w := (w.record now job).toRegistry) (congrArg (·.db) hinstruments) later).1
    rw [hanswer] at hfirst hresolve
    obtain ⟨I, hstart⟩ := resolve_effect later job.extraction.instrumentSignal
      (w.record now job).toRegistry
    obtain ⟨I', hstart'⟩ := resolve_effect later' job.extraction.instrumentSignal
      (w₁.record now' job).toRegistry
    have hdrawn : w.ledger.nextUuid ≤ (w.record now job).ledger.nextUuid :=
      Nat.le_trans (identify_fresh hunused.ledger now job.extraction).2 hle
    have hnew : uuid (w.record now job).ledger.nextUuid ∉
        (w.record now job).ledger.db.observations.keys := by
      rw [hrecord']
      simp only [(identify_effect now job.extraction w.toRegistry).2]
      exact hunused.observations _ hdrawn
    have hstored : w₁.ledger = ingestDrawn later (job.transactionJob.row env none · later) false
        ((w.record now job).toRegistry.resolve later job.extraction.instrumentSignal).2.ledger := by
      rw [← hrun]
      exact zeroPayment_ledger hfirst
    have hagain : (processMandateJob env now' later' job w₁).ledger =
        ingestDrawn later' (job.transactionJob.row env none · later') false
          ((w₁.record now' job).toRegistry.resolve later'
            job.extraction.instrumentSignal).2.ledger :=
      zeroPayment_ledger hresolve
    have hfree : uuid ((w.record now job).toRegistry.resolve later
        job.extraction.instrumentSignal).2.ledger.nextUuid ∉ ((w.record now job).toRegistry.resolve
          later job.extraction.instrumentSignal).2.ledger.db.observations.keys := by
      rw [hstart]
      exact hnew
    have hobs : ((w₁.record now' job).toRegistry.resolve later'
        job.extraction.instrumentSignal).2.ledger.db.observations =
          w₁.ledger.db.observations := by
      rw [hstart']
      exact hbefore
    have hseen : (processMandateJob env now' later' job w₁).ledger.db =
        ((w₁.record now' job).toRegistry.resolve later'
          job.extraction.instrumentSignal).2.ledger.db := by
      rw [hagain]
      rw [hstored] at hobs
      exact ingestDrawn_again (zeroPayment_fromMessage env later job) (fun _ => rfl)
        (zeroPayment_fromMessage env later' job) hfree hobs
    rw [hseen]
    exact hobs

/-! ## a registration again -/

/-- A declared row of the pair. -/
def RecurringPaymentsRow.Declares (r : RecurringPaymentsRow) (i m : String) : Prop :=
  r.isFor i m = true ∧ r.source = "explicit"

theorem explicitFor_congr {db db' : Database} (h : db'.recurringPayments = db.recurringPayments)
    (i m : String) : db'.explicitFor i m = db.explicitFor i m := by
  simp only [Database.explicitFor, h]

theorem explicitFor_declares {db : Database} {i m : String} {r : RecurringPaymentsRow}
    (h : db.explicitFor i m = some r) : r ∈ db.recurringPayments ∧ r.Declares i m := by
  obtain ⟨hmem, hp⟩ := List.mem_filter.mp (mem_scan.mp (List.mem_of_head? h))
  rw [Bool.and_eq_true, decide_eq_true_eq] at hp
  exact ⟨hmem, hp⟩

theorem explicitFor_eq_none {db : Database} {i m : String} :
    db.explicitFor i m = none ↔ ∀ r ∈ db.recurringPayments, ¬ r.Declares i m := by
  unfold Database.explicitFor
  rw [List.head?_eq_none_iff, List.eq_nil_iff_forall_not_mem]
  simp [Table.mem_def, RecurringPaymentsRow.Declares]

/-- The first declaration of a pair is an insertion. -/
theorem upsertExplicit_none {d : Mandate} {now : Int} {s : Store Database}
    (hnone : s.db.explicitFor d.instrumentId d.merchantEntityId = none) :
    (upsertExplicit d (.quiet now) s).2.db.recurringPayments =
      match s.db.insertRecurring (d.row (uuid s.nextUuid) now) now with
      | .ok r => r.2.recurringPayments
      | .error _ => s.db.recurringPayments := by
  unfold upsertExplicit
  rw [Eff.bind_of_ok (show update (fun _ db => .ok (db.explicitFor d.instrumentId
    d.merchantEntityId, db)) (.quiet now) s = (.ok (s.db.explicitFor d.instrumentId
    d.merchantEntityId), s) from rfl), hnone]
  dsimp only
  rw [Eff.bind_of_ok (newUuid_apply _ _ _), Eff.bind_apply]
  simp only [update, Ctx.quiet]
  cases s.db.insertRecurring (d.row (uuid s.nextUuid) now) now <;> rfl

/-- The row a first declaration of a pair stores, if the pair is there. -/
theorem upsertExplicit_first {d : Mandate} (now : Int) {s : Store Database}
    (hnone : s.db.explicitFor d.instrumentId d.merchantEntityId = none)
    (hid : uuid s.nextUuid ∉ s.db.recurringPayments.keys)
    (hi : s.db.instruments.contains d.instrumentId = true)
    (hm : s.db.merchants.contains d.merchantEntityId = true) :
    s.db.recurringPayments.insert? (d.row (uuid s.nextUuid) now) =
      some (upsertExplicit d (.quiet now) s).2.db.recurringPayments := by
  obtain ⟨T, hT⟩ := Table.exists_insert (T := s.db.recurringPayments)
    (r := d.row (uuid s.nextUuid) now) fun x hx hkey => hid (Table.mem_keys.mpr ⟨x, hx, hkey⟩)
  have hfk : (refersInto s.db.merchants (some d.merchantEntityId) &&
      refersInto s.db.instruments (some d.instrumentId)) = true := by
    simp only [refersInto, hi, hm, Bool.and_self]
  have hins : s.db.insertRecurring (d.row (uuid s.nextUuid) now) now =
      .ok ((), { s.db with recurringPayments := T }) := insertInto_eq_ok.mpr ⟨T, hT, hfk, rfl⟩
  rw [upsertExplicit_none hnone, hins]
  exact hT

/-- A first declaration for an instrument that is not there is refused. -/
theorem upsertExplicit_refused {d : Mandate} {now : Int} {s : Store Database}
    (hnone : s.db.explicitFor d.instrumentId d.merchantEntityId = none)
    (hi : s.db.instruments.contains d.instrumentId = false) :
    (upsertExplicit d (.quiet now) s).2.db.recurringPayments = s.db.recurringPayments := by
  rw [upsertExplicit_none hnone]
  cases hins : s.db.insertRecurring (d.row (uuid s.nextUuid) now) now with
  | error e => rfl
  | ok r =>
    obtain ⟨-, -, hfk, -⟩ := insertInto_eq_ok.mp hins
    have hrefers : refersInto s.db.instruments (some d.instrumentId) = true :=
      (Bool.and_eq_true_iff.mp hfk).2
    simp only [refersInto, hi] at hrefers
    cases hrefers

/-- A declared row of the pair is left as the declaration has it. -/
def Mandate.Wrote (d : Mandate) (r : RecurringPaymentsRow) : Prop :=
  ∃ y now, r = (d.patch now).run y

/-- The table but for the times. -/
def timeless (T : Table RecurringPaymentsRow) : List RecurringPaymentsRow :=
  T.rows.map fun r => { r with updatedAt := 0 }

omit [Extern] in
theorem timeless_modify {T : Table RecurringPaymentsRow} {d : Mandate} {r : RecurringPaymentsRow}
    (hr : r ∈ T) (hwrote : d.Wrote r) (now : Int) :
    timeless (T.modify r.id (d.patch now)) = timeless T := by
  refine Table.map_modify fun x hx hkey => ?_
  have hxr : x = r := Table.eq_of_key_eq hx hr hkey
  obtain ⟨y, t, rfl⟩ := hwrote
  subst hxr
  rfl

omit [Extern] in
theorem modify_patch_ne {T : Table RecurringPaymentsRow} {d : Mandate} {r : RecurringPaymentsRow}
    (hr : r ∈ T) : T.modify r.id (d.patch (r.updatedAt + 1)) ≠ T := by
  intro hsame
  have hin : (d.patch (r.updatedAt + 1)).run r ∈ T := by
    rw [← hsame]
    exact Table.mem_modify_of_mem hr rfl
  have heq := Table.eq_of_key_eq hin hr ((d.patch (r.updatedAt + 1)).key_run r)
  have htime : r.updatedAt + 1 = r.updatedAt := congrArg (·.updatedAt) heq
  omega

theorem upsertExplicit_found {d : Mandate} {s : Store Database} {r : RecurringPaymentsRow}
    (h : s.db.explicitFor d.instrumentId d.merchantEntityId = some r) (now : Int) :
    (upsertExplicit d (.quiet now) s).2.db.recurringPayments =
      s.db.recurringPayments.modify r.id (d.patch now) := by
  rcases upsertExplicit_table d now s with ⟨r', hfound, hT⟩ | ⟨hnone, -⟩
  · rw [h] at hfound
    cases hfound
    exact hT
  · rw [h] at hnone
    cases hnone

/-- No pair has two declared rows. -/
def OneDeclared (T : Table RecurringPaymentsRow) : Prop :=
  ∀ i m, ∀ a ∈ T, ∀ b ∈ T, a.Declares i m → b.Declares i m → a = b

/-- Behind a declaration that goes through there is a declared row, and if it is the only
one it says what was declared. -/
theorem upsertExplicit_leaves {d : Mandate} (now : Int) {s : Store Database}
    (hid : uuid s.nextUuid ∉ s.db.recurringPayments.keys)
    (hthere : (s.db.explicitFor d.instrumentId d.merchantEntityId).isSome ∨
      s.db.instruments.contains d.instrumentId = true ∧
        s.db.merchants.contains d.merchantEntityId = true) :
    let T' := (upsertExplicit d (.quiet now) s).2.db.recurringPayments
    (∃ r ∈ T', r.Declares d.instrumentId d.merchantEntityId) ∧
      (OneDeclared s.db.recurringPayments →
        ∀ r ∈ T', r.Declares d.instrumentId d.merchantEntityId → d.Wrote r) := by
  cases hfound : s.db.explicitFor d.instrumentId d.merchantEntityId with
  | some r =>
    obtain ⟨hr, hdeclares⟩ := explicitFor_declares hfound
    dsimp only
    rw [upsertExplicit_found hfound now]
    refine ⟨⟨(d.patch now).run r, Table.mem_modify_of_mem hr rfl, hdeclares⟩, ?_⟩
    intro hone x hx hxdeclares
    rcases Table.mem_modify_cases hx with ⟨hx, hid⟩ | ⟨y, -, -, rfl⟩
    · have hxr := hone _ _ x hx r hr hxdeclares hdeclares
      exact absurd (congrArg (·.id) hxr) hid
    · exact ⟨y, now, rfl⟩
  | none =>
    rw [hfound] at hthere
    obtain ⟨hi, hm⟩ := hthere.resolve_left (by simp)
    have hT := upsertExplicit_first now hfound hid hi hm
    have hrow : (d.row (uuid s.nextUuid) now).Declares d.instrumentId d.merchantEntityId := by
      constructor
      · simp [RecurringPaymentsRow.isFor, Mandate.row]
      · rfl
    refine ⟨⟨_, (Table.mem_of_insert? hT).mpr (.inr rfl), hrow⟩, ?_⟩
    intro _ x hx hxdeclares
    rcases (Table.mem_of_insert? hT).mp hx with hx | rfl
    · exact absurd hxdeclares (explicitFor_eq_none.mp hfound x hx)
    · exact ⟨d.row (uuid s.nextUuid) now, now, rfl⟩

omit [Extern] in
theorem contains_empty (T : Table InstrumentsRow) : T.contains "" = false := by
  rw [Bool.eq_false_iff]
  intro hcontains
  obtain ⟨x, -, hid⟩ := Table.contains_iff.mp hcontains
  exact x.id_ne hid

/-- The recurring payments behind a message. -/
theorem process_recurring (env : QueueEnv) (now later : Int) (job : MandateJob) (w : MandateDesk) :
    (processMandateJob env now later job w).ledger.db.recurringPayments =
      (w.record now job).ledger.db.recurringPayments := by
  obtain ⟨I, T, hzero, -⟩ := zeroPayment_effect env later job (w.record now job).toRegistry
  simp only [processMandateJob, hzero]

/-- A registration writes what it declares. -/
theorem record_registration (w : MandateDesk) (now : Int) {job : MandateJob}
    (hjob : job.eventType = .registration) :
    (w.record now job).unresolved = w.unresolved ∧
      ((∃ i m, (w.identify now job.extraction).1 = (some i, some m) ∧
          (w.record now job).ledger = (upsertExplicit (job.extraction.mandate i m) (.quiet now)
            (w.identify now job.extraction).2.ledger).2) ∨
        ((∀ i m, (w.identify now job.extraction).1 ≠ (some i, some m)) ∧
          (w.record now job).ledger = (w.identify now job.extraction).2.ledger)) := by
  unfold MandateDesk.record
  rw [hjob]
  simp only [MandateDesk.register]
  split
  · next i m hi hm => exact ⟨rfl, .inl ⟨i, m, Prod.ext hi hm, rfl⟩⟩
  · next hnot =>
      refine ⟨rfl, .inr ⟨?_, rfl⟩⟩
      intro i m hboth
      exact hnot i m (congrArg Prod.fst hboth) (congrArg Prod.snd hboth)

/-- A registration that names no pair, or one that cannot be stored, writes nothing. -/
theorem registration_idle {w : MandateDesk} {now : Int} {job : MandateJob}
    {named : Option String × Option String} (hjob : job.eventType = .registration)
    (hnamed : (w.identify now job.extraction).1 = named)
    (hidle : ∀ i m, named = (some i, some m) → w.ledger.db.explicitFor i m = none ∧ i = "") :
    (w.record now job).ledger.db.recurringPayments = w.ledger.db.recurringPayments := by
  have hkept := (identify_effect now job.extraction w.toRegistry).1
  rcases (record_registration w now hjob).2 with ⟨i, m, hboth, hledger⟩ |
    ⟨-, hledger⟩
  · obtain ⟨hnone, rfl⟩ := hidle i m (hnamed.symm.trans hboth)
    rw [← explicitFor_congr hkept] at hnone
    rw [hledger, ← hkept]
    exact upsertExplicit_refused (d := job.extraction.mandate "" m) hnone (contains_empty _)
  · rw [hledger]
    exact hkept

/-- A registration that finds its declared row writes that row. -/
theorem registration_found {w : MandateDesk} {now : Int} {job : MandateJob} {i m : String}
    {r : RecurringPaymentsRow} (hjob : job.eventType = .registration)
    (hnamed : (w.identify now job.extraction).1 = (some i, some m))
    (hfound : w.ledger.db.explicitFor i m = some r) :
    (w.record now job).ledger.db.recurringPayments =
      w.ledger.db.recurringPayments.modify r.id ((job.extraction.mandate i m).patch now) := by
  have hkept := (identify_effect now job.extraction w.toRegistry).1
  rcases (record_registration w now hjob).2 with ⟨i', m', hboth, hledger⟩ |
    ⟨hnot, -⟩
  · rw [hnamed] at hboth
    cases hboth
    rw [← explicitFor_congr hkept] at hfound
    rw [hledger, ← hkept]
    exact upsertExplicit_found (d := job.extraction.mandate i m) hfound now
  · exact absurd hnamed (hnot i m)

/-- A registration that declares a pair leaves a declared row of it, which says what was
declared if it is the only one. -/
theorem registration_leaves {w : MandateDesk} (hunused : w.Unused) {now : Int} {job : MandateJob}
    {i m : String} (hjob : job.eventType = .registration)
    (hnamed : (w.identify now job.extraction).1 = (some i, some m))
    (hdeclared : (w.ledger.db.explicitFor i m).isSome ∨ i ≠ "") :
    (∃ r ∈ (w.record now job).ledger.db.recurringPayments, r.Declares i m) ∧
      (OneDeclared w.ledger.db.recurringPayments →
        ∀ r ∈ (w.record now job).ledger.db.recurringPayments, r.Declares i m →
          (job.extraction.mandate i m).Wrote r) := by
  have hkept := (identify_effect now job.extraction w.toRegistry).1
  rcases (record_registration w now hjob).2 with ⟨i', m', hboth, hledger⟩ |
    ⟨hnot, -⟩
  · rw [hnamed] at hboth
    cases hboth
    have hid : uuid (w.identify now job.extraction).2.ledger.nextUuid ∉
        (w.identify now job.extraction).2.ledger.db.recurringPayments.keys := by
      rw [hkept]
      exact hunused.recurringPayments _ (identify_fresh hunused.ledger now job.extraction).2
    have hthere : ((w.identify now job.extraction).2.ledger.db.explicitFor i m).isSome ∨
        (w.identify now job.extraction).2.ledger.db.instruments.contains i = true ∧
          (w.identify now job.extraction).2.ledger.db.merchants.contains m = true := by
      rw [explicitFor_congr hkept]
      rcases hdeclared with hsome | hne
      · exact .inl hsome
      · exact .inr (identify_contains (congrArg Prod.fst hnamed) (congrArg Prod.snd hnamed) hne)
    have hleaves := upsertExplicit_leaves (d := job.extraction.mandate i m) now hid hthere
    rw [hledger, ← hkept]
    exact hleaves
  · exact absurd hnamed (hnot i m)

/-! ## a cancellation again -/

theorem findActiveCandidates_mem {db : Database} {i m e : Option String}
    {r : RecurringPaymentsRow} (h : r ∈ db.findActiveCandidatesForCancellation i m e) :
    r ∈ db.recurringPayments ∧ r.status = some "active" := by
  have hscan : ∀ p : RecurringPaymentsRow → Bool,
      r ∈ scan (db.recurringPayments.rows.filter fun r => p r && r.isActive) →
        r ∈ db.recurringPayments ∧ r.status = some "active" := by
    intro p hr
    rw [mem_scan, List.mem_filter, Bool.and_eq_true] at hr
    exact ⟨hr.1, of_decide_eq_true hr.2.2⟩
  unfold Database.findActiveCandidatesForCancellation at h
  dsimp only at h
  split_ifs at h
  · cases e with
    | some e => exact hscan _ h
    | none => cases h
  · cases i with
    | none => cases h
    | some i =>
      cases m with
      | none => cases h
      | some m => exact hscan _ h

omit [Extern] in
/-- A row that stops being active is another row, whatever the time. -/
theorem timeless_cancelled_ne {T : Table RecurringPaymentsRow} {r : RecurringPaymentsRow}
    (hr : r ∈ T) (hactive : r.status = some "active") (now : Int) :
    timeless (T.modify r.id (cancelledPatch now)) ≠ timeless T := by
  intro hsame
  simp only [timeless, Table.modify, List.map_map] at hsame
  have hrow := List.map_inj_left.mp hsame r hr
  have hstatus := congrArg RecurringPaymentsRow.status hrow
  have hkey : Keyed.key r = r.id := rfl
  simp only [Function.comp_apply, hkey, if_true, cancelledPatch, hactive] at hstatus
  revert hstatus
  decide

/-- **A cancellation always writes**: it cancels a payment, or it is one more that was not
resolved. -/
theorem cancellation_writes {w : MandateDesk} {job : MandateJob}
    (hjob : job.eventType = .cancellation)
    (hnew : uuid w.unresolved.nextUuid ∉ w.unresolved.db.keys) (now : Int) :
    timeless (w.record now job).ledger.db.recurringPayments ≠
        timeless w.ledger.db.recurringPayments ∨
      (w.record now job).unresolved.db ≠ w.unresolved.db := by
  have hkept := (identify_effect now job.extraction w.toRegistry).1
  unfold MandateDesk.record
  rw [hjob]
  simp only [MandateDesk.cancel]
  split
  · next r hone =>
      obtain ⟨hr, hactive⟩ := findActiveCandidates_mem (hone ▸ List.mem_singleton_self r)
      rw [← hkept]
      exact .inl (timeless_cancelled_ne hr hactive now)
  · right
    simp only [insertUnresolved]
    generalize hrow : (UnresolvedMandateCancellation.mk _ _ _ _ _ _) = row
    have hkey : Keyed.key row = uuid w.unresolved.nextUuid := hrow ▸ rfl
    obtain ⟨T, hT⟩ := Table.exists_insert (T := w.unresolved.db) (r := row) fun x hx hxkey =>
      hnew (Table.mem_keys.mpr ⟨x, hx, hxkey.trans hkey⟩)
    rw [hT]
    intro hsame
    have hin : row ∈ w.unresolved.db := by
      rw [← show T = w.unresolved.db from hsame]
      exact (Table.mem_of_insert? hT).mpr (.inr rfl)
    exact hnew (Table.mem_keys.mpr ⟨row, hin, hkey⟩)

/-- The next id for an unresolved cancellation is still unused. -/
theorem record_unresolved_new {w : MandateDesk}
    (h : ∀ n, w.unresolved.nextUuid ≤ n → uuid n ∉ w.unresolved.db.keys) (now : Int)
    (job : MandateJob) :
    uuid (w.record now job).unresolved.nextUuid ∉ (w.record now job).unresolved.db.keys := by
  have hsame := h _ (Nat.le_refl _)
  cases hjob : job.eventType with
  | registration =>
    rw [(record_registration w now hjob).1]
    exact hsame
  | cancellation =>
    unfold MandateDesk.record
    rw [hjob]
    simp only [MandateDesk.cancel]
    split
    · exact hsame
    · simp only [insertUnresolved]
      generalize hrow : (UnresolvedMandateCancellation.mk _ _ _ _ _ _) = row
      have hkey : Keyed.key row = uuid w.unresolved.nextUuid := hrow ▸ rfl
      cases hT : w.unresolved.db.insert? row with
      | none => exact h _ (Nat.le_succ _)
      | some T =>
        rw [Option.getD_some, Table.mem_keys_of_insert? hT, hkey]
        rintro (hold | hnew)
        · exact h _ (Nat.le_succ _) hold
        · have heq := Extern.uuid_injective hnew
          omega

/-! ## a message twice -/

/-- The three tables are as they were. -/
structure MandateDesk.Same (w w' : MandateDesk) : Prop where
  recurringPayments : w'.ledger.db.recurringPayments = w.ledger.db.recurringPayments
  unresolved : w'.unresolved.db = w.unresolved.db
  observations : w'.ledger.db.observations = w.ledger.db.observations

/-- The three tables are as they were, but for `updated_at`. -/
structure MandateDesk.SameButTimes (w w' : MandateDesk) : Prop where
  recurringPayments :
    timeless w'.ledger.db.recurringPayments = timeless w.ledger.db.recurringPayments
  unresolved : w'.unresolved.db = w.unresolved.db
  observations : w'.ledger.db.observations = w.ledger.db.observations

omit [Extern] in
theorem MandateDesk.Same.butTimes {w w' : MandateDesk} (h : w.Same w') : w.SameButTimes w' :=
  ⟨congrArg timeless h.recurringPayments, h.unresolved, h.observations⟩

/-- A cancellation is never the same again. -/
theorem cancellation_again {w : MandateDesk} (hunused : w.Unused) (env : QueueEnv)
    (now later now' later' : Int) {job : MandateJob} (hjob : job.eventType = .cancellation) :
    ¬ (processMandateJob env now later job w).SameButTimes
      (processMandateJob env now' later' job (processMandateJob env now later job w)) := by
  intro hsame
  have hnew := record_unresolved_new hunused.unresolved now job
  have hrecurring := hsame.recurringPayments
  rw [process_recurring] at hrecurring
  rcases cancellation_writes (w := processMandateJob env now later job w) hjob hnew now' with
    hwrite | hwrite
  · exact hwrite hrecurring
  · exact hwrite hsame.unresolved

/-- A registration that declares nothing is the same again. -/
theorem registration_idle_again {w : MandateDesk} (hunused : w.Unused)
    (hself : ∀ a : String, jaroWinkler a a = 1) (env : QueueEnv) (now later now' later' : Int)
    {job : MandateJob} (hjob : job.eventType = .registration)
    (hidle : ∀ i m, (w.identify now job.extraction).1 = (some i, some m) →
      w.ledger.db.explicitFor i m = none ∧ i = "") :
    (processMandateJob env now later job w).Same
      (processMandateJob env now' later' job (processMandateJob env now later job w)) := by
  have hknows := process_knows hunused hself env now later job
  have hfirst : (processMandateJob env now later job w).ledger.db.recurringPayments =
      w.ledger.db.recurringPayments :=
    (process_recurring env now later job w).trans (registration_idle hjob rfl hidle)
  refine ⟨?_, ?_, observations_again hunused hself env now later now' later' job⟩
  · rw [process_recurring]
    refine registration_idle hjob (hknows.identify now') fun i m hboth => ?_
    rw [explicitFor_congr hfirst]
    exact hidle i m hboth
  · exact congrArg (·.db) (record_registration _ now' hjob).1

/-- A registration that declares a pair writes the declared row again. -/
theorem registration_again {w : MandateDesk} (hunused : w.Unused)
    (hself : ∀ a : String, jaroWinkler a a = 1) (env : QueueEnv) (now later : Int)
    {job : MandateJob} {i m : String} (hjob : job.eventType = .registration)
    (hnamed : (w.identify now job.extraction).1 = (some i, some m))
    (hdeclared : (w.ledger.db.explicitFor i m).isSome ∨ i ≠ "") :
    ∃ r ∈ (processMandateJob env now later job w).ledger.db.recurringPayments,
      (OneDeclared w.ledger.db.recurringPayments → (job.extraction.mandate i m).Wrote r) ∧
      ∀ now' later', (processMandateJob env now' later' job
          (processMandateJob env now later job w)).ledger.db.recurringPayments =
        (processMandateJob env now later job w).ledger.db.recurringPayments.modify r.id
          ((job.extraction.mandate i m).patch now') := by
  have hknows := process_knows hunused hself env now later job
  have hfirst := process_recurring env now later job w
  obtain ⟨⟨r₀, hr₀, hdeclares₀⟩, hwrote⟩ := registration_leaves hunused hjob hnamed hdeclared
  rw [← hfirst] at hr₀ hwrote
  cases hfound : (processMandateJob env now later job w).ledger.db.explicitFor i m with
  | none => exact absurd hdeclares₀ (explicitFor_eq_none.mp hfound r₀ hr₀)
  | some r =>
    obtain ⟨hr, hdeclares⟩ := explicitFor_declares hfound
    refine ⟨r, hr, fun hone => hwrote hone r hr hdeclares, fun now' later' => ?_⟩
    rw [process_recurring]
    exact registration_found hjob ((hknows.identify now').trans hnamed) hfound

theorem declared_eq_some {w : MandateDesk} (hunused : UnusedIds w.instruments) (now : Int)
    {x : MandateExtraction} {i m : String} :
    w.declared x = some (i, m) ↔ (w.identify now x).1 = (some i, some m) ∧
      ((w.ledger.db.explicitFor i m).isSome ∨ i ≠ "") := by
  rw [identify_answer hunused now x]
  unfold MandateDesk.declared
  split
  · next i' m' hi hm =>
      rw [hi, hm]
      split_ifs with hstored
      · constructor
        · intro h
          cases h
          exact ⟨rfl, hstored⟩
        · rintro ⟨h, -⟩
          cases h
          rfl
      · constructor
        · intro h
          cases h
        · rintro ⟨h, hdeclared⟩
          cases h
          exact absurd hdeclared hstored
  · next hnot =>
      constructor
      · intro h
        cases h
      · rintro ⟨h, -⟩
        exact (hnot i m (congrArg Prod.fst h) (congrArg Prod.snd h)).elim

/-- **Processing a mandate message again.**  Nothing at all is written exactly for a
registration that declares nothing; a registration writes no more than the time of its row,
where no pair has two declared ones; a cancellation is never the same again. -/
theorem mandate_idempotent_iff (env : QueueEnv) (job : MandateJob) (w : MandateDesk)
    (hunused : w.Unused) (hself : ∀ a : String, jaroWinkler a a = 1) (now later : Int) :
    ((∀ now' later', (processMandateJob env now later job w).Same
        (processMandateJob env now' later' job (processMandateJob env now later job w))) ↔
      job.eventType = .registration ∧ w.declared job.extraction = none) ∧
    (OneDeclared w.ledger.db.recurringPayments →
      ((∀ now' later', (processMandateJob env now later job w).SameButTimes
          (processMandateJob env now' later' job (processMandateJob env now later job w))) ↔
        job.eventType = .registration)) := by
  cases hjob : job.eventType with
  | cancellation =>
    have hnot := cancellation_again hunused env now later 0 0 hjob
    refine ⟨⟨fun h => absurd (h 0 0).butTimes hnot, fun h => ?_⟩,
      fun _ => ⟨fun h => absurd (h 0 0) hnot, fun h => ?_⟩⟩
    · cases h.1
    · cases h
  | registration =>
    cases hdeclared : w.declared job.extraction with
    | none =>
      have hidle : ∀ i m, (w.identify now job.extraction).1 = (some i, some m) →
          w.ledger.db.explicitFor i m = none ∧ i = "" := by
        intro i m hboth
        have hnot : ¬ ((w.ledger.db.explicitFor i m).isSome ∨ i ≠ "") := by
          intro hstored
          have hsome := (declared_eq_some hunused.instruments now).mpr ⟨hboth, hstored⟩
          rw [hdeclared] at hsome
          cases hsome
        rw [not_or, not_not, Option.not_isSome_iff_eq_none] at hnot
        exact hnot
      have hagain := fun now' later' =>
        registration_idle_again hunused hself env now later now' later' hjob hidle
      exact ⟨⟨fun _ => ⟨rfl, rfl⟩, fun _ => hagain⟩,
        fun _ => ⟨fun _ => rfl, fun _ now' later' => (hagain now' later').butTimes⟩⟩
    | some pair =>
      obtain ⟨i, m⟩ := pair
      obtain ⟨hnamed, hstored⟩ := (declared_eq_some hunused.instruments now).mp hdeclared
      obtain ⟨r, hr, hwrote, hagain⟩ :=
        registration_again hunused hself env now later hjob hnamed hstored
      constructor
      · refine ⟨fun h => ?_, fun h => by cases h.2⟩
        have hsame := (h (r.updatedAt + 1) 0).recurringPayments
        rw [hagain] at hsame
        exact absurd hsame (modify_patch_ne hr)
      · refine fun hone => ⟨fun _ => rfl, fun _ now' later' => ⟨?_, ?_, ?_⟩⟩
        · rw [hagain]
          exact timeless_modify hr (hwrote hone) now'
        · exact congrArg (·.db) (record_registration _ now' hjob).1
        · exact observations_again hunused hself env now later now' later' job

/-- No cards yet, and the ledger of the first account. -/
def firstDesk : MandateDesk where
  ledger := firstLedger
  instruments := ⟨.empty, 0, none⟩
  unresolved := ⟨.empty, 0, none⟩

theorem unused_firstDesk : firstDesk.Unused where
  ledger := initial_firstLedger.fresh
  recurringPayments _ _ h := absurd h List.not_mem_nil
  observations _ _ h := absurd h List.not_mem_nil
  instruments _ _ r h := absurd h (Indexed.not_mem_empty r)
  unresolved _ _ h := absurd h List.not_mem_nil

/-- A standing instruction with a streaming service on a credit card. -/
def streaming : MandateExtraction :=
  ⟨some "NETFLIX", some "monthly", some 64900, some "SI1", some "credit_card", some "SBI",
    some "XX1234"⟩

def minutes : QueueEnv := ⟨fun _ => true, fun t => toString (t / 60)⟩

omit [Extern] in
/-- The registration again: the same but for the time. -/
theorem registration_repeated :
    letI := Extern.ascii
    let job : MandateJob := ⟨streaming, .registration, "gmail_transaction", "m1", "mail"⟩
    ∀ now' later', (processMandateJob minutes 10 11 job firstDesk).SameButTimes
      (processMandateJob minutes now' later' job
        (processMandateJob minutes 10 11 job firstDesk)) := by
  let := Extern.ascii
  intro job
  have hself : ∀ a : String, jaroWinkler a a = 1 := fun a => if_pos rfl
  have hone : OneDeclared firstDesk.ledger.db.recurringPayments :=
    fun _ _ _ ha => absurd ha List.not_mem_nil
  exact ((mandate_idempotent_iff minutes job firstDesk unused_firstDesk hself 10 11).2 hone).mpr rfl

omit [Extern] in
/-- A cancellation nothing is found for is noted twice.  One that finds its payment cancels
it the first time; the second time it is noted as if there had never been one. -/
theorem cancellation_repeated :
    letI := Extern.ascii
    let registration : MandateJob := ⟨streaming, .registration, "gmail_transaction", "m1", "mail"⟩
    let cancellation : MandateJob := ⟨streaming, .cancellation, "gmail_transaction", "m2", "mail"⟩
    let once := processMandateJob minutes 20 21 cancellation firstDesk
    let twice := processMandateJob minutes 30 31 cancellation once
    let registered := processMandateJob minutes 10 11 registration firstDesk
    let cancelled := processMandateJob minutes 20 21 cancellation registered
    let again := processMandateJob minutes 30 31 cancellation cancelled
    once.unresolved.db.rows.length = 1 ∧ twice.unresolved.db.rows.length = 2 ∧
      cancelled.ledger.db.recurringPayments.rows.map (·.status) = [some "cancelled"] ∧
      cancelled.unresolved.db.rows.length = 0 ∧ again.unresolved.db.rows.length = 1 := by
  let := Extern.ascii
  decide +kernel

end Dinero
