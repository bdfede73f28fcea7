import Dinero.Layer6Replay
import Dinero.Turn

/-!
# Dinero.EntryCalls

Three kinds of calls aim at one entry of the queue: the user resolves it by
hand, the user dismisses it, a Layer 6 result is applied to it.  Their
statements may come in any order.

Resolving books first and asks the entry afterwards; Layer 6 asks first and
books later.  So a second call may get between the two, and what is booked is
then booked for an entry somebody else has closed.  Runs in which nobody gets
in between (`CallEvent.Sound`) take the entry like a `Turn`.
-/

namespace Dinero

open Sql

/-! ## resolving by hand -/

structure ManualTransactionPayload where
  amountMinor : Int
  currency : String
  direction : String
  eventTime : TimeText
  merchantName : String
  instrumentId : String
  referenceId : Option String
deriving DecidableEq, Repr

/-- `parse_from_str(..).unwrap_or_default()`. -/
def ManualTransactionPayload.dt (payload : ManualTransactionPayload) : Int :=
  match payload.eventTime with
  | .dateTime t => t
  | _ => 0

/-- The observation `create_manual_transaction` ingests. -/
def manualObservation (obsId : String) (payload : ManualTransactionPayload) :
    TransactionObservationsRow where
  id := obsId
  canonicalTransactionId := none
  sourcePipeline := some "manual"
  sourceRecordId := some ("manual_" ++ obsId)
  statementId := none
  statementEntryId := none
  instrumentId := some payload.instrumentId
  direction := some payload.direction
  amountMinor := some payload.amountMinor
  currency := some payload.currency
  eventTime := some payload.dt
  eventTimeConfidence := some "high"
  merchantRaw := some payload.merchantName
  referenceId := payload.referenceId
  fingerprint := none
  confidenceScore := some 1
  emiTotalInstallments := none
  emiOriginalAmountMinor := none
  channel := none
  isDeleted := false
  createdAt := none
  updatedAt := none

/-! ## the calls -/

inductive CallStage
  /-- `resolve_unassigned_transaction_manually`, before its transaction is created. -/
  | booking (row : TransactionObservationsRow)
  /-- The transaction is created; `UPDATE … SET status = 'resolved'` is next. -/
  | resolving
  /-- `UPDATE … SET status = 'ignored'` is next. -/
  | dismissing
  /-- Nothing moved; the status is read again. -/
  | rereading (status : EntryStatus)
  | returned (ok : Bool)
  | layer6 (stage : Layer6Stage)

/-- A call, with what its reconciliation decided, and whether the entry was open when the
call came to change its status. -/
structure Call where
  stage : CallStage
  decision : Option DecisionType := none
  foundOpen : Option Bool := none

/-- The call booked a transaction. -/
def Call.Booked (a : Call) : Prop :=
  ∃ d, a.decision = some d ∧ ∀ c, d ≠ .ambiguousPending c

/-- It booked, and has still to change the status. -/
def Call.Inside (a : Call) : Prop := a.Booked ∧ a.foundOpen = none

/-- Not left to the user. -/
def DecisionType.isClear : DecisionType → Bool
  | .ambiguousPending _ => false
  | _ => true

theorem DecisionType.isClear_iff {d : DecisionType} :
    d.isClear = true ↔ ∀ c, d ≠ .ambiguousPending c := by
  cases d <;> simp [isClear]

instance decidableBooked (a : Call) : Decidable a.Booked :=
  decidable_of_iff (a.decision.any DecisionType.isClear = true) <| by
    cases h : a.decision <;> simp [Call.Booked, h, DecisionType.isClear_iff]

instance decidableInside (a : Call) : Decidable a.Inside :=
  inferInstanceAs (Decidable (a.Booked ∧ a.foundOpen = none))

structure CallsWorld where
  intake : Intake
  calls : List Call := []

inductive CallEvent
  | resolve (obsId : String) (payload : ManualTransactionPayload)
  | dismiss
  /-- The model has answered with a transaction. -/
  | layer6 (enriched : ExtractionResult) (instrument : Option InstrumentsRow)
  /-- The next statement of the `i`th call. -/
  | step (i : Nat) (now : Int)

/-- `UPDATE unassigned_transactions SET status = ?1 WHERE id = ?2 AND status = 'open'`. -/
def Intake.moveEntry (w : Intake) (id : String) (status : EntryStatus) : Intake :=
  { w with entries := w.entries.settleIfOpen id status }

section Steps

variable [Extern]

/-- What a Layer 6 step decides about the observation, if it is the one that does. -/
def layer6Decision (now : Int) (w : Intake) : Layer6Stage → Option DecisionType
  | .written row =>
    match readyInstrument row with
    | some instrumentId => (reconcileOn (layer6Incoming row instrumentId) now w.ledger).1.toOption
    | none => none
  | _ => none

variable (job : Layer6Job) (env : Layer6Env)

/-- The status change of a user's call. -/
def Call.move (a : Call) (w : Intake) (status : EntryStatus) : Intake × Call :=
  let found := w.entries.isOpen job.unassignedId
  (w.moveEntry job.unassignedId status, { a with
    stage := if found then .returned true else .rereading status
    foundOpen := some found })

def Call.step (now : Int) (w : Intake) (a : Call) : Intake × Call :=
  match a.stage with
  | .booking row =>
    match ingestObservation row true (.quiet now) ⟨w.ledger, none⟩ with
    | (.ok (_, decision), c) =>
      ({ w with ledger := c.store }, { a with stage := .resolving, decision })
    | (.error _, c) => ({ w with ledger := c.store }, { a with stage := .returned false })
  | .resolving => a.move job w .resolved
  | .dismissing => a.move job w .ignored
  | .rereading status =>
    (w, { a with stage := .returned (w.entries.currentStatus job.unassignedId = some status) })
  | .returned _ => (w, a)
  | .layer6 stage =>
    let r := job.step env now w stage
    (r.1, {
      stage := .layer6 r.2
      decision := (layer6Decision now w stage).or a.decision
      foundOpen :=
        match stage with
        | .applied | .reconciled => some (w.entries.isOpen job.unassignedId)
        | _ => a.foundOpen })

def CallEvent.apply (w : CallsWorld) : CallEvent → CallsWorld
  | .resolve obsId payload =>
    { w with calls := w.calls ++ [{ stage := .booking (manualObservation obsId payload) }] }
  | .dismiss => { w with calls := w.calls ++ [{ stage := .dismissing }] }
  | .layer6 enriched instrument =>
    { w with
      calls := w.calls ++ [{ stage := .layer6 (.answered (.extracted enriched instrument)) }] }
  | .step i now =>
    match w.calls[i]? with
    | none => w
    | some a =>
      let r := a.step job env now w.intake
      ⟨r.1, w.calls.set i r.2⟩

def runCalls (w : CallsWorld) (es : List CallEvent) : CallsWorld :=
  es.foldl (CallEvent.apply job env) w

/-! ## what is asked of a run -/

def CallsWorld.Booked (w : CallsWorld) (i : Nat) : Prop := ∃ a, w.calls[i]? = some a ∧ a.Booked

instance decidableBookedAt (w : CallsWorld) (i : Nat) : Decidable (w.Booked i) :=
  decidable_of_iff (w.calls[i]?.any (decide <| Call.Booked ·) = true) <| by
    cases h : w.calls[i]? <;> simp [CallsWorld.Booked, h]

/-- One call at most books for the entry; the one that did found it open when it came to
change its status; and once it is dismissed nobody books. -/
structure BookedOnce (w : CallsWorld) (es : List CallEvent) : Prop where
  once : ∀ i j, (runCalls job env w es).Booked i → (runCalls job env w es).Booked j → i = j
  found : ∀ (i : Nat) (a : Call), (runCalls job env w es).calls[i]? = some a → a.Booked →
    a.foundOpen ≠ some false
  dismissed : ∀ pre post, es = pre ++ post →
    (runCalls job env w pre).intake.entries.currentStatus job.unassignedId = some .ignored →
      ∀ i, (runCalls job env w es).Booked i → (runCalls job env w pre).Booked i

/-- Ingesting the row would book it: it can be stored, and the choice is clear. -/
def Database.wouldBook (db : Database) (row : TransactionObservationsRow) : Bool :=
  match db.insertObservation row, row.instrumentId with
  | .ok (_, db₁), some instrumentId => !(db₁.verdict (incomingOf row instrumentId)).isAmbiguous
  | _, _ => false

/-- The call's next statement would book. -/
def Call.aboutToBook (w : Intake) (a : Call) : Bool :=
  match a.stage with
  | .booking row => w.ledger.db.wouldBook row
  | .layer6 (.written row) => (readyInstrument row).any fun instrumentId =>
      row.eventTime.isSome && !(w.ledger.db.verdict (layer6Incoming row instrumentId)).isAmbiguous
  | _ => false

/-- The call's next statement changes the status. -/
def Call.aboutToMove (a : Call) : Bool :=
  match a.stage with
  | .resolving | .dismissing | .layer6 .applied | .layer6 .reconciled => true
  | _ => false

/-- Nobody but the `i`th call has booked and not come to the status yet. -/
def CallsWorld.NoneInside (w : CallsWorld) (i : Nat) : Prop :=
  ∀ (j : Nat) (a : Call), w.calls[j]? = some a → a.Inside → j = i

instance decidableNoneInside (w : CallsWorld) (i : Nat) : Decidable (w.NoneInside i) :=
  decidable_of_iff (∀ p ∈ w.calls.zipIdx, p.1.Inside → p.2 = i) <| by
    constructor
    · intro h j a ha hinside
      exact h (a, j) (List.mem_zipIdx_iff_getElem?.mpr ha) hinside
    · intro h p hp hinside
      exact h p.2 p.1 (List.mem_zipIdx_iff_getElem?.mp hp) hinside

/-- A statement that books finds the entry open; between it and the call's change of the
status nobody else books or changes it. -/
def CallEvent.Sound (w : CallsWorld) : CallEvent → Prop
  | .step i _ => ∀ a ∈ w.calls[i]?,
    (a.aboutToBook w.intake = true →
      w.intake.entries.isOpen job.unassignedId = true ∧ w.NoneInside i) ∧
    (a.aboutToMove = true → w.NoneInside i)
  | _ => True

instance decidableSoundCallEvent (w : CallsWorld) (e : CallEvent) : Decidable (e.Sound job w) := by
  cases e with
  | step i now =>
    unfold CallEvent.Sound
    infer_instance
  | _ => exact isTrue trivial

/-- Every event of the run meets its condition. -/
def SoundCalls (w : CallsWorld) : List CallEvent → Prop
  | [] => True
  | e :: es => e.Sound job w ∧ SoundCalls (e.apply job env w) es

instance decidableSoundCalls : (es : List CallEvent) → (w : CallsWorld) →
    Decidable (SoundCalls job env w es)
  | [], _ => isTrue trivial
  | e :: es, w =>
    have := decidableSoundCalls es (e.apply job env w)
    inferInstanceAs (Decidable (e.Sound job w ∧ SoundCalls job env (e.apply job env w) es))

/-! ## what one statement does -/

/-- What the stages say of the rest of a call. -/
def Call.Sane (a : Call) : Prop :=
  match a.stage with
  | .booking _ => a.decision = none ∧ a.foundOpen = none
  | .resolving | .dismissing | .layer6 .reconciled => a.foundOpen = none
  | .layer6 (.answered outcome) =>
    (a.decision = none ∧ a.foundOpen = none) ∧ ∃ enriched instrument,
      outcome = .extracted enriched instrument
  | .layer6 .ignoring => False
  | .layer6 (.finished _) | .layer6 .ended | .rereading _ | .returned _ => True
  | .layer6 _ => a.decision = none ∧ a.foundOpen = none

/-- A statement of a call does one of three things: nothing that matters here; it books; or
it comes to the entry's status. -/
inductive Call.Does (job : Layer6Job) (w : Intake) (a : Call) : Intake → Call → Prop
  | nothing {w' a'} (hopen : w'.entries.isOpen job.unassignedId = w.entries.isOpen job.unassignedId)
      (hbooked : a'.Booked ↔ a.Booked) (hfound : a'.foundOpen = a.foundOpen) (hsane : a'.Sane) :
      Does job w a w' a'
  | books {w' a'} (habout : a.aboutToBook w = true)
      (hopen : w'.entries.isOpen job.unassignedId = w.entries.isOpen job.unassignedId)
      (hnot : ¬ a.Booked) (hbooked : a'.Booked) (hfound : a'.foundOpen = none) (hsane : a'.Sane) :
      Does job w a w' a'
  | moves {w' a'} (habout : a.aboutToMove = true) (hfound : a.foundOpen = none)
      (hshut : w'.entries.isOpen job.unassignedId = false) (hbooked : a'.Booked ↔ a.Booked)
      (hfound' : a'.foundOpen = some (w.entries.isOpen job.unassignedId)) (hsane : a'.Sane) :
      Does job w a w' a'

variable {job env}

omit [Extern] in
theorem isOpen_settleIfOpen (T : Entries) (id : String) {status : EntryStatus}
    (h : status ≠ .open) : (T.settleIfOpen id status).isOpen id = false := by
  have hnot : ¬ (T.settleIfOpen id status).isOpen id = true := by
    rw [Entries.isOpen_iff, Entries.currentStatus, Entries.settleIfOpen, Table.find?_modify]
    cases hr : T.find? id with
    | none => simp
    | some r =>
      by_cases hs : r.status = .open
      · simp [movePatch, hs, h]
      · simp [movePatch, hs]
  simpa using hnot

omit [Extern] in
theorem isOpen_updateReason {T T' : Entries} {id reason : String}
    (h : T.updateReason id reason = .ok T') : T'.isOpen id = T.isOpen id := by
  unfold Entries.updateReason at h
  split at h
  · cases h
  · obtain rfl := Except.ok.inj h
    unfold Entries.isOpen
    rw [Entries.currentStatus_reason]

omit [Extern] in
theorem not_booked_of_none {a : Call} (h : a.decision = none) : ¬ a.Booked := by
  rintro ⟨d, hd, -⟩
  rw [h] at hd
  cases hd

/-- What an ingestion decided, it could be seen to decide. -/
theorem wouldBook_of_ingest {row : TransactionObservationsRow} {now : Int} {s : Store Database}
    {outcome : InsertObservationOutcome} {d : DecisionType} {c : Conn Database}
    (h : ingestObservation row true (.quiet now) ⟨s, none⟩ = (.ok (outcome, some d), c))
    (hd : ∀ cl, d ≠ .ambiguousPending cl) : s.db.wouldBook row = true := by
  obtain ⟨db₁, instrumentId, hins, hinst, hrun⟩ := ingest_reconciled h
  have hambiguous : (db₁.verdict (incomingOf row instrumentId)).isAmbiguous = false := by
    by_contra hne
    obtain ⟨cl, hcl⟩ := (fetchAndReconcile_ambiguous_iff hrun).mp (by simpa using hne)
    exact hd cl hcl
  simp [Database.wouldBook, hins, hinst, hambiguous]

theorem aboutToBook_of_reconcile {row : TransactionObservationsRow} {now : Int} {w : Intake}
    {instrumentId : String} {d : DecisionType} {ledger : Store Database} {a : Call}
    (hstage : a.stage = .layer6 (.written row)) (hready : readyInstrument row = some instrumentId)
    (h : reconcileOn (layer6Incoming row instrumentId) now w.ledger = (.ok d, ledger))
    (hd : ∀ cl, d ≠ .ambiguousPending cl) : a.aboutToBook w = true := by
  obtain ⟨dt, hdt, -⟩ := reconcileOn_acted h
  have htime : row.eventTime = some dt := (TimeText.parse_ofOption row.eventTime).symm.trans hdt
  have hambiguous : (w.ledger.db.verdict (layer6Incoming row instrumentId)).isAmbiguous =
      false := by
    by_contra hne
    obtain ⟨cl, hcl⟩ := (reconcileOn_ambiguous_iff h).mp (by simpa using hne)
    exact hd cl hcl
  simp [Call.aboutToBook, hstage, hready, htime, hambiguous]

omit [Extern] in
/-- A decision books, or was left to the user. -/
theorem booked_or_not (decision : Option DecisionType) :
    (∃ d, decision = some d ∧ ∀ c, d ≠ .ambiguousPending c) ∨
      ∀ d, decision = some d → ∃ c, d = .ambiguousPending c := by
  by_cases h : ∃ d, decision = some d ∧ ∀ c, d ≠ .ambiguousPending c
  · exact .inl h
  · right
    intro d hd
    by_contra hne
    exact h ⟨d, hd, fun c hc => hne ⟨c, hc⟩⟩

/-- The user's calls. -/
theorem Call.does_move {w : Intake} {a : Call} {status : EntryStatus} (hstatus : status ≠ .open)
    (habout : a.aboutToMove = true) (hfound : a.foundOpen = none) :
    a.Does job w (a.move job w status).1 (a.move job w status).2 := by
  refine .moves habout hfound ?_ Iff.rfl rfl ?_
  · exact isOpen_settleIfOpen w.entries job.unassignedId hstatus
  · cases hopen : w.entries.isOpen job.unassignedId <;> simp [Call.move, Call.Sane, hopen]

theorem Call.does_ingest {w : Intake} {a : Call} {row : TransactionObservationsRow} (now : Int)
    (hstage : a.stage = .booking row) (hdecision : a.decision = none)
    (hfound : a.foundOpen = none) :
    a.Does job w (a.step job env now w).1 (a.step job env now w).2 := by
  unfold Call.step
  simp only [hstage]
  rcases hrun : ingestObservation row true (.quiet now) ⟨w.ledger, none⟩ with
    ⟨e | ⟨outcome, decision⟩, c⟩
  · exact .nothing rfl Iff.rfl rfl trivial
  · rcases booked_or_not decision with ⟨d, rfl, hd⟩ | hleft
    · have habout : a.aboutToBook w = true := by
        rw [Call.aboutToBook, hstage]
        exact wouldBook_of_ingest hrun hd
      exact .books habout rfl (not_booked_of_none hdecision) ⟨d, rfl, hd⟩ hfound hfound
    · refine .nothing rfl (iff_of_false ?_ (not_booked_of_none hdecision)) rfl hfound
      rintro ⟨d, hd, hclear⟩
      obtain ⟨c, hc⟩ := hleft d hd
      exact hclear c hc

/-- The step of Layer 6 that reconciles. -/
theorem Call.does_reconcile {w : Intake} {a : Call} {row : TransactionObservationsRow} (now : Int)
    (hstage : a.stage = .layer6 (.written row)) (hdecision : a.decision = none)
    (hfound : a.foundOpen = none) :
    a.Does job w (a.step job env now w).1 (a.step job env now w).2 := by
  unfold Call.step
  simp only [hstage, layer6Decision, Layer6Job.step]
  cases hready : readyInstrument row with
  | none =>
    cases hreason : w.entries.updateReason job.unassignedId (gate3Reason row) with
    | ok T =>
      simp only [Intake.try]
      exact .nothing (isOpen_updateReason hreason) Iff.rfl rfl trivial
    | error e => exact .nothing rfl Iff.rfl rfl trivial
  | some instrumentId =>
    dsimp only
    rcases hrun : reconcileOn (layer6Incoming row instrumentId) now w.ledger with ⟨e | d, ledger⟩
    · exact .nothing rfl Iff.rfl rfl trivial
    · rcases booked_or_not (some d) with ⟨d', hd', hd⟩ | hleft
      · obtain rfl := Option.some.inj hd'
        exact .books (aboutToBook_of_reconcile hstage hready hrun hd) rfl
          (not_booked_of_none hdecision) ⟨d, rfl, hd⟩ hfound hfound
      · refine .nothing rfl (iff_of_false ?_ (not_booked_of_none hdecision)) rfl hfound
        rintro ⟨d', hd', hclear⟩
        obtain ⟨c, hc⟩ := hleft d' hd'
        exact hclear c hc

/-- **What the next statement of a call does.** -/
theorem Call.does_step {w : Intake} {a : Call} (now : Int) (hsane : a.Sane) :
    a.Does job w (a.step job env now w).1 (a.step job env now w).2 := by
  obtain ⟨stage, decision, foundOpen⟩ := a
  cases stage with
  | booking row => exact Call.does_ingest now rfl hsane.1 hsane.2
  | resolving => exact Call.does_move (by decide) rfl hsane
  | dismissing => exact Call.does_move (by decide) rfl hsane
  | rereading status => exact .nothing rfl Iff.rfl rfl trivial
  | returned ok => exact .nothing rfl Iff.rfl rfl trivial
  | layer6 stage =>
    cases stage with
    | written row => exact Call.does_reconcile now rfl hsane.1 hsane.2
    | applied =>
      exact .moves rfl hsane.2 (isOpen_settleIfOpen _ _ (by decide)) Iff.rfl rfl trivial
    | reconciled =>
      exact .moves rfl hsane (isOpen_settleIfOpen _ _ (by decide)) Iff.rfl rfl trivial
    | answered outcome =>
      obtain ⟨hearly, enriched, instrument, rfl⟩ := hsane
      unfold Call.step
      simp only [Layer6Job.step]
      split
      · exact .nothing rfl Iff.rfl rfl hearly
      · exact .nothing rfl Iff.rfl rfl trivial
    | opened enriched instrument =>
      unfold Call.step
      simp only [Layer6Job.step]
      split
      · exact .nothing rfl Iff.rfl rfl trivial
      · split
        · exact .nothing rfl Iff.rfl rfl hsane
        · exact .nothing rfl Iff.rfl rfl hsane
    | enriched row instrument => exact .nothing rfl Iff.rfl rfl hsane
    | attributed row =>
      unfold Call.step
      simp only [Layer6Job.step]
      split
      · exact .nothing rfl Iff.rfl rfl hsane
      · exact .nothing rfl Iff.rfl rfl trivial
    | ignoring => exact hsane.elim
    | finished completed =>
      refine .nothing ?_ Iff.rfl rfl trivial
      exact congrArg (Entries.isOpen · job.unassignedId) (entries_close w job completed)
    | ended => exact .nothing rfl Iff.rfl rfl trivial

/-! ## the entry as a turn -/

def CallsWorld.InsideAt (w : CallsWorld) (i : Nat) : Prop := ∃ a, w.calls[i]? = some a ∧ a.Inside

/-- The calls see the entry as a thing taken once. -/
structure CallsWorld.Reflects (job : Layer6Job) (w : CallsWorld) (t : Turn.State Nat) : Prop where
  sane : ∀ (i : Nat) (a : Call), w.calls[i]? = some a → a.Sane
  found : ∀ (i : Nat) (a : Call), w.calls[i]? = some a → a.Booked → a.foundOpen ≠ some false
  taken : ∀ i, w.Booked i ↔ i ∈ t.taken
  inside : ∀ i, w.InsideAt i ↔ t.phase = .held i
  isOpen : w.intake.entries.isOpen job.unassignedId = true ↔ t.phase ≠ .closed

variable {w : CallsWorld} {t t' : Turn.State Nat}

omit [Extern] in
theorem CallsWorld.Reflects.mirrors (h : w.Reflects job t) : Turn.Mirrors Call.Booked Call.Inside
    (w.intake.entries.isOpen job.unassignedId = true) w.calls t :=
  ⟨h.taken, h.inside, h.isOpen⟩

omit [Extern] in
theorem CallsWorld.Reflects.set (h : w.Reflects job t) {i : Nat} {a' : Call} {w' : Intake}
    (hsane : a'.Sane) (hfound : a'.Booked → a'.foundOpen ≠ some false)
    (hmirrors : Turn.Mirrors Call.Booked Call.Inside
      (w'.entries.isOpen job.unassignedId = true) (w.calls.set i a') t') :
    CallsWorld.Reflects job ⟨w', w.calls.set i a'⟩ t' :=
  ⟨Turn.forall_set h.sane hsane,
    Turn.forall_set (P := fun a : Call => a.Booked → a.foundOpen ≠ some false) h.found hfound,
    hmirrors.taken, hmirrors.inside, hmirrors.isOpen⟩

omit [Extern] in
/-- A call that does nothing to the entry leaves the turn alone. -/
theorem CallsWorld.Reflects.nothing (h : w.Reflects job t) {i : Nat} {a a' : Call} {w' : Intake}
    (hi : w.calls[i]? = some a) (hsane : a'.Sane)
    (hopen : w'.entries.isOpen job.unassignedId = w.intake.entries.isOpen job.unassignedId)
    (hbooked : a'.Booked ↔ a.Booked) (hfound : a'.foundOpen = a.foundOpen) :
    CallsWorld.Reflects job ⟨w', w.calls.set i a'⟩ t := by
  have hinside : a'.Inside ↔ a.Inside := by
    unfold Call.Inside
    rw [hbooked, hfound]
  refine h.set hsane ?_ (h.mirrors.nothing hi hbooked hinside (by rw [hopen]))
  rw [hbooked, hfound]
  exact h.found i a hi

omit [Extern] in
/-- A call that books takes the turn. -/
theorem CallsWorld.Reflects.books (h : w.Reflects job t) {i : Nat} {a a' : Call} {w' : Intake}
    (hi : w.calls[i]? = some a) (hsane : a'.Sane)
    (hopen : w'.entries.isOpen job.unassignedId = w.intake.entries.isOpen job.unassignedId)
    (hnot : ¬ a.Booked) (hbooked : a'.Booked) (hfound : a'.foundOpen = none)
    (hfree : w.intake.entries.isOpen job.unassignedId = true) (hnone : w.NoneInside i) :
    ∃ t', Turn.Step t t' ∧ CallsWorld.Reflects job ⟨w', w.calls.set i a'⟩ t' := by
  have hsame : w'.entries.isOpen job.unassignedId = true ↔
      w.intake.entries.isOpen job.unassignedId = true := by rw [hopen]
  obtain ⟨t', hstep, hmirrors⟩ := h.mirrors.takes hi (fun hin => hnot hin.1) hbooked
    ⟨hbooked, hfound⟩ hfree hnone hsame
  refine ⟨t', hstep, h.set hsane (fun _ => ?_) hmirrors⟩
  rw [hfound]
  exact nofun

omit [Extern] in
/-- A call that comes to the status closes the entry, or finds it closed. -/
theorem CallsWorld.Reflects.moves (h : w.Reflects job t) {i : Nat} {a a' : Call} {w' : Intake}
    (hi : w.calls[i]? = some a) (hsane : a'.Sane) (hfound : a.foundOpen = none)
    (hshut : w'.entries.isOpen job.unassignedId = false) (hbooked : a'.Booked ↔ a.Booked)
    (hfound' : a'.foundOpen = some (w.intake.entries.isOpen job.unassignedId))
    (hnone : w.NoneInside i) :
    ∃ t', Turn.Step t t' ∧ CallsWorld.Reflects job ⟨w', w.calls.set i a'⟩ t' := by
  have hout : ¬ a'.Inside := by
    rintro ⟨-, hnot⟩
    rw [hfound'] at hnot
    cases hnot
  have hclosed : ¬ w'.entries.isOpen job.unassignedId = true := by simp [hshut]
  obtain ⟨t', hstep, hmirrors⟩ := h.mirrors.closes hi hbooked hout hclosed hnone
  refine ⟨t', hstep, h.set hsane (fun ha => ?_) hmirrors⟩
  -- whoever booked holds the turn, so the entry was open
  have hphase : t.phase = .held i := (h.inside i).mp ⟨a, hi, hbooked.mp ha, hfound⟩
  have hopen : w.intake.entries.isOpen job.unassignedId = true := by
    rw [h.isOpen, hphase]
    exact nofun
  rw [hfound', hopen]
  exact nofun

omit [Extern] in
/-- A new call has not done anything yet. -/
theorem CallsWorld.Reflects.spawn (h : w.Reflects job t) {a : Call} (hsane : a.Sane)
    (hdecision : a.decision = none) :
    CallsWorld.Reflects job { w with calls := w.calls ++ [a] } t := by
  have hnot := not_booked_of_none hdecision
  have hmirrors := h.mirrors.spawn hnot fun hin => hnot hin.1
  exact ⟨Turn.forall_append h.sane hsane,
    Turn.forall_append (P := fun a : Call => a.Booked → a.foundOpen ≠ some false) h.found
      fun hbooked => absurd hbooked hnot,
    hmirrors.taken, hmirrors.inside, hmirrors.isOpen⟩

/-- **A sound event is a step of the turn.** -/
theorem CallsWorld.Reflects.apply (h : w.Reflects job t) {e : CallEvent} (hsound : e.Sound job w) :
    ∃ t', Turn.Step t t' ∧ (e.apply job env w).Reflects job t' := by
  cases e with
  | resolve obsId payload => exact ⟨t, .idle t, h.spawn ⟨rfl, rfl⟩ rfl⟩
  | dismiss => exact ⟨t, .idle t, h.spawn (rfl : Call.Sane { stage := .dismissing }) rfl⟩
  | layer6 enriched instrument =>
    exact ⟨t, .idle t, h.spawn ⟨⟨rfl, rfl⟩, enriched, instrument, rfl⟩ rfl⟩
  | step i now =>
    cases hi : w.calls[i]? with
    | none =>
      have happly : (CallEvent.step i now).apply job env w = w := by simp [CallEvent.apply, hi]
      rw [happly]
      exact ⟨t, .idle t, h⟩
    | some a =>
      obtain ⟨hbook, hmove⟩ := hsound a hi
      have hdoes : a.Does job w.intake (a.step job env now w.intake).1
          (a.step job env now w.intake).2 := Call.does_step now (h.sane i a hi)
      have happly : (CallEvent.step i now).apply job env w =
          ⟨(a.step job env now w.intake).1, w.calls.set i (a.step job env now w.intake).2⟩ := by
        simp [CallEvent.apply, hi]
      rw [happly]
      generalize a.step job env now w.intake = r at hdoes ⊢
      obtain ⟨w', a'⟩ := r
      cases hdoes with
      | nothing hopen hbooked hfound hsane =>
        exact ⟨t, .idle t, h.nothing hi hsane hopen hbooked hfound⟩
      | books habout hopen hnot hbooked hfound hsane =>
        obtain ⟨hfree, hnone⟩ := hbook habout
        exact h.books hi hsane hopen hnot hbooked hfound hfree hnone
      | moves habout hfound hshut hbooked hfound' hsane =>
        exact h.moves hi hsane hfound hshut hbooked hfound' (hmove habout)

theorem CallsWorld.Reflects.run (h : w.Reflects job t) {es : List CallEvent}
    (hsound : SoundCalls job env w es) :
    ∃ t', Turn.Reach t t' ∧ (runCalls job env w es).Reflects job t' := by
  induction es generalizing w t with
  | nil => exact ⟨t, .refl, h⟩
  | cons e es ih =>
    obtain ⟨t₁, hstep, h₁⟩ : ∃ t₁, Turn.Step t t₁ ∧ (e.apply job env w).Reflects job t₁ :=
      h.apply hsound.1
    obtain ⟨t₂, hreach, h₂⟩ := ih h₁ hsound.2
    exact ⟨t₂, .head hstep hreach, h₂⟩

theorem runCalls_append (es es' : List CallEvent) :
    runCalls job env w (es ++ es') = runCalls job env (runCalls job env w es) es' :=
  List.foldl_append

theorem soundCalls_append {es es' : List CallEvent} :
    SoundCalls job env w (es ++ es') ↔
      SoundCalls job env w es ∧ SoundCalls job env (runCalls job env w es) es' := by
  induction es generalizing w with
  | nil => simp [SoundCalls, runCalls]
  | cons e es ih =>
    show e.Sound job w ∧ SoundCalls job env (e.apply job env w) (es ++ es') ↔
      (e.Sound job w ∧ SoundCalls job env (e.apply job env w) es) ∧ _
    rw [ih, and_assoc]
    rfl

omit [Extern] in
/-- Before the first call, the turn is free if the entry is open. -/
theorem reflects_start (job : Layer6Job) (intake : Intake) :
    CallsWorld.Reflects job ⟨intake, []⟩
      ⟨if intake.entries.isOpen job.unassignedId then .free else .closed, []⟩ := by
  have hmirrors := Turn.Mirrors.start Call.Booked Call.Inside
    (intake.entries.isOpen job.unassignedId = true)
  exact ⟨by simp, by simp, hmirrors.taken, hmirrors.inside, hmirrors.isOpen⟩

/-- **An entry is booked once**: by one call at most, which finds it open when it comes to
change its status, and not after it was dismissed, in every run of calls between whose
booking and change of the status no other gets in. -/
theorem entry_booked_once (intake : Intake) (es : List CallEvent)
    (hsound : SoundCalls job env ⟨intake, []⟩ es) : BookedOnce job env ⟨intake, []⟩ es := by
  have hstart := reflects_start job intake
  generalize ht₀ : (Turn.State.mk (if intake.entries.isOpen job.unassignedId then
    Turn.Phase.free else .closed) ([] : List Nat)) = t₀ at hstart
  have horderly : t₀.Orderly := by
    rw [← ht₀]
    exact Turn.State.orderly_start _
  obtain ⟨t, hreach, hend⟩ := hstart.run hsound
  refine ⟨?_, hend.found, ?_⟩
  · intro i j hi hj
    exact hreach.taken_unique horderly ((hend.taken i).mp hi) ((hend.taken j).mp hj)
  · rintro before after rfl hignored i hi
    obtain ⟨hbefore, hafter⟩ := soundCalls_append.mp hsound
    obtain ⟨t₁, hreach₁, h₁⟩ := hstart.run hbefore
    obtain ⟨t₂, hreach₂, h₂⟩ := h₁.run hafter
    have hclosed : t₁.phase = .closed := by
      by_contra hne
      have hopen := Entries.isOpen_iff.mp (h₁.isOpen.mpr hne)
      rw [hignored] at hopen
      cases hopen
    rw [runCalls_append] at hi
    rw [h₁.taken]
    rw [h₂.taken, hreach₂.taken_closed hclosed] at hi
    exact hi

/-- What is booked is linked to a transaction that is there. -/
theorem Call.booked_linked {w : Intake} {a : Call} {now : Int} (hsane : a.Sane)
    (hnot : ¬ a.Booked) (hbooked : (a.step job env now w).2.Booked) :
    ∃ row : TransactionObservationsRow,
      (a.stage = .booking row ∨ a.stage = .layer6 (.written row)) ∧
        (a.step job env now w).1.ledger.db.LinkedLive row.id := by
  obtain ⟨stage, decision, foundOpen⟩ := a
  cases stage with
  | booking row =>
    refine ⟨row, .inl rfl, ?_⟩
    unfold Call.step at hbooked ⊢
    dsimp only at hbooked ⊢
    rcases hrun : ingestObservation row true (.quiet now) ⟨w.ledger, none⟩ with
      ⟨e | ⟨outcome, decision'⟩, c⟩
    · rw [hrun] at hbooked
      exact absurd hbooked hnot
    · rw [hrun] at hbooked
      obtain ⟨d, hd, hclear⟩ := hbooked
      dsimp only at hd
      subst hd
      obtain ⟨db₁, instrumentId, dt, -, -, -, hacted⟩ := ingest_decided hrun
      exact hacted.linkedLive hclear
  | layer6 stage =>
    cases stage with
    | written row =>
      refine ⟨row, .inr rfl, ?_⟩
      obtain ⟨d, hd, hclear⟩ := hbooked
      have hnone : decision = none := hsane.1
      subst hnone
      simp only [Call.step, layer6Decision, Layer6Job.step, Option.or_none] at hd ⊢
      cases hready : readyInstrument row with
      | none => simp [hready] at hd
      | some instrumentId =>
        simp only [hready] at hd ⊢
        rcases hrun : reconcileOn (layer6Incoming row instrumentId) now w.ledger with
          ⟨e | d', ledger⟩
        · simp [hrun, Except.toOption] at hd
        · obtain rfl : d' = d := by simpa [hrun, Except.toOption] using hd
          obtain ⟨dt, -, hacted⟩ := reconcileOn_acted hrun
          exact hacted.linkedLive hclear
    | _ => exact absurd hbooked hnot
  | _ => exact absurd hbooked hnot

end Steps

/-! ## a run that is not sound -/

/-- Five hundred rupees, as the user enters them for the waiting payment. -/
def enteredByHand : ManualTransactionPayload where
  amountMinor := 500
  currency := "INR"
  direction := "debit"
  eventTime := .dateTime 1000
  merchantName := "ZOMATO"
  instrumentId := "account"
  referenceId := none

/-- The user resolves the entry while the model is at work, and dismisses it later. -/
def resolvedMeanwhile : List CallEvent :=
  [.layer6 { merchantRaw := some "ZOMATO", confidenceScore := some (9 / 10) } none,
    .resolve "o2" enteredByHand, .step 1 2000, .step 1 2001, .step 0 2002, .dismiss, .step 2 2003]

theorem entry_booked_once_resolved :
    letI := Extern.ascii
    BookedOnce queuedJob plainLadder { intake := queued .open } resolvedMeanwhile := by
  let := Extern.ascii
  exact entry_booked_once (queued .open) resolvedMeanwhile (by decide +kernel)

/-- The entry is dismissed in one place and resolved in another: the resolver is refused,
and its transaction is booked. -/
theorem entry_dismissed_then_booked :
    letI := Extern.ascii
    ¬ BookedOnce queuedJob plainLadder { intake := queued .open }
      [.dismiss, .step 0 2000, .resolve "o2" enteredByHand, .step 1 2001, .step 1 2002] := by
  let := Extern.ascii
  intro h
  have hbooked := h.dismissed [.dismiss, .step 0 2000]
    [.resolve "o2" enteredByHand, .step 1 2001, .step 1 2002] rfl (by decide +kernel) 1
  revert hbooked
  decide +kernel

end Dinero
