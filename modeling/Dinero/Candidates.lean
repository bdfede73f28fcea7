import Dinero.Outcomes

/-!
# Dinero.Candidates

What an observation can be merged into.

The fetch for the scorer filters in SQL, where a `NULL` column matches nothing;
the fingerprint path compares a projection in which a `NULL` has become a
default.  On a ledger built by ingestions the difference does not show: every
canonical is live and has the compared columns (`Complete`), and no instrument
has the empty id.  So whatever path decides, the canonical agrees with the
observation, and the fingerprint path never leaves the list the scorer fetches.
-/

namespace Dinero

open Sql

/-! ## complete canonicals -/

/-- A live canonical with the columns a match compares. -/
structure TransactionsRow.Complete (t : TransactionsRow) : Prop where
  live : t.isDeleted = false
  direction : t.direction.isSome = true
  amountMinor : t.amountMinor.isSome = true
  currency : t.currency.isSome = true
  bestEventTime : t.bestEventTime.isSome = true

/-- Every canonical is complete. -/
def Database.Complete (db : Database) : Prop := ∀ t ∈ db.transactions, t.Complete

/-- Completeness is a matter of settled columns. -/
theorem TransactionsRow.Complete.of_settled {t t' : TransactionsRow} (h : t.Complete)
    (heq : t.settled = t'.settled) : t'.Complete := by
  have hcol : ∀ {β : Type} (f : TransactionsRow → β), f t.settled = f t'.settled :=
    fun f => congrArg f heq
  exact ⟨(hcol (·.isDeleted)).symm.trans h.live,
    (congrArg Option.isSome (hcol (·.direction))).symm.trans h.direction,
    (congrArg Option.isSome (hcol (·.amountMinor))).symm.trans h.amountMinor,
    (congrArg Option.isSome (hcol (·.currency))).symm.trans h.currency,
    (congrArg Option.isSome (hcol (·.bestEventTime))).symm.trans h.bestEventTime⟩

/-- A merge completes rather than empties. -/
theorem TransactionsRow.Complete.merge {t : TransactionsRow} (h : t.Complete)
    (obs : IncomingObservation) (mix : Option SourceMix) (overwrite : Bool) (now : Int) :
    ((mergePatch obs mix overwrite now).run t).Complete := by
  unfold mergePatch
  split
  · exact ⟨h.live, h.direction, rfl, h.currency, h.bestEventTime⟩
  split
  · exact ⟨h.live, h.direction, h.amountMinor, h.currency, h.bestEventTime⟩
  split
  · exact ⟨h.live, h.direction, h.amountMinor, h.currency, h.bestEventTime⟩
  · exact h

theorem canonicalRow_complete (id : String) {obs : IncomingObservation}
    (merchant : Option (String × String)) (now : Int) {dt : Int}
    (ht : obs.eventTime.parse = some dt) : (canonicalRow id obs merchant now).Complete :=
  ⟨rfl, rfl, rfl, rfl, by simp [canonicalRow, newTransaction, ht]⟩

/-- A table complete before deriving is complete after. -/
theorem LinkedTo.complete {obsId id : String} {now : Int} {T : Table TransactionsRow}
    {db db' : Database} (h : LinkedTo obsId id now T db db') (hT : ∀ t ∈ T, t.Complete) :
    db'.Complete := by
  intro t ht
  obtain ⟨t₀, ht₀, heq⟩ := Table.exists_of_map_eq h.settled ht
  exact (hT t₀ ht₀).of_settled heq

variable [Extern]

theorem Acted.complete {obs : IncomingObservation} {dt now : Int} {d : DecisionType}
    {db db' : Database} (h : Acted obs dt now db db' d) (ht : obs.eventTime.parse = some dt)
    (hdb : db.Complete) : db'.Complete := by
  cases h with
  | merged _ t overwrite _ _ _ hl _ =>
    refine hl.complete fun x hx => ?_
    rcases Table.mem_modify_cases hx with ⟨hr, -⟩ | ⟨r, hr, -, rfl⟩
    · exact hdb x hr
    · exact (hdb r hr).merge _ _ _ _
  | created id merchant T hT hl _ =>
    refine hl.complete fun x hx => ?_
    rcases (Table.mem_of_insert? hT).mp hx with hx | rfl
    · exact hdb x hx
    · exact canonicalRow_complete id merchant now ht
  | raised _ _ _ hraised hdb' _ =>
    intro x hx
    rw [hdb'] at hx
    exact hdb x (hraised.payments.2.1 ▸ hx)

/-- **Ingestions keep canonicals complete.** -/
theorem Database.Complete.ingest {s : Store Database} (h : s.db.Complete)
    (row : TransactionObservationsRow) (shouldReconcile : Bool) (now : Int) :
    ((Op.ingest row shouldReconcile).run now s).db.Complete := by
  cases Op.ingest_effect row shouldReconcile now s with
  | unchanged hdb => rwa [hdb]
  | stored hins =>
    unfold Complete
    rwa [transactions_insertObservation hins]
  | acted db₁ i dt d hins _ htime hact =>
    refine hact.complete (by simp [incomingOf, htime]) ?_
    unfold Complete
    rwa [transactions_insertObservation hins]

theorem complete_of_reachable {P : Store Database → Op → Prop}
    (hP : ∀ s op, P s op → op.IsIngest) {s : Store Database} (h : Reachable P s) :
    s.db.Complete := by
  refine (h.invariant (I := Database.Complete) ?_ ?_).2
  · intro s h₀ t ht
    rw [h₀.empty.transactions] at ht
    exact absurd ht (Table.not_mem_empty t)
  · intro s op now _ hI hop
    cases op with
    | ingest row shouldReconcile => exact hI.ingest row shouldReconcile now
    | resolve => exact (hP _ _ hop).elim
    | unmerge => exact (hP _ _ hop).elim

/-! ## agreement -/

/-- A row with everything the matcher asks for. -/
structure Present (row : TransactionObservationsRow) : Prop where
  instrumentId : row.instrumentId.isSome = true
  amountMinor : row.amountMinor.isSome = true
  currency : row.currency.isSome = true
  direction : row.direction.isSome = true
  eventTime : row.eventTime.isSome = true

/-- A live canonical with the same instrument, direction, currency and amount,
at most three days away. -/
structure Agrees (row : TransactionObservationsRow) (t : TransactionsRow) : Prop where
  live : t.isDeleted = false
  instrumentId : t.instrumentId = row.instrumentId
  direction : t.direction = row.direction
  currency : t.currency = row.currency
  amountMinor : t.amountMinor = row.amountMinor
  time : ∃ a b, row.eventTime = some a ∧ t.bestEventTime = some b ∧
    (a - b).natAbs ≤ 3 * 24 * 60 * 60

omit [Extern] in
/-- On a complete canonical the exact-match test compares the columns
themselves. -/
theorem verifyExactMatch_complete {row : TransactionObservationsRow} {i : String}
    {t : TransactionsRow} (hrow : Present row) (hne : i ≠ "") (ht : t.Complete)
    (h : verifyExactMatch (incomingOf row i) (toCanonicalCandidate t) = true) :
    t.instrumentId = some i ∧ t.direction = row.direction ∧ t.currency = row.currency ∧
      t.amountMinor = row.amountMinor ∧
      ∃ a b, row.eventTime = some a ∧ t.bestEventTime = some b ∧ (a - b).natAbs ≤ 120 := by
  obtain ⟨am, ham⟩ := Option.isSome_iff_exists.mp hrow.amountMinor
  obtain ⟨cu, hcu⟩ := Option.isSome_iff_exists.mp hrow.currency
  obtain ⟨di, hdi⟩ := Option.isSome_iff_exists.mp hrow.direction
  obtain ⟨a, ha⟩ := Option.isSome_iff_exists.mp hrow.eventTime
  obtain ⟨tam, htam⟩ := Option.isSome_iff_exists.mp ht.amountMinor
  obtain ⟨tcu, htcu⟩ := Option.isSome_iff_exists.mp ht.currency
  obtain ⟨tdi, htdi⟩ := Option.isSome_iff_exists.mp ht.direction
  obtain ⟨b, hb⟩ := Option.isSome_iff_exists.mp ht.bestEventTime
  simp only [verifyExactMatch, incomingOf, toCanonicalCandidate, timeWithinTolerance,
    TimeText.parse_ofOption, ham, hcu, hdi, ha, htam, htcu, htdi, hb, Option.getD_some,
    Bool.and_eq_true, decide_eq_true_eq, exactMatchTimeToleranceSeconds] at h
  obtain ⟨⟨⟨⟨hinst, rfl⟩, rfl⟩, rfl⟩, htime⟩ := h
  have hle := of_decide_eq_true htime
  refine ⟨?_, htdi.trans hdi.symm, htcu.trans hcu.symm, htam.trans ham.symm, a, b, ha, hb,
    by omega⟩
  -- a canonical without an instrument projects to the empty id, which none has
  cases hti : t.instrumentId with
  | none => simp [hti] at hinst; exact absurd hinst hne
  | some ti => simp [hti] at hinst; rw [hinst]

/-- Who is in the window agrees. -/
theorem agrees_of_mem_windowRows {row : TransactionObservationsRow} {i : String}
    {t : TransactionsRow} {db : Database} (hrow : Present row) (hi : row.instrumentId = some i)
    (ht : t ∈ db.windowRows (incomingOf row i)) : Agrees row t := by
  obtain ⟨am, ham⟩ := Option.isSome_iff_exists.mp hrow.amountMinor
  obtain ⟨cu, hcu⟩ := Option.isSome_iff_exists.mp hrow.currency
  obtain ⟨di, hdi⟩ := Option.isSome_iff_exists.mp hrow.direction
  obtain ⟨-, dt, hparse, hwin⟩ := Database.mem_windowRows.mp ht
  obtain ⟨hinst, hamt, hcur, hdir, hlive, bt, hbt, hlo, hhi⟩ := inWindow_iff.mp hwin
  simp only [incomingOf, ham, hcu, hdi, Option.getD_some, TimeText.parse_ofOption]
    at hinst hamt hcur hdir hparse
  exact ⟨hlive, hinst.trans hi.symm, hdir.trans hdi.symm, hcur.trans hcu.symm,
    hamt.trans ham.symm, dt, bt, hparse, hbt, by omega⟩

/-- **The fingerprint path stays in the window**: an exact target is one of the
rows the scorer would have fetched. -/
theorem exactTarget_mem_windowRows {row : TransactionObservationsRow} {i : String}
    {t : TransactionsRow} {db : Database} (hrow : Present row) (hne : i ≠ "")
    (hdb : db.Complete) (h : db.exactTarget (incomingOf row i) = some t) :
    t ∈ db.windowRows (incomingOf row i) := by
  obtain ⟨hmem, hlive, hverify⟩ := Database.exactTarget_eq_some h
  obtain ⟨hinst, hdir, hcur, hamt, a, b, ha, hb, htime⟩ :=
    verifyExactMatch_complete hrow hne (hdb t hmem) hverify
  obtain ⟨am, ham⟩ := Option.isSome_iff_exists.mp hrow.amountMinor
  obtain ⟨cu, hcu⟩ := Option.isSome_iff_exists.mp hrow.currency
  obtain ⟨di, hdi⟩ := Option.isSome_iff_exists.mp hrow.direction
  refine Database.mem_windowRows.mpr ⟨hmem, a, by simp [incomingOf, ha], inWindow_iff.mpr ?_⟩
  simp only [incomingOf, ham, hcu, hdi, Option.getD_some]
  exact ⟨hinst, hamt.trans ham, hcur.trans hcu, hdir.trans hdi, hlive, b, hb, by omega, by omega⟩

omit [Extern] in
/-- A merge leaves the compared columns as they were: the amount it writes is
the amount it found. -/
theorem Agrees.merge {row : TransactionObservationsRow} {i : String} {t : TransactionsRow}
    (h : Agrees row t) (hrow : Present row) (mix : Option SourceMix) (overwrite : Bool)
    (now : Int) : Agrees row ((mergePatch (incomingOf row i) mix overwrite now).run t) := by
  obtain ⟨am, ham⟩ := Option.isSome_iff_exists.mp hrow.amountMinor
  unfold mergePatch
  split
  · exact ⟨h.live, h.instrumentId, h.direction, h.currency,
      by simp [statementPatch, incomingOf, ham], h.time⟩
  split
  · exact ⟨h.live, h.instrumentId, h.direction, h.currency, h.amountMinor, h.time⟩
  split
  · exact ⟨h.live, h.instrumentId, h.direction, h.currency, h.amountMinor, h.time⟩
  · exact h

omit [Extern] in
theorem Agrees.of_settled {row : TransactionObservationsRow} {t t' : TransactionsRow}
    (h : Agrees row t) (heq : t.settled = t'.settled) : Agrees row t' := by
  have hcol : ∀ {β : Type} (f : TransactionsRow → β), f t'.settled = f t.settled :=
    fun f => (congrArg f heq).symm
  obtain ⟨a, b, ha, hb, hab⟩ := h.time
  exact ⟨(hcol (·.isDeleted)).trans h.live, (hcol (·.instrumentId)).trans h.instrumentId,
    (hcol (·.direction)).trans h.direction, (hcol (·.currency)).trans h.currency,
    (hcol (·.amountMinor)).trans h.amountMinor, a, b, ha, (hcol (·.bestEventTime)).trans hb, hab⟩

/-- What an automatic merge of `row` has to come with: the observation linked to
a canonical that agrees with it, before and after; and the canonical among the
candidates fetched right after the row went in. -/
def MergedInWindow (row : TransactionObservationsRow) (now : Int) (s : Store Database)
    (db' : Database) : Prop :=
  ∃ t ∈ s.db.transactions, ∃ t' ∈ db'.transactions, t'.id = t.id ∧
    (db'.observations.find? row.id).bind (·.canonicalTransactionId) = some t.id ∧
    Agrees row t ∧ Agrees row t' ∧
    ∃ i db₁ candidates, row.instrumentId = some i ∧ s.db.insertObservation row = .ok ((), db₁) ∧
      fetchCandidates (incomingOf row i) (.quiet now) { s with db := db₁ } =
        (.ok candidates, { s with db := db₁ }) ∧
      toCanonicalCandidate t ∈ candidates

/-- **Merges stay in the window.**  On every ledger built by ingestions, an
ingestion that merges automatically, by either path, links the observation to
a live canonical of the same instrument, direction, currency and amount within
three days, and it is one of the fetched candidates. -/
theorem merges_in_window {s : Store Database}
    (hs : Reachable (fun _ op => op.IsIngest) s) {row : TransactionObservationsRow}
    (hrow : Present row) {shouldReconcile : Bool} {now : Int} {outcome : InsertObservationOutcome}
    {d : DecisionType} {c : Conn Database}
    (hrun : ingestObservation row shouldReconcile (.quiet now) ⟨s, none⟩
      = (.ok (outcome, some d), c))
    (hd : d = .autoMatchedExact ∨ d = .autoMatchedScored) :
    MergedInWindow row now s c.store.db := by
  obtain ⟨db₁, i, dt, hins, hi, htime, hact⟩ := ingest_decided hrun
  have htx := transactions_insertObservation hins
  have hcomplete : db₁.Complete := by
    unfold Database.Complete
    rw [htx]
    exact complete_of_reachable (fun _ _ h => h) hs
  -- the instrument is a stored one, so its id is not the empty text
  have hne : i ≠ "" := by
    obtain ⟨-, -, ⟨-, hfk, -⟩, -⟩ := Database.insertObservation_eq_ok.mp hins
    rw [hi] at hfk
    obtain ⟨r, _, rfl⟩ := Table.contains_iff.mp hfk
    exact r.id_ne
  cases hact with
  | merged _ t overwrite ht _ htarget hl _ =>
    have hwin : t ∈ db₁.windowRows (incomingOf row i) := by
      rcases htarget with ⟨-, hx⟩ | ⟨-, hwin, -⟩
      · exact exactTarget_mem_windowRows hrow hne hcomplete hx
      · exact hwin
    have hagrees := agrees_of_mem_windowRows hrow hi hwin
    have hmerged := Table.mem_modify_of_mem ht
      (u := mergePatch (incomingOf row i) t.sourceMix overwrite now) (k := t.id) rfl
    obtain ⟨t', ht', heq⟩ := Table.exists_of_map_eq hl.settled.symm hmerged
    have hid : t'.id = t.id := by
      have := congrArg TransactionsRow.id heq
      exact this.trans ((mergePatch (incomingOf row i) t.sourceMix overwrite now).key_run t)
    have hparse : (incomingOf row i).eventTime.parse = some dt := by simp [incomingOf, htime]
    refine ⟨t, htx ▸ ht, t', ht', hid, hl.link, hagrees,
      (hagrees.merge hrow _ _ _).of_settled heq.symm, i, db₁, _, hi, hins,
      fetchCandidates_quiet hparse now { s with db := db₁ }, ?_⟩
    exact List.mem_map_of_mem hwin
  | created => simp at hd
  | raised => simp at hd

omit [Extern] in
/-- A statement line merged into the email of the same payment, by fingerprint. -/
theorem merges_in_window_statement :
    letI := Extern.ascii
    let email := { observed "o1" "gmail_transaction" "debit" 500 1000 with
      fingerprint := some "fp" }
    let line := { observed "o2" "statement_pdf" "debit" 500 1060 with fingerprint := some "fp" }
    let s := (Op.ingest email true).run 1001 firstLedger
    MergedInWindow line 1061 s (ingestObservation line true (.quiet 1061) ⟨s, none⟩).2.store.db := by
  let := Extern.ascii
  intro email line s
  have hs : Reachable (fun _ op => op.IsIngest) s :=
    ⟨firstLedger, initial_firstLedger, .single ⟨.ingest email true, 1001, trivial, rfl⟩⟩
  have hanswer : (ingestObservation line true (.quiet 1061) ⟨s, none⟩).1
      = .ok (.inserted, some .autoMatchedExact) := by decide +kernel
  generalize hrun : ingestObservation line true (.quiet 1061) ⟨s, none⟩ = r at hanswer ⊢
  obtain ⟨answer, c⟩ := r
  obtain rfl : answer = .ok (.inserted, some .autoMatchedExact) := hanswer
  exact merges_in_window hs ⟨rfl, rfl, rfl, rfl, rfl⟩ hrun (.inl rfl)

end Dinero
