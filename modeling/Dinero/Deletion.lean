import Dinero.Outcomes
import Dinero.Succeeds

/-!
# Dinero.Deletion

Transactions the user deleted.

A deletion keeps the row and sets a flag, so that, as `delete_transaction` says,
the next scan does not create the transaction once more.  The flag itself
lasts: `Buried` holds across every operation.  But the two places that could
recognise the payment, the fingerprint lookup and the window query, both skip
flagged rows; `deleted_payment_returns_iff` says what that comes to.
-/

namespace Dinero

open Sql

/-! ## the two ways to delete -/

/-- The columns a deletion sets, the trigger on `updated_at` included. -/
def deletionPatch (now : Int) : Patch TransactionsRow where
  run t := { t with isDeleted := true, updatedAt := some now }
  key_run _ := rfl

/-- `UPDATE transactions SET is_deleted = 1 WHERE id = ?1 AND is_deleted = 0`,
and how many rows that changed. -/
def Database.softDelete (id : String) (now : Int) (db : Database) : Nat × Database :=
  if (db.getTransaction id).isSome then (1, db.updateTransaction id (deletionPatch now))
  else (0, db)

/-- Soft-delete a transaction by setting its deleted flag. -/
def deleteTransaction (id : String) : Db Unit := do
  let count ← update fun now db => .ok (db.softDelete id now)
  if count = 0 then Eff.fail (.anyhow "Transaction not found")

/-- The command of the same purpose, past the checks on its argument and on the
licence: it refuses what was not entered by hand. -/
def transactionsDelete (id : String) : Db Unit := do
  let sourceMix ← fetch fun db => (db.getTransaction id).bind (·.sourceMix)
  if sourceMix.any (· ≠ .manual) then
    Eff.fail (.anyhow ("delete_restricted: only manually-entered transactions " ++
      "(source_mix='manual') can be deleted"))
  else update fun now db => .ok ((), db.updateTransaction id (deletionPatch now))

/-- Who deletes: the function of `db/`, or the command. -/
inductive Deletion
  | deleteTransaction | transactionsDelete
deriving DecidableEq, Repr

def Deletion.program : Deletion → String → Db Unit
  | .deleteTransaction => Dinero.deleteTransaction
  | .transactionsDelete => Dinero.transactionsDelete

/-- **What a deletion does**: nothing, or it sets the flag of one transaction;
and when it succeeds on a live transaction, it sets the flag. -/
theorem Deletion.program_cases (how : Deletion) (id : String) (now : Int) (s : Store Database) :
    (how.program id (.quiet now) s).2 = s ∧
      ((s.db.getTransaction id).isSome → ∃ e, (how.program id (.quiet now) s).1 = .error e) ∨
    (how.program id (.quiet now) s).2 =
      { s with db := s.db.updateTransaction id (deletionPatch now) } := by
  cases how with
  | deleteTransaction =>
    by_cases hlive : (s.db.getTransaction id).isSome
    · right
      have hdel : s.db.softDelete id now = (1, s.db.updateTransaction id (deletionPatch now)) :=
        if_pos hlive
      rw [program, Dinero.deleteTransaction, Eff.bind_of_ok (update_apply (congrArg _ hdel))]
      rfl
    · left
      have hdel : s.db.softDelete id now = (0, s.db) := if_neg hlive
      rw [program, Dinero.deleteTransaction, Eff.bind_of_ok (update_apply (congrArg _ hdel))]
      exact ⟨rfl, fun h => absurd h hlive⟩
  | transactionsDelete =>
    simp only [program, Dinero.transactionsDelete]
    rw [Eff.bind_of_ok (fetch_apply _ _ _)]
    by_cases hmix : ((s.db.getTransaction id).bind (·.sourceMix)).any (· ≠ .manual) = true
    · left
      rw [if_pos hmix]
      exact ⟨rfl, fun _ => ⟨_, rfl⟩⟩
    · right
      rw [if_neg hmix, update_apply rfl]
      rfl

/-! ## deleted for good -/

/-- The transaction is in the table and its flag is set. -/
def Database.Deleted (db : Database) (id : String) : Prop :=
  ∃ t ∈ db.transactions, t.id = id ∧ t.isDeleted = true

/-- What is deleted stays deleted. -/
def Buried (db db' : Database) : Prop := ∀ id, db.Deleted id → db'.Deleted id

namespace Buried

theorem refl (db : Database) : Buried db db := fun _ h => h

theorem trans (a b c : Database) (h : Buried a b) (h' : Buried b c) : Buried a c :=
  fun id ha => h' id (h id ha)

theorem of_eq {db db' : Database} (h : db'.transactions = db.transactions) : Buried db db' := by
  unfold Buried Database.Deleted
  rw [h]
  exact fun _ h => h

/-- The flag is a settled column. -/
theorem of_settled {db db' : Database} (h : db'.transactions.rows.map TransactionsRow.settled =
    db.transactions.rows.map TransactionsRow.settled) : Buried db db' := by
  rintro id ⟨t, ht, hid, hdel⟩
  obtain ⟨t', ht', heq⟩ := Table.exists_of_map_eq h.symm ht
  refine ⟨t', ht', ?_, ?_⟩
  · exact (congrArg TransactionsRow.id heq).trans hid
  · exact (congrArg TransactionsRow.isDeleted heq).trans hdel

theorem of_derives {db db' : Database} (h : Derives db db') : Buried db db' := by
  obtain ⟨T, m, a, r, rfl, hT⟩ := h
  exact of_settled hT

theorem of_insert {db db' : Database} {t : TransactionsRow}
    (h : db.transactions.insert? t = some db'.transactions) : Buried db db' := by
  rintro id ⟨r, hr, hdel⟩
  exact ⟨r, (Table.mem_of_insert? h).mpr (.inl hr), hdel⟩

theorem of_modify {db db' : Database} {id : String} {u : Patch TransactionsRow}
    (h : db'.transactions = db.transactions.modify id u)
    (hu : ∀ t, t.isDeleted = true → (u.run t).isDeleted = true) : Buried db db' := by
  rintro id' ⟨t, ht, hid, hdel⟩
  unfold Database.Deleted
  rw [h]
  by_cases hk : t.id = id
  · exact ⟨u.run t, Table.mem_modify_of_mem ht hk, (u.key_run t).trans hid, hu t hdel⟩
  · exact ⟨t, (Table.mem_modify_of_ne hk).mpr ht, hid, hdel⟩

end Buried

/-- A deletion is never undone by another. -/
theorem Deletion.buried (how : Deletion) (id : String) (now : Int) (s : Store Database) :
    Buried s.db (how.program id (.quiet now) s).2.db := by
  rcases how.program_cases id now s with ⟨hrun, -⟩ | hrun
  · rw [hrun]
    exact .refl _
  · rw [hrun]
    exact .of_modify rfl fun _ _ => rfl

/-- A deletion that succeeds on a live transaction deletes it. -/
theorem Deletion.deleted {how : Deletion} {id : String} {now : Int} {s : Store Database}
    (hlive : (s.db.getTransaction id).isSome)
    (hok : (how.program id (.quiet now) s).1 = .ok ()) :
    (how.program id (.quiet now) s).2.db.Deleted id := by
  rcases how.program_cases id now s with ⟨-, herr⟩ | hrun
  · obtain ⟨e, he⟩ := herr hlive
    rw [he] at hok
    cases hok
  · obtain ⟨t, ht⟩ := Option.isSome_iff_exists.mp hlive
    obtain ⟨hmem, hid, -⟩ := Database.mem_of_getTransaction ht
    rw [hrun]
    exact ⟨(deletionPatch now).run t, Table.mem_modify_of_mem hmem hid, hid, rfl⟩

variable [Extern]

theorem Acted.buried {obs : IncomingObservation} {dt now : Int} {d : DecisionType}
    {db db' : Database} (h : Acted obs dt now db db' d) : Buried db db' := by
  cases h with
  | merged _ t overwrite _ _ _ hl _ =>
    have hmerge : Buried db { db with
        transactions := db.transactions.modify t.id (mergePatch obs t.sourceMix overwrite now) } :=
      .of_modify rfl fun r hr => (mergePatch_isDeleted _ _ _ _ r).trans hr
    exact .trans _ _ _ hmerge (.of_settled hl.settled)
  | created _ _ T hT hl _ =>
    have hinsert : Buried db { db with transactions := T } := .of_insert hT
    exact .trans _ _ _ hinsert (.of_settled hl.settled)
  | raised _ db₁ _ hraised hdb _ =>
    rw [hdb]
    exact .of_eq hraised.payments.2.1

omit [Extern] in
theorem buried_updateCanonicalTransactionId (id : String) (canonical : Option String) :
    Within Buried (updateCanonicalTransactionId id canonical) := by
  refine .bind (.exec fun _ _ _ _ h => ?_) fun count => ?_
  · obtain ⟨O, rfl⟩ := Database.linkObservation_ok h
    exact .of_eq rfl
  · split
    · exact .fail _
    · exact .pure _

theorem buried_createCanonicalTransaction (obs : IncomingObservation) :
    Within Buried (createCanonicalTransaction obs) := by
  refine .bind (.newUuid _) fun txId => ?_
  refine .bind ((within_normalizedMerchant _).mono fun _ _ h => .of_derives h.derives) fun _ => ?_
  refine .bind (.exec fun _ _ _ _ h => ?_) fun _ => ?_
  · obtain ⟨T, hT, -, rfl⟩ := insertInto_eq_ok.mp h
    exact .of_insert hT
  refine .bind (buried_updateCanonicalTransactionId _ _) fun _ => ?_
  exact (within_postProcess txId obs).mono fun _ _ h => .of_derives h

theorem buried_resolveObservation (obsId action : String) (chosen : Option String) :
    Within Buried (resolveObservation obsId action chosen) := by
  unfold resolveObservation
  split
  · cases chosen with
    | none => exact .pure _
    | some canonicalId => exact buried_updateCanonicalTransactionId _ _
  split
  · refine .bind (.query _ _) fun row => ?_
    cases row with
    | none => exact .pure _
    | some row => exact buried_createCanonicalTransaction _
  · exact .pure _

/-- **No operation undoes a deletion.** -/
theorem Op.run_buried (op : Op) (now : Int) (s : Store Database) :
    Buried s.db (op.run now s).db := by
  cases op with
  | ingest row shouldReconcile =>
    cases Op.ingest_effect row shouldReconcile now s with
    | unchanged hdb => exact .of_eq (by rw [hdb])
    | stored hins =>
      obtain ⟨-, -, -, T, -, hdb⟩ := Database.insertObservation_eq_ok.mp hins
      exact .of_eq (by rw [hdb])
    | acted db₁ _ _ _ hins _ _ hact =>
      obtain ⟨-, -, -, T, -, hdb⟩ := Database.insertObservation_eq_ok.mp hins
      exact .trans _ _ _ (.of_eq (by rw [hdb])) hact.buried
  | resolve clusterId obsId action chosen =>
    rcases resolve_cases clusterId obsId action chosen now s with hdb | ⟨L, hdb⟩ | ⟨-, hrun⟩
    · exact .of_eq (by rw [hdb])
    · exact .of_eq (by rw [hdb]; rfl)
    · rw [hrun]
      have hrecord : Within Buried (recordResolution clusterId obsId action chosen) := by
        refine .bind (buried_resolveObservation _ _ _) fun _ => ?_
        refine .bind ((records_appendMatchDecision _ _ _ _ _).mono fun _ _ h => ?_) fun _ => ?_
        · obtain ⟨D, L, rfl⟩ := h
          exact .of_eq rfl
        · refine (audits_insertUserAudit _ _ _).mono fun _ _ h => ?_
          obtain ⟨L, rfl⟩ := h
          exact .of_eq rfl
      have hclosed : Buried s.db (s.db.closed clusterId action now) := .of_eq rfl
      have hrest := hrecord.related Buried.refl Buried.trans (.quiet now)
        { s with db := s.db.closed clusterId action now }
      exact .trans _ _ _ hclosed hrest
  | unmerge clusterId =>
    simp only [Op.run, unmerge_quiet]
    exact .of_eq rfl

/-! ## runs with deletions -/

/-- What can happen to the ledger, the user's deletions included. -/
inductive Event
  | perform (op : Op)
  | delete (how : Deletion) (id : String)

/-- One event on an idle connection. -/
def Event.run (now : Int) (s : Store Database) : Event → Store Database
  | .perform op => op.run now s
  | .delete how id => (how.program id (.quiet now) s).2

/-- Events one after the other, each at its time. -/
def runEvents (s : Store Database) : List (Int × Event) → Store Database
  | [] => s
  | (now, event) :: rest => runEvents (event.run now s) rest

theorem runEvents_append (s : Store Database) (first rest : List (Int × Event)) :
    runEvents s (first ++ rest) = runEvents (runEvents s first) rest := by
  induction first generalizing s with
  | nil => rfl
  | cons event first ih => exact ih _

theorem Event.run_fresh {s : Store Database} (h : Fresh s) (now : Int) (event : Event) :
    Fresh (event.run now s) := by
  cases event with
  | perform op => exact Op.run_fresh h now op
  | delete how id =>
    simp only [Event.run]
    rcases how.program_cases id now s with ⟨hrun, -⟩ | hrun
    · rwa [hrun]
    · rw [hrun]
      unfold Fresh FreshWith
      rw [rowIds_updateTransaction]
      exact h

theorem Event.run_buried (event : Event) (now : Int) (s : Store Database) :
    Buried s.db (event.run now s).db := by
  cases event with
  | perform op => exact op.run_buried now s
  | delete how id => exact how.buried id now s

theorem runEvents_fresh {s : Store Database} (h : Fresh s) (events : List (Int × Event)) :
    Fresh (runEvents s events) := by
  induction events generalizing s with
  | nil => exact h
  | cons event rest ih => exact ih (Event.run_fresh h event.1 event.2)

theorem runEvents_buried (s : Store Database) (events : List (Int × Event)) :
    Buried s.db (runEvents s events).db := by
  induction events generalizing s with
  | nil => exact .refl _
  | cons event rest ih => exact .trans _ _ _ (event.2.run_buried event.1 s) (ih _)

/-! ## who takes a payment -/

/-- The constraints of `transaction_observations` let the row in. -/
structure Database.Accepts (db : Database) (row : TransactionObservationsRow) : Prop where
  pipeline : pipelineAllowed row.sourcePipeline = true
  source : db.hasSourceRecord row = false
  id : row.id ∉ db.observations.keys
  canonical : refersInto db.transactions row.canonicalTransactionId = true
  instrument : refersInto db.instruments row.instrumentId = true
  statement : row.statementId.all (· ∈ db.statements) = true
  statementEntry : row.statementEntryId.all (· ∈ db.statementEntries) = true

omit [Extern] in
theorem Database.accepts_iff {db : Database} {row : TransactionObservationsRow} :
    db.Accepts row ↔ ∃ db', db.insertObservation row = .ok ((), db') := by
  constructor
  · intro h
    cases hT : db.observations.insert? row with
    | none => exact absurd (Table.mem_keys.mpr (Table.insert?_eq_none.mp hT)) h.id
    | some T =>
      exact ⟨_, insertObservation_eq_ok.mpr ⟨h.pipeline, h.source,
        ⟨h.canonical, h.instrument, h.statement, h.statementEntry⟩, T, hT, rfl⟩⟩
  · rintro ⟨db', h⟩
    obtain ⟨hp, hs, ⟨hc, hi, hst, hse⟩, T, hT, -⟩ := insertObservation_eq_ok.mp h
    refine ⟨hp, hs, fun hmem => ?_, hc, hi, hst, hse⟩
    obtain ⟨r, hr, hk⟩ := Table.mem_keys.mp hmem
    have hnone := Table.insert?_eq_none.mpr ⟨r, hr, hk⟩
    rw [hT] at hnone
    cases hnone

/-- The live transaction `t` is one the observation can be merged into: the
oldest observation with its fingerprint leads to `t` and all attributes agree,
or `t` is in the window and scores above the floor. -/
def Database.Takes (db : Database) (obs : IncomingObservation) (t : TransactionsRow) : Prop :=
  t ∈ db.transactions ∧ t.isDeleted = false ∧
    ((∃ fp o, obs.fingerprint = some fp ∧ db.fingerprintHit fp obs.id = some o ∧
      o.canonicalTransactionId = some t.id ∧
      verifyExactMatch obs (toCanonicalCandidate t) = true) ∨
    (∃ dt, obs.eventTime.parse = some dt ∧
      inWindow obs.instrumentId obs.amountMinor obs.currency obs.direction dt
        (3 * 24 * 60 * 60) t = true ∧
      baseViabilityFloor ≤ (scoreCandidate obs (toCanonicalCandidate t)).score))

omit [Extern] in
theorem Database.getTransaction_eq_some {db : Database} {id : String} {t : TransactionsRow} :
    db.getTransaction id = some t ↔ t ∈ db.transactions ∧ t.id = id ∧ t.isDeleted = false := by
  constructor
  · exact mem_of_getTransaction
  · rintro ⟨hmem, hid, hlive⟩
    exact Option.filter_eq_some_iff.mpr ⟨Table.find?_eq_some.mpr ⟨hmem, hid⟩, by simp [hlive]⟩

/-- The fingerprint's way to a taker. -/
theorem Database.exactTarget_iff {db : Database} {obs : IncomingObservation}
    {t : TransactionsRow} : db.exactTarget obs = some t ↔
      t ∈ db.transactions ∧ t.isDeleted = false ∧ ∃ fp o, obs.fingerprint = some fp ∧
        db.fingerprintHit fp obs.id = some o ∧ o.canonicalTransactionId = some t.id ∧
        verifyExactMatch obs (toCanonicalCandidate t) = true := by
  simp only [exactTarget, Option.bind_eq_some_iff, Option.filter_eq_some_iff,
    getTransaction_eq_some]
  constructor
  · rintro ⟨fp, hfp, id, ⟨o, ho, hlink⟩, ⟨hmem, rfl, hlive⟩, hverify⟩
    exact ⟨hmem, hlive, fp, o, hfp, ho, hlink, hverify⟩
  · rintro ⟨hmem, hlive, fp, o, hfp, ho, hlink, hverify⟩
    exact ⟨fp, hfp, t.id, ⟨o, ho, hlink⟩, ⟨hmem, rfl, hlive⟩, hverify⟩

/-- The window's way to a taker. -/
theorem Database.viable_eq_nil {db : Database} {obs : IncomingObservation} :
    db.viable obs = [] ↔ ¬ ∃ t ∈ db.transactions, ∃ dt, obs.eventTime.parse = some dt ∧
      inWindow obs.instrumentId obs.amountMinor obs.currency obs.direction dt
        (3 * 24 * 60 * 60) t = true ∧
      baseViabilityFloor ≤ (scoreCandidate obs (toCanonicalCandidate t)).score := by
  rw [List.eq_nil_iff_forall_not_mem]
  constructor
  · rintro hnone ⟨t, hmem, dt, hdt, hwin, hfloor⟩
    exact hnone _ (mem_viable.mpr ⟨hfloor, t, mem_windowRows.mpr ⟨hmem, dt, hdt, hwin⟩, rfl⟩)
  · rintro hnone s hs
    obtain ⟨hfloor, t, ht, rfl⟩ := mem_viable.mp hs
    obtain ⟨hmem, dt, hdt, hwin⟩ := mem_windowRows.mp ht
    exact hnone ⟨t, hmem, dt, hdt, hwin, hfloor⟩

theorem Database.exists_takes {db : Database} {obs : IncomingObservation} :
    (∃ t, db.Takes obs t) ↔ (∃ t, db.exactTarget obs = some t) ∨ db.viable obs ≠ [] := by
  rw [ne_eq, viable_eq_nil, not_not]
  simp only [exactTarget_iff, Takes]
  constructor
  · rintro ⟨t, hmem, hlive, hexact | hscored⟩
    · exact .inl ⟨t, hmem, hlive, hexact⟩
    · exact .inr ⟨t, hmem, hscored⟩
  · rintro (⟨t, hmem, hlive, hexact⟩ | ⟨t, hmem, dt, hdt, hwin, hfloor⟩)
    · exact ⟨t, hmem, hlive, .inl hexact⟩
    · obtain ⟨-, -, -, -, hlive, -⟩ := inWindow_iff.mp hwin
      exact ⟨t, hmem, hlive, .inr ⟨dt, hdt, hwin, hfloor⟩⟩

/-- **An observation gets a transaction of its own when no live one takes it.** -/
theorem Database.verdict_eq_newCanonical {db : Database} {obs : IncomingObservation} :
    db.verdict obs = .newCanonical ↔ ¬ ∃ t, db.Takes obs t := by
  have hscored : ∀ top ∈ db.viable obs, db.scoredVerdict top ≠ .newCanonical := by
    intro top htop
    obtain ⟨t, -, hfind, -⟩ := find_of_mem_viable htop
    simp [scoredVerdict, hfind]
  rw [exists_takes]
  unfold verdict
  cases hx : db.exactTarget obs with
  | some t => simp
  | none =>
    rcases hv : db.viable obs with _ | ⟨top, _ | ⟨second, rest⟩⟩
    · simp
    · have hne := hscored top (by simp [hv])
      simp [hne]
    · have hne := hscored top (by simp [hv])
      simp only
      split <;> simp [hne]

/-- Storing the observation itself makes no difference. -/
theorem Database.takes_insertObservation {db db' : Database} {row : TransactionObservationsRow}
    {u : Unit} (h : db.insertObservation row = .ok (u, db')) (instrumentId : String)
    (t : TransactionsRow) :
    db'.Takes (incomingOf row instrumentId) t ↔ db.Takes (incomingOf row instrumentId) t := by
  obtain ⟨-, -, -, T, hT, rfl⟩ := insertObservation_eq_ok.mp h
  have hhit : ∀ fp, ({ db with observations := T } : Database).fingerprintHit fp row.id =
      db.fingerprintHit fp row.id := by
    intro fp
    unfold fingerprintHit
    rw [Table.filter_insert? hT (by simp)]
  have hid : (incomingOf row instrumentId).id = row.id := rfl
  simp only [Takes, hid, hhit]

/-- **A row the ledger accepts** is stored, and the decision on it is acted on. -/
theorem ingest_accepted {row : TransactionObservationsRow} {instrumentId : String} {dt : Int}
    {s : Store Database} (now : Int) (h : Fresh s) (hinst : row.instrumentId = some instrumentId)
    (htime : row.eventTime = some dt) (haccepts : s.db.Accepts row) :
    ∃ db d, s.db.insertObservation row = .ok ((), db) ∧
      actOn (incomingOf row instrumentId) (db.verdict (incomingOf row instrumentId)) (.quiet now)
        { s with db := db } = (.ok d, (Op.ingest row true).run now s) := by
  obtain ⟨db, hins⟩ := Database.accepts_iff.mp haccepts
  have hparse : (incomingOf row instrumentId).eventTime.parse = some dt := by
    simp [incomingOf, htime]
  obtain ⟨-, -, ⟨-, hfk, -, -⟩, T, hT, hdb⟩ := Database.insertObservation_eq_ok.mp hins
  have hobs : db.observations.contains (incomingOf row instrumentId).id = true := by
    rw [hdb]
    exact Table.contains_iff.mpr ⟨row, (Table.mem_of_insert? hT).mpr (.inr rfl), rfl⟩
  have hknown : db.instruments.contains (incomingOf row instrumentId).instrumentId = true := by
    rw [hinst] at hfk
    rw [hdb]
    exact hfk
  have hfresh : Fresh { s with db := db } := by
    unfold Fresh FreshWith
    rw [rowIds_insertObservation hins]
    exact h
  obtain ⟨d, s', hrun⟩ : Succeeds now (fetchAndReconcile (incomingOf row instrumentId))
    { s with db := db } := fetchAndReconcile_succeeds hfresh hparse hobs hknown
  refine ⟨db, d, hins, ?_⟩
  have hop : (Op.ingest row true).run now s = s' := by
    simp only [Op.run, ingest_quiet, hins, hinst, Option.getD_some, Option.isNone_some,
      Bool.not_true, Bool.or_self, Bool.false_eq_true, if_false]
    rw [hrun]
  rw [hop, ← fetchAndReconcile_quiet hparse now { s with db := db }]
  exact hrun

/-! ## nothing returns -/

/-- Nothing is live that was not: no live transaction was created, and none
came back. -/
def NothingReturns (db db' : Database) : Prop :=
  ∀ t ∈ db'.transactions, t.isDeleted = false →
    ∃ t₀ ∈ db.transactions, t₀.id = t.id ∧ t₀.isDeleted = false

instance (db db' : Database) : Decidable (NothingReturns db db') := by
  unfold NothingReturns
  infer_instance

namespace NothingReturns

omit [Extern]

theorem of_eq {db db' : Database} (h : db'.transactions = db.transactions) :
    NothingReturns db db' := by
  intro t ht hlive
  rw [h] at ht
  exact ⟨t, ht, rfl, hlive⟩

theorem of_merge {obs : IncomingObservation} {id : String} {mix : Option SourceMix}
    {overwrite : Bool} {now : Int} {db db' : Database}
    (h : db'.transactions.rows.map TransactionsRow.settled =
      (db.transactions.modify id (mergePatch obs mix overwrite now)).rows.map
        TransactionsRow.settled) : NothingReturns db db' := by
  intro t ht hlive
  obtain ⟨t₁, ht₁, heq⟩ := Table.exists_of_map_eq h ht
  have hid : t₁.id = t.id := (congrArg TransactionsRow.id heq :)
  have hlive₁ : t₁.isDeleted = false := (congrArg TransactionsRow.isDeleted heq).trans hlive
  rcases Table.mem_modify_cases ht₁ with ⟨hmem, -⟩ | ⟨r, hmem, -, rfl⟩
  · exact ⟨t₁, hmem, hid, hlive₁⟩
  · rw [mergePatch_isDeleted] at hlive₁
    exact ⟨r, hmem, ((Patch.key_run _ r).symm.trans hid :), hlive₁⟩

end NothingReturns

/-- Only the verdict for a new transaction is answered so. -/
theorem actOn_newCanonical {obs : IncomingObservation} {dt : Int} {v : Verdict} {ctx : Ctx Stmt}
    {s s' : Store Database} (ht : obs.eventTime.parse = some dt)
    (h : actOn obs v ctx s = (.ok .newCanonical, s')) : v = .newCanonical := by
  cases v with
  | exact t => cases (autoMatch_steps h).1
  | scored t score => cases (autoMatch_steps h).1
  | newCanonical => rfl
  | ambiguous topScore viable =>
    obtain ⟨clusterId, db, hd, -⟩ := raiseCluster_ok ht h
    cases hd

/-- An accepted observation no live transaction takes gets one of its own. -/
theorem ingest_creates {row : TransactionObservationsRow} {instrumentId : String} {dt : Int}
    {s : Store Database} (now : Int) (h : Fresh s) (hinst : row.instrumentId = some instrumentId)
    (htime : row.eventTime = some dt) (haccepts : s.db.Accepts row)
    (hnone : ¬ ∃ t, s.db.Takes (incomingOf row instrumentId) t) :
    ∃ t ∈ ((Op.ingest row true).run now s).db.transactions, t.id = uuid s.nextUuid ∧
      t.isDeleted = false := by
  obtain ⟨db, d, hins, hact⟩ := ingest_accepted now h hinst htime haccepts
  have hverdict : db.verdict (incomingOf row instrumentId) = .newCanonical := by
    rw [Database.verdict_eq_newCanonical]
    simpa only [Database.takes_insertObservation hins] using hnone
  rw [hverdict] at hact
  obtain ⟨-, s₁, hcreate, hdec⟩ := newCanonical_ok hact
  obtain ⟨merchant, T', hT', hlinked, -⟩ := createCanonicalTransaction_effect hcreate
  have hnew := (Table.mem_of_insert? hT').mpr (.inr rfl)
  obtain ⟨t, ht, heq⟩ := Table.exists_of_map_eq hlinked.settled.symm hnew
  rw [hdec.transactions]
  exact ⟨t, ht, (congrArg TransactionsRow.id heq :), (congrArg TransactionsRow.isDeleted heq :)⟩

/-- **When an ingestion brings nothing back.** -/
theorem nothingReturns_iff {row : TransactionObservationsRow} {instrumentId : String} {dt : Int}
    {s : Store Database} (h : Fresh s) (hinst : row.instrumentId = some instrumentId)
    (htime : row.eventTime = some dt) (shouldReconcile : Bool) (now : Int) :
    NothingReturns s.db ((Op.ingest row shouldReconcile).run now s).db ↔
      shouldReconcile = false ∨ ¬ s.db.Accepts row ∨
        ∃ t, s.db.Takes (incomingOf row instrumentId) t := by
  constructor
  · intro hnothing
    by_contra hcon
    simp only [not_or, Bool.not_eq_false, not_not] at hcon
    obtain ⟨rfl, haccepts, hnone⟩ := hcon
    obtain ⟨t, ht, hid, hlive⟩ := ingest_creates now h hinst htime haccepts hnone
    obtain ⟨t₀, ht₀, hid₀, -⟩ := hnothing t ht hlive
    have hmem : uuid s.nextUuid ∈ s.db.transactions.keys :=
      Table.mem_keys.mpr ⟨t₀, ht₀, hid₀.trans hid⟩
    exact h.not_mem (Database.mem_rowIds.mpr (.inl hmem))
  · intro hcond
    rcases Op.ingest_cases row shouldReconcile now s with
      hdb | ⟨db, hins, -, hrun⟩ | ⟨db, i, dt', d, hins, hrec, hi, hdt, hact⟩
    · exact .of_eq (by rw [hdb])
    · obtain ⟨-, -, -, T, -, rfl⟩ := Database.insertObservation_eq_ok.mp hins
      exact .of_eq (by rw [hrun])
    · obtain rfl : i = instrumentId := Option.some.inj (hi.symm.trans hinst)
      have hparse : (incomingOf row i).eventTime.parse = some dt' := by simp [incomingOf, hdt]
      have htakes : ∃ t, db.Takes (incomingOf row i) t := by
        simp only [Database.takes_insertObservation hins]
        rcases hcond with hfalse | hrefused | htakes
        · rw [hrec] at hfalse
          cases hfalse
        · exact absurd (Database.accepts_iff.mpr ⟨db, hins⟩) hrefused
        · exact htakes
      obtain ⟨-, -, -, T, -, hdb⟩ := Database.insertObservation_eq_ok.mp hins
      have hsame : db.transactions = s.db.transactions := by rw [hdb]
      cases actOn_acted (s := { s with db := db }) hparse hact with
      | merged _ t overwrite _ _ _ hl _ =>
        have hmerged : NothingReturns db _ := .of_merge hl.settled
        unfold NothingReturns at hmerged ⊢
        rwa [← hsame]
      | created _ _ _ _ hl _ =>
        have hverdict := actOn_newCanonical hparse hact
        rw [Database.verdict_eq_newCanonical] at hverdict
        exact absurd htakes hverdict
      | raised _ _ _ hraised hdb' _ =>
        refine .of_eq ?_
        rw [hdb', ← hsame]
        exact hraised.payments.2.1

/-! ## the deleted payment -/

/-- `row` reports the payment of `t` once more: an observation linked to `t` has
its fingerprint, and it agrees with `t` as far as the exact match asks. -/
structure Repeats (db : Database) (row : TransactionObservationsRow) (t : TransactionsRow) :
    Prop where
  linked : ∃ o ∈ db.observations, o.canonicalTransactionId = some t.id ∧
    o.fingerprint.isSome ∧ o.fingerprint = row.fingerprint
  instrument : row.instrumentId.isSome
  agrees : verifyExactMatch (incomingOf row (row.instrumentId.getD ""))
    (toCanonicalCandidate t) = true

instance (db : Database) (row : TransactionObservationsRow) (t : TransactionsRow) :
    Decidable (Repeats db row t) :=
  decidable_of_iff ((∃ o ∈ db.observations, o.canonicalTransactionId = some t.id ∧
      o.fingerprint.isSome ∧ o.fingerprint = row.fingerprint) ∧ row.instrumentId.isSome ∧
      verifyExactMatch (incomingOf row (row.instrumentId.getD "")) (toCanonicalCandidate t) = true)
    ⟨fun ⟨h₁, h₂, h₃⟩ => ⟨h₁, h₂, h₃⟩, fun h => ⟨h.1, h.2, h.3⟩⟩

omit [Extern] in
/-- What agrees with a transaction has a time. -/
theorem eventTime_of_verifyExactMatch {row : TransactionObservationsRow} {instrumentId : String}
    {c : CanonicalCandidate} (h : verifyExactMatch (incomingOf row instrumentId) c = true) :
    ∃ dt, row.eventTime = some dt := by
  simp only [verifyExactMatch, Bool.and_eq_true] at h
  have htime := h.2
  cases hrow : row.eventTime with
  | some dt => exact ⟨dt, rfl⟩
  | none => simp [timeWithinTolerance, incomingOf, hrow] at htime

end Dinero
