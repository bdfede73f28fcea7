import Dinero.Succeeds

/-!
# Dinero.Unassigned

The queue of payments waiting for the user, and the jobs of the language model
that work on it: `unassigned_transactions`, `layer6_pending_jobs`, and the
statements of `db/` that move an entry.

An entry moves once: every `UPDATE` asks for an open entry, and what differs is
what a caller is told when there was none.
-/

namespace Dinero

open Sql

/-! ## the tables -/

/-- `unassigned_transactions.status`. -/
inductive EntryStatus
  | open | resolved | ignored
deriving DecidableEq, Repr

def EntryStatus.text : EntryStatus → String
  | .open => "open"
  | .resolved => "resolved"
  | .ignored => "ignored"

structure UnassignedTransaction where
  id : String
  observationId : String
  reason : String
  status : EntryStatus
deriving DecidableEq, Repr

structure PendingLayer6Job where
  id : String
  observationId : String
  bankName : String
  bodyText : String
  internalDateSeconds : Option Int
deriving DecidableEq, Repr

instance : Keyed UnassignedTransaction String := ⟨(·.id)⟩
instance : Keyed PendingLayer6Job String := ⟨(·.id)⟩

abbrev Entries := Table UnassignedTransaction

/-- The ledger with the queue and the persisted jobs beside it. -/
structure Intake where
  ledger : Store Database
  entries : Entries
  layer6Jobs : Table PendingLayer6Job

/-! ## moving an entry -/

/-- `SET status = ?1 … AND status = 'open'`. -/
def movePatch (status : EntryStatus) : Patch UnassignedTransaction where
  run r := if r.status = .open then { r with status } else r
  key_run r := by split <;> rfl

/-- `SET reason = ?1 … AND status = 'open'`. -/
def reasonPatch (reason : String) : Patch UnassignedTransaction where
  run r := if r.status = .open then { r with reason } else r
  key_run r := by split <;> rfl

namespace Entries

variable (T : Entries) (id : String)

/-- `SELECT status FROM unassigned_transactions WHERE id = ?1`. -/
def currentStatus : Option EntryStatus := (T.find? id).map (·.status)

/-- Whether the entry is still queued. -/
def isOpen : Bool := currentStatus T id = some .open

def missing : SqlError := .anyhow ("unassigned transaction '" ++ id ++ "' does not exist")

/-- Update status as the user resolves or dismisses the entry: one that is not open
any more is refused, unless it already holds the status. -/
def updateStatus (status : EntryStatus) : Except SqlError Entries :=
  match currentStatus T id with
  | some .open => .ok (T.modify id (movePatch status))
  | none => .error (missing id)
  | some current =>
    if current = status then .ok T
    else .error (.anyhow ("unassigned transaction '" ++ id ++ "' is already '" ++ current.text ++
      "', refusing to overwrite with '" ++ status.text ++ "'"))

/-- Close an entry on behalf of a background job, tolerating one that moved on. -/
def settleIfOpen (status : EntryStatus) : Entries := T.modify id (movePatch status)

/-- Refine the recorded reason. -/
def updateReason (reason : String) : Except SqlError Entries :=
  match currentStatus T id with
  | none => .error (missing id)
  | some _ => .ok (T.modify id (reasonPatch reason))

variable {T id}

theorem isOpen_iff : isOpen T id = true ↔ currentStatus T id = some .open := by
  simp [isOpen]

theorem currentStatus_eq_none : currentStatus T id = none ↔ T.find? id = none := by
  simp [currentStatus]

/-- A patch that asks for an open entry leaves one that is not alone. -/
theorem find?_modify_of_closed {r : UnassignedTransaction} {u : Patch UnassignedTransaction}
    (hu : ∀ x : UnassignedTransaction, x.status ≠ .open → u.run x = x)
    (hr : T.find? id = some r) (hclosed : r.status ≠ .open) (id' : String) :
    (T.modify id' u).find? id = some r := by
  rw [Table.find?_modify]
  split
  · rw [hr, Option.map_some, hu r hclosed]
  · exact hr

theorem movePatch_of_closed (status : EntryStatus) (r : UnassignedTransaction)
    (h : r.status ≠ .open) : (movePatch status).run r = r := if_neg h

theorem reasonPatch_of_closed (reason : String) (r : UnassignedTransaction)
    (h : r.status ≠ .open) : (reasonPatch reason).run r = r := if_neg h

/-- Whatever is asked of the queue, an entry that is not open stays as it is. -/
theorem updateStatus_keeps {T' : Entries} {status : EntryStatus} {r : UnassignedTransaction}
    (h : updateStatus T id status = .ok T') {id' : String} (hr : T.find? id' = some r)
    (hclosed : r.status ≠ .open) : T'.find? id' = some r := by
  unfold updateStatus at h
  split at h
  · obtain rfl := Except.ok.inj h
    exact find?_modify_of_closed (movePatch_of_closed status) hr hclosed id
  · simp at h
  · split at h
    · obtain rfl := Except.ok.inj h
      exact hr
    · simp at h

theorem settleIfOpen_keeps {status : EntryStatus} {r : UnassignedTransaction} {id' : String}
    (hr : T.find? id' = some r) (hclosed : r.status ≠ .open) :
    (settleIfOpen T id status).find? id' = some r :=
  find?_modify_of_closed (movePatch_of_closed status) hr hclosed id

theorem updateReason_keeps {T' : Entries} {reason : String} {r : UnassignedTransaction}
    (h : updateReason T id reason = .ok T') {id' : String} (hr : T.find? id' = some r)
    (hclosed : r.status ≠ .open) : T'.find? id' = some r := by
  unfold updateReason at h
  split at h
  · simp at h
  · obtain rfl := Except.ok.inj h
    exact find?_modify_of_closed (reasonPatch_of_closed reason) hr hclosed id

/-- Asking for a status succeeds for an open entry, and for one that has it. -/
theorem updateStatus_ok_iff {status : EntryStatus} :
    (∃ T', updateStatus T id status = .ok T') ↔
      currentStatus T id = some .open ∨ currentStatus T id = some status := by
  unfold updateStatus
  split
  · next h => simp [h]
  · next h => simp [h]
  · next current hopen h =>
    have hne : current ≠ .open := hopen
    split
    · next heq => simp [h, heq]
    · next heq => simp [h, heq, hne]

theorem updateReason_ok_iff {reason : String} :
    (∃ T', updateReason T id reason = .ok T') ↔ currentStatus T id ≠ none := by
  unfold updateReason
  split
  · next h => simp [h]
  · next h => simp [h]

/-- The reason is not the status. -/
@[simp] theorem currentStatus_reason (reason id' : String) :
    currentStatus (T.modify id (reasonPatch reason)) id' = currentStatus T id' := by
  unfold currentStatus
  rw [Table.find?_modify]
  split
  · rw [Option.map_map]
    congr 1
    funext r
    simp only [Function.comp_apply, reasonPatch]
    split <;> rfl
  · rfl

end Entries

end Dinero
