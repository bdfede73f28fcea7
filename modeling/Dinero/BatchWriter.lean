import Mathlib.Data.List.Basic

/-!
# Dinero.BatchWriter

Row writes are queued and flushed together, in one transaction that is retried
while the database is busy.  The queue is emptied before the first attempt, so a
flush that gives up has lost it.
-/

namespace Dinero

/-! ## the writer -/

/-- `rusqlite::Error`, as far as it is told apart. -/
inductive BatchError
  | databaseBusy
  | other (message : String)
deriving DecidableEq, Repr

/-- One queued write; what it fails on by itself depends on the database. -/
abbrev Write (σ : Type) := σ → Except BatchError σ

structure BatchWriter (σ : Type) where
  pending : List (Write σ)
  batchStartedAt : Option Int

def maxBatchRows : Nat := 20

/-- Milliseconds. -/
def maxBatchDuration : Int := 500

def maxBusyRetries : Nat := 3

variable {σ : Type}

def BatchWriter.new : BatchWriter σ := { pending := [], batchStartedAt := none }

/-- Whether the row cap has been reached, or the batch is old. -/
def BatchWriter.isFull (w : BatchWriter σ) (now : Int) : Bool :=
  maxBatchRows ≤ w.pending.length || w.batchStartedAt.any fun t => maxBatchDuration ≤ now - t

/-- Queues one write, returning whether the batch is now ready to flush. -/
def BatchWriter.push (w : BatchWriter σ) (write : Write σ) (now : Int) : Bool × BatchWriter σ :=
  let w' : BatchWriter σ := {
    pending := w.pending ++ [write]
    batchStartedAt := if w.pending.isEmpty then some now else w.batchStartedAt }
  (w'.isFull now, w')

/-- The places where an attempt can fail for no fault of the writes. -/
inductive BatchPoint
  | begin
  | write (i : Nat)
  | commit
deriving DecidableEq, Repr

/-- What goes on around a flush. -/
structure Surroundings (σ : Type) where
  /-- What fails, in which attempt. -/
  fault : Nat → BatchPoint → Option BatchError
  /-- What other connections commit in the pause behind an attempt. -/
  others : Nat → σ → σ

/-- The writes, one behind the other, inside the transaction. -/
def runWrites (fault : BatchPoint → Option BatchError) :
    Nat → List (Write σ) → σ → Except BatchError σ
  | _, [], db => .ok db
  | i, write :: rest, db =>
    match fault (.write i) with
    | some e => .error e
    | none =>
      match write db with
      | .error e => .error e
      | .ok db' => runWrites fault (i + 1) rest db'

/-- Executes the queued writes inside a single transaction; an error rolls it back. -/
def runBatch (fault : BatchPoint → Option BatchError) (writes : List (Write σ)) (db : σ) :
    Except BatchError σ :=
  match fault .begin with
  | some e => .error e
  | none =>
    match runWrites fault 0 writes db with
    | .error e => .error e
    | .ok db' =>
      match fault .commit with
      | some e => .error e
      | none => .ok db'

/-- The attempts of a flush, with so many retries left. -/
def retryBatch (env : Surroundings σ) (writes : List (Write σ)) :
    Nat → Nat → σ → Except BatchError Unit × σ
  | attempt, 0, db =>
    match runBatch (env.fault attempt) writes db with
    | .ok db' => (.ok (), db')
    | .error e => (.error e, db)
  | attempt, retries + 1, db =>
    match runBatch (env.fault attempt) writes db with
    | .ok db' => (.ok (), db')
    | .error .databaseBusy =>
      retryBatch env writes (attempt + 1) retries (env.others attempt db)
    | .error e => (.error e, db)

/-- Commits the queued writes in one transaction. -/
def BatchWriter.flush (env : Surroundings σ) (w : BatchWriter σ) (db : σ) :
    Except BatchError Nat × BatchWriter σ × σ :=
  if w.pending.isEmpty then (.ok 0, w, db)
  else
    -- `std::mem::take`, ahead of the first attempt.
    let writes := w.pending
    let w' : BatchWriter σ := { pending := [], batchStartedAt := none }
    match retryBatch env writes 0 maxBusyRetries db with
    | (.ok (), db') => (.ok writes.length, w', db')
    | (.error e, db') => (.error e, w', db')

/-! ## what an attempt comes to -/

/-- All writes in order. -/
def applyAll (writes : List (Write σ)) (db : σ) : Except BatchError σ :=
  writes.foldlM (fun db write => write db) db

/-- Nothing fails in the attempt. -/
structure GoesThrough (fault : BatchPoint → Option BatchError) (writes : List (Write σ))
    (db db' : σ) : Prop where
  begin : fault .begin = none
  write : ∀ i < writes.length, fault (.write i) = none
  applied : applyAll writes db = .ok db'
  commit : fault .commit = none

/-- The first failure of the writes, from the `i`th on. -/
inductive WritesStop (fault : BatchPoint → Option BatchError) (e : BatchError) :
    Nat → List (Write σ) → σ → Prop
  | fault {i : Nat} {write : Write σ} {rest : List (Write σ)} {db : σ} :
    fault (.write i) = some e → WritesStop fault e i (write :: rest) db
  | fails {i : Nat} {write : Write σ} {rest : List (Write σ)} {db : σ} :
    fault (.write i) = none → write db = .error e → WritesStop fault e i (write :: rest) db
  | later {i : Nat} {write : Write σ} {rest : List (Write σ)} {db db' : σ} :
    fault (.write i) = none → write db = .ok db' → WritesStop fault e (i + 1) rest db' →
      WritesStop fault e i (write :: rest) db

/-- The first failure of an attempt. -/
inductive Stops (fault : BatchPoint → Option BatchError) (writes : List (Write σ)) (db : σ)
    (e : BatchError) : Prop
  | begin : fault .begin = some e → Stops fault writes db e
  | write : fault .begin = none → WritesStop fault e 0 writes db → Stops fault writes db e
  | commit {db' : σ} : fault .begin = none → (∀ i < writes.length, fault (.write i) = none) →
      applyAll writes db = .ok db' → fault .commit = some e → Stops fault writes db e

section Attempt

variable {fault : BatchPoint → Option BatchError} {writes : List (Write σ)} {db db' : σ}
  {e : BatchError}

theorem applyAll_cons (write : Write σ) (rest : List (Write σ)) (db : σ) :
    applyAll (write :: rest) db = (write db).bind (applyAll rest) := rfl

theorem runWrites_ok {i : Nat} (h : runWrites fault i writes db = .ok db') :
    (∀ k < writes.length, fault (.write (i + k)) = none) ∧ applyAll writes db = .ok db' := by
  induction writes generalizing i db with
  | nil => exact ⟨fun k hk => absurd hk (Nat.not_lt_zero k), h⟩
  | cons write rest ih =>
    rw [runWrites] at h
    cases hfault : fault (.write i) with
    | some e => simp [hfault] at h
    | none =>
      cases hwrite : write db with
      | error e => simp [hfault, hwrite] at h
      | ok next =>
        simp only [hfault, hwrite] at h
        obtain ⟨hrest, happlied⟩ := ih h
        refine ⟨fun k hk => ?_, ?_⟩
        · cases k with
          | zero => exact hfault
          | succ k =>
            have hk' := hrest k (Nat.lt_of_succ_lt_succ hk)
            rwa [Nat.add_right_comm, Nat.add_assoc] at hk'
        · rw [applyAll_cons, hwrite]
          exact happlied

theorem runWrites_of_applied {i : Nat}
    (hfault : ∀ k < writes.length, fault (.write (i + k)) = none)
    (happlied : applyAll writes db = .ok db') : runWrites fault i writes db = .ok db' := by
  induction writes generalizing i db with
  | nil => exact happlied
  | cons write rest ih =>
    have hfirst := hfault 0 (Nat.zero_lt_succ _)
    rw [Nat.add_zero] at hfirst
    rw [applyAll_cons] at happlied
    cases hwrite : write db with
    | error e =>
      rw [hwrite] at happlied
      cases happlied
    | ok next =>
      rw [hwrite] at happlied
      rw [runWrites, hfirst, hwrite]
      refine ih (fun k hk => ?_) happlied
      have hk' := hfault (k + 1) (Nat.succ_lt_succ hk)
      rwa [← Nat.add_assoc, Nat.add_right_comm] at hk'

theorem runWrites_error {i : Nat} :
    runWrites fault i writes db = .error e ↔ WritesStop fault e i writes db := by
  induction writes generalizing i db with
  | nil =>
    constructor
    · intro h
      cases h
    · intro h
      cases h
  | cons write rest ih =>
    rw [runWrites]
    cases hfault : fault (.write i) with
    | some e' =>
      constructor
      · intro h
        cases h
        exact .fault hfault
      · intro h
        cases h <;> simp_all
    | none =>
      cases hwrite : write db with
      | error e' =>
        constructor
        · intro h
          cases h
          exact .fails hfault hwrite
        · intro h
          cases h <;> simp_all
      | ok next =>
        constructor
        · intro h
          exact .later hfault hwrite (ih.mp h)
        · intro h
          cases h with
          | fault h => simp_all
          | fails _ h => simp_all
          | later _ h hrest =>
            rw [hwrite] at h
            cases h
            exact ih.mpr hrest

theorem runBatch_ok : runBatch fault writes db = .ok db' ↔ GoesThrough fault writes db db' := by
  unfold runBatch
  constructor
  · intro h
    split at h
    · cases h
    · rename_i hbegin
      split at h
      · cases h
      · rename_i next hwrites
        split at h
        · cases h
        · rename_i hcommit
          cases h
          obtain ⟨hfaults, happlied⟩ := runWrites_ok hwrites
          exact ⟨hbegin, fun i hi => by simpa using hfaults i hi, happlied, hcommit⟩
  · intro h
    have hwrites : runWrites fault 0 writes db = .ok db' :=
      runWrites_of_applied (fun k hk => by simpa using h.write k hk) h.applied
    rw [h.begin, hwrites]
    dsimp only
    rw [h.commit]

theorem runBatch_error : runBatch fault writes db = .error e ↔ Stops fault writes db e := by
  unfold runBatch
  constructor
  · intro h
    split at h
    · rename_i hbegin
      cases h
      exact .begin hbegin
    · rename_i hbegin
      split at h
      · rename_i hwrites
        cases h
        exact .write hbegin (runWrites_error.mp hwrites)
      · rename_i next hwrites
        obtain ⟨hfaults, happlied⟩ := runWrites_ok hwrites
        split at h
        · rename_i hcommit
          cases h
          exact .commit hbegin (fun i hi => by simpa using hfaults i hi) happlied hcommit
        · cases h
  · intro h
    cases h with
    | begin hbegin => rw [hbegin]
    | write hbegin hstop => rw [hbegin, runWrites_error.mpr hstop]
    | commit hbegin hfaults happlied hcommit =>
      have hwrites := runWrites_of_applied (i := 0) (fun k hk => by simpa using hfaults k hk)
        happlied
      rw [hbegin, hwrites]
      dsimp only
      rw [hcommit]

end Attempt

/-! ## what a flush comes to -/

/-- The database an attempt finds, if all before it failed. -/
def Surroundings.seen (env : Surroundings σ) (db : σ) : Nat → σ
  | 0 => db
  | n + 1 => env.others n (env.seen db n)

/-- The last attempt of a flush. -/
theorem retryBatch_cases (env : Surroundings σ) (writes : List (Write σ)) (db : σ)
    (attempt retries : Nat) :
    ∃ last, attempt ≤ last ∧ last ≤ attempt + retries ∧
      (∀ a, attempt ≤ a → a < last →
        Stops (env.fault a) writes (env.seen db a) .databaseBusy) ∧
      ((∃ db', GoesThrough (env.fault last) writes (env.seen db last) db' ∧
          retryBatch env writes attempt retries (env.seen db attempt) = (.ok (), db')) ∨
        ∃ e, Stops (env.fault last) writes (env.seen db last) e ∧
          (e = .databaseBusy → last = attempt + retries) ∧
          retryBatch env writes attempt retries (env.seen db attempt) =
            (.error e, env.seen db last)) := by
  induction retries generalizing attempt with
  | zero =>
    refine ⟨attempt, Nat.le_refl _, Nat.le_refl _, fun a hle hlt => absurd hle (Nat.not_le.mpr hlt), ?_⟩
    rw [retryBatch]
    cases hrun : runBatch (env.fault attempt) writes (env.seen db attempt) with
    | ok db' => exact .inl ⟨db', runBatch_ok.mp hrun, rfl⟩
    | error e => exact .inr ⟨e, runBatch_error.mp hrun, fun _ => rfl, rfl⟩
  | succ retries ih =>
    have hnone : ∀ a, attempt ≤ a → a < attempt →
        Stops (env.fault a) writes (env.seen db a) .databaseBusy :=
      fun a hle hlt => absurd hle (Nat.not_le.mpr hlt)
    rw [retryBatch]
    cases hrun : runBatch (env.fault attempt) writes (env.seen db attempt) with
    | ok db' =>
      exact ⟨attempt, Nat.le_refl _, Nat.le_add_right _ _, hnone, .inl ⟨db', runBatch_ok.mp hrun, rfl⟩⟩
    | error e =>
      have hstops := runBatch_error.mp hrun
      cases e with
      | other message =>
        exact ⟨attempt, Nat.le_refl _, Nat.le_add_right _ _, hnone,
          .inr ⟨_, hstops, fun h => (by cases h), rfl⟩⟩
      | databaseBusy =>
        obtain ⟨last, hlow, hhigh, hbusy, hresult⟩ := ih (attempt + 1)
        refine ⟨last, by omega, by omega, fun a hle hlt => ?_, ?_⟩
        · by_cases heq : a = attempt
          · rw [heq]
            exact hstops
          · exact hbusy a (by omega) hlt
        · have hsum : attempt + (retries + 1) = attempt + 1 + retries := by omega
          rw [hsum]
          exact hresult

/-- A flush does what it is for: all queued writes are committed and the queue is empty, or it is
an error, nothing of them is applied and all of them are still queued. -/
def FlushKept (env : Surroundings σ) (w : BatchWriter σ) (db : σ) : Prop :=
  (∃ a, (w.flush env db).1 = .ok w.pending.length ∧ (w.flush env db).2.1.pending = [] ∧
    applyAll w.pending (env.seen db a) = .ok (w.flush env db).2.2) ∨
  ∃ a e, (w.flush env db).1 = .error e ∧ (w.flush env db).2.1.pending = w.pending ∧
    (w.flush env db).2.2 = env.seen db a

/-- Some attempt goes through, and all before it stop at a busy database. -/
def AttemptSucceeds (env : Surroundings σ) (writes : List (Write σ)) (db : σ) : Prop :=
  ∃ a ≤ maxBusyRetries,
    (∀ b < a, Stops (env.fault b) writes (env.seen db b) .databaseBusy) ∧
      ∃ db', GoesThrough (env.fault a) writes (env.seen db a) db'

theorem flush_kept (env : Surroundings σ) (w : BatchWriter σ) (db : σ) :
    FlushKept env w db ↔ w.pending = [] ∨ AttemptSucceeds env w.pending db := by
  by_cases hempty : w.pending = []
  · have hflush : w.flush env db = (.ok 0, w, db) := by rw [BatchWriter.flush, hempty]; rfl
    refine iff_of_true (.inl ⟨0, ?_⟩) (.inl hempty)
    rw [hflush, hempty]
    exact ⟨rfl, rfl, rfl⟩
  · have hsome : w.pending.isEmpty = false := by simpa using hempty
    obtain ⟨last, -, hlast, hbusy, ⟨db', hgoes, hrun⟩ | ⟨e, hstops, hgave, hrun⟩⟩ :=
      retryBatch_cases env w.pending db 0 maxBusyRetries
    · have hflush : w.flush env db = (.ok w.pending.length, ⟨[], none⟩, db') := by
        rw [BatchWriter.flush, hsome]
        have hrun' : retryBatch env w.pending 0 maxBusyRetries db = (.ok (), db') := hrun
        simp [hrun']
      rw [FlushKept, hflush]
      exact iff_of_true (.inl ⟨last, rfl, rfl, hgoes.applied⟩)
        (.inr ⟨last, by omega, fun b hb => hbusy b (Nat.zero_le b) hb, db', hgoes⟩)
    · have hflush : w.flush env db = (.error e, ⟨[], none⟩, env.seen db last) := by
        rw [BatchWriter.flush, hsome]
        have hrun' : retryBatch env w.pending 0 maxBusyRetries db =
          (.error e, env.seen db last) := hrun
        simp [hrun']
      rw [FlushKept, hflush]
      refine iff_of_false ?_ ?_
      · rintro (⟨a, hok, -⟩ | ⟨a, e', -, hkept, -⟩)
        · cases hok
        · exact hempty hkept.symm
      · rintro (hnone | ⟨a, ha, hbefore, db', hgoes⟩)
        · exact hempty hnone
        · -- The last attempt and the one that goes through are the same, or one of them is busy.
          have hfails := runBatch_error.mpr hstops
          have hpasses := runBatch_ok.mpr hgoes
          obtain hlt | rfl | hgt := Nat.lt_trichotomy last a
          · have hsame := runBatch_error.mpr (hbefore last hlt)
            rw [hfails] at hsame
            have hend := hgave (by cases hsame; rfl)
            omega
          · rw [hfails] at hpasses
            cases hpasses
          · have hnot := runBatch_error.mpr (hbusy a (Nat.zero_le a) hgt)
            rw [hpasses] at hnot
            cases hnot

/-- A flush keeps every write exactly where nothing is queued or an attempt succeeds. -/
theorem flushKept_iff (env : Surroundings σ) (w : BatchWriter σ) (db : σ) :
    FlushKept env w db ↔ w.pending = [] ∨ AttemptSucceeds env w.pending db :=
  flush_kept env w db

/-- Inserts a row with a key of its own. -/
def insertKey (key : Nat) : Write (List Nat) := fun keys =>
  if key ∈ keys then .error (.other "UNIQUE constraint failed") else .ok (keys ++ [key])

/-- Two inserts of one key: the flush fails, and the queue is empty. -/
theorem failed_batch_lost :
    ¬ ∀ (env : Surroundings (List Nat)) (w : BatchWriter (List Nat)) (db : List Nat),
      FlushKept env w db := by
  intro h
  let w : BatchWriter (List Nat) :=
    { pending := [insertKey 1, insertKey 1], batchStartedAt := some 0 }
  let env : Surroundings (List Nat) := { fault := fun _ _ => none, others := fun _ db => db }
  obtain ⟨a, hok, -⟩ | ⟨a, e, -, hkept, -⟩ := h env w []
  · cases hok
  · cases hkept

/-! ## writes over a run -/

inductive BatchEvent (σ : Type)
  | push (write : Write σ) (now : Int)
  | flush (env : Surroundings σ)

/-- A writer at work; which writes were committed is seen from the answers. -/
structure Batching (σ : Type) where
  writer : BatchWriter σ
  db : σ
  committed : List (Write σ)

def Batching.step (s : Batching σ) : BatchEvent σ → Batching σ
  | .push write now => { s with writer := (s.writer.push write now).2 }
  | .flush env =>
    let (result, writer, db) := s.writer.flush env s.db
    match result with
    | .ok _ => { writer := writer, db := db, committed := s.committed ++ s.writer.pending }
    | .error _ => { s with writer := writer, db := db }

def Batching.run (s : Batching σ) (events : List (BatchEvent σ)) : Batching σ :=
  events.foldl Batching.step s

/-- The writes that are queued in a run. -/
def pushed : List (BatchEvent σ) → List (Write σ)
  | [] => []
  | .push write _ :: rest => write :: pushed rest
  | .flush _ :: rest => pushed rest

/-- Every flush of the run finds nothing queued or has an attempt that succeeds. -/
def FlushesSucceed (s : Batching σ) : List (BatchEvent σ) → Prop
  | [] => True
  | event :: rest =>
    (∀ env, event = .flush env →
      s.writer.pending = [] ∨ AttemptSucceeds env s.writer.pending s.db) ∧
      FlushesSucceed (s.step event) rest

theorem step_flush_kept {s : Batching σ} {env : Surroundings σ}
    (h : s.writer.pending = [] ∨ AttemptSucceeds env s.writer.pending s.db) :
    (s.step (.flush env)).committed ++ (s.step (.flush env)).writer.pending =
      s.committed ++ s.writer.pending := by
  have hkept : FlushKept env s.writer s.db := (flush_kept env s.writer s.db).mpr h
  rw [Batching.step]
  obtain ⟨a, hok, hempty, -⟩ | ⟨a, e, herror, hpending, -⟩ := hkept
  · dsimp only
    rw [hok]
    dsimp only
    rw [hempty, List.append_nil]
  · dsimp only
    rw [herror]
    dsimp only
    rw [hpending]

/-- Over a run whose flushes succeed, each write that was queued is committed once, in its place, or
still queued. -/
theorem run_kept {s : Batching σ} {events : List (BatchEvent σ)} (h : FlushesSucceed s events) :
    (s.run events).committed ++ (s.run events).writer.pending =
      s.committed ++ s.writer.pending ++ pushed events := by
  induction events generalizing s with
  | nil => exact (List.append_nil _).symm
  | cons event rest ih =>
    obtain ⟨hstep, hrest⟩ := h
    have hrun := ih hrest
    rw [Batching.run, List.foldl_cons]
    rw [Batching.run] at hrun
    rw [hrun]
    cases event with
    | push write now =>
      rw [pushed, Batching.step, BatchWriter.push]
      simp
    | flush env => rw [step_flush_kept (hstep env rfl), pushed]

end Dinero
