import Dinero.Window

/-!
# Dinero.Scan

The historical scan of one account's mailbox: the checkpoint it is claimed and
resumed by, the batches of concurrent fetches, pausing, cancelling, and the
restart after a crash.

The checkpoint counts the fetches that have come back, and a resumed scan skips
that many messages from the front of the listing.  The two agree only if the
fetches it counts are those of the first messages (`Interruptible`).

A `ScanEvent` is what happens between two points at which the process may stop.
-/

namespace Dinero

/-! ## the checkpoint -/

/-- The values `processing_checkpoints.status` takes or is compared with. -/
inductive CheckpointStatus where
  | inProgress
  | paused
  | failed
  | cancelled
  | completed
deriving DecidableEq, Repr

structure ScanCheckpointState where
  startDate : String
  endDate : String
  allMessageIds : List String := []
  processedCount : Nat := 0
  transactionsFound : Nat := 0
  statementsFound : Nat := 0
  mandateEventsFound : Nat := 0
  nonFinancial : Nat := 0
  errors : Nat := 0
  pendingEnrichment : Nat := 0
deriving DecidableEq, Repr

/-- The row of the account's historical scan.  A `checkpoint_state_json` that is
no scan state, such as the `{}` a first claim writes, is `none`. -/
structure ScanCheckpoint where
  status : CheckpointStatus
  state : Option ScanCheckpointState
deriving DecidableEq, Repr

/-- The statuses whose state is taken up again. -/
def resumable : List CheckpointStatus := [.paused, .failed, .cancelled, .inProgress]

/-- The state a scan goes on from: that of the claimed row, or a new one. -/
def ScanCheckpointState.restored (existing : Option ScanCheckpoint) (startDate endDate : String) :
    ScanCheckpointState :=
  match existing with
  | some ⟨status, some state⟩ =>
    if status ∈ resumable then state else { startDate, endDate }
  | _ => { startDate, endDate }

/-- The hits of the search queries, each message once. -/
def listing (chunks : List (List String)) : List String := chunks.flatten.eraseDups

/-! ## one message -/

/-- `Option<ProcessResult>`, without what goes on to the queues. -/
inductive ProcessResult where
  | transactionAlert
  | statementEmail
  | mandateEvent
  | enqueuedForEnrichment
  | nonFinancial
deriving DecidableEq, Repr

/-- What `join_next` yields for a fetch: the result of `process_message`, or that
the task did not get to one. -/
inductive JoinResult where
  | ok (result : ProcessResult)
  | err (error : String)
  | joinError
deriving DecidableEq, Repr

def JoinResult.isOk : JoinResult → Bool
  | .ok _ => true
  | _ => false

/-- The counters, after one fetch has come back. -/
def ScanCheckpointState.tally (s : ScanCheckpointState) : JoinResult → ScanCheckpointState
  | .ok .transactionAlert => { s with transactionsFound := s.transactionsFound + 1 }
  | .ok .statementEmail => { s with statementsFound := s.statementsFound + 1 }
  | .ok .mandateEvent => { s with mandateEventsFound := s.mandateEventsFound + 1 }
  | .ok .enqueuedForEnrichment => { s with pendingEnrichment := s.pendingEnrichment + 1 }
  | .ok .nonFinancial => { s with nonFinancial := s.nonFinancial + 1 }
  | .err _ | .joinError => { s with errors := s.errors + 1 }

@[simp] theorem allMessageIds_tally (s : ScanCheckpointState) (r : JoinResult) :
    (s.tally r).allMessageIds = s.allMessageIds := by
  rcases r with (_ | _ | _ | _ | _) | _ | _ <;> rfl

/-- A row of `scan_failed_messages`. -/
structure ScanFailedMessage where
  msgId : String
  error : String
deriving DecidableEq, Repr

/-! ## the scan -/

/-- Where `run_scan_batches` is. -/
inductive ScanPhase where
  /-- In the first loop, with so many rounds to go. -/
  | spawning (rounds : Nat)
  /-- Waiting for a fetch or for the cancellation poll. -/
  | receiving
  /-- A fetch has been dealt with: waiting while paused. -/
  | waiting
deriving DecidableEq, Repr

/-- The variables of `run_scan_batches`; the window is `ids_iter` and `join_set`. -/
structure ScanBatches where
  state : ScanCheckpointState
  window : Window String
  processedCount : Nat
  batchCount : Nat
  phase : ScanPhase
deriving DecidableEq, Repr

/-- A scan being run: before `run_scan` has written its own checkpoint, and after. -/
inductive ScanRun where
  | claimed (existing : Option ScanCheckpoint) (startDate endDate : String)
  | batches (b : ScanBatches)
deriving DecidableEq, Repr

/-- The account's checkpoint and failed messages, the two flags in memory and the
running scan.  `handed` is what nobody keeps: the messages whose processing has come
back with a result since the listing was made. -/
structure ScanWorld where
  checkpoint : Option ScanCheckpoint := none
  failedMessages : List ScanFailedMessage := []
  handed : List String := []
  paused : Bool := false
  cancelled : Bool := false
  run : Option ScanRun := none
deriving DecidableEq, Repr

def checkpointInterval : Nat := 5

def maxConcurrentFetches : Nat := 25

def shouldCheckpoint (batchCount : Nat) : Bool := decide (checkpointInterval ≤ batchCount)

def ScanBatches.start (state : ScanCheckpointState) : ScanBatches where
  state
  window := .skip state.allMessageIds state.processedCount
  processedCount := state.processedCount
  batchCount := 0
  phase := .spawning maxConcurrentFetches

namespace ScanWorld

/-- `scans_historical` up to the spawned task: `claim_checkpoint_in_progress`, which
refuses while the row says that a scan is in progress. -/
def scansHistorical (w : ScanWorld) (startDate endDate : String) : ScanWorld :=
  match w.checkpoint with
  | some cp =>
    if cp.status = .inProgress then w
    else { w with
      checkpoint := some { cp with status := .inProgress }
      run := some (.claimed (some cp) startDate endDate) }
  | none => { w with
      checkpoint := some ⟨.inProgress, none⟩
      run := some (.claimed none startDate endDate) }

/-- `scans_resume`: the same with the dates of the stored state. -/
def scansResume (w : ScanWorld) : ScanWorld :=
  match w.checkpoint with
  | some ⟨_, some state⟩ => w.scansHistorical state.startDate state.endDate
  | _ => w

/-- `run_scan` has returned an error; the row is marked if that can be written. -/
def failed (w : ScanWorld) (marked : Bool) : ScanWorld :=
  { w with
    checkpoint := if marked then w.checkpoint.map ({ · with status := .failed }) else w.checkpoint
    run := none }

/-- `run_scan`: restore the state, list the messages if there are none yet, write the
checkpoint and begin with the batches. -/
def runScan (w : ScanWorld) (search : Option (List (List String))) (stored marked : Bool) :
    ScanWorld :=
  match w.run with
  | some (.claimed existing startDate endDate) =>
    let w := { w with cancelled := false }
    let state := ScanCheckpointState.restored existing startDate endDate
    if state.allMessageIds = [] then
      match search with
      | none => w.failed marked
      | some chunks =>
        let state := { state with allMessageIds := listing chunks, processedCount := 0 }
        if stored then
          { w with
            checkpoint := some ⟨.inProgress, some state⟩
            handed := []
            run := some (.batches (.start state)) }
        else w.failed marked
    else if stored then
      { w with
        checkpoint := some ⟨.inProgress, some state⟩
        run := some (.batches (.start state)) }
    else w.failed marked
  | _ => w

/-- The end of a cancelled scan: the row is deleted if that can be done. -/
def cancelledScan (w : ScanWorld) (deleted : Bool) : ScanWorld :=
  { w with
    cancelled := false
    checkpoint := if deleted then none else w.checkpoint
    run := none }

/-- One round of the first loop. -/
def spawn (w : ScanWorld) : ScanWorld :=
  match w.run with
  | some (.batches b) =>
    match b.phase with
    | .spawning 0 => { w with run := some (.batches { b with phase := .receiving }) }
    | .spawning (rounds + 1) =>
      if w.paused then
        if w.cancelled then { w with run := some (.batches { b with phase := .receiving }) } else w
      else
        match b.window.next? with
        | some _ =>
          { w with run := some (.batches
            { b with window := b.window.launch, phase := .spawning rounds }) }
        | none => { w with run := some (.batches { b with phase := .receiving }) }
    | _ => w
  | _ => w

/-- `patch_scan_progress`. -/
def patchScanProgress (cp : ScanCheckpoint) (s : ScanCheckpointState) : ScanCheckpoint where
  status := .inProgress
  state := cp.state.map fun old =>
    { s with
      startDate := old.startDate
      endDate := old.endDate
      allMessageIds := old.allMessageIds }

/-- The result of a fetch is dealt with; `recorded` says whether the row of a failed message
could be written. -/
def record (w : ScanWorld) (id : String) (r : JoinResult) (recorded : Bool) : ScanWorld :=
  match r with
  | .ok _ => { w with handed := id :: w.handed }
  | .err error =>
    if recorded then { w with failedMessages := ⟨id, error⟩ :: w.failedMessages } else w
  | .joinError => w

/-- `join_next` yields the fetch of `id`; `patched` says whether the progress could be
written. -/
def join (w : ScanWorld) (id : String) (r : JoinResult) (recorded patched : Bool) : ScanWorld :=
  match w.run with
  | some (.batches b) =>
    if b.phase = .receiving ∧ id ∈ b.window.inFlight then
      let w := w.record id r recorded
      let processedCount := b.processedCount + 1
      let batchCount := b.batchCount + 1
      let state := b.state.tally r
      let due := shouldCheckpoint batchCount
      let state := if due then { state with processedCount } else state
      { w with
        checkpoint :=
          if due && patched then w.checkpoint.map (patchScanProgress · state) else w.checkpoint
        run := some (.batches
          { state
            window := b.window.land id
            processedCount
            batchCount := if due then 0 else batchCount
            phase := .waiting }) }
    else w
  | _ => w

/-- The end of the wait: stop if cancelled, else take up the next message. -/
def proceed (w : ScanWorld) (deleted : Bool) : ScanWorld :=
  match w.run with
  | some (.batches b) =>
    if b.phase = .waiting then
      if w.cancelled then w.cancelledScan deleted
      else if w.paused then w
      else { w with run := some (.batches
        { b with window := b.window.launch, phase := .receiving }) }
    else w
  | _ => w

/-- The cancellation poll. -/
def poll (w : ScanWorld) (deleted : Bool) : ScanWorld :=
  match w.run with
  | some (.batches b) =>
    if b.phase = .receiving ∧ w.cancelled = true then w.cancelledScan deleted else w
  | _ => w

/-- `join_next` has nothing more to yield. -/
def finish (w : ScanWorld) (stored : Bool) : ScanWorld :=
  match w.run with
  | some (.batches b) =>
    if b.phase = .receiving ∧ b.window.inFlight = [] then
      { w with
        checkpoint :=
          if stored then
            some ⟨.completed, some { b.state with processedCount := b.processedCount }⟩
          else w.checkpoint
        run := none }
    else w
  | _ => w

/-- The process stops and is started again: `init_db` marks what was in progress. -/
def restart (w : ScanWorld) (marked : Bool) : ScanWorld :=
  { w with
    checkpoint :=
      if marked then
        w.checkpoint.map fun cp => if cp.status = .inProgress then { cp with status := .failed } else cp
      else w.checkpoint
    paused := false
    cancelled := false
    run := none }

end ScanWorld

/-! ## events -/

inductive ScanEvent where
  | pause (on : Bool)
  | cancel
  | claim (startDate endDate : String)
  | resume
  | begin (search : Option (List (List String))) (stored marked : Bool)
  | spawn
  | join (id : String) (r : JoinResult) (recorded patched : Bool)
  | proceed (deleted : Bool)
  | poll (deleted : Bool)
  | finish (stored : Bool)
  | restart (marked : Bool)
deriving DecidableEq, Repr

def ScanEvent.apply (w : ScanWorld) : ScanEvent → ScanWorld
  | .pause on => { w with paused := on }
  | .cancel => { w with cancelled := true }
  | .claim startDate endDate => w.scansHistorical startDate endDate
  | .resume => w.scansResume
  | .begin search stored marked => w.runScan search stored marked
  | .spawn => w.spawn
  | .join id r recorded patched => w.join id r recorded patched
  | .proceed deleted => w.proceed deleted
  | .poll deleted => w.poll deleted
  | .finish stored => w.finish stored
  | .restart marked => w.restart marked

def runScanEvents (w : ScanWorld) (es : List ScanEvent) : ScanWorld := es.foldl ScanEvent.apply w

namespace ScanWorld

/-- The message has come back with a result, or is on record as failed. -/
def Accounted (w : ScanWorld) (id : String) : Prop :=
  id ∈ w.handed ∨ id ∈ w.failedMessages.map (·.msgId)

/-- What a completed scan has listed is accounted for. -/
def SkipsNone (w : ScanWorld) : Prop :=
  ∀ cp ∈ w.checkpoint, cp.status = .completed →
    ∀ state ∈ cp.state, ∀ id ∈ state.allMessageIds, w.Accounted id

/-- The fetches being waited for. -/
def inFlight (w : ScanWorld) : List String :=
  match w.run with
  | some (.batches b) => b.window.inFlight
  | _ => []

/-- Of the messages a resumed scan would skip, none is still being fetched for the
first time. -/
def Interruptible (w : ScanWorld) : Prop :=
  ∀ cp ∈ w.checkpoint, ∀ state ∈ cp.state,
    ∀ id ∈ state.allMessageIds.take state.processedCount, id ∈ w.inFlight → w.Accounted id

instance (w : ScanWorld) (id : String) : Decidable (w.Accounted id) :=
  inferInstanceAs (Decidable (_ ∨ _))

instance (w : ScanWorld) : Decidable w.SkipsNone :=
  inferInstanceAs (Decidable (∀ cp ∈ w.checkpoint, _))

instance (w : ScanWorld) : Decidable w.Interruptible :=
  inferInstanceAs (Decidable (∀ cp ∈ w.checkpoint, _))

/-- The first loop is left, paused and cancelled, with messages to go and none being
fetched. -/
def LeavesUnstarted (w : ScanWorld) : Prop :=
  match w.run with
  | some (.batches ⟨_, window, _, _, .spawning (_ + 1)⟩) =>
    w.paused = true ∧ w.cancelled = true ∧ window.inFlight = [] ∧
      ∃ id ∈ window.items.drop window.cursor, ¬ w.Accounted id
  | _ => False

instance (w : ScanWorld) : Decidable w.LeavesUnstarted := by
  unfold LeavesUnstarted
  split <;> infer_instance

end ScanWorld

/-- The condition on an event:
* a fetch that comes back comes back from `process_message`, and if with an error, the
  error is recorded;
* a scan is not cancelled while paused before its first fetch;
* the process does not stop, and a cancelled scan does not fail to delete its checkpoint,
  while one of the messages that the checkpoint counts is still being fetched. -/
def ScanEvent.Sound (w : ScanWorld) : ScanEvent → Prop
  | .join id r recorded _ => w.Accounted id ∨ r.isOk = true ∨ (r ≠ .joinError ∧ recorded = true)
  | .spawn => ¬ w.LeavesUnstarted
  | .restart _ => w.Interruptible
  | .proceed deleted | .poll deleted => deleted = true ∨ w.cancelled = false ∨ w.Interruptible
  | _ => True

instance (w : ScanWorld) (e : ScanEvent) : Decidable (e.Sound w) := by
  unfold ScanEvent.Sound
  split <;> infer_instance

/-! ## what a run keeps -/

namespace ScanWorld

/-- What a scan resumed from the state would skip is accounted for. -/
def Counted (w : ScanWorld) (state : ScanCheckpointState) : Prop :=
  ∀ id ∈ state.allMessageIds.take state.processedCount, w.Accounted id

/-- The batches and the state stored last, where `P` holds of what is accounted for. -/
structure Tracks (P : String → Prop) (b : ScanBatches) (stored : ScanCheckpointState) : Prop where
  items : stored.allMessageIds = b.window.items
  listed : b.state.allMessageIds = b.window.items
  count : stored.processedCount ≤ b.processedCount
  balanced : b.window.Balanced b.processedCount
  covers : b.window.Covers P
  started : b.phase = .receiving → b.window.inFlight = [] →
    ∀ id ∈ b.window.items.drop b.window.cursor, P id
  spawned : ∀ rounds < maxConcurrentFetches, b.phase = .spawning rounds → b.window.inFlight ≠ []

structure Consistent (w : ScanWorld) : Prop where
  skipsNone : w.SkipsNone
  idle : w.run = none → ∀ cp ∈ w.checkpoint, ∀ state ∈ cp.state, w.Counted state
  claimed : ∀ existing startDate endDate, w.run = some (.claimed existing startDate endDate) →
    ∃ cp, w.checkpoint = some cp ∧ cp.status = .inProgress ∧
      cp.state = existing.bind (·.state) ∧ ∀ state ∈ cp.state, w.Counted state
  batches : ∀ b, w.run = some (.batches b) →
    ∃ stored, w.checkpoint = some ⟨.inProgress, some stored⟩ ∧ Tracks w.Accounted b stored

variable {w : ScanWorld}

theorem skipsNone_of_inProgress {cp : ScanCheckpoint} (hcp : w.checkpoint = some cp)
    (hstatus : cp.status ≠ .completed) : w.SkipsNone := by
  intro cp' hcp' hdone
  rw [hcp, Option.mem_some_iff] at hcp'
  rw [hcp'] at hstatus
  exact absurd hdone hstatus

theorem Consistent.of_idle (hrun : w.run = none) (hskips : w.SkipsNone)
    (hcounted : ∀ cp ∈ w.checkpoint, ∀ state ∈ cp.state, w.Counted state) : w.Consistent where
  skipsNone := hskips
  idle _ := hcounted
  claimed _ _ _ h := by simp [hrun] at h
  batches _ h := by simp [hrun] at h

theorem Consistent.of_batches {b : ScanBatches} {stored : ScanCheckpointState}
    (hrun : w.run = some (.batches b)) (hcp : w.checkpoint = some ⟨.inProgress, some stored⟩)
    (h : Tracks w.Accounted b stored) : w.Consistent where
  skipsNone := skipsNone_of_inProgress hcp (by simp)
  idle h' := by simp [hrun] at h'
  claimed _ _ _ h' := by simp [hrun] at h'
  batches b' h' := by
    have hb : b = b' := by simpa [hrun] using h'
    exact ⟨stored, hcp, hb ▸ h⟩

theorem Consistent.of_claimed {existing : Option ScanCheckpoint} {startDate endDate : String}
    {cp : ScanCheckpoint} (hrun : w.run = some (.claimed existing startDate endDate))
    (hcp : w.checkpoint = some cp) (hstatus : cp.status = .inProgress)
    (hstate : cp.state = existing.bind (·.state)) (hcounted : ∀ state ∈ cp.state, w.Counted state) :
    w.Consistent where
  skipsNone := skipsNone_of_inProgress hcp (by simp [hstatus])
  idle h' := by simp [hrun] at h'
  claimed existing' _ _ h' := by
    have he : existing = existing' := by
      simp only [hrun, Option.some.injEq, ScanRun.claimed.injEq] at h'
      exact h'.1
    exact ⟨cp, hcp, hstatus, he ▸ hstate, hcounted⟩
  batches _ h' := by simp [hrun] at h'

/-- What the checkpoint counts is accounted for wherever the process may stop. -/
theorem Consistent.counted (h : w.Consistent) (hstop : w.Interruptible) :
    ∀ cp ∈ w.checkpoint, ∀ state ∈ cp.state, w.Counted state := by
  intro cp hcp state hstate
  cases hrun : w.run with
  | none => exact h.idle hrun cp hcp state hstate
  | some run =>
    cases run with
    | claimed existing startDate endDate =>
      obtain ⟨cp', hcp', -, -, hcounted⟩ := h.claimed existing startDate endDate hrun
      rw [hcp', Option.mem_some_iff] at hcp
      exact hcounted state (hcp ▸ hstate)
    | batches b =>
      obtain ⟨stored, hcp', ht⟩ := h.batches b hrun
      rw [hcp', Option.mem_some_iff] at hcp
      have hst : state = stored := by
        rw [← hcp] at hstate
        simpa using hstate.symm
      subst hst
      have hair := hstop cp (by rw [hcp', hcp, Option.mem_some_iff]) state hstate
      have hcursor : state.processedCount ≤ b.window.cursor := by
        have hcount := ht.count
        have hbalanced := ht.balanced
        unfold Window.Balanced at hbalanced
        omega
      unfold Counted
      rw [ht.items] at hair ⊢
      simp only [inFlight, hrun] at hair
      exact ht.covers.counted hcursor hair

/-! ## one event after the other -/

theorem counted_fresh (startDate endDate : String) :
    w.Counted { startDate, endDate } := by
  intro id hid
  simp at hid

/-- Nothing runs unless the row says so. -/
theorem Consistent.run_eq_none (h : w.Consistent) {cp : ScanCheckpoint}
    (hcp : w.checkpoint = some cp) (hstatus : cp.status ≠ .inProgress) : w.run = none := by
  cases hrun : w.run with
  | none => rfl
  | some run =>
    cases run with
    | claimed existing startDate endDate =>
      obtain ⟨cp', hcp', hstatus', -⟩ := h.claimed existing startDate endDate hrun
      rw [hcp, Option.some.injEq] at hcp'
      exact absurd (hcp' ▸ hstatus') hstatus
    | batches b =>
      obtain ⟨stored, hcp', -⟩ := h.batches b hrun
      rw [hcp, Option.some.injEq] at hcp'
      rw [hcp'] at hstatus
      exact absurd rfl hstatus

theorem Consistent.scansHistorical (h : w.Consistent) (startDate endDate : String) :
    (w.scansHistorical startDate endDate).Consistent := by
  unfold ScanWorld.scansHistorical
  split
  · next cp hcp =>
    split
    · exact h
    · next hstatus =>
      have hcounted := h.idle (h.run_eq_none hcp hstatus) cp hcp
      exact .of_claimed rfl rfl rfl rfl hcounted
  · exact .of_claimed rfl rfl rfl rfl (by simp)

theorem Consistent.scansResume (h : w.Consistent) : w.scansResume.Consistent := by
  unfold ScanWorld.scansResume
  split
  · exact h.scansHistorical _ _
  · exact h

theorem Consistent.failed (hcounted : ∀ cp ∈ w.checkpoint, ∀ state ∈ cp.state, w.Counted state)
    (hskips : w.SkipsNone) (marked : Bool) : (w.failed marked).Consistent := by
  refine .of_idle rfl ?_ ?_
  · intro cp hcp hdone
    cases marked with
    | false => exact hskips cp hcp hdone
    | true =>
      obtain ⟨old, -, rfl⟩ := Option.map_eq_some_iff.mp hcp
      simp at hdone
  · intro cp hcp
    cases marked with
    | false => exact hcounted cp hcp
    | true =>
      obtain ⟨old, hold, rfl⟩ := Option.map_eq_some_iff.mp hcp
      exact hcounted old hold

/-- The batches begin behind what the stored state counts. -/
theorem tracks_start {state : ScanCheckpointState} (h : w.Counted state) :
    Tracks w.Accounted (.start state) state where
  items := rfl
  listed := rfl
  count := Nat.le_refl _
  balanced := Window.balanced_skip _ _
  covers := Window.covers_skip h
  started h' := by simp [ScanBatches.start] at h'
  spawned rounds hrounds h' := by
    simp only [ScanBatches.start, ScanPhase.spawning.injEq] at h'
    omega

theorem counted_restored {existing : Option ScanCheckpoint} {startDate endDate : String}
    (h : ∀ state ∈ existing.bind (·.state), w.Counted state) :
    w.Counted (.restored existing startDate endDate) := by
  unfold ScanCheckpointState.restored
  split
  · split
    · exact h _ rfl
    · exact counted_fresh startDate endDate
  · exact counted_fresh startDate endDate

theorem Consistent.runScan (h : w.Consistent) (search : Option (List (List String)))
    (stored marked : Bool) : (w.runScan search stored marked).Consistent := by
  unfold ScanWorld.runScan
  split
  · next existing startDate endDate hrun =>
    obtain ⟨cp, hcp, hstatus, hstate, hcounted⟩ := h.claimed existing startDate endDate hrun
    have hskips : w.SkipsNone := skipsNone_of_inProgress hcp (by simp [hstatus])
    have hfailed : ({ w with cancelled := false }.failed marked).Consistent := by
      refine .failed (w := { w with cancelled := false }) ?_ hskips marked
      intro cp' hcp'
      have hcp'' : cp = cp' := by simpa [hcp] using hcp'
      exact hcp'' ▸ hcounted
    dsimp only
    split
    · cases search with
      | none => exact hfailed
      | some chunks =>
        cases stored with
        | false => exact hfailed
        | true =>
          refine .of_batches rfl rfl (tracks_start ?_)
          intro id hid
          simp at hid
    · cases stored with
      | false => exact hfailed
      | true =>
        refine .of_batches rfl rfl (tracks_start ?_)
        exact counted_restored (hstate ▸ hcounted)
  · exact h

variable {P : String → Prop} {b : ScanBatches} {stored : ScanCheckpointState}

/-- The first loop ends. -/
theorem Tracks.receiving (h : Tracks P b stored)
    (hstarted : b.window.inFlight = [] →
      ∀ id ∈ b.window.items.drop b.window.cursor, P id) :
    Tracks P { b with phase := .receiving } stored :=
  { h with started := fun _ => hstarted, spawned := by simp }

/-- The next message is taken up. -/
theorem Tracks.launch {phase : ScanPhase} (h : Tracks P b stored)
    (hphase : phase = .receiving ∨ b.window.next? ≠ none) :
    Tracks P { b with window := b.window.launch, phase } stored where
  items := by simp [h.items]
  listed := by simp [h.listed]
  count := h.count
  balanced := h.balanced.launch
  covers := h.covers.launch
  started _ hair := by
    cases hnext : b.window.next? with
    | none =>
      rw [Window.launch_of_none hnext, Window.drop_eq_nil_of_next? hnext]
      simp
    | some x => exact absurd hair (Window.inFlight_launch_ne_nil hnext)
  spawned rounds _ h' := by
    dsimp only at h'
    rcases hphase with hphase | hphase
    · rw [hphase] at h'
      exact absurd h' (by simp)
    · obtain ⟨x, hx⟩ := Option.ne_none_iff_exists'.mp hphase
      exact Window.inFlight_launch_ne_nil hx

theorem Consistent.spawn (h : w.Consistent) (hsound : ¬ w.LeavesUnstarted) :
    w.spawn.Consistent := by
  unfold ScanWorld.spawn
  split
  · next b hrun =>
    obtain ⟨stored, hcp, ht⟩ := h.batches b hrun
    split
    · next hphase =>
      have hair := ht.spawned 0 (by decide) hphase
      exact .of_batches rfl hcp (ht.receiving fun h' => absurd h' hair)
    · next rounds hphase =>
      split
      · next hpaused =>
        split
        · next hcancelled =>
          -- paused and cancelled: only a scan with a fetch under way may leave the loop here
          refine .of_batches rfl hcp (ht.receiving ?_)
          intro hair id hid
          by_contra hleft
          obtain ⟨state, window, processedCount, batchCount, phase⟩ := b
          dsimp only at hphase
          subst hphase
          unfold LeavesUnstarted at hsound
          rw [hrun] at hsound
          exact hsound ⟨hpaused, hcancelled, hair, id, hid, hleft⟩
        · exact h
      · split
        · next hnext =>
          exact .of_batches rfl hcp (ht.launch (.inr (by simp [hnext])))
        · next hnext =>
          refine .of_batches rfl hcp (ht.receiving ?_)
          rw [Window.drop_eq_nil_of_next? hnext]
          simp
    · exact h
  · exact h

/-- The fetch of `id` has come back: what was accounted for still is, and `id` now is too. -/
theorem Tracks.land {Q : String → Prop} {id : String} (h : Tracks P b stored)
    (r : JoinResult) (due : Bool) (hmem : id ∈ b.window.inFlight) (hPQ : ∀ x, P x → Q x) (hid : Q id) :
    let state := if due then { b.state.tally r with processedCount := b.processedCount + 1 }
      else b.state.tally r
    let b' : ScanBatches := ⟨state, b.window.land id, b.processedCount + 1,
      if due then 0 else b.batchCount + 1, .waiting⟩
    Tracks Q b' stored ∧ (due = true → Tracks Q b' { state with
      startDate := stored.startDate
      endDate := stored.endDate
      allMessageIds := stored.allMessageIds }) := by
  intro state b'
  have hlisted : state.allMessageIds = b.window.items := by
    have hitems : (b.state.tally r).allMessageIds = b.window.items := by
      rw [allMessageIds_tally, h.listed]
    cases due <;> exact hitems
  have hcount := h.count
  refine ⟨⟨h.items, hlisted, ?_, h.balanced.land hmem, h.covers.land hPQ hid, ?_, ?_⟩, ?_⟩
  · show stored.processedCount ≤ b.processedCount + 1
    omega
  · simp [b']
  · simp [b']
  · intro hdue
    refine ⟨h.items, hlisted, ?_, h.balanced.land hmem, h.covers.land hPQ hid, ?_, ?_⟩
    · simp [state, b', hdue]
    · simp [b']
    · simp [b']

@[simp] theorem checkpoint_record (id : String) (r : JoinResult) (recorded : Bool) :
    (w.record id r recorded).checkpoint = w.checkpoint := by
  cases r <;> cases recorded <;> rfl

theorem accounted_record {x : String} (id : String) (r : JoinResult) (recorded : Bool) (h : w.Accounted x) :
    (w.record id r recorded).Accounted x := by
  unfold record Accounted at *
  cases r <;> cases recorded <;> grind

theorem accounted_record_self {id : String} {r : JoinResult} {recorded : Bool}
    (h : w.Accounted id ∨ r.isOk = true ∨ (r ≠ .joinError ∧ recorded = true)) :
    (w.record id r recorded).Accounted id := by
  rcases h with h | h | ⟨h, hrecorded⟩
  · exact accounted_record id r recorded h
  · cases r with
    | ok _ => exact .inl List.mem_cons_self
    | err _ | joinError => exact absurd h (by simp [JoinResult.isOk])
  · cases r with
    | ok _ => exact .inl List.mem_cons_self
    | err error =>
      rw [hrecorded]
      exact .inr List.mem_cons_self
    | joinError => exact absurd rfl h

theorem Consistent.join (h : w.Consistent) (id : String) (r : JoinResult) (recorded patched : Bool)
    (hsound : w.Accounted id ∨ r.isOk = true ∨ (r ≠ .joinError ∧ recorded = true)) :
    (w.join id r recorded patched).Consistent := by
  unfold ScanWorld.join
  split
  · next b hrun =>
    obtain ⟨stored, hcp, ht⟩ := h.batches b hrun
    split
    · next hwhere =>
      have hid := accounted_record_self hsound
      have hkeeps : ∀ x, w.Accounted x → (w.record id r recorded).Accounted x :=
        fun _ => accounted_record id r recorded
      have hland := ht.land r (shouldCheckpoint (b.batchCount + 1)) hwhere.2 hkeeps hid
      dsimp only at hland ⊢
      split
      · next hdue =>
        rw [Bool.and_eq_true] at hdue
        refine .of_batches rfl ?_ (hland.2 hdue.1)
        rw [checkpoint_record, hcp]
        rfl
      · refine .of_batches rfl ?_ hland.1
        rw [checkpoint_record, hcp]
    · exact h
  · exact h

/-- A scan that ends by cancellation. -/
theorem Consistent.cancelledScan (h : w.Consistent) {deleted : Bool}
    (hsound : deleted = true ∨ w.Interruptible) : (w.cancelledScan deleted).Consistent := by
  cases deleted with
  | true =>
    have hnone : (w.cancelledScan true).checkpoint = none := rfl
    refine .of_idle rfl ?_ ?_
    · intro cp hcp
      simp [hnone] at hcp
    · intro cp hcp
      simp [hnone] at hcp
  | false =>
    have hstop : w.Interruptible := by simpa using hsound
    exact .of_idle rfl h.skipsNone (h.counted hstop)

theorem Consistent.proceed (h : w.Consistent) (deleted : Bool)
    (hsound : deleted = true ∨ w.cancelled = false ∨ w.Interruptible) :
    (w.proceed deleted).Consistent := by
  unfold ScanWorld.proceed
  split
  · next b hrun =>
    obtain ⟨stored, hcp, ht⟩ := h.batches b hrun
    split
    · split
      · next hcancelled =>
        simp only [hcancelled, Bool.true_eq_false, false_or] at hsound
        exact h.cancelledScan hsound
      · split
        · exact h
        · exact .of_batches rfl hcp (ht.launch (.inl rfl))
    · exact h
  · exact h

theorem Consistent.poll (h : w.Consistent) (deleted : Bool)
    (hsound : deleted = true ∨ w.cancelled = false ∨ w.Interruptible) :
    (w.poll deleted).Consistent := by
  unfold ScanWorld.poll
  split
  · split
    · next hwhere =>
      simp only [hwhere.2, Bool.true_eq_false, false_or] at hsound
      exact h.cancelledScan hsound
    · exact h
  · exact h

theorem Consistent.finish (h : w.Consistent) (stored : Bool) : (w.finish stored).Consistent := by
  unfold ScanWorld.finish
  split
  · next b hrun =>
    obtain ⟨last, hcp, ht⟩ := h.batches b hrun
    split
    · next hwhere =>
      have hall := ht.covers.all hwhere.2 (ht.started hwhere.1 hwhere.2)
      have hstop : w.Interruptible := by
        intro cp _ state _ id _ hair
        simp only [inFlight, hrun, hwhere.2] at hair
        exact absurd hair List.not_mem_nil
      cases stored with
      | false => exact .of_idle rfl h.skipsNone (h.counted hstop)
      | true =>
        have hids : ∀ id ∈ b.state.allMessageIds, w.Accounted id := ht.listed ▸ hall
        refine .of_idle rfl ?_ ?_
        · intro cp hmem _ state hstate id hid
          obtain rfl := Option.some.inj hmem
          obtain rfl := Option.some.inj hstate
          exact hids id hid
        · intro cp hmem state hstate id hid
          obtain rfl := Option.some.inj hmem
          obtain rfl := Option.some.inj hstate
          exact hids id (List.mem_of_mem_take hid)
    · exact h
  · exact h

theorem Consistent.restart (h : w.Consistent) (marked : Bool) (hstop : w.Interruptible) :
    (w.restart marked).Consistent := by
  have hcounted := h.counted hstop
  cases marked with
  | false => exact .of_idle rfl h.skipsNone hcounted
  | true =>
    have hmark : ∀ cp ∈ (w.restart true).checkpoint, ∃ old ∈ w.checkpoint,
        cp.state = old.state ∧ (cp.status = .completed → old.status = .completed) := by
      intro cp hcp
      obtain ⟨old, hold, rfl⟩ := Option.map_eq_some_iff.mp hcp
      refine ⟨old, hold, ?_, ?_⟩
      · split <;> rfl
      · split <;> simp
    refine .of_idle rfl ?_ ?_
    · intro cp hcp hdone state hstate
      obtain ⟨old, hold, hst, hstatus⟩ := hmark cp hcp
      exact h.skipsNone old hold (hstatus hdone) state (hst ▸ hstate)
    · intro cp hcp state hstate
      obtain ⟨old, hold, hst, -⟩ := hmark cp hcp
      exact hcounted old hold state (hst ▸ hstate)

end ScanWorld

/-! ## a run -/

/-- Every event meets its condition in the state it finds. -/
def SoundRun (w : ScanWorld) : List ScanEvent → Prop
  | [] => True
  | e :: es => e.Sound w ∧ SoundRun (e.apply w) es

instance decidableSoundRun (w : ScanWorld) : (es : List ScanEvent) → Decidable (SoundRun w es)
  | [] => .isTrue trivial
  | e :: es =>
    have := decidableSoundRun (e.apply w) es
    inferInstanceAs (Decidable (_ ∧ _))

theorem ScanEvent.consistent {w : ScanWorld} (h : w.Consistent) (e : ScanEvent) (he : e.Sound w) :
    (e.apply w).Consistent := by
  cases e with
  | pause on => exact ⟨h.skipsNone, h.idle, h.claimed, h.batches⟩
  | cancel => exact ⟨h.skipsNone, h.idle, h.claimed, h.batches⟩
  | claim startDate endDate => exact h.scansHistorical startDate endDate
  | resume => exact h.scansResume
  | begin search stored marked => exact h.runScan search stored marked
  | spawn => exact h.spawn he
  | join id r recorded patched => exact h.join id r recorded patched he
  | proceed deleted => exact h.proceed deleted he
  | poll deleted => exact h.poll deleted he
  | finish stored => exact h.finish stored
  | restart marked => exact h.restart marked he

theorem runScanEvents_consistent {w : ScanWorld} (h : w.Consistent) (es : List ScanEvent)
    (hes : SoundRun w es) : (runScanEvents w es).Consistent := by
  induction es generalizing w with
  | nil => exact h
  | cons e es ih => exact ih (ScanEvent.consistent h e hes.1) hes.2

theorem consistent_initial : ({} : ScanWorld).Consistent := by
  refine .of_idle rfl ?_ ?_ <;> intro cp hcp <;> simp at hcp

/-- **No message skipped**: in a run whose events meet their conditions, a completed scan has
every message it listed accounted for, whatever the order of the fetches. -/
theorem scan_skips_none (es : List ScanEvent) (hes : SoundRun {} es) :
    (runScanEvents {} es).SkipsNone :=
  (runScanEvents_consistent consistent_initial es hes).skipsNone

/-- Six messages, all of them taken up. -/
def sixTakenUp : List ScanEvent :=
  [.claim "2026-01-01" "2026-01-31",
    .begin (some [["m0", "m1", "m2"], ["m2", "m3", "m4", "m5"]]) true true] ++
  List.replicate 7 .spawn

/-- Fetches that come back without anything of interest. -/
def comeBack (ids : List String) : List ScanEvent :=
  ids.flatMap fun id => [.join id (.ok .nonFinancial) true true, .proceed true]

/-- The scan is resumed after a crash, and takes up what it has not skipped. -/
def resumed : List ScanEvent :=
  [.restart true, .resume, .begin none true true, .spawn, .spawn]

theorem scan_skips_none_resumed :
    let es := sixTakenUp ++ comeBack ["m2", "m0", "m1", "m4", "m3"] ++ resumed ++
      comeBack ["m5"] ++ [.finish true]
    (∃ cp ∈ (runScanEvents {} es).checkpoint, cp.status = .completed) ∧
      (runScanEvents {} es).SkipsNone := by
  intro es
  exact ⟨by decide +kernel, scan_skips_none es (by decide +kernel)⟩

/-- The first message is still being fetched when five others have come back and the process
stops: the resumed scan skips it and completes. -/
theorem scan_skips_first :
    let es := sixTakenUp ++ comeBack ["m1", "m2", "m3", "m4", "m5"] ++ resumed ++
      comeBack ["m5"] ++ [.finish true]
    ¬ (runScanEvents {} es).SkipsNone := by
  decide +kernel

end Dinero
