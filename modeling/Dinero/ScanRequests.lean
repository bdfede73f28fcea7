import Dinero.Runs
import Dinero.Scan

/-!
# Dinero.ScanRequests

What a completed scan answers.

A checkpoint holds one listing, and a request takes up the listing that is there,
whatever range it was made for.  `ScanRequests` keeps beside the world what nobody
writes down: the range that was asked for, the range of the listing, and whether the
scan was cancelled or held before its end.
-/

namespace Dinero

structure DateRange where
  startDate : String
  endDate : String
deriving DecidableEq, Repr

/-- A listing, and the range its queries were made for. -/
structure ScanListing where
  range : DateRange
  ids : List String
deriving DecidableEq, Repr

namespace ScanWorld

/-- A scan has been asked for, and has not yet dealt with its last fetch. -/
def Unfinished (w : ScanWorld) : Prop :=
  match w.run with
  | none => False
  | some (.claimed _ _ _) => True
  | some (.batches b) => ¬ (b.phase = .receiving ∧ b.window.inFlight = [])

instance decidableUnfinished : (w : ScanWorld) → Decidable w.Unfinished
  | ⟨_, _, _, _, _, none⟩ => instDecidableFalse
  | ⟨_, _, _, _, _, some (.claimed _ _ _)⟩ => instDecidableTrue
  | ⟨_, _, _, _, _, some (.batches b)⟩ =>
    inferInstanceAs (Decidable (¬ (b.phase = .receiving ∧ b.window.inFlight = [])))

/-- A scan has been asked for and has not yet begun. -/
def Claimed (w : ScanWorld) : Prop :=
  match w.run with
  | some (.claimed _ _ _) => True
  | _ => False

instance decidableClaimed : (w : ScanWorld) → Decidable w.Claimed
  | ⟨_, _, _, _, _, none⟩ => instDecidableFalse
  | ⟨_, _, _, _, _, some (.claimed _ _ _)⟩ => instDecidableTrue
  | ⟨_, _, _, _, _, some (.batches _)⟩ => instDecidableFalse

/-- The first loop is left by a cancelled scan with nothing being fetched. -/
def LeavesStopped (w : ScanWorld) : Prop :=
  match w.run with
  | some (.batches ⟨_, window, _, _, .spawning (_ + 1)⟩) =>
    w.cancelled = true ∧ window.inFlight = [] ∧ (w.paused = true ∨ window.next? = none)
  | _ => False

instance decidableLeavesStopped : (w : ScanWorld) → Decidable w.LeavesStopped
  | ⟨_, _, _, _, _, none⟩ => instDecidableFalse
  | ⟨_, _, _, _, _, some (.claimed _ _ _)⟩ => instDecidableFalse
  | ⟨_, _, _, paused, cancelled, some (.batches ⟨_, window, _, _, .spawning (_ + 1)⟩)⟩ =>
    inferInstanceAs (Decidable (cancelled = true ∧ window.inFlight = [] ∧
      (paused = true ∨ window.next? = none)))
  | ⟨_, _, _, _, _, some (.batches ⟨_, _, _, _, .spawning 0⟩)⟩ => instDecidableFalse
  | ⟨_, _, _, _, _, some (.batches ⟨_, _, _, _, .receiving⟩)⟩ => instDecidableFalse
  | ⟨_, _, _, _, _, some (.batches ⟨_, _, _, _, .waiting⟩)⟩ => instDecidableFalse

end ScanWorld

/-! ## requests -/

structure ScanRequests where
  world : ScanWorld := {}
  /-- The range asked for by the request that is, or was last, being answered. -/
  requested : Option DateRange := none
  /-- The listing in the checkpoint. -/
  listed : Option ScanListing := none
  /-- The scan was cancelled before its end. -/
  cancelled : Bool := false
  /-- The scan was paused before its end, and still is. -/
  held : Bool := false
deriving DecidableEq, Repr

namespace ScanRequests

/-- A request: one that is accepted begins anew, paused or not. -/
def request (h : ScanRequests) (world : ScanWorld) : ScanRequests :=
  if h.world.run = none ∧ world.run ≠ none then
    { h with world, cancelled := false, held := h.world.paused }
  else { h with world }

@[simp] theorem world_request (h : ScanRequests) (world : ScanWorld) :
    (h.request world).world = world := by
  unfold request
  split <;> rfl

/-- One event; the world goes on as it does. -/
def follow (h : ScanRequests) (e : ScanEvent) : ScanRequests :=
  let h' := { h with world := e.apply h.world }
  match e with
  | .pause on => { h' with held := on && (h.held || decide h.world.Unfinished) }
  | .cancel => { h' with cancelled := h.cancelled || decide h.world.Unfinished }
  | .claim _ _ | .resume => h.request (e.apply h.world)
  | .begin search stored _ =>
    match h.world.run with
    | some (.claimed existing startDate endDate) =>
      let made :=
        if stored = true ∧ (ScanCheckpointState.restored existing startDate endDate).allMessageIds = []
        then search.map fun chunks => ⟨⟨startDate, endDate⟩, listing chunks⟩
        else none
      { h' with
        requested := some ⟨startDate, endDate⟩
        listed := made.or h.listed }
    | _ => h'
  | .restart _ => { h' with held := false }
  | .spawn | .join _ _ _ _ | .proceed _ | .poll _ | .finish _ => h'

@[simp] theorem world_follow (h : ScanRequests) (e : ScanEvent) :
    (h.follow e).world = e.apply h.world := by
  cases e with
  | begin search stored marked =>
    unfold follow
    dsimp only
    split <;> rfl
  | claim _ _ | resume => exact world_request h _
  | pause _ | cancel | spawn | join _ _ _ _ | proceed _ | poll _ | finish _ | restart _ => rfl

/-- A completed scan has listed the range that was asked for, has all of the listing accounted
for, and was neither cancelled nor held before its end. -/
def Truthful (h : ScanRequests) : Prop :=
  ∀ cp ∈ h.world.checkpoint, cp.status = .completed →
    (∃ l ∈ h.listed, h.requested = some l.range ∧ ∀ id ∈ l.ids, h.world.Accounted id) ∧
      h.cancelled = false ∧ h.held = false

instance decidableTruthful (h : ScanRequests) : Decidable h.Truthful :=
  inferInstanceAs (Decidable (∀ cp ∈ h.world.checkpoint, _))

/-- The listing that a request would take up from the checkpoint is one of its own range. -/
def TakesUp (h : ScanRequests) (range : DateRange) : Prop :=
  ∀ cp ∈ h.world.checkpoint, cp.status ≠ .inProgress →
    (ScanCheckpointState.restored (some cp) range.startDate range.endDate).allMessageIds ≠ [] →
      ∀ l ∈ h.listed, l.range = range

instance decidableTakesUp (h : ScanRequests) (range : DateRange) : Decidable (h.TakesUp range) :=
  inferInstanceAs (Decidable (∀ cp ∈ h.world.checkpoint, _))

/-- The condition on an event:
* a request takes up no listing of another range;
* a scan is not cancelled between its claim and its beginning;
* the first loop is not left by a cancelled scan with nothing being fetched;
* no message is skipped. -/
def Sound (h : ScanRequests) : ScanEvent → Prop
  | .claim startDate endDate => h.TakesUp ⟨startDate, endDate⟩
  | .resume => ∀ cp ∈ h.world.checkpoint, ∀ state ∈ cp.state,
      h.TakesUp ⟨state.startDate, state.endDate⟩
  | .cancel => ¬ h.world.Claimed
  | .spawn => ¬ h.world.LeavesStopped
  | e => e.Sound h.world

instance decidableSound (h : ScanRequests) (e : ScanEvent) : Decidable (h.Sound e) := by
  unfold Sound
  split <;> infer_instance

theorem Sound.skipsNone {h : ScanRequests} {e : ScanEvent} (hsound : h.Sound e) :
    e.Sound h.world := by
  cases e with
  | spawn =>
    show ¬ h.world.LeavesUnstarted
    intro hleaves
    refine hsound ?_
    unfold ScanWorld.LeavesUnstarted at hleaves
    split at hleaves
    · next hrun =>
      unfold ScanWorld.LeavesStopped
      rw [hrun]
      exact ⟨hleaves.2.1, hleaves.2.2.1, .inl hleaves.1⟩
    · exact hleaves.elim
  | pause _ | cancel | claim _ _ | resume | begin _ _ _ | finish _ => exact trivial
  | join _ _ _ _ | proceed _ | poll _ | restart _ => exact hsound

/-! ## what a run keeps -/

/-- The batches work through the listing of the request, and have noticed or will notice what
was asked of them meanwhile. -/
structure Answering (h : ScanRequests) (b : ScanBatches) : Prop where
  listing : ∃ l ∈ h.listed, h.requested = some l.range ∧ l.ids = b.window.items
  cancelled : h.cancelled = true → h.world.cancelled = true
  held : h.held = true → h.world.paused = true
  unfinished : b.phase = .receiving → b.window.inFlight = [] →
    h.cancelled = false ∧ h.held = false

/-- A request that has been accepted and not begun finds no listing but its own. -/
structure Awaiting (h : ScanRequests) (existing : Option ScanCheckpoint)
    (startDate endDate : String) : Prop where
  listing : (ScanCheckpointState.restored existing startDate endDate).allMessageIds ≠ [] →
    ∃ l ∈ h.listed, l.range = ⟨startDate, endDate⟩ ∧
      l.ids = (ScanCheckpointState.restored existing startDate endDate).allMessageIds
  cancelled : h.cancelled = false
  held : h.held = true → h.world.paused = true

/-- The listing in the checkpoint is the one on record. -/
def Recorded (h : ScanRequests) : Prop :=
  ∀ cp ∈ h.world.checkpoint, ∀ state ∈ cp.state, state.allMessageIds ≠ [] →
    ∃ l ∈ h.listed, l.ids = state.allMessageIds

structure Kept (h : ScanRequests) : Prop where
  consistent : h.world.Consistent
  recorded : h.Recorded
  awaiting : ∀ existing startDate endDate,
    h.world.run = some (.claimed existing startDate endDate) →
      h.Awaiting existing startDate endDate
  answering : ∀ b, h.world.run = some (.batches b) → h.Answering b
  truthful : h.Truthful

variable {h h' : ScanRequests}

theorem truthful_of_status {cp : ScanCheckpoint} (hcp : h.world.checkpoint = some cp)
    (hstatus : cp.status ≠ .completed) : h.Truthful := by
  intro cp' hcp' hdone
  rw [hcp, Option.mem_some_iff] at hcp'
  rw [hcp'] at hstatus
  exact absurd hdone hstatus

theorem Kept.of_idle (hc : h.world.Consistent) (hrun : h.world.run = none)
    (hrecorded : h.Recorded) (htruthful : h.Truthful) : h.Kept where
  consistent := hc
  recorded := hrecorded
  awaiting _ _ _ h' := by simp [hrun] at h'
  answering _ h' := by simp [hrun] at h'
  truthful := htruthful

theorem Kept.of_batches {b : ScanBatches} (hc : h.world.Consistent)
    (hrun : h.world.run = some (.batches b)) (ha : h.Answering b) : h.Kept := by
  obtain ⟨stored, hcp, ht⟩ := hc.batches b hrun
  refine ⟨hc, ?_, ?_, ?_, truthful_of_status hcp (by simp)⟩
  · intro cp hcp' state hstate _
    rw [hcp, Option.mem_some_iff] at hcp'
    rw [← hcp', Option.mem_some_iff] at hstate
    obtain ⟨l, hl, -, hids⟩ := ha.listing
    exact ⟨l, hl, by rw [hids, ← hstate, ht.items]⟩
  · intro existing startDate endDate h'
    simp [hrun] at h'
  · intro b' h'
    have hb : b = b' := by simpa [hrun] using h'
    exact hb ▸ ha

theorem Kept.of_claimed {existing : Option ScanCheckpoint} {startDate endDate : String}
    (hc : h.world.Consistent) (hrun : h.world.run = some (.claimed existing startDate endDate))
    (hrecorded : h.Recorded) (ha : h.Awaiting existing startDate endDate) : h.Kept := by
  obtain ⟨cp, hcp, hstatus, -⟩ := hc.claimed existing startDate endDate hrun
  refine ⟨hc, hrecorded, ?_, ?_, truthful_of_status hcp (by simp [hstatus])⟩
  · intro existing' startDate' endDate' h'
    rw [hrun, Option.some.injEq, ScanRun.claimed.injEq] at h'
    obtain ⟨rfl, rfl, rfl⟩ := h'
    exact ha
  · intro b h'
    simp [hrun] at h'

/-- The checkpoint of a scan that is being run does not say that it is completed. -/
theorem Kept.running {run : ScanRun} (h' : h.Kept) (hrun : h.world.run = some run) :
    ∃ cp, h.world.checkpoint = some cp ∧ cp.status = .inProgress := by
  cases run with
  | claimed existing startDate endDate =>
    obtain ⟨cp, hcp, hstatus, -⟩ := h'.consistent.claimed existing startDate endDate hrun
    exact ⟨cp, hcp, hstatus⟩
  | batches b =>
    obtain ⟨stored, hcp, -⟩ := h'.consistent.batches b hrun
    exact ⟨_, hcp, rfl⟩

/-- A scan ends without being completed, its states left as they are or deleted. -/
theorem Kept.ended {run : ScanRun} (hkept : h.Kept) (hrun : h.world.run = some run)
    (hc : h'.world.Consistent) (hidle : h'.world.run = none) (hlisted : h'.listed = h.listed)
    (hcheckpoint : ∀ cp' ∈ h'.world.checkpoint, ∃ cp ∈ h.world.checkpoint,
      cp'.state = cp.state ∧ (cp'.status = cp.status ∨ cp'.status = .failed)) : h'.Kept := by
  obtain ⟨cp₀, hcp₀, hstatus₀⟩ := hkept.running hrun
  refine .of_idle hc hidle ?_ ?_
  · intro cp' hcp' state hstate
    obtain ⟨cp, hcp, hst, -⟩ := hcheckpoint cp' hcp'
    rw [hlisted]
    exact hkept.recorded cp hcp state (hst ▸ hstate)
  · intro cp' hcp' hdone
    obtain ⟨cp, hcp, -, hsame⟩ := hcheckpoint cp' hcp'
    rw [hcp₀, Option.mem_some_iff] at hcp
    rw [← hcp, hstatus₀, hdone] at hsame
    simp at hsame

/-! ## one event after the other -/

/-- A scan that has ended is left as it is. -/
theorem Kept.same (hkept : h.Kept) (hc : h'.world.Consistent) (hidle : h'.world.run = none)
    (hcheckpoint : h'.world.checkpoint = h.world.checkpoint)
    (haccounted : ∀ id, h.world.Accounted id → h'.world.Accounted id)
    (hlisted : h'.listed = h.listed) (hrequested : h'.requested = h.requested)
    (hcancelled : h.cancelled = false → h'.cancelled = false)
    (hheld : h.held = false → h'.held = false) : h'.Kept := by
  refine .of_idle hc hidle ?_ ?_
  · intro cp hcp
    rw [hcheckpoint] at hcp
    rw [hlisted]
    exact hkept.recorded cp hcp
  · intro cp hcp hdone
    rw [hcheckpoint] at hcp
    obtain ⟨⟨l, hl, hrange, hall⟩, hnot, hnotHeld⟩ := hkept.truthful cp hcp hdone
    rw [hlisted, hrequested]
    exact ⟨⟨l, hl, hrange, fun id hid => haccounted id (hall id hid)⟩,
      hcancelled hnot, hheld hnotHeld⟩

theorem Kept.pause (hkept : h.Kept) (on : Bool) : (h.follow (.pause on)).Kept := by
  have hc := ScanEvent.consistent hkept.consistent (.pause on) trivial
  cases hrun : h.world.run with
  | none =>
    have hunfinished : ¬ h.world.Unfinished := by simp [ScanWorld.Unfinished, hrun]
    exact hkept.same hc hrun rfl (fun _ => id) rfl rfl id fun hheld => by
      simp [follow, hheld, hunfinished]
  | some run =>
    cases run with
    | claimed existing startDate endDate =>
      have ha := hkept.awaiting existing startDate endDate hrun
      refine .of_claimed hc hrun hkept.recorded ⟨ha.listing, ha.cancelled, ?_⟩
      intro hheld
      have hon : on = true := by simp [follow] at hheld; exact hheld.1
      exact hon
    | batches b =>
      have ha := hkept.answering b hrun
      refine .of_batches hc hrun ⟨ha.listing, ha.cancelled, ?_, ?_⟩
      · intro hheld
        have hon : on = true := by simp [follow] at hheld; exact hheld.1
        exact hon
      · intro hphase hair
        have hnot := ha.unfinished hphase hair
        have hunfinished : ¬ h.world.Unfinished := by
          simp [ScanWorld.Unfinished, hrun, hphase, hair]
        exact ⟨hnot.1, by simp [follow, hnot.2, hunfinished]⟩

theorem Kept.cancel (hkept : h.Kept) (hsound : ¬ h.world.Claimed) :
    (h.follow .cancel).Kept := by
  have hc := ScanEvent.consistent hkept.consistent .cancel trivial
  cases hrun : h.world.run with
  | none =>
    have hunfinished : ¬ h.world.Unfinished := by simp [ScanWorld.Unfinished, hrun]
    exact hkept.same hc hrun rfl (fun _ => id) rfl rfl
      (fun hnot => by simp [follow, hnot, hunfinished]) id
  | some run =>
    cases run with
    | claimed existing startDate endDate =>
      exact absurd (by simp [ScanWorld.Claimed, hrun]) hsound
    | batches b =>
      have ha := hkept.answering b hrun
      refine .of_batches hc hrun ⟨ha.listing, fun _ => rfl, ha.held, ?_⟩
      intro hphase hair
      have hnot := ha.unfinished hphase hair
      have hunfinished : ¬ h.world.Unfinished := by
        simp [ScanWorld.Unfinished, hrun, hphase, hair]
      exact ⟨by simp [follow, hnot.1, hunfinished], hnot.2⟩

/-- A request that is refused. -/
theorem request_self (h : ScanRequests) : h.request h.world = h := by
  unfold request
  split
  · next hboth => exact absurd hboth.1 hboth.2
  · rfl

theorem Kept.request (hkept : h.Kept) {range : DateRange} (hsound : h.TakesUp range) :
    (h.request (h.world.scansHistorical range.startDate range.endDate)).Kept := by
  have hc := hkept.consistent.scansHistorical range.startDate range.endDate
  cases hcp : h.world.checkpoint with
  | none =>
    have hrun : h.world.run = none := by
      cases hrun : h.world.run with
      | none => rfl
      | some run =>
        obtain ⟨cp, hcp', -⟩ := hkept.running hrun
        simp [hcp] at hcp'
    have heq : h.world.scansHistorical range.startDate range.endDate = { h.world with
        checkpoint := some ⟨.inProgress, none⟩
        run := some (.claimed none range.startDate range.endDate) } := by
      rw [ScanWorld.scansHistorical, hcp]
    rw [heq] at hc ⊢
    unfold ScanRequests.request
    rw [if_pos ⟨hrun, by simp⟩]
    refine .of_claimed hc rfl ?_ ⟨?_, rfl, id⟩
    · intro cp' hcp' state hstate
      rw [Option.mem_some_iff] at hcp'
      simp [← hcp'] at hstate
    · intro hlist
      exact absurd rfl hlist
  | some cp =>
    by_cases hstatus : cp.status = .inProgress
    · have heq : h.world.scansHistorical range.startDate range.endDate = h.world := by
        rw [ScanWorld.scansHistorical, hcp]
        exact if_pos hstatus
      rw [heq, request_self]
      exact hkept
    · have hrun := hkept.consistent.run_eq_none hcp hstatus
      have heq : h.world.scansHistorical range.startDate range.endDate = { h.world with
          checkpoint := some { cp with status := .inProgress }
          run := some (.claimed (some cp) range.startDate range.endDate) } := by
        rw [ScanWorld.scansHistorical, hcp]
        exact if_neg hstatus
      rw [heq] at hc ⊢
      unfold ScanRequests.request
      rw [if_pos ⟨hrun, by simp⟩]
      have hmem : cp ∈ h.world.checkpoint := by rw [hcp, Option.mem_some_iff]
      refine .of_claimed hc rfl ?_ ⟨?_, rfl, id⟩
      · intro cp' hcp' state hstate
        rw [Option.mem_some_iff] at hcp'
        rw [← hcp'] at hstate
        exact hkept.recorded cp hmem state hstate
      · intro hlist
        have htakes := hsound cp hmem hstatus hlist
        have hstored : ∃ state ∈ cp.state, ScanCheckpointState.restored (some cp) range.startDate
            range.endDate = state := by
          obtain ⟨status, state⟩ := cp
          unfold ScanCheckpointState.restored at hlist ⊢
          cases state with
          | none => exact absurd rfl hlist
          | some state => grind
        obtain ⟨state, hstate, hrestored⟩ := hstored
        rw [hrestored] at hlist ⊢
        obtain ⟨l, hl, hids⟩ := hkept.recorded cp hmem state hstate hlist
        exact ⟨l, hl, htakes l hl, hids⟩

theorem Kept.resume (hkept : h.Kept) (hsound : h.Sound .resume) : (h.follow .resume).Kept := by
  show (h.request h.world.scansResume).Kept
  unfold ScanWorld.scansResume
  split
  · next status state hcp =>
    have hmem : (⟨status, some state⟩ : ScanCheckpoint) ∈ h.world.checkpoint := by
      rw [hcp, Option.mem_some_iff]
    exact hkept.request (hsound _ hmem state rfl)
  · rw [request_self]
    exact hkept

/-- `run_scan` returns an error, or goes on to the batches. -/
theorem runScan_cases {w : ScanWorld} {existing : Option ScanCheckpoint}
    {startDate endDate : String} (hrun : w.run = some (.claimed existing startDate endDate))
    (search : Option (List (List String))) (stored marked : Bool) :
    let state := ScanCheckpointState.restored existing startDate endDate
    w.runScan search stored marked = { w with cancelled := false }.failed marked ∧
        (stored = false ∨ state.allMessageIds = [] ∧ search = none) ∨
      stored = true ∧ ∃ state', (w.runScan search stored marked).run = some (.batches (.start state')) ∧
        (w.runScan search stored marked).paused = w.paused ∧
        (state.allMessageIds = [] ∧ (∃ chunks ∈ search, state'.allMessageIds = listing chunks) ∨
          state.allMessageIds ≠ [] ∧ state'.allMessageIds = state.allMessageIds) := by
  intro state
  unfold ScanWorld.runScan
  rw [hrun]
  dsimp only
  split
  · next hlist =>
    cases search with
    | none => exact .inl ⟨rfl, .inr ⟨hlist, rfl⟩⟩
    | some chunks =>
      cases stored with
      | false => exact .inl ⟨rfl, .inl rfl⟩
      | true => exact .inr ⟨rfl, _, rfl, rfl, .inl ⟨hlist, chunks, rfl, rfl⟩⟩
  · next hlist =>
    cases stored with
    | false => exact .inl ⟨rfl, .inl rfl⟩
    | true => exact .inr ⟨rfl, _, rfl, rfl, .inr ⟨hlist, rfl⟩⟩

theorem Kept.begin (hkept : h.Kept) (search : Option (List (List String)))
    (stored marked : Bool) : (h.follow (.begin search stored marked)).Kept := by
  have hc := ScanEvent.consistent hkept.consistent (.begin search stored marked) trivial
  unfold follow
  dsimp only [ScanEvent.apply] at hc ⊢
  split
  · next existing startDate endDate hrun =>
    have ha := hkept.awaiting existing startDate endDate hrun
    obtain ⟨hfailed, hwhy⟩ | ⟨hstored, state, hbatches, hpaused, hlist⟩ :=
      runScan_cases hrun search stored marked
    · refine hkept.ended hrun hc ?_ ?_ ?_
      · rw [hfailed]
        rfl
      · dsimp only
        rcases hwhy with hstored | ⟨-, hsearch⟩
        · rw [if_neg (by simp [hstored]), Option.none_or]
        · rw [hsearch, Option.map_none, ite_self, Option.none_or]
      · intro cp' hcp'
        rw [hfailed] at hcp'
        cases marked with
        | false => exact ⟨cp', hcp', rfl, .inl rfl⟩
        | true =>
          obtain ⟨cp, hcp, rfl⟩ := Option.map_eq_some_iff.mp hcp'
          exact ⟨cp, hcp, rfl, .inr rfl⟩
    · refine .of_batches hc hbatches ⟨?_, ?_, ?_, ?_⟩
      · rcases hlist with ⟨hnone, chunks, hsearch, hids⟩ | ⟨hsome, hids⟩
        · rw [Option.mem_def] at hsearch
          refine ⟨⟨⟨startDate, endDate⟩, listing chunks⟩, ?_, rfl, hids.symm⟩
          dsimp only
          rw [if_pos ⟨hstored, hnone⟩, hsearch]
          rfl
        · obtain ⟨l, hl, hrange, hl'⟩ := ha.listing hsome
          refine ⟨l, ?_, by rw [hrange], by rw [hl', ← hids]; rfl⟩
          dsimp only
          rw [if_neg (by simp [hsome]), Option.none_or]
          exact hl
      · intro hcancelled
        exact absurd hcancelled (by simp [ha.cancelled])
      · intro hheld
        show (h.world.runScan search stored marked).paused = true
        rw [hpaused]
        exact ha.held hheld
      · intro hphase
        simp [ScanBatches.start] at hphase
  · next hrun =>
    have heq : h.world.runScan search stored marked = h.world := by
      unfold ScanWorld.runScan
      split
      · next existing startDate endDate hclaimed => exact absurd hclaimed (hrun _ _ _)
      · rfl
    rw [heq]
    exact hkept

variable {b b' : ScanBatches}

/-- The batches go on, with what was asked of them meanwhile. -/
theorem Kept.onward {w : ScanWorld} (hkept : h.Kept) (hrun : h.world.run = some (.batches b))
    (hc : w.Consistent) (hgoes : w.run = some (.batches b')) (hitems : b'.window.items = b.window.items)
    (hcancelled : w.cancelled = h.world.cancelled) (hpaused : w.paused = h.world.paused)
    (hunfinished : b'.phase = .receiving → b'.window.inFlight = [] →
      h.cancelled = false ∧ h.held = false) :
    ({ h with world := w } : ScanRequests).Kept := by
  have ha := hkept.answering b hrun
  refine .of_batches hc hgoes ⟨?_, ?_, ?_, hunfinished⟩
  · obtain ⟨l, hl, hrange, hids⟩ := ha.listing
    exact ⟨l, hl, hrange, by rw [hitems, hids]⟩
  · intro h'
    exact hcancelled.trans (ha.cancelled h')
  · intro h'
    exact hpaused.trans (ha.held h')

/-- What is not set in the world has not been asked for. -/
theorem Answering.unasked (ha : h.Answering b) (hcancelled : h.world.cancelled = false)
    (hpaused : h.world.paused = false) : h.cancelled = false ∧ h.held = false := by
  have hc := ha.cancelled
  have hh := ha.held
  rw [hcancelled] at hc
  rw [hpaused] at hh
  simpa using And.intro hc hh

/-- A round of the first loop; one that leaves it with nothing being fetched had nothing to
fetch, or was paused and cancelled. -/
theorem spawn_cases {w : ScanWorld} (hrun : w.run = some (.batches b)) :
    w.spawn = w ∨ ∃ b', w.spawn = { w with run := some (.batches b') } ∧
      b'.window.items = b.window.items ∧
      (b'.phase = .receiving → b'.window.inFlight = [] →
        b.window.inFlight = [] ∧ (b.phase = .spawning 0 ∨ ∃ rounds, b.phase = .spawning (rounds + 1) ∧
          (w.paused = true ∧ w.cancelled = true ∨ w.paused = false ∧ b.window.next? = none))) := by
  unfold ScanWorld.spawn
  rw [hrun]
  dsimp only
  split
  · next hphase => exact .inr ⟨_, rfl, rfl, fun _ hair => ⟨hair, .inl hphase⟩⟩
  · next rounds hphase =>
    split
    · next hpaused =>
      split
      · next hcancelled =>
        exact .inr ⟨_, rfl, rfl, fun _ hair =>
          ⟨hair, .inr ⟨rounds, hphase, .inl ⟨hpaused, hcancelled⟩⟩⟩⟩
      · exact .inl rfl
    · next hpaused =>
      split
      · exact .inr ⟨_, rfl, Window.items_launch _, fun hreceiving => by simp at hreceiving⟩
      · next hnext =>
        exact .inr ⟨_, rfl, rfl, fun _ hair =>
          ⟨hair, .inr ⟨rounds, hphase, .inr ⟨by simpa using hpaused, hnext⟩⟩⟩⟩
  · exact .inl rfl

theorem Kept.spawn (hkept : h.Kept) (hsound : h.Sound .spawn) : (h.follow .spawn).Kept := by
  have hc : h.world.spawn.Consistent :=
    ScanEvent.consistent hkept.consistent .spawn hsound.skipsNone
  show ({ h with world := h.world.spawn } : ScanRequests).Kept
  cases hrun : h.world.run with
  | some run =>
    cases run with
    | batches b =>
      have ha := hkept.answering b hrun
      obtain ⟨stored, -, ht⟩ := hkept.consistent.batches b hrun
      obtain hsame | ⟨b', hgoes, hitems, hleaves⟩ := spawn_cases hrun
      · rw [hsame]
        exact hkept
      · refine hkept.onward hrun hc (by rw [hgoes]) hitems (by rw [hgoes]) (by rw [hgoes]) ?_
        intro hreceiving hair
        obtain ⟨hnone, hphase | ⟨rounds, hphase, hwhy⟩⟩ := hleaves hreceiving hair
        · exact absurd hnone (ht.spawned 0 (by decide) hphase)
        · obtain ⟨state, window, processedCount, batchCount, phase⟩ := b
          dsimp only at hphase hnone hwhy
          subst hphase
          have hstopped : ¬ h.world.LeavesStopped := hsound
          unfold ScanWorld.LeavesStopped at hstopped
          rw [hrun] at hstopped
          rcases hwhy with ⟨hpaused, hcancelled⟩ | ⟨hpaused, hnext⟩
          · exact absurd ⟨hcancelled, hnone, .inl hpaused⟩ hstopped
          · have hcancelled : h.world.cancelled = false := by
              by_contra hset
              exact hstopped ⟨by simpa using hset, hnone, .inr hnext⟩
            exact ha.unasked hcancelled hpaused
    | claimed _ _ _ =>
      have hsame : h.world.spawn = h.world := by rw [ScanWorld.spawn, hrun]
      rw [hsame]
      exact hkept
  | none =>
    have hsame : h.world.spawn = h.world := by rw [ScanWorld.spawn, hrun]
    rw [hsame]
    exact hkept

theorem Kept.join (hkept : h.Kept) {id : String} {r : JoinResult} {recorded patched : Bool}
    (hsound : h.Sound (.join id r recorded patched)) :
    (h.follow (.join id r recorded patched)).Kept := by
  have hc : (h.world.join id r recorded patched).Consistent :=
    ScanEvent.consistent hkept.consistent _ hsound.skipsNone
  show ({ h with world := h.world.join id r recorded patched } : ScanRequests).Kept
  by_cases hjoins : ∃ b, h.world.run = some (.batches b) ∧ b.phase = .receiving ∧
      id ∈ b.window.inFlight
  · obtain ⟨b, hrun, hwhere⟩ := hjoins
    have hgoes : ∃ b', (h.world.join id r recorded patched).run = some (.batches b') ∧
        b'.window.items = b.window.items ∧ b'.phase = .waiting := by
      unfold ScanWorld.join
      rw [hrun]
      dsimp only
      rw [if_pos hwhere]
      exact ⟨_, rfl, rfl, rfl⟩
    have hflags : (h.world.join id r recorded patched).cancelled = h.world.cancelled ∧
        (h.world.join id r recorded patched).paused = h.world.paused := by
      unfold ScanWorld.join
      rw [hrun]
      dsimp only
      rw [if_pos hwhere]
      cases r <;> cases recorded <;> exact ⟨rfl, rfl⟩
    obtain ⟨b', hgoes, hitems, hwaiting⟩ := hgoes
    refine hkept.onward hrun hc hgoes hitems hflags.1 hflags.2 ?_
    intro hreceiving
    simp [hwaiting] at hreceiving
  · have hsame : h.world.join id r recorded patched = h.world := by
      unfold ScanWorld.join
      split
      · next b hrun =>
        rw [if_neg]
        intro hwhere
        exact hjoins ⟨b, hrun, hwhere⟩
      · rfl
    rw [hsame]
    exact hkept

/-- A scan that ends by cancellation. -/
theorem Kept.cancelledScan (hkept : h.Kept) {run : ScanRun} (hrun : h.world.run = some run)
    (deleted : Bool) (hc : (h.world.cancelledScan deleted).Consistent) :
    ({ h with world := h.world.cancelledScan deleted } : ScanRequests).Kept := by
  refine hkept.ended hrun hc rfl rfl ?_
  intro cp' hcp'
  cases deleted with
  | true => simp [ScanWorld.cancelledScan] at hcp'
  | false => exact ⟨cp', hcp', rfl, .inl rfl⟩

theorem Kept.proceed (hkept : h.Kept) {deleted : Bool} (hsound : h.Sound (.proceed deleted)) :
    (h.follow (.proceed deleted)).Kept := by
  have hc : (h.world.proceed deleted).Consistent :=
    ScanEvent.consistent hkept.consistent _ hsound.skipsNone
  show ({ h with world := h.world.proceed deleted } : ScanRequests).Kept
  by_cases hwaits : ∃ b, h.world.run = some (.batches b) ∧ b.phase = .waiting
  · obtain ⟨b, hrun, hwhere⟩ := hwaits
    have ha := hkept.answering b hrun
    have heq : h.world.proceed deleted =
        if h.world.cancelled then h.world.cancelledScan deleted
        else if h.world.paused then h.world
        else { h.world with run := some (.batches
          { b with window := b.window.launch, phase := .receiving }) } := by
      unfold ScanWorld.proceed
      rw [hrun]
      exact if_pos hwhere
    rw [heq] at hc ⊢
    by_cases hcancelled : h.world.cancelled = true
    · rw [if_pos hcancelled] at hc ⊢
      exact hkept.cancelledScan hrun deleted hc
    · rw [if_neg hcancelled] at hc ⊢
      by_cases hpaused : h.world.paused = true
      · rw [if_pos hpaused]
        exact hkept
      · rw [if_neg hpaused] at hc ⊢
        refine hkept.onward hrun hc rfl (Window.items_launch _) rfl rfl ?_
        intro _ _
        exact ha.unasked (by simpa using hcancelled) (by simpa using hpaused)
  · have hsame : h.world.proceed deleted = h.world := by
      unfold ScanWorld.proceed
      split
      · next b hrun =>
        rw [if_neg]
        intro hwhere
        exact hwaits ⟨b, hrun, hwhere⟩
      · rfl
    rw [hsame]
    exact hkept

theorem Kept.poll (hkept : h.Kept) {deleted : Bool} (hsound : h.Sound (.poll deleted)) :
    (h.follow (.poll deleted)).Kept := by
  have hc : (h.world.poll deleted).Consistent :=
    ScanEvent.consistent hkept.consistent _ hsound.skipsNone
  show ({ h with world := h.world.poll deleted } : ScanRequests).Kept
  unfold ScanWorld.poll at hc ⊢
  cases hrun : h.world.run with
  | some run =>
    cases run with
    | batches b =>
      rw [hrun] at hc
      dsimp only at hc ⊢
      split at hc
      · next hwhere =>
        rw [if_pos hwhere]
        exact hkept.cancelledScan hrun deleted hc
      · next hwhere =>
        rw [if_neg hwhere]
        exact hkept
    | claimed _ _ _ => exact hkept
  | none => exact hkept

theorem Kept.finish (hkept : h.Kept) (stored : Bool) : (h.follow (.finish stored)).Kept := by
  have hc : (h.world.finish stored).Consistent :=
    ScanEvent.consistent hkept.consistent (.finish stored) trivial
  show ({ h with world := h.world.finish stored } : ScanRequests).Kept
  by_cases hends : ∃ b, h.world.run = some (.batches b) ∧ b.phase = .receiving ∧
      b.window.inFlight = []
  · obtain ⟨b, hrun, hwhere⟩ := hends
    have ha := hkept.answering b hrun
    obtain ⟨last, hcp, ht⟩ := hkept.consistent.batches b hrun
    have heq : h.world.finish stored = { h.world with
        checkpoint :=
          if stored then
            some ⟨.completed, some { b.state with processedCount := b.processedCount }⟩
          else h.world.checkpoint
        run := none } := by
      unfold ScanWorld.finish
      rw [hrun]
      exact if_pos hwhere
    rw [heq] at hc ⊢
    obtain ⟨l, hl, hrange, hids⟩ := ha.listing
    cases stored with
    | false => exact hkept.ended hrun hc rfl rfl fun cp hcp' => ⟨cp, hcp', rfl, .inl rfl⟩
    | true =>
      refine .of_idle hc rfl ?_ ?_
      · intro cp hmem state hstate _
        obtain rfl := Option.some.inj hmem
        obtain rfl := Option.some.inj hstate
        exact ⟨l, hl, by rw [hids, ← ht.listed]⟩
      · intro cp hmem hdone
        have hall := hc.skipsNone cp hmem hdone
        obtain rfl := Option.some.inj hmem
        refine ⟨⟨l, hl, hrange, ?_⟩, ha.unfinished hwhere.1 hwhere.2⟩
        intro id hid
        rw [hids, ← ht.listed] at hid
        exact hall _ rfl id hid
  · have hsame : h.world.finish stored = h.world := by
      unfold ScanWorld.finish
      split
      · next b hrun =>
        rw [if_neg]
        intro hwhere
        exact hends ⟨b, hrun, hwhere⟩
      · rfl
    rw [hsame]
    exact hkept

theorem Kept.restart (hkept : h.Kept) {marked : Bool} (hsound : h.Sound (.restart marked)) :
    (h.follow (.restart marked)).Kept := by
  have hc : (h.world.restart marked).Consistent :=
    ScanEvent.consistent hkept.consistent _ hsound.skipsNone
  have hmark : ∀ cp' ∈ (h.world.restart marked).checkpoint, ∃ cp ∈ h.world.checkpoint,
      cp'.state = cp.state ∧ (cp'.status = cp.status ∨ cp'.status = .failed) := by
    intro cp' hcp'
    cases marked with
    | false => exact ⟨cp', hcp', rfl, .inl rfl⟩
    | true =>
      obtain ⟨cp, hcp, rfl⟩ := Option.map_eq_some_iff.mp hcp'
      refine ⟨cp, hcp, ?_, ?_⟩
      · split <;> rfl
      · split
        · exact .inr rfl
        · exact .inl rfl
  refine .of_idle hc rfl ?_ ?_
  · intro cp' hcp' state hstate
    obtain ⟨cp, hcp, hst, -⟩ := hmark cp' hcp'
    exact hkept.recorded cp hcp state (hst ▸ hstate)
  · intro cp' hcp' hdone
    obtain ⟨cp, hcp, -, hstatus⟩ := hmark cp' hcp'
    rw [hdone] at hstatus
    obtain ⟨hlisting, hcancelled, -⟩ := hkept.truthful cp hcp (by simpa [eq_comm] using hstatus)
    exact ⟨hlisting, hcancelled, rfl⟩

/-! ## a run -/

theorem Kept.follow (hkept : h.Kept) (e : ScanEvent) (hsound : h.Sound e) :
    (h.follow e).Kept := by
  cases e with
  | pause on => exact hkept.pause on
  | cancel => exact hkept.cancel hsound
  | claim startDate endDate => exact hkept.request hsound
  | resume => exact hkept.resume hsound
  | begin search stored marked => exact hkept.begin search stored marked
  | spawn => exact hkept.spawn hsound
  | join id r recorded patched => exact hkept.join hsound
  | proceed deleted => exact hkept.proceed hsound
  | poll deleted => exact hkept.poll hsound
  | finish stored => exact hkept.finish stored
  | restart marked => exact hkept.restart hsound

theorem kept_initial : ({} : ScanRequests).Kept := by
  refine .of_idle consistent_initial rfl ?_ ?_ <;> intro cp hcp <;> simp at hcp

end ScanRequests

/-- The requests beside a run, which goes on as it does. -/
theorem world_foldl_follow (h : ScanRequests) (es : List ScanEvent) :
    (es.foldl ScanRequests.follow h).world = runScanEvents h.world es := by
  induction es generalizing h with
  | nil => rfl
  | cons e es ih =>
    rw [List.foldl_cons, ih, ScanRequests.world_follow]
    rfl

/-- **A completed scan answers its request**: in a run whose events meet their conditions,
wherever it has got to, a checkpoint that says completed has listed the range asked for and
dealt with all of it, and was neither cancelled nor held before its end. -/
theorem completed_scan_truthful (es : List ScanEvent)
    (hes : Runs.Guarded ScanRequests.follow ScanRequests.Sound {} es) (pre : List ScanEvent)
    (hpre : pre <+: es) :
    (pre.foldl ScanRequests.follow {}).Truthful ∧
      (pre.foldl ScanRequests.follow {}).world = runScanEvents {} pre := by
  obtain ⟨rest, rfl⟩ := hpre
  have hkept := (Runs.guarded_append.mp hes).1.invariant
    (fun h e => ScanRequests.Kept.follow (h := h) (e := e)) ScanRequests.kept_initial
  exact ⟨hkept.truthful, world_foldl_follow {} pre⟩

/-- A scan that is interrupted, resumed with the dates it has stored, and ends. -/
def resumedToItsEnd : List ScanEvent :=
  sixTakenUp ++ comeBack ["m2", "m0", "m1", "m4", "m3"] ++ resumed ++ comeBack ["m5"] ++
    [.finish true]

theorem resumedToItsEnd_sound :
    Runs.Guarded ScanRequests.follow ScanRequests.Sound {} resumedToItsEnd := by
  decide +kernel

theorem completed_scan_truthful_resumed :
    (resumedToItsEnd.foldl ScanRequests.follow {}).Truthful ∧
      (resumedToItsEnd.foldl ScanRequests.follow {}).world = runScanEvents {} resumedToItsEnd ∧
      ∃ cp ∈ (resumedToItsEnd.foldl ScanRequests.follow {}).world.checkpoint,
        cp.status = .completed := by
  have hall := completed_scan_truthful resumedToItsEnd resumedToItsEnd_sound resumedToItsEnd
    (List.prefix_refl _)
  exact ⟨hall.1, hall.2, by decide +kernel⟩

/-- January is interrupted, February is asked for, and January is completed. -/
def februaryAfterJanuary : List ScanEvent :=
  [.claim "2026-01-01" "2026-01-31", .begin (some [["m0", "m1"]]) true true,
    .restart true,
    .claim "2026-02-01" "2026-02-28", .begin none true true,
    .spawn, .spawn, .spawn] ++ comeBack ["m0", "m1"] ++ [.finish true]

theorem completed_for_another_range :
    let h := februaryAfterJanuary.foldl ScanRequests.follow {}
    (∃ cp ∈ h.world.checkpoint, cp.status = .completed) ∧
      h.requested = some ⟨"2026-02-01", "2026-02-28"⟩ ∧
      h.listed = some ⟨⟨"2026-01-01", "2026-01-31"⟩, ["m0", "m1"]⟩ ∧ ¬ h.Truthful := by
  decide +kernel

end Dinero
