import Mathlib.Data.List.Perm.Basic
import Dinero.Runs

/-!
# Dinero.Sidecar

The llama.cpp server that answers completions (`llama_sidecar.rs`).

One mutex holds the state of the server.  A completion looks at it and starts the
server in a task of its own when it has to, so a start can end after the state has
moved on: the app was shut down, another start was begun, the slots were set
anew.

* the state behind the mutex, and what a completion makes of it;
* the tasks that start a server, from the process they spawn to the calibration;
* the world: any number of completions and of starts, one event after another.
-/

namespace Dinero.Sidecar

/-! ## constants -/

/-- `FAILURE_COOLDOWN`, in milliseconds. -/
def failureCooldown : Nat := 60000

/-- `MIN_CALIBRATED_TIMEOUT`, in milliseconds. -/
def minCalibratedTimeout : Nat := 20000

/-- `set_parallel_slots`: what is stored. -/
def clampSlots (n : Nat) : Nat := max 1 (min n 10)

/-- The slots that the latencies leave.  `scaled` is the product of the slots and the ratio as it is
rounded down. -/
def calibrateEffectiveSlots (requestedSlots soloMs burstMs scaled : Nat) : Nat :=
  if requestedSlots ≤ 1 then max requestedSlots 1
  else if 2 * burstMs ≤ 3 * max soloMs 1 then requestedSlots
  else max 1 (min scaled requestedSlots)

/-- `scaledMs` is the latency with its margin. -/
def calibrateTimeout (scaledMs : Nat) : Nat := max scaledMs minCalibratedTimeout

theorem clampSlots_bounds (n : Nat) : 1 ≤ clampSlots n ∧ clampSlots n ≤ 10 := by
  unfold clampSlots
  omega

theorem calibrateEffectiveSlots_bounds {requestedSlots : Nat} (h : 1 ≤ requestedSlots)
    (soloMs burstMs scaled : Nat) :
    1 ≤ calibrateEffectiveSlots requestedSlots soloMs burstMs scaled ∧
      calibrateEffectiveSlots requestedSlots soloMs burstMs scaled ≤ requestedSlots := by
  unfold calibrateEffectiveSlots
  split
  · omega
  · split <;> omega

/-! ## the state -/

/-- A `llama-server` process: the arguments it was spawned with. -/
structure Child where
  pid : Nat
  port : Nat
  modelId : String
  slots : Nat
deriving DecidableEq, Repr

inductive ServerState where
  | notStarted
  | starting
  | ready (port : Nat)
  | failed (reason : String) (failedAt : Nat)
deriving DecidableEq, Repr

/-- The state speaks of a server. -/
def ServerState.busy : ServerState → Nat
  | .starting | .ready _ => 1
  | _ => 0

/-- `semaphore` points to the permits of a semaphore, which the completions share. -/
structure SidecarState where
  state : ServerState
  child : Option Child
  modelId : Option String
  parallelSlots : Nat
  effectiveSlots : Nat
  semaphore : Nat
  calibratedTimeout : Nat
deriving DecidableEq, Repr

/-- What a completion goes on with. -/
structure Handle where
  port : Nat
  semaphore : Nat
  calibratedTimeout : Nat
deriving DecidableEq, Repr

/-- A task that starts a server; it has spawned the process or not yet. -/
structure Start where
  modelId : String
  slots : Nat
  child : Option Child
deriving DecidableEq, Repr

/-- Where a completion is: it has read the slots, waits for a permit, has sent its request, or is
over. -/
inductive Phase where
  | asking
  | waiting (handle : Handle)
  | running (handle : Handle)
  | ended (error : Option String)
deriving DecidableEq, Repr

/-- The server that the completion has been given. -/
def Phase.handle? : Phase → Option Handle
  | .waiting handle => some handle
  | .running handle => some handle
  | _ => none

/-- A permit is held from the request to its answer. -/
def Phase.holds (phase : Phase) (semaphore : Nat) : Bool :=
  match phase with
  | .running handle => handle.semaphore == semaphore
  | _ => false

structure Completion where
  modelId : String
  requestedSlots : Nat
  phase : Phase
deriving DecidableEq, Repr

/-- A server that came up. -/
structure Server where
  child : Child
  semaphore : Nat
deriving DecidableEq, Repr

/-- `processes` are those that were spawned and not killed.  `servers`, `failures` and `shutdowns`
are what has happened so far. -/
structure World where
  clock : Nat
  currentParallelSlots : Nat
  sidecar : SidecarState
  semaphores : List Nat
  starts : List Start
  completions : List Completion
  processes : List Child
  nextPid : Nat
  servers : List Server
  failures : Nat
  shutdowns : Nat
deriving DecidableEq, Repr

/-- Nothing has run yet. -/
def World.init : World where
  clock := 0
  currentParallelSlots := 1
  sidecar :=
    { state := .notStarted
      child := none
      modelId := none
      parallelSlots := 0
      effectiveSlots := 0
      semaphore := 0
      calibratedTimeout := 60000 }
  semaphores := [1]
  starts := []
  completions := []
  processes := []
  nextPid := 0
  servers := []
  failures := 0
  shutdowns := 0

def serverMatches (currentModel : Option String) (currentSlots : Nat) (requestedModel : String)
    (requestedSlots : Nat) : Bool :=
  currentModel == some requestedModel && currentSlots == requestedSlots

namespace World

/-! ## what is done under the mutex -/

/-- A child that is dropped is killed, as it is by `kill`. -/
def kill (w : World) (child : Option Child) : World :=
  { w with processes := child.elim w.processes w.processes.erase }

@[simp] theorem kill_sidecar (w : World) (child : Option Child) :
    (w.kill child).sidecar = w.sidecar := rfl

@[simp] theorem kill_starts (w : World) (child : Option Child) :
    (w.kill child).starts = w.starts := rfl

@[simp] theorem kill_completions (w : World) (child : Option Child) :
    (w.kill child).completions = w.completions := rfl

/-- The child is taken out of the state and killed. -/
def killHeld (w : World) : World :=
  let w' := w.kill w.sidecar.child
  { w' with sidecar := { w.sidecar with child := none } }

/-- A start is begun. -/
def spawnStart (w : World) (modelId : String) (slots : Nat) : World :=
  { w with
    sidecar := { w.sidecar with state := .starting }
    starts := w.starts ++ [⟨modelId, slots, none⟩] }

def ensureServerReady (w : World) (modelId : String) (requestedSlots : Nat) :
    Except String Handle × World :=
  match w.sidecar.state with
  | .ready port =>
    if serverMatches w.sidecar.modelId w.sidecar.parallelSlots modelId requestedSlots then
      (.ok ⟨port, w.sidecar.semaphore, w.sidecar.calibratedTimeout⟩, w)
    else
      (.error "llama-server restarting for a model/parallelism change — try again shortly",
        w.killHeld.spawnStart modelId requestedSlots)
  | .starting => (.error "llama-server still starting — try again shortly", w)
  | .failed reason failedAt =>
    if w.clock - failedAt < failureCooldown then
      (.error ("llama-server previously failed to start: " ++ reason), w)
    else
      (.error "llama-server starting — try again shortly", w.spawnStart modelId requestedSlots)
  | .notStarted =>
    (.error "llama-server starting — try again shortly", w.spawnStart modelId requestedSlots)

def shutdown (w : World) : World :=
  let w' := w.killHeld
  { w' with
    sidecar := { w'.sidecar with state := .notStarted }
    shutdowns := w.shutdowns + 1 }

/-! ## starts -/

/-- The start has found the binary and the model, and a free port. -/
def spawnServer (w : World) (k port : Nat) : World :=
  match w.starts[k]? with
  | some ⟨modelId, slots, none⟩ =>
    let child : Child := ⟨w.nextPid, port, modelId, slots⟩
    { w with
      starts := w.starts.set k ⟨modelId, slots, some child⟩
      processes := child :: w.processes
      nextPid := w.nextPid + 1 }
  | _ => w

/-- The server is healthy and has been calibrated.  The child that the state held is dropped. -/
def startReady (w : World) (k soloMs burstMs scaled scaledMs : Nat) : World :=
  match w.starts[k]? with
  | some ⟨modelId, slots, some child⟩ =>
    let w' := w.kill w.sidecar.child
    let effectiveSlots := calibrateEffectiveSlots slots soloMs burstMs scaled
    { w' with
      sidecar :=
        { state := .ready child.port
          child := some child
          modelId := some modelId
          parallelSlots := slots
          effectiveSlots
          semaphore := w.semaphores.length
          calibratedTimeout := calibrateTimeout scaledMs }
      semaphores := w.semaphores ++ [effectiveSlots]
      starts := w.starts.eraseIdx k
      servers := ⟨child, w.semaphores.length⟩ :: w.servers }
  | _ => w

/-- The start ends with an error: no binary, no model, an exit, no health in time.  Its own child is
dropped, the one that the state holds stays. -/
def startFails (w : World) (k : Nat) (reason : String) : World :=
  match w.starts[k]? with
  | some start =>
    let w' := w.kill start.child
    { w' with
      sidecar := { w.sidecar with state := .failed reason w.clock }
      starts := w.starts.eraseIdx k
      failures := w.failures + 1 }
  | none => w

/-! ## completions -/

/-- How many requests have a permit of the semaphore. -/
def outstanding (w : World) (semaphore : Nat) : Nat :=
  w.completions.countP fun c => c.phase.holds semaphore

def setPhase (w : World) (i : Nat) (c : Completion) (phase : Phase) : World :=
  { w with completions := w.completions.set i { c with phase } }

/-- The completion gets the mutex. -/
def enter (w : World) (i : Nat) : World :=
  match w.completions[i]? with
  | some c =>
    match c.phase with
    | .asking =>
      match w.ensureServerReady c.modelId c.requestedSlots with
      | (.ok handle, w') => w'.setPhase i c (.waiting handle)
      | (.error e, w') => w'.setPhase i c (.ended (some e))
    | _ => w
  | none => w

/-- The completion gets a permit, if one is free. -/
def acquire (w : World) (i : Nat) : World :=
  match w.completions[i]? with
  | some c =>
    match c.phase with
    | .waiting handle =>
      if w.outstanding handle.semaphore < w.semaphores.getD handle.semaphore 0 then
        w.setPhase i c (.running handle)
      else w
    | _ => w
  | none => w

/-- The request is answered, and the permit given back. -/
def complete (w : World) (i : Nat) (error : Option String) : World :=
  match w.completions[i]? with
  | some c =>
    match c.phase with
    | .running _ => w.setPhase i c (.ended error)
    | _ => w
  | none => w

end World

inductive Event where
  | tick (ms : Nat)
  | setParallelSlots (n : Nat)
  | request (modelId : String)
  | enter (i : Nat)
  | acquire (i : Nat)
  | complete (i : Nat) (error : Option String)
  | spawnServer (k port : Nat)
  | startReady (k soloMs burstMs scaled scaledMs : Nat)
  | startFails (k : Nat) (reason : String)
  | shutdown
deriving DecidableEq, Repr

def World.step (w : World) : Event → World
  | .tick ms => { w with clock := w.clock + ms }
  | .setParallelSlots n => { w with currentParallelSlots := clampSlots n }
  | .request modelId =>
    { w with completions := w.completions ++ [⟨modelId, w.currentParallelSlots, .asking⟩] }
  | .enter i => w.enter i
  | .acquire i => w.acquire i
  | .complete i error => w.complete i error
  | .spawnServer k port => w.spawnServer k port
  | .startReady k soloMs burstMs scaled scaledMs => w.startReady k soloMs burstMs scaled scaledMs
  | .startFails k reason => w.startFails k reason
  | .shutdown => w.shutdown

def World.run (events : List Event) : World := events.foldl World.step World.init

namespace World

variable {w w' : World}

/-! ## what an event can do to the server -/

/-- What becomes of the server and its starts; the completions are another matter. -/
inductive Change (w : World) : World → Prop where
  | quiet (clock slots : Nat) (completions : List Completion) (hclock : w.clock ≤ clock) :
    w.Change { w with clock, currentParallelSlots := slots, completions }
  | start (modelId : String) (slots : Nat) (completions : List Completion)
    (hstopped : w.sidecar.state ≠ .starting) (hdown : ∀ port, w.sidecar.state ≠ .ready port)
    (hcooled : ∀ reason failedAt, w.sidecar.state = .failed reason failedAt →
      failureCooldown ≤ w.clock - failedAt) :
    w.Change { w.spawnStart modelId slots with completions }
  | restart (port : Nat) (hready : w.sidecar.state = .ready port) (modelId : String) (slots : Nat)
    (completions : List Completion) :
    w.Change { w.killHeld.spawnStart modelId slots with completions }
  | spawned (k : Nat) (start : Start) (child : Child) (hstart : w.starts[k]? = some start)
    (hnone : start.child = none) :
    w.Change { w with
      starts := w.starts.set k { start with child := some child }
      processes := child :: w.processes
      nextPid := w.nextPid + 1 }
  | ready (k : Nat) (start : Start) (child : Child) (sidecar : SidecarState) (semaphores : List Nat)
    (servers : List Server) (hstart : w.starts[k]? = some start) (hsome : start.child = some child)
    (hstate : sidecar.state = .ready child.port) (hchild : sidecar.child = some child) :
    w.Change { w.kill w.sidecar.child with
      sidecar, semaphores, servers, starts := w.starts.eraseIdx k }
  | failed (k : Nat) (start : Start) (reason : String) (hstart : w.starts[k]? = some start) :
    w.Change { w.kill start.child with
      sidecar := { w.sidecar with state := .failed reason w.clock }
      starts := w.starts.eraseIdx k
      failures := w.failures + 1 }
  | shutdown : w.Change w.shutdown

theorem Change.same : w.Change w := .quiet w.clock w.currentParallelSlots w.completions (Nat.le_refl _)

theorem Change.setPhase (i : Nat) (c : Completion) (phase : Phase) :
    w.Change (w.setPhase i c phase) :=
  .quiet w.clock w.currentParallelSlots _ (Nat.le_refl _)

/-- A completion that finds no server to its liking starts one, unless it has to wait. -/
theorem enter_change (w : World) (i : Nat) : w.Change (w.enter i) := by
  unfold enter
  split
  · next c hc =>
    split
    · cases hstate : w.sidecar.state with
      | notStarted =>
        simp only [ensureServerReady, hstate]
        exact .start _ _ _ (by simp [hstate]) (by simp [hstate]) (by simp [hstate])
      | starting =>
        simp only [ensureServerReady, hstate]
        exact .setPhase i c _
      | ready port =>
        simp only [ensureServerReady, hstate]
        split
        · next heq =>
          split at heq
          · obtain ⟨-, rfl⟩ := Prod.mk.inj heq
            exact .setPhase i c _
          · simp at heq
        · next heq =>
          split at heq
          · simp at heq
          · obtain ⟨-, rfl⟩ := Prod.mk.inj heq
            exact .restart port hstate _ _ _
      | failed reason failedAt =>
        simp only [ensureServerReady, hstate]
        split
        · next heq => split at heq <;> simp at heq
        · next heq =>
          split at heq
          · obtain ⟨-, rfl⟩ := Prod.mk.inj heq
            exact .setPhase i c _
          · next hcooled =>
            obtain ⟨-, rfl⟩ := Prod.mk.inj heq
            refine .start _ _ _ (by simp [hstate]) (by simp [hstate]) fun reason' at' h => ?_
            rw [hstate] at h
            obtain ⟨-, rfl⟩ := ServerState.failed.inj h
            exact Nat.le_of_not_lt hcooled
    · exact .same
  · exact .same

/-- **What an event does** to the server. -/
theorem step_change (w : World) (e : Event) : w.Change (w.step e) := by
  cases e with
  | tick ms => exact .quiet _ _ _ (Nat.le_add_right _ _)
  | setParallelSlots n => exact .quiet _ _ _ (Nat.le_refl _)
  | request modelId => exact .quiet _ _ _ (Nat.le_refl _)
  | enter i => exact w.enter_change i
  | acquire i =>
    simp only [step, acquire]
    split
    · next c hc =>
      split
      · split
        · exact .setPhase i c _
        · exact .same
      · exact .same
    · exact .same
  | complete i error =>
    simp only [step, complete]
    split
    · next c hc =>
      split
      · exact .setPhase i c _
      · exact .same
    · exact .same
  | spawnServer k port =>
    simp only [step, spawnServer]
    split
    · next hstart => exact .spawned k _ _ hstart rfl
    · exact .same
  | startReady k soloMs burstMs scaled scaledMs =>
    simp only [step, startReady]
    split
    · next hstart => exact .ready k _ _ _ _ _ hstart rfl rfl rfl
    · exact .same
  | startFails k reason =>
    simp only [step, startFails]
    split
    · next start hstart => exact .failed k start reason hstart
    · exact .same
  | shutdown => exact .shutdown

/-! ## processes -/

/-- The processes that somebody owns: the state, or a start. -/
def owned (w : World) : List Child := w.sidecar.child.toList ++ w.starts.filterMap (·.child)

theorem starts_perm {k : Nat} {start : Start} (h : w.starts[k]? = some start) :
    w.starts.Perm (start :: w.starts.eraseIdx k) := by
  obtain ⟨hk, rfl⟩ := List.getElem?_eq_some_iff.mp h
  exact (List.getElem_cons_eraseIdx_perm hk).symm

theorem starts_set_perm {k : Nat} {start : Start} (h : w.starts[k]? = some start) (new : Start) :
    (w.starts.set k new).Perm (new :: w.starts.eraseIdx k) := by
  obtain ⟨hk, -⟩ := List.getElem?_eq_some_iff.mp h
  exact List.set_perm_cons_eraseIdx hk new

/-- What is killed is the child, when it is among the processes. -/
theorem processes_kill_perm {child : Option Child} {rest : List Child}
    (h : w.processes.Perm (child.toList ++ rest)) : (w.kill child).processes.Perm rest := by
  cases child with
  | none => exact h
  | some child =>
    have herase := h.erase child
    simpa [kill] using herase

/-- **No process is left behind**: whatever is not owned has been killed. -/
theorem Change.processes_perm (h : w.Change w') (hw : w.processes.Perm w.owned) :
    w'.processes.Perm w'.owned := by
  cases h with
  | quiet clock slots completions hclock => exact hw
  | start modelId slots completions hstopped hdown hcooled =>
    simpa [owned, spawnStart] using hw
  | restart port hready modelId slots completions =>
    have hkill := processes_kill_perm hw
    simpa [owned, spawnStart, killHeld] using hkill
  | spawned k start child hstart hnone =>
    have hold := (starts_perm hstart).filterMap (·.child)
    have hnew := (starts_set_perm hstart { start with child := some child }).filterMap (·.child)
    simp only [List.filterMap_cons, hnone] at hold hnew
    have hadded : (child :: w.processes).Perm
        (child :: (w.sidecar.child.toList ++ (w.starts.eraseIdx k).filterMap (·.child))) :=
      (hw.trans (hold.append_left _)).cons child
    exact hadded.trans (List.perm_middle.symm.trans (hnew.symm.append_left _))
  | ready k start child sidecar semaphores servers hstart hsome hstate hchild =>
    have hold := (starts_perm hstart).filterMap (·.child)
    simp only [List.filterMap_cons, hsome] at hold
    have hkill := processes_kill_perm hw
    simpa [owned, hchild] using hkill.trans hold
  | failed k start reason hstart =>
    have hold := (starts_perm hstart).filterMap (·.child)
    have hrest : w.processes.Perm
        (start.child.toList ++ (w.sidecar.child.toList ++
          (w.starts.eraseIdx k).filterMap (·.child))) := by
      refine hw.trans ((hold.append_left _).trans ?_)
      cases hchild : start.child with
      | none => simp [hchild]
      | some child => simp [hchild]
    exact processes_kill_perm hrest
  | shutdown => exact processes_kill_perm hw

/-! ## how many there can be -/

/-- Every start and every server that the state does not speak of was cut off by a shutdown. -/
structure Bounded (w : World) : Prop where
  count : w.sidecar.child.toList.length + w.starts.length ≤ w.shutdowns + w.sidecar.state.busy
  held : ∀ port, w.sidecar.state = .ready port → w.sidecar.child.toList.length = 1
  stopped : w.sidecar.state = .notStarted → w.sidecar.child.toList.length = 0

theorem length_starts {k : Nat} {start : Start} (h : w.starts[k]? = some start) :
    w.starts.length = (w.starts.eraseIdx k).length + 1 := (starts_perm h).length_eq

/-- **At most one server at a time**, and one more for each shutdown that cut off a start. -/
theorem Change.bounded (h : w.Change w') (hw : w.Bounded) : w'.Bounded := by
  obtain ⟨hcount, hheld, hstopped⟩ := hw
  cases h with
  | quiet clock slots completions hclock => exact ⟨hcount, hheld, hstopped⟩
  | start modelId slots completions hnew hdown hcooled =>
    have hidle : w.sidecar.state.busy = 0 := by
      cases hstate : w.sidecar.state with
      | starting => exact absurd hstate hnew
      | ready port => exact absurd hstate (hdown port)
      | _ => rfl
    refine ⟨?_, by simp [spawnStart], by simp [spawnStart]⟩
    simp only [spawnStart, ServerState.busy, List.length_append, List.length_singleton]
    omega
  | restart port hready modelId slots completions =>
    have hone := hheld port hready
    rw [hready, ServerState.busy] at hcount
    refine ⟨?_, by simp [spawnStart], by simp [spawnStart]⟩
    simp only [spawnStart, killHeld, kill_starts, ServerState.busy, List.length_append,
      List.length_singleton, Option.toList_none, List.length_nil]
    show _ ≤ w.shutdowns + 1
    omega
  | spawned k start child hstart hnone =>
    refine ⟨?_, hheld, hstopped⟩
    simpa using hcount
  | ready k start child sidecar semaphores servers hstart hsome hstate hchild =>
    have hlength := length_starts hstart
    have hbusy : w.sidecar.state.busy ≤ 1 := by cases w.sidecar.state <;> simp [ServerState.busy]
    refine ⟨?_, fun port _ => by simp [hchild], fun hstop => by simp [hstate] at hstop⟩
    show sidecar.child.toList.length + (w.starts.eraseIdx k).length ≤
      w.shutdowns + sidecar.state.busy
    rw [hchild, hstate, ServerState.busy, Option.toList_some, List.length_singleton]
    omega
  | failed k start reason hstart =>
    have hlength := length_starts hstart
    have hbusy : w.sidecar.state.busy ≤ 1 := by cases w.sidecar.state <;> simp [ServerState.busy]
    refine ⟨?_, fun port hport => by simp at hport, fun hstop => by simp at hstop⟩
    show w.sidecar.child.toList.length + (w.starts.eraseIdx k).length ≤ w.shutdowns + 0
    omega
  | shutdown =>
    have hbusy : w.sidecar.state.busy ≤ 1 := by cases w.sidecar.state <;> simp [ServerState.busy]
    refine ⟨?_, (fun port hport => by cases hport), fun _ => rfl⟩
    show 0 + w.starts.length ≤ w.shutdowns + 1 + 0
    omega

theorem run_invariant {I : World → Prop} (hinit : I init) (hstep : ∀ w e, I w → I (w.step e))
    (events : List Event) : I (run events) :=
  List.foldlRecOn events step hinit fun w h e _ => hstep w e h

/-- **Every process is owned, and there are few of them.** -/
theorem processes_bounded (events : List Event) :
    (run events).processes.Perm (run events).owned ∧
      (run events).processes.length ≤ (run events).shutdowns + 1 := by
  have hperm := run_invariant (I := fun w => w.processes.Perm w.owned) (by simp [init, owned])
    (fun w e hw => (w.step_change e).processes_perm hw) events
  have hbounded := run_invariant (I := Bounded) ⟨by simp [init], by simp [init], by simp [init]⟩
    (fun w e hw => (w.step_change e).bounded hw) events
  refine ⟨hperm, ?_⟩
  have hbusy : (run events).sidecar.state.busy ≤ 1 := by
    cases (run events).sidecar.state <;> simp [ServerState.busy]
  have hspawned := List.length_filterMap_le (·.child) (run events).starts
  have hcount := hbounded.count
  rw [hperm.length_eq, owned, List.length_append]
  omega

/-! ## how often it is tried -/

/-- The starts that have failed or still may. -/
def attempts (w : World) : Nat := w.failures + w.starts.length

/-- What the cooldown allows: a failure lets a start come a minute later, a server that came up or
a shutdown lets one come at once. -/
def Paced (w : World) : Prop :=
  match w.sidecar.state with
  | .failed _ failedAt => failedAt ≤ w.clock ∧
    failureCooldown * w.attempts ≤ failedAt + failureCooldown * (w.shutdowns + 1)
  | .starting => failureCooldown * w.attempts ≤ w.clock + failureCooldown * (w.shutdowns + 1)
  | .notStarted | .ready _ =>
    failureCooldown * (w.attempts + 1) ≤ w.clock + failureCooldown * (w.shutdowns + 1)

/-- In every state there are no more attempts than this. -/
theorem Paced.attempts_le (h : w.Paced) :
    failureCooldown * w.attempts ≤ w.clock + failureCooldown * (w.shutdowns + 1) := by
  unfold Paced at h
  split at h
  · omega
  · exact h
  · rw [Nat.mul_add_one] at h
    omega
  · rw [Nat.mul_add_one] at h
    omega

theorem Change.paced (h : w.Change w') (hw : w.Paced) : w'.Paced := by
  have hle := hw.attempts_le
  cases h with
  | quiet clock slots completions hclock =>
    unfold Paced at hw ⊢
    show match w.sidecar.state with
      | .failed _ failedAt => failedAt ≤ clock ∧
        failureCooldown * w.attempts ≤ failedAt + failureCooldown * (w.shutdowns + 1)
      | .starting => failureCooldown * w.attempts ≤ clock + failureCooldown * (w.shutdowns + 1)
      | .notStarted | .ready _ =>
        failureCooldown * (w.attempts + 1) ≤ clock + failureCooldown * (w.shutdowns + 1)
    split <;> simp_all <;> omega
  | start modelId slots completions hnew hdown hcooled =>
    have hmore : (w.spawnStart modelId slots).attempts = w.attempts + 1 := by
      simp [attempts, spawnStart, Nat.add_assoc]
    show failureCooldown * (w.spawnStart modelId slots).attempts ≤
      w.clock + failureCooldown * (w.shutdowns + 1)
    rw [hmore]
    cases hstate : w.sidecar.state with
    | starting => exact absurd hstate hnew
    | ready port => exact absurd hstate (hdown port)
    | notStarted => simpa [Paced, hstate] using hw
    | failed reason failedAt =>
      have hwait := hcooled reason failedAt hstate
      simp only [Paced, hstate] at hw
      rw [Nat.mul_add_one]
      omega
  | restart port hready modelId slots completions =>
    have hmore : (w.killHeld.spawnStart modelId slots).attempts = w.attempts + 1 := by
      simp [attempts, spawnStart, killHeld, Nat.add_assoc, kill]
    show failureCooldown * (w.killHeld.spawnStart modelId slots).attempts ≤
      w.clock + failureCooldown * (w.shutdowns + 1)
    rw [hmore]
    simpa [Paced, hready] using hw
  | spawned k start child hstart hnone => simpa [Paced, attempts] using hw
  | ready k start child sidecar semaphores servers hstart hsome hstate hchild =>
    have hlength := length_starts hstart
    have hfewer : w.failures + (w.starts.eraseIdx k).length + 1 = w.attempts := by
      rw [attempts, hlength]
      omega
    simp only [Paced, hstate]
    show failureCooldown * (w.failures + (w.starts.eraseIdx k).length + 1) ≤
      w.clock + failureCooldown * (w.shutdowns + 1)
    rw [hfewer]
    exact hle
  | failed k start reason hstart =>
    have hlength := length_starts hstart
    have hsame : w.failures + 1 + (w.starts.eraseIdx k).length = w.attempts := by
      rw [attempts, hlength]
      omega
    refine ⟨Nat.le_refl _, ?_⟩
    show failureCooldown * (w.failures + 1 + (w.starts.eraseIdx k).length) ≤
      w.clock + failureCooldown * (w.shutdowns + 1)
    rw [hsame]
    exact hle
  | shutdown =>
    show failureCooldown * (w.attempts + 1) ≤ w.clock + failureCooldown * (w.shutdowns + 1 + 1)
    rw [Nat.mul_add_one, Nat.mul_add_one _ (w.shutdowns + 1)]
    omega

/-- **A start that fails is not repeated at once**: a minute goes by for each failure but the first
and those after a shutdown. -/
theorem failures_paced (events : List Event) :
    failureCooldown * (run events).failures ≤
      (run events).clock + failureCooldown * ((run events).shutdowns + 1) := by
  have hpaced := run_invariant (I := Paced) (by simp [Paced, init, attempts])
    (fun w e hw => (w.step_change e).paced hw) events
  have hle : failureCooldown * (run events).failures ≤ failureCooldown * (run events).attempts :=
    Nat.mul_le_mul_left _ (Nat.le_add_right _ _)
  exact hle.trans hpaced.attempts_le

/-! ## who is served by what -/

/-- The server that a handle is for. -/
def Serves (w : World) (c : Completion) (handle : Handle) (server : Server) : Prop :=
  server ∈ w.servers ∧ server.semaphore = handle.semaphore ∧ server.child.port = handle.port ∧
    server.child.modelId = c.modelId ∧ server.child.slots = c.requestedSlots

structure Served (w : World) : Prop where
  slots : 1 ≤ w.currentParallelSlots ∧ w.currentParallelSlots ≤ 10
  asked : ∀ c ∈ w.completions, 1 ≤ c.requestedSlots ∧ c.requestedSlots ≤ 10
  starts : ∀ start ∈ w.starts, 1 ≤ start.slots ∧ start.slots ≤ 10
  spawned : ∀ start ∈ w.starts, ∀ child, start.child = some child →
    child.modelId = start.modelId ∧ child.slots = start.slots
  held : ∀ port, w.sidecar.state = .ready port → ∃ server ∈ w.servers,
    server.semaphore = w.sidecar.semaphore ∧ server.child.port = port ∧
      w.sidecar.modelId = some server.child.modelId ∧
      w.sidecar.parallelSlots = server.child.slots
  servers : ∀ server ∈ w.servers, ∃ permits, w.semaphores[server.semaphore]? = some permits ∧
    1 ≤ permits ∧ permits ≤ server.child.slots ∧ server.child.slots ≤ 10
  handles : ∀ c ∈ w.completions, ∀ handle, c.phase.handle? = some handle →
    ∃ server, w.Serves c handle server
  permits : ∀ semaphore, w.outstanding semaphore ≤ w.semaphores.getD semaphore 0

/-- A permit that is given is one more, a permit that is given back is one less. -/
theorem outstanding_setPhase {i : Nat} {c : Completion} (hc : w.completions[i]? = some c)
    (phase : Phase) (semaphore : Nat) :
    (w.setPhase i c phase).outstanding semaphore + (c.phase.holds semaphore).toNat =
      w.outstanding semaphore + (phase.holds semaphore).toNat := by
  obtain ⟨hi, hget⟩ := List.getElem?_eq_some_iff.mp hc
  have hmem : c ∈ w.completions := List.mem_of_getElem? hc
  unfold outstanding setPhase
  dsimp only
  rw [List.countP_set hi, hget]
  cases hold : c.phase.holds semaphore with
  | false => cases phase.holds semaphore <;> simp
  | true =>
    have hpos : 0 < w.completions.countP fun c => c.phase.holds semaphore :=
      List.countP_pos_iff.mpr ⟨c, hmem, hold⟩
    cases phase.holds semaphore <;> simp <;> omega

/-- A completion moves on: to a server that serves it, or to none. -/
theorem Served.setPhase (h : w.Served) {i : Nat} {c : Completion}
    (hc : w.completions[i]? = some c) {phase : Phase}
    (hhandle : ∀ handle, phase.handle? = some handle → ∃ server, w.Serves c handle server)
    (hpermits : ∀ semaphore, (w.setPhase i c phase).outstanding semaphore ≤
      w.semaphores.getD semaphore 0) : (w.setPhase i c phase).Served := by
  have hmem : c ∈ w.completions := List.mem_of_getElem? hc
  refine ⟨h.slots, fun c' hc' => ?_, h.starts, h.spawned, h.held, h.servers,
    fun c' hc' handle hphase => ?_, hpermits⟩
  · rcases List.mem_or_eq_of_mem_set hc' with hold | rfl
    · exact h.asked c' hold
    · exact h.asked c hmem
  · rcases List.mem_or_eq_of_mem_set hc' with hold | rfl
    · exact h.handles c' hold handle hphase
    · exact hhandle handle hphase

/-- A completion that holds no permit afterwards takes none from the others. -/
theorem outstanding_setPhase_le {i : Nat} {c : Completion} (hc : w.completions[i]? = some c)
    {phase : Phase} {semaphore : Nat} (hfree : phase.holds semaphore = false) :
    (w.setPhase i c phase).outstanding semaphore ≤ w.outstanding semaphore := by
  have hsum := outstanding_setPhase hc phase semaphore
  rw [hfree] at hsum
  simp only [Bool.toNat_false] at hsum
  omega

theorem Served.ended (h : w.Served) {i : Nat} {c : Completion} (hc : w.completions[i]? = some c)
    (error : Option String) : (w.setPhase i c (.ended error)).Served :=
  h.setPhase hc (fun handle hhandle => by cases hhandle) fun semaphore =>
    (outstanding_setPhase_le hc rfl).trans (h.permits semaphore)

theorem Served.spawnStart (h : w.Served) (modelId : String) {slots : Nat}
    (hslots : 1 ≤ slots ∧ slots ≤ 10) :
    (w.spawnStart modelId slots).Served where
  slots := h.slots
  asked := h.asked
  starts start hstart := by
    rcases List.mem_append.mp hstart with hold | hnew
    · exact h.starts start hold
    · rw [List.mem_singleton.mp hnew]
      exact hslots
  spawned start hstart child hchild := by
    rcases List.mem_append.mp hstart with hold | hnew
    · exact h.spawned start hold child hchild
    · rw [List.mem_singleton.mp hnew] at hchild
      cases hchild
  held port hport := by cases hport
  servers := h.servers
  handles := h.handles
  permits := h.permits

theorem Served.killHeld (h : w.Served) : w.killHeld.Served :=
  ⟨h.slots, h.asked, h.starts, h.spawned, h.held, h.servers, h.handles, h.permits⟩

/-- A completion that is let in gets the server that is up, which is the one it asked for. -/
theorem Served.enter (h : w.Served) (i : Nat) : (w.enter i).Served := by
  unfold World.enter
  split
  · next c hc =>
    have hasked := h.asked c (List.mem_of_getElem? hc)
    have hended := fun error => h.ended hc (some error)
    have hstarted := fun error =>
      (h.spawnStart c.modelId hasked).ended hc (some error)
    split
    · cases hstate : w.sidecar.state with
      | notStarted =>
        simp only [ensureServerReady, hstate]
        exact hstarted _
      | starting =>
        simp only [ensureServerReady, hstate]
        exact hended _
      | failed reason failedAt =>
        simp only [ensureServerReady, hstate]
        split
        · next heq => split at heq <;> simp at heq
        · next heq =>
          split at heq
          · obtain ⟨-, rfl⟩ := Prod.mk.inj heq
            exact hended _
          · obtain ⟨-, rfl⟩ := Prod.mk.inj heq
            exact hstarted _
      | ready port =>
        simp only [ensureServerReady, hstate]
        split
        · next handle w' heq =>
          split at heq
          · next hmatches =>
            obtain ⟨hhandle, rfl⟩ := Prod.mk.inj heq
            obtain rfl := Except.ok.inj hhandle
            rw [serverMatches, Bool.and_eq_true, beq_iff_eq, beq_iff_eq] at hmatches
            obtain ⟨server, hserver, hsemaphore, hport, hmodel, hslots⟩ := h.held port hstate
            refine h.setPhase hc (fun handle hphase => ?_) fun semaphore =>
              (outstanding_setPhase_le hc rfl).trans (h.permits semaphore)
            obtain rfl := Option.some.inj hphase
            refine ⟨server, hserver, hsemaphore, hport, ?_, hslots.symm.trans hmatches.2⟩
            exact Option.some.inj (hmodel.symm.trans hmatches.1)
          · simp at heq
        · next heq =>
          split at heq
          · simp at heq
          · obtain ⟨-, rfl⟩ := Prod.mk.inj heq
            exact (h.killHeld.spawnStart c.modelId hasked).ended hc _
    · exact h
  · exact h

/-- A permit is given only where one is free. -/
theorem Served.acquire (h : w.Served) (i : Nat) : (w.acquire i).Served := by
  unfold World.acquire
  split
  · next c hc =>
    split
    · next handle hphase =>
      split
      · next hfree =>
        have hhandle : c.phase.handle? = some handle := by rw [hphase, Phase.handle?]
        refine h.setPhase hc (fun other hother => ?_) fun semaphore => ?_
        · obtain rfl := Option.some.inj hother
          exact h.handles c (List.mem_of_getElem? hc) handle hhandle
        · have hsum := outstanding_setPhase hc (.running handle) semaphore
          have hle := h.permits semaphore
          rw [hphase] at hsum
          by_cases hsame : handle.semaphore = semaphore
          · subst hsame
            simp only [Phase.holds, beq_self_eq_true, Bool.toNat_true, Bool.toNat_false] at hsum
            omega
          · have hother : (handle.semaphore == semaphore) = false := by simpa using hsame
            simp only [Phase.holds, hother, Bool.toNat_false] at hsum
            omega
      · exact h
    · exact h
  · exact h

theorem Served.complete (h : w.Served) (i : Nat) (error : Option String) :
    (w.complete i error).Served := by
  unfold World.complete
  split
  · next c hc =>
    split
    · exact h.ended hc error
    · exact h
  · exact h

theorem Served.spawnServer (h : w.Served) (k port : Nat) : (w.spawnServer k port).Served := by
  unfold World.spawnServer
  split
  · next modelId slots hstart =>
    have hslots := h.starts _ (List.mem_of_getElem? hstart)
    refine ⟨h.slots, h.asked, fun start hmem => ?_, fun start hmem child hchild => ?_, h.held,
      h.servers, h.handles, h.permits⟩
    · rcases List.mem_or_eq_of_mem_set hmem with hold | rfl
      · exact h.starts start hold
      · exact hslots
    · rcases List.mem_or_eq_of_mem_set hmem with hold | rfl
      · exact h.spawned start hold child hchild
      · obtain rfl := Option.some.inj hchild
        exact ⟨rfl, rfl⟩
  · exact h

/-- A server that has come up has a semaphore of its own, with no more permits than slots. -/
theorem Served.startReady (h : w.Served) (k soloMs burstMs scaled scaledMs : Nat) :
    (w.startReady k soloMs burstMs scaled scaledMs).Served := by
  unfold World.startReady
  split
  · next modelId slots child hstart =>
    have hmem := List.mem_of_getElem? hstart
    obtain ⟨hmodel, hslots⟩ := h.spawned _ hmem child rfl
    have hrange := h.starts _ hmem
    obtain ⟨hpos, hle⟩ :=
      calibrateEffectiveSlots_bounds hrange.1 soloMs burstMs scaled
    refine ⟨h.slots, h.asked, fun start hs => h.starts start (List.mem_of_mem_eraseIdx hs),
      fun start hs => h.spawned start (List.mem_of_mem_eraseIdx hs), fun port hport => ?_,
      fun server hserver => ?_, fun c hc handle hhandle => ?_, fun semaphore => ?_⟩
    · obtain rfl := ServerState.ready.inj hport
      exact ⟨_, List.mem_cons_self, rfl, rfl, by rw [hmodel], hslots.symm⟩
    · rcases List.mem_cons.mp hserver with rfl | hold
      · refine ⟨_, List.getElem?_concat_length, hpos, ?_, ?_⟩
        · rw [hslots]
          exact hle
        · rw [hslots]
          exact hrange.2
      · obtain ⟨permits, hget, hbounds⟩ := h.servers server hold
        have hlt := (List.getElem?_eq_some_iff.mp hget).1
        exact ⟨permits, by rw [List.getElem?_append_left hlt, hget], hbounds⟩
    · obtain ⟨server, hserver, hserves⟩ := h.handles c hc handle hhandle
      exact ⟨server, List.mem_cons_of_mem _ hserver, hserves⟩
    · have hold := h.permits semaphore
      show w.outstanding semaphore ≤ (w.semaphores ++ [_]).getD semaphore 0
      rw [List.getD_eq_getElem?_getD] at hold ⊢
      by_cases hlt : semaphore < w.semaphores.length
      · rw [List.getElem?_append_left hlt]
        exact hold
      · rw [List.getElem?_eq_none (Nat.le_of_not_lt hlt)] at hold
        exact (Nat.le_zero.mp hold).le.trans (Nat.zero_le _)
  · exact h

theorem Served.startFails (h : w.Served) (k : Nat) (reason : String) :
    (w.startFails k reason).Served := by
  unfold World.startFails
  split
  · exact ⟨h.slots, h.asked, fun start hs => h.starts start (List.mem_of_mem_eraseIdx hs),
      fun start hs => h.spawned start (List.mem_of_mem_eraseIdx hs),
      (fun port hport => by cases hport), h.servers, h.handles, h.permits⟩
  · exact h

theorem Served.step (h : w.Served) (e : Event) : (w.step e).Served := by
  cases e with
  | tick ms =>
    exact ⟨h.slots, h.asked, h.starts, h.spawned, h.held, h.servers, h.handles, h.permits⟩
  | setParallelSlots n =>
    exact ⟨clampSlots_bounds n, h.asked, h.starts, h.spawned, h.held, h.servers, h.handles,
      h.permits⟩
  | request modelId =>
    refine ⟨h.slots, fun c hc => ?_, h.starts, h.spawned, h.held, h.servers,
      fun c hc handle hhandle => ?_, fun semaphore => ?_⟩
    · rcases List.mem_append.mp hc with hold | hnew
      · exact h.asked c hold
      · rw [List.mem_singleton.mp hnew]
        exact h.slots
    · rcases List.mem_append.mp hc with hold | hnew
      · exact h.handles c hold handle hhandle
      · rw [List.mem_singleton.mp hnew] at hhandle
        cases hhandle
    · have hsame : (w.step (.request modelId)).outstanding semaphore = w.outstanding semaphore := by
        simp [outstanding, World.step, Phase.holds]
      rw [hsame]
      exact h.permits semaphore
  | enter i => exact h.enter i
  | acquire i => exact h.acquire i
  | complete i error => exact h.complete i error
  | spawnServer k port => exact h.spawnServer k port
  | startReady k soloMs burstMs scaled scaledMs => exact h.startReady k soloMs burstMs scaled scaledMs
  | startFails k reason => exact h.startFails k reason
  | shutdown =>
    exact ⟨h.slots, h.asked, h.starts, h.spawned, (fun port hport => by cases hport), h.servers,
      h.handles, h.permits⟩

theorem served_init : init.Served where
  slots := by simp [init]
  asked c hc := absurd hc (by simp [init])
  starts start hstart := absurd hstart (by simp [init])
  spawned start hstart := absurd hstart (by simp [init])
  held port hport := by cases hport
  servers server hserver := absurd hserver (by simp [init])
  handles c hc := absurd hc (by simp [init])
  permits semaphore := by simp [outstanding, init]

/-- **A completion is served as it asked to be**: by a server that was started for its model with
its slots, and that never has more requests at once than slots. -/
theorem completion_served (events : List Event) {c : Completion} {handle : Handle}
    (hc : c ∈ (run events).completions) (hhandle : c.phase.handle? = some handle) :
    ∃ server, (run events).Serves c handle server ∧
      (run events).outstanding handle.semaphore ≤ server.child.slots ∧
      1 ≤ server.child.slots ∧ server.child.slots ≤ 10 := by
  have hserved := run_invariant served_init (fun w e h => h.step e) events
  obtain ⟨server, hserves⟩ := hserved.handles c hc handle hhandle
  obtain ⟨permits, hget, hpos, hle, hten⟩ := hserved.servers server hserves.1
  have houtstanding := hserved.permits handle.semaphore
  rw [← hserves.2.1, List.getD_eq_getElem?_getD, hget, Option.getD_some] at houtstanding
  refine ⟨server, hserves, ?_, hpos.trans hle, hten⟩
  rw [← hserves.2.1]
  exact houtstanding.trans hle

/-- Two slots are asked for; the server that comes up sustains one request. -/
def firstCompletion : List Event :=
  [.setParallelSlots 2, .request "gemma4_e4b", .enter 0, .spawnServer 0 58121,
    .startReady 0 2000 6000 1 9000, .request "gemma4_e4b", .enter 1, .acquire 1]

theorem first_completion_served :
    ∃ server, (run firstCompletion).Serves ⟨"gemma4_e4b", 2, .running ⟨58121, 1, 20000⟩⟩
        ⟨58121, 1, 20000⟩ server ∧
      (run firstCompletion).outstanding 1 ≤ server.child.slots ∧
      1 ≤ server.child.slots ∧ server.child.slots ≤ 10 :=
  completion_served firstCompletion (by decide) rfl

end World

end Dinero.Sidecar
