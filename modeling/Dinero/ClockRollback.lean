import Dinero.LicenseSync
import Dinero.Runs

/-!
# Dinero.ClockRollback

The polls of the background worker, one after another, while the clock is set
back: the time a poll is compared with is the reading of the poll before, and
the table of transitions decides what can be locked.
-/

namespace Dinero

/-- What a poll reads: the device, the answer of the server, the clock. -/
structure Poll where
  getDeviceId : Except String String
  validate : String → Option LicenseResponse
  now : Int

/-- The licence, and every time that `last_known_valid_time` was, newest first. -/
structure Watched where
  db : LicenseDb
  recorded : List Int

/-- The times on record before the first poll. -/
def Watched.start (db : LicenseDb) : Watched :=
  ⟨db, (db.licenseState.map (·.lastKnownValidTime)).toList⟩

section

variable [LicenseTokens]

def Poll.after (p : Poll) (db : LicenseDb) : LicenseDb :=
  backgroundValidation db p.getDeviceId p.validate p.now

def Watched.step (w : Watched) (p : Poll) : Watched where
  db := p.after w.db
  recorded := ((p.after w.db).licenseState.map (·.lastKnownValidTime)).toList ++ w.recorded

/-! ## alarms -/

omit [LicenseTokens] in
/-- The clock reads more than an hour before the time on record. -/
def Poll.Skewed (p : Poll) (db : LicenseDb) : Prop :=
  ∃ row ∈ db.licenseState, p.now < row.lastKnownValidTime - clockCorrectionGrace

/-- The server answers with a token that does not verify. -/
def Poll.BadToken (p : Poll) (db : LicenseDb) : Prop :=
  db.Polls p.now ∧ ∃ deviceId response, p.getDeviceId = .ok deviceId ∧
    p.validate deviceId = some response ∧
    LicenseTokens.verifyLicenseJwt response.jwt p.now = none

/-- A clock that is set back gains nothing by this poll. -/
structure Watched.Sound (w : Watched) (p : Poll) : Prop where
  forward : ∀ row ∈ w.db.licenseState, ∀ row' ∈ (p.after w.db).licenseState,
    row.lastKnownValidTime ≤ row'.lastKnownValidTime
  locks : ∀ time ∈ w.recorded, p.now < time - clockCorrectionGrace →
    (p.after w.db).cachedStatus = some .locked
  refuses : p.Skewed w.db ∨ p.BadToken w.db →
    ∀ deviceId later, ¬ GateOpen (p.after w.db) deviceId later

/-! ## what cannot be locked -/

/-- There is no transition to a locked licence. -/
def LicenseStatus.Lapsed (status : LicenseStatus) : Prop :=
  status ≠ .locked ∧ isLegalTransition status .locked = false

omit [LicenseTokens] in
theorem LicenseStatus.lapsed_iff {status : LicenseStatus} :
    status.Lapsed ↔ status = .pastDue ∨ status = .canceled ∨ status = .expired := by
  unfold Lapsed
  cases status <;> simp [isLegalTransition]

/-- The clock does not fall back by an hour or less, and an alarm finds a licence that can be
locked; a bad token may also find one that no token vouches for. -/
structure Watched.Steady (w : Watched) (p : Poll) : Prop where
  clock : ∀ row ∈ w.db.licenseState, row.lastKnownValidTime ≤ p.now ∨
    p.now < row.lastKnownValidTime - clockCorrectionGrace
  skewed : p.Skewed w.db → ∀ state ∈ w.db.getLicenseState,
    ¬ state.subscriptionStatusCached.Lapsed
  badToken : p.BadToken w.db → ∀ state ∈ w.db.getLicenseState,
    state.subscriptionStatusCached.Lapsed → ∀ deviceId later, ¬ state.Vouched deviceId later

variable {db : LicenseDb} {row : LicenseState} {p : Poll} {w : Watched}

omit [LicenseTokens] in
theorem LicenseDb.getLicenseState_of_some (h : db.licenseState = some row) :
    db.getLicenseState = some row.read := by
  unfold getLicenseState
  rw [h]
  rfl

omit [LicenseTokens] in
theorem LicenseDb.cachedStatus_of_some (h : db.licenseState = some row) :
    db.cachedStatus = some row.read.subscriptionStatusCached := by
  unfold cachedStatus
  rw [getLicenseState_of_some h]
  rfl

omit [LicenseTokens] in
/-- The row of a licence that is locked. -/
def LicenseState.locked (row : LicenseState) : LicenseState :=
  { row with
    subscriptionStatusCached := LicenseStatus.locked.asStr
    checked := LicenseStatus.asStr_mem_checked .locked }

omit [LicenseTokens] in
/-- A lapsed licence is not locked, any other is. -/
theorem transitionToLocked_eq (h : db.licenseState = some row) :
    transitionToLocked db = none ∧ row.read.subscriptionStatusCached.Lapsed ∨
      ∃ row', transitionToLocked db = some { db with licenseState := some row' } ∧
        row'.read.subscriptionStatusCached = .locked ∧
        row'.lastKnownValidTime = row.lastKnownValidTime ∧
        ¬ row.read.subscriptionStatusCached.Lapsed := by
  unfold transitionToLocked transition
  rw [LicenseDb.cachedStatus_of_some h, Option.getD_some]
  dsimp only
  by_cases hsame : row.read.subscriptionStatusCached = .locked
  · refine .inr ⟨row, ?_, hsame, rfl, fun hlapsed => hlapsed.1 hsame⟩
    rw [if_pos hsame, ← h]
  · rw [if_neg hsame]
    cases hlegal : isLegalTransition row.read.subscriptionStatusCached .locked with
    | false => exact .inl ⟨rfl, hsame, hlegal⟩
    | true =>
      refine .inr ⟨row.locked, ?_, ?_, rfl, fun hlapsed => ?_⟩
      · rw [if_pos rfl]
        unfold LicenseDb.modify
        rw [h]
        rfl
      · simp [LicenseState.read, LicenseState.locked]
      · exact absurd (hlapsed.2.symm.trans hlegal) (by decide)

/-- A locked licence lets nothing through. -/
theorem not_gateOpen_of_locked {state : LicenseStateRow} (h : db.getLicenseState = some state)
    (hlocked : state.subscriptionStatusCached = .locked) (deviceId : String) (later : Int) :
    ¬ GateOpen db deviceId later := by
  rw [gateOpen_iff deviceId later h (by rw [hlocked]; decide)]
  exact fun hopen => hopen.1.1 hlocked

/-- A lapsed licence lets through what its token vouches for. -/
theorem gateOpen_of_lapsed {state : LicenseStateRow} (h : db.getLicenseState = some state)
    (hlapsed : state.subscriptionStatusCached.Lapsed) (deviceId : String) (later : Int) :
    GateOpen db deviceId later ↔ state.Vouched deviceId later := by
  have hstatus := LicenseStatus.lapsed_iff.mp hlapsed
  rw [gateOpen_iff deviceId later h (by grind)]
  grind

/-! ## one poll -/

omit [LicenseTokens] in
theorem skewed_iff (h : db.licenseState = some row) :
    p.Skewed db ↔ p.now < row.lastKnownValidTime - clockCorrectionGrace := by
  unfold Poll.Skewed
  simp [h]

/-- Without a licence there is nothing to poll for. -/
theorem after_of_none (h : db.licenseState = none) : p.after db = db := by
  unfold Poll.after backgroundValidation checkClock LicenseDb.getLicenseState
  rw [h]
  rfl

/-- A poll that finds the clock set back asks for the lock and does nothing else. -/
theorem after_of_skewed (h : db.licenseState = some row) (hskew : p.Skewed db) :
    p.after db = (transitionToLocked db).getD db := by
  have hback : p.now < row.read.lastKnownValidTime - clockCorrectionGrace :=
    (skewed_iff h).mp hskew
  unfold Poll.after backgroundValidation checkClock
  rw [LicenseDb.getLicenseState_of_some h]
  dsimp only
  rw [if_pos hback]
  cases transitionToLocked db <;> rfl

/-- The clock is put on record. -/
def LicenseDb.recordKnownValidTime (db : LicenseDb) (now : Int) : LicenseDb :=
  db.modify fun row => { row with lastKnownValidTime := now }

omit [LicenseTokens] in
theorem licenseState_recordKnownValidTime (h : db.licenseState = some row) (now : Int) :
    (db.recordKnownValidTime now).licenseState =
      some { row with lastKnownValidTime := now } := by
  unfold LicenseDb.recordKnownValidTime LicenseDb.modify
  rw [h]
  rfl

omit [LicenseTokens] in
theorem checkClock_of_not_skewed (h : db.licenseState = some row) (hskew : ¬ p.Skewed db) :
    checkClock db p.now = some (.active row.read, db.recordKnownValidTime p.now) := by
  unfold checkClock
  rw [LicenseDb.getLicenseState_of_some h]
  exact if_neg ((skewed_iff h).not.mp hskew)

/-- A bad token asks for the lock too. -/
theorem after_of_badToken (h : db.licenseState = some row) (hbad : p.BadToken db) :
    p.after db = (transitionToLocked (db.recordKnownValidTime p.now)).getD
      (db.recordKnownValidTime p.now) := by
  obtain ⟨⟨state, hstate, hstatus, hclock⟩, deviceId, response, hdevice, hanswer, hverify⟩ := hbad
  rw [LicenseDb.getLicenseState_of_some h, Option.mem_some_iff] at hstate
  obtain rfl := hstate
  unfold Poll.after backgroundValidation
  rw [checkClock_of_not_skewed h ((skewed_iff h).not.mpr hclock), hdevice]
  dsimp only
  rw [if_neg hstatus, hanswer]
  unfold takeAnswer
  dsimp only
  rw [hverify]

omit [LicenseTokens] in
/-- No transition moves the time on record. -/
theorem lastKnown_transition {db' : LicenseDb} {target : LicenseStatus}
    (h : transition db target = some db') :
    db'.licenseState.map (·.lastKnownValidTime) = db.licenseState.map (·.lastKnownValidTime) := by
  unfold transition at h
  dsimp only at h
  split at h
  · rw [← Option.some.inj h]
  · split at h
    · rw [← Option.some.inj h]
      unfold LicenseDb.modify
      rw [Option.map_map]
      rfl
    · simp at h

omit [LicenseTokens] in
theorem lastKnown_transition_getD (db : LicenseDb) (target : LicenseStatus) :
    ((transition db target).getD db).licenseState.map (·.lastKnownValidTime) =
      db.licenseState.map (·.lastKnownValidTime) := by
  cases h : transition db target with
  | none => rfl
  | some db' => exact lastKnown_transition h

/-- Nor does the answer of the server. -/
theorem lastKnown_takeAnswer (db : LicenseDb) (state : LicenseStateRow) (now : Int)
    (answer : Option LicenseResponse) :
    (takeAnswer db state now answer).licenseState.map (·.lastKnownValidTime) =
      db.licenseState.map (·.lastKnownValidTime) := by
  unfold takeAnswer
  cases answer with
  | none =>
    dsimp only
    split
    · exact lastKnown_transition_getD db .grace
    · split
      · exact lastKnown_transition_getD db .locked
      · rfl
  | some response =>
    dsimp only
    split
    · unfold LicenseDb.modify
      rw [Option.map_map]
      congr 1
      funext row
      show (row.validated response now).lastKnownValidTime = _
      unfold LicenseState.validated
      split <;> rfl
    · exact lastKnown_transition_getD db .locked

/-- **What a poll puts on record**: its own clock, unless it found it set back. -/
theorem lastKnown_after (h : db.licenseState = some row) :
    (p.Skewed db →
      (p.after db).licenseState.map (·.lastKnownValidTime) = some row.lastKnownValidTime) ∧
    (¬ p.Skewed db → (p.after db).licenseState.map (·.lastKnownValidTime) = some p.now) := by
  constructor
  · intro hskew
    rw [after_of_skewed h hskew]
    refine (lastKnown_transition_getD db .locked).trans ?_
    rw [h]
    rfl
  · intro hskew
    have hrecorded : (db.recordKnownValidTime p.now).licenseState.map (·.lastKnownValidTime) =
        some p.now := by
      rw [licenseState_recordKnownValidTime h]
      rfl
    unfold Poll.after backgroundValidation
    rw [checkClock_of_not_skewed h hskew]
    dsimp only
    split
    · exact hrecorded
    · split
      · exact hrecorded
      · rw [lastKnown_takeAnswer]
        exact hrecorded

/-! ## a run of polls -/

/-- The time of the row is on record, and none on record is later. -/
structure Watched.Newest (w : Watched) : Prop where
  mem : ∀ row ∈ w.db.licenseState, row.lastKnownValidTime ∈ w.recorded
  max : ∀ time ∈ w.recorded, ∃ row ∈ w.db.licenseState, time ≤ row.lastKnownValidTime

omit [LicenseTokens] in
theorem Watched.newest_start (db : LicenseDb) : (Watched.start db).Newest := by
  constructor
  · intro row hrow
    have hrow : db.licenseState = some row := hrow
    simp [Watched.start, hrow]
  · intro time htime
    obtain ⟨row, hrow, rfl⟩ : ∃ row, db.licenseState = some row ∧
        row.lastKnownValidTime = time := by
      simpa [Watched.start] using htime
    exact ⟨row, hrow, Int.le_refl _⟩

/-- While the clock does not fall back, the row holds the latest time. -/
theorem Watched.Newest.step (h : w.Newest) (hsteady : w.Steady p) : (w.step p).Newest := by
  cases hdb : w.db.licenseState with
  | none =>
    have hrecorded : w.recorded = [] := by
      rw [List.eq_nil_iff_forall_not_mem]
      intro time htime
      obtain ⟨row, hrow, -⟩ := h.max time htime
      exact absurd (hdb.symm.trans hrow) (by simp)
    unfold Watched.step
    constructor <;> simp [after_of_none hdb, hdb, hrecorded]
  | some row =>
    obtain ⟨hskewed, hclear⟩ := lastKnown_after (p := p) hdb
    have hlater : ∃ row', (p.after w.db).licenseState = some row' ∧
        row.lastKnownValidTime ≤ row'.lastKnownValidTime := by
      by_cases hskew : p.Skewed w.db
      · obtain ⟨row', hrow', htime⟩ := Option.map_eq_some_iff.mp (hskewed hskew)
        exact ⟨row', hrow', Int.le_of_eq htime.symm⟩
      · obtain ⟨row', hrow', htime⟩ := Option.map_eq_some_iff.mp (hclear hskew)
        have hclock := hsteady.clock row hdb
        rw [skewed_iff hdb] at hskew
        exact ⟨row', hrow', by omega⟩
    obtain ⟨row', hrow', hle⟩ := hlater
    constructor
    · intro new hnew
      have hnew : (p.after w.db).licenseState = some new := hnew
      simp [Watched.step, hnew]
    · intro time htime
      refine ⟨row', hrow', ?_⟩
      simp only [Watched.step, hrow', Option.map_some, Option.toList_some, List.cons_append,
        List.nil_append, List.mem_cons] at htime
      cases htime with
      | inl heq => exact Int.le_of_eq heq
      | inr hold =>
        obtain ⟨old, hold, hmax⟩ := h.max time hold
        obtain rfl : row = old := Option.some.inj (hdb.symm.trans hold)
        omega

omit [LicenseTokens] in
/-- An alarm locks a licence that can be locked, and no other. -/
theorem locked_getD (h : db.licenseState = some row) :
    ((transitionToLocked db).getD db).cachedStatus = some .locked ↔
      ¬ row.read.subscriptionStatusCached.Lapsed := by
  obtain ⟨hnone, hlapsed⟩ | ⟨row', hsome, hlocked, -, hlapsed⟩ := transitionToLocked_eq h
  · rw [hnone, Option.getD_none, LicenseDb.cachedStatus_of_some h, Option.some_inj]
    exact iff_of_false hlapsed.1 (not_not.mpr hlapsed)
  · rw [hsome, Option.getD_some, LicenseDb.cachedStatus_of_some rfl, Option.some_inj]
    exact iff_of_true hlocked hlapsed

/-- What is let through after an alarm: what a token vouches for, if the licence had lapsed. -/
theorem gateOpen_getD (h : db.licenseState = some row) (deviceId : String) (later : Int) :
    GateOpen ((transitionToLocked db).getD db) deviceId later ↔
      row.read.subscriptionStatusCached.Lapsed ∧ row.read.Vouched deviceId later := by
  obtain ⟨hnone, hlapsed⟩ | ⟨row', hsome, hlocked, -, hlapsed⟩ := transitionToLocked_eq h
  · rw [hnone, Option.getD_none,
      gateOpen_of_lapsed (LicenseDb.getLicenseState_of_some h) hlapsed, and_iff_right hlapsed]
  · rw [hsome, Option.getD_some]
    have hstate : ({ db with licenseState := some row' } : LicenseDb).getLicenseState =
        some row'.read := LicenseDb.getLicenseState_of_some rfl
    have hshut := not_gateOpen_of_locked hstate hlocked deviceId later
    exact iff_of_false hshut fun h => hlapsed h.1

/-- **One poll** is sound just if it is steady. -/
theorem Watched.sound_iff (h : w.Newest) : w.Sound p ↔ w.Steady p := by
  cases hdb : w.db.licenseState with
  | none =>
    have hstate : w.db.getLicenseState = none := by
      unfold LicenseDb.getLicenseState
      rw [hdb]
      rfl
    constructor
    · intro _
      constructor <;> simp [hdb, hstate]
    · intro _
      constructor
      · simp [hdb]
      · intro time htime
        obtain ⟨row, hrow, -⟩ := h.max time htime
        exact absurd (hdb.symm.trans hrow) (by simp)
      · intro halarm
        obtain ⟨row, hrow, -⟩ | ⟨⟨state, hstate', -⟩, -⟩ := halarm
        · exact absurd (hdb.symm.trans hrow) (by simp)
        · exact absurd (hstate.symm.trans hstate') (by simp)
  | some row =>
    have hstate := LicenseDb.getLicenseState_of_some hdb
    obtain ⟨hskewed, hclear⟩ := lastKnown_after (p := p) hdb
    constructor
    · intro hsound
      constructor
      · intro row' hrow'
        obtain rfl : row = row' := Option.some.inj (hdb.symm.trans hrow')
        by_contra hback
        have hskew : ¬ p.Skewed w.db := by
          rw [skewed_iff hdb]
          omega
        obtain ⟨new, hnew, htime⟩ := Option.map_eq_some_iff.mp (hclear hskew)
        have hforward := hsound.forward row hdb new hnew
        omega
      · intro hskew state hmem
        obtain rfl : row.read = state := Option.some.inj (hstate.symm.trans hmem)
        have hlocks := hsound.locks _ (h.mem row hdb) ((skewed_iff hdb).mp hskew)
        rw [after_of_skewed hdb hskew] at hlocks
        exact (locked_getD hdb).mp hlocks
      · intro hbad state hmem hlapsed deviceId later hvouched
        obtain rfl : row.read = state := Option.some.inj (hstate.symm.trans hmem)
        have hrefuses := hsound.refuses (.inr hbad) deviceId later
        rw [after_of_badToken hdb hbad] at hrefuses
        exact hrefuses ((gateOpen_getD (licenseState_recordKnownValidTime hdb p.now) deviceId
          later).mpr ⟨hlapsed, hvouched⟩)
    · intro hsteady
      constructor
      · intro old hold new hnew
        obtain rfl : row = old := Option.some.inj (hdb.symm.trans hold)
        by_cases hskew : p.Skewed w.db
        · obtain ⟨row', hrow', htime⟩ := Option.map_eq_some_iff.mp (hskewed hskew)
          obtain rfl : row' = new := Option.some.inj (hrow'.symm.trans hnew)
          exact Int.le_of_eq htime.symm
        · obtain ⟨row', hrow', htime⟩ := Option.map_eq_some_iff.mp (hclear hskew)
          obtain rfl : row' = new := Option.some.inj (hrow'.symm.trans hnew)
          have hclock := hsteady.clock row hdb
          rw [skewed_iff hdb] at hskew
          omega
      · intro time htime hback
        obtain ⟨old, hold, hmax⟩ := h.max time htime
        obtain rfl : row = old := Option.some.inj (hdb.symm.trans hold)
        have hskew : p.Skewed w.db := by
          rw [skewed_iff hdb]
          omega
        rw [after_of_skewed hdb hskew, locked_getD hdb]
        exact hsteady.skewed hskew _ hstate
      · intro halarm deviceId later hopen
        cases halarm with
        | inl hskew =>
          rw [after_of_skewed hdb hskew, gateOpen_getD hdb] at hopen
          exact hsteady.skewed hskew _ hstate hopen.1
        | inr hbad =>
          rw [after_of_badToken hdb hbad] at hopen
          rw [gateOpen_getD (licenseState_recordKnownValidTime hdb p.now)] at hopen
          exact hsteady.badToken hbad _ hstate hopen.1 deviceId later hopen.2

/-- **Clock rollback**: no poll of a run lets the clock gain anything just if every poll is
steady. -/
theorem rollback_sound_iff (db : LicenseDb) (polls : List Poll) :
    Runs.Guarded Watched.step Watched.Sound (.start db) polls ↔
      Runs.Guarded Watched.step Watched.Steady (.start db) polls :=
  Runs.guarded_congr (I := Watched.Newest) (fun _ _ hnewest => Watched.sound_iff hnewest)
    (fun _ _ hnewest hsteady => hnewest.step hsteady) (Watched.newest_start db)

end

/-- A poll that reads the clock and cannot tell the device. -/
def clockPoll (now : Int) : Poll := ⟨.error "no device id", fun _ => none, now⟩

/-- Fifty minutes back, twice, and an active licence stays active; two hours back at once, and a
cancelled licence still writes. -/
theorem rollback_gains :
    letI := goodToken
    (([clockPoll (-50 * 60 * 1000000000), clockPoll (-100 * 60 * 1000000000)].foldl Watched.step
        (.start activeLicense)).db.cachedStatus = some .active ∧
      ¬ Runs.Guarded Watched.step Watched.Sound (.start activeLicense)
        [clockPoll (-50 * 60 * 1000000000), clockPoll (-100 * 60 * 1000000000)]) ∧
      ¬ Runs.Guarded Watched.step Watched.Sound (.start canceledLicense)
        [clockPoll (-120 * 60 * 1000000000)] := by
  let := goodToken
  refine ⟨⟨rfl, fun hrun => ?_⟩, fun hrun => ?_⟩
  · have hlocks := hrun.2.1.locks 0 (by decide +kernel) (by decide +kernel)
    exact absurd hlocks (by decide +kernel)
  · have hskewed : (clockPoll (-120 * 60 * 1000000000)).Skewed canceledLicense :=
      ⟨_, rfl, by decide +kernel⟩
    exact hrun.1.refuses (.inl hskewed) "device-A" 0 rfl

end Dinero
