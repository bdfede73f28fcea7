import Dinero.License

/-!
# Dinero.TrialWindow

The trial of fourteen days at its two ends: the gate counts whole days, the
screen prints an instant.
-/

namespace Dinero

/-! ## whole days -/

theorem le_numDays_iff {n duration : Int} (hn : 0 < n) :
    n ≤ numDays duration ↔ n * nanosPerDay ≤ duration := by
  unfold numDays nanosPerDay
  constructor
  · intro h
    by_contra hlt
    have hle := Int.tdiv_le_tdiv (c := 24 * 60 * 60 * 1000000000) (by decide)
      (show duration ≤ n * (24 * 60 * 60 * 1000000000) - 1 by omega)
    have hbefore : 0 ≤ n * (24 * 60 * 60 * 1000000000) - 1 := by omega
    rw [Int.tdiv_eq_ediv_of_nonneg hbefore] at hle
    omega
  · exact Int.le_tdiv_of_mul_le (by decide)

/-- Towards zero: a day that has not ended does not count, before or after. -/
theorem numDays_nonneg_iff {duration : Int} : 0 ≤ numDays duration ↔ -nanosPerDay < duration := by
  have hneg : 1 ≤ numDays (-duration) ↔ 1 * nanosPerDay ≤ -duration := le_numDays_iff (by decide)
  unfold numDays at hneg ⊢
  rw [Int.neg_tdiv] at hneg
  omega

theorem numDays_mono {duration duration' : Int} (h : duration ≤ duration') :
    numDays duration ≤ numDays duration' :=
  Int.tdiv_le_tdiv (by decide) h

/-! ## the trial -/

/-- The trial runs, or ran. -/
def LicenseDb.InTrial (db : LicenseDb) : Prop :=
  db.getLicenseState = none ∨
    ∃ state, db.getLicenseState = some state ∧ state.subscriptionStatusCached = .trial

/-- Writes are let through up to the instant that is shown, and the days that are shown agree. -/
structure LicenseDb.TrialExact [LicenseTokens] (db : LicenseDb) (deviceId : String)
    (now expiry : Int) : Prop where
  gate : GateOpen db deviceId now ↔ now < expiry
  screen : ∃ response remaining, trialStatusResponse db now = .ok response ∧
    response.expiryDate = some expiry ∧ response.daysRemaining = some remaining ∧
    (remaining < 0 ↔ expiry ≤ now) ∧ remaining ≤ trialWindowDays ∧
    ∀ later, now ≤ later → ∃ fewer, trialDaysRemaining db later = .ok fewer ∧ fewer ≤ remaining

variable {db : LicenseDb} {createdAt : Int}

theorem trialDaysRemaining_of_profile (h : db.profile = some (some createdAt)) (now : Int) :
    trialDaysRemaining db now = .ok (trialWindowDays - numDays (now - createdAt)) := by
  unfold trialDaysRemaining
  rw [h]

/-- The gate shuts when the fifteenth day has ended. -/
theorem assertWithinTrialWindow_iff (h : db.profile = some (some createdAt)) (now : Int) :
    assertWithinTrialWindow db now = .ok () ↔
      now < createdAt + (trialWindowDays + 1) * nanosPerDay := by
  have hdays : trialWindowDays + 1 ≤ numDays (now - createdAt) ↔
      (trialWindowDays + 1) * nanosPerDay ≤ now - createdAt := le_numDays_iff (by decide)
  unfold assertWithinTrialWindow
  rw [trialDaysRemaining_of_profile h]
  by_cases hlate : trialWindowDays - numDays (now - createdAt) < 0
  · simp [bind, Except.bind, hlate, throw, throwThe, MonadExceptOf.throw]
    omega
  · simp [bind, Except.bind, hlate, pure, Except.pure]
    omega

/-- **The trial window**: it is exact but for the fifteenth day, and for clocks a day and more
before the profile was made. -/
theorem trialExact_iff [LicenseTokens] (deviceId : String) (now : Int) (htrial : db.InTrial)
    (h : db.profile = some (some createdAt)) :
    db.TrialExact deviceId now (createdAt + trialWindowDays * nanosPerDay) ↔
      createdAt - nanosPerDay < now ∧
        (now < createdAt + trialWindowDays * nanosPerDay ∨
          createdAt + (trialWindowDays + 1) * nanosPerDay ≤ now) := by
  have hgate : GateOpen db deviceId now ↔ now < createdAt + (trialWindowDays + 1) * nanosPerDay :=
    (gateOpen_trial deviceId now htrial).trans (assertWithinTrialWindow_iff h now)
  have hlate : trialWindowDays + 1 ≤ numDays (now - createdAt) ↔
      (trialWindowDays + 1) * nanosPerDay ≤ now - createdAt := le_numDays_iff (by decide)
  have hearly : 0 ≤ numDays (now - createdAt) ↔ -nanosPerDay < now - createdAt :=
    numDays_nonneg_iff
  have hremaining := trialDaysRemaining_of_profile h
  have hresponse : trialStatusResponse db now = .ok
      { state := if 0 ≤ trialWindowDays - numDays (now - createdAt) then "TRIAL" else "LOCKED"
        isActive := decide (0 ≤ trialWindowDays - numDays (now - createdAt))
        planId := none
        billingInterval := none
        expiryDate := some (createdAt + trialWindowDays * nanosPerDay)
        daysRemaining := some (trialWindowDays - numDays (now - createdAt)) } := by
    unfold trialStatusResponse
    rw [hremaining, h]
    rfl
  have hdays : (trialWindowDays + 1) * nanosPerDay =
      trialWindowDays * nanosPerDay + nanosPerDay := by decide
  have hday : 0 < nanosPerDay := by decide
  constructor
  · intro hexact
    obtain ⟨response, remaining, hok, -, hshown, -, hmax, -⟩ := hexact.screen
    rw [hresponse] at hok
    obtain rfl := Except.ok.inj hok
    obtain rfl := Option.some.inj hshown
    have hiff := hexact.gate
    rw [hgate] at hiff
    omega
  · intro hwindow
    constructor
    · rw [hgate]
      omega
    · refine ⟨_, _, hresponse, rfl, rfl, ?_, ?_, fun later hlater => ⟨_, hremaining later, ?_⟩⟩
      · omega
      · omega
      · have hmono := numDays_mono (show now - createdAt ≤ later - createdAt by omega)
        omega

/-- A profile of the first instant, and no licence. -/
def freshProfile : LicenseDb := ⟨none, some (some 0)⟩

theorem trialExact_start :
    letI := goodToken
    freshProfile.TrialExact "device-A" 0 (0 + trialWindowDays * nanosPerDay) := by
  let := goodToken
  exact (trialExact_iff "device-A" 0 (.inl rfl) rfl).mpr (by decide)

/-- Half a day after the expiry date writes are let through, and two days before the profile was
made there are sixteen days left. -/
theorem trial_beyond_expiry :
    letI := goodToken
    (trialStatusResponse freshProfile (29 * nanosPerDay / 2)).map (·.expiryDate) =
        .ok (some (14 * nanosPerDay)) ∧
      GateOpen freshProfile "device-A" (29 * nanosPerDay / 2) ∧
      trialDaysRemaining freshProfile (-2 * nanosPerDay) = .ok 16 ∧
      ¬ freshProfile.TrialExact "device-A" (29 * nanosPerDay / 2) (14 * nanosPerDay) := by
  let := goodToken
  have hopen : GateOpen freshProfile "device-A" (29 * nanosPerDay / 2) := rfl
  refine ⟨rfl, hopen, rfl, fun hexact => ?_⟩
  exact absurd (hexact.gate.mp hopen) (by decide)

end Dinero
