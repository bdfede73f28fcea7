import Mathlib.Tactic.Common

/-!
# Dinero.License

The licence the desktop keeps: the row of `license_state`, the gate before every
write, and the status the licence screen shows.

The gate trusts the token and the device it is bound to; the screen goes by the
cached status alone.  Both go by the age of the profile while there is a trial.
-/

namespace Dinero

/-! ## the cached status -/

inductive LicenseStatus where
  | anonymousEval
  | trial
  | active
  | grace
  | locked
  | pastDue
  | canceled
  | expired
deriving DecidableEq, Repr

namespace LicenseStatus

def asStr : LicenseStatus → String
  | anonymousEval => "anonymous"
  | trial => "trialing"
  | active => "active"
  | grace => "grace"
  | locked => "locked"
  | pastDue => "past_due"
  | canceled => "canceled"
  | expired => "expired"

def parseStatus : String → Option LicenseStatus
  | "anonymous" => some anonymousEval
  | "trialing" => some trial
  | "active" => some active
  | "grace" => some grace
  | "locked" => some locked
  | "past_due" => some pastDue
  | "canceled" => some canceled
  | "expired" => some expired
  | _ => none

@[simp] theorem parseStatus_asStr (status : LicenseStatus) :
    parseStatus status.asStr = some status := by
  cases status <;> rfl

/-- What the `CHECK` of `subscription_status_cached` lists. -/
def checked : List String :=
  ["anonymous", "trialing", "active", "past_due", "grace", "locked", "canceled", "expired"]

theorem asStr_mem_checked (status : LicenseStatus) : status.asStr ∈ checked := by
  cases status <;> simp [asStr, checked]

/-- The `CHECK` lets through just what can be read back. -/
theorem exists_of_mem_checked {s : String} (h : s ∈ checked) :
    ∃ status : LicenseStatus, status.asStr = s := by
  simp only [checked, List.mem_cons, List.not_mem_nil, or_false] at h
  rcases h with rfl | rfl | rfl | rfl | rfl | rfl | rfl | rfl
  · exact ⟨anonymousEval, rfl⟩
  · exact ⟨trial, rfl⟩
  · exact ⟨active, rfl⟩
  · exact ⟨pastDue, rfl⟩
  · exact ⟨grace, rfl⟩
  · exact ⟨locked, rfl⟩
  · exact ⟨canceled, rfl⟩
  · exact ⟨expired, rfl⟩

end LicenseStatus

/-! ## the row -/

/-- The row of `license_state`; no row has a status that its `CHECK` refuses.  Times are in
nanoseconds. -/
structure LicenseState where
  licenseJwt : String
  subscriptionStatusCached : String
  planIdCached : Option String
  billingIntervalCached : Option String
  currentPeriodEndCached : Option Int
  jwtExpiresAt : Int
  lastServerValidatedAt : Option Int
  lastKnownValidTime : Int
  deviceFingerprint : Option String
  source : String
  checked : subscriptionStatusCached ∈ LicenseStatus.checked
deriving DecidableEq, Repr

/-- The row as `get_license_state` reads it. -/
structure LicenseStateRow where
  licenseJwt : String
  subscriptionStatusCached : LicenseStatus
  planIdCached : Option String
  currentPeriodEndCached : Option Int
  jwtExpiresAt : Int
  lastServerValidatedAt : Option Int
  lastKnownValidTime : Int
  deviceFingerprint : Option String
  source : String
  billingIntervalCached : Option String
deriving DecidableEq, Repr

def LicenseState.read (row : LicenseState) : LicenseStateRow where
  licenseJwt := row.licenseJwt
  subscriptionStatusCached :=
    (LicenseStatus.parseStatus row.subscriptionStatusCached).getD .locked
  planIdCached := row.planIdCached
  currentPeriodEndCached := row.currentPeriodEndCached
  jwtExpiresAt := row.jwtExpiresAt
  lastServerValidatedAt := row.lastServerValidatedAt
  lastKnownValidTime := row.lastKnownValidTime
  deviceFingerprint := row.deviceFingerprint
  source := row.source
  billingIntervalCached := row.billingIntervalCached

/-- The licence table, and `created_at` of the local profile if there is one. -/
structure LicenseDb where
  licenseState : Option LicenseState
  profile : Option (Option Int)
deriving DecidableEq, Repr

def LicenseDb.getLicenseState (db : LicenseDb) : Option LicenseStateRow :=
  db.licenseState.map LicenseState.read

/-! ## tokens -/

structure LicenseClaims where
  sub : String
  deviceId : String
  plan : String
  billingInterval : String
  /-- In seconds. -/
  exp : Int
deriving DecidableEq, Repr

/-- `verify_license_jwt`: what the token says, if its signature is good and it has not expired
by the given time. -/
class LicenseTokens where
  verifyLicenseJwt : String → Int → Option LicenseClaims

/-- The variants of `AppError` that these commands end in. -/
inductive LicenseError where
  | licenseLocked (text : String)
  | auth (text : String)
deriving DecidableEq, Repr

/-! ## the trial -/

def trialWindowDays : Int := 14

def nanosPerDay : Int := 24 * 60 * 60 * 1000000000

/-- `num_days`: whole days, towards zero. -/
def numDays (duration : Int) : Int := duration.tdiv nanosPerDay

def trialDaysRemaining (db : LicenseDb) (now : Int) : Except LicenseError Int :=
  match db.profile with
  | none => .error (.licenseLocked "No local profile found")
  | some none => .error (.licenseLocked "Profile has no creation timestamp")
  | some (some createdAt) => .ok (trialWindowDays - numDays (now - createdAt))

def assertWithinTrialWindow (db : LicenseDb) (now : Int) : Except LicenseError Unit := do
  if (← trialDaysRemaining db now) < 0 then
    throw (.licenseLocked "14-day trial has expired — activate a license to continue")

/-! ## the gate -/

/-- `assert_write_allowed`, given what `get_device_id` says. -/
def assertWriteAllowed [LicenseTokens] (db : LicenseDb) (getDeviceId : Except String String)
    (now : Int) : Except LicenseError Unit :=
  match db.getLicenseState with
  | none => assertWithinTrialWindow db now
  | some state =>
    if state.subscriptionStatusCached = .locked then
      throw (.licenseLocked "License is locked — all writes are blocked until it is refreshed")
    else if state.subscriptionStatusCached = .anonymousEval then
      throw (.licenseLocked "Anonymous evaluation mode is read-only")
    else if state.subscriptionStatusCached = .trial then
      assertWithinTrialWindow db now
    else
      match LicenseTokens.verifyLicenseJwt state.licenseJwt now with
      | none => throw (.licenseLocked
          "License could not be cryptographically verified — treating as locked")
      | some claims =>
        match getDeviceId with
        | .error e => throw (.licenseLocked ("Failed to derive device_id: " ++ e))
        | .ok deviceId =>
          if claims.deviceId = deviceId then pure ()
          else throw (.licenseLocked "License is bound to a different device")

/-! ## the licence screen -/

/-- The instant `expiry_date` is printed from stands for the text. -/
structure LicenseStatusResponse where
  state : String
  isActive : Bool
  planId : Option String
  billingInterval : Option String
  expiryDate : Option Int
  daysRemaining : Option Int
deriving DecidableEq, Repr

def trialStatusResponse (db : LicenseDb) (now : Int) :
    Except LicenseError LicenseStatusResponse := do
  let remaining ← trialDaysRemaining db now
  match db.profile with
  | none => throw (.licenseLocked "No local profile found")
  | some createdAt =>
    pure
      { state := if 0 ≤ remaining then "TRIAL" else "LOCKED"
        isActive := decide (0 ≤ remaining)
        planId := none
        billingInterval := none
        expiryDate := createdAt.map (· + trialWindowDays * nanosPerDay)
        daysRemaining := some remaining }

def computeLicenseStatus (db : LicenseDb) (now : Int) :
    Except LicenseError LicenseStatusResponse :=
  match db.getLicenseState with
  | none => trialStatusResponse db now
  | some state =>
    if state.subscriptionStatusCached = .trial then trialStatusResponse db now
    else
      .ok
        { state := state.subscriptionStatusCached.asStr.toUpper
          isActive := state.subscriptionStatusCached = .active ∨
            state.subscriptionStatusCached = .grace
          planId := state.planIdCached
          billingInterval := state.billingIntervalCached
          expiryDate := state.currentPeriodEndCached.or (some state.jwtExpiresAt)
          daysRemaining := state.currentPeriodEndCached.map fun endsAt => numDays (endsAt - now) }

/-! ## what the screen says and what the gate does -/

/-- The screen says that the licence is active. -/
def ScreenActive (db : LicenseDb) (now : Int) : Prop :=
  ∃ response, computeLicenseStatus db now = .ok response ∧ response.isActive = true

/-- Writes are let through. -/
def GateOpen [LicenseTokens] (db : LicenseDb) (deviceId : String) (now : Int) : Prop :=
  assertWriteAllowed db (.ok deviceId) now = .ok ()

/-- The token is good at the time, and bound to the device. -/
def LicenseStateRow.Vouched [LicenseTokens] (state : LicenseStateRow) (deviceId : String)
    (now : Int) : Prop :=
  ∃ claims, LicenseTokens.verifyLicenseJwt state.licenseJwt now = some claims ∧
    claims.deviceId = deviceId

/-- A status for which the screen and the token agree: an active or grace licence needs a good
token, a lapsed one must have none. -/
def LicenseStateRow.Enforced [LicenseTokens] (state : LicenseStateRow) (deviceId : String)
    (now : Int) : Prop :=
  match state.subscriptionStatusCached with
  | .anonymousEval | .trial | .locked => True
  | .active | .grace => state.Vouched deviceId now
  | .pastDue | .canceled | .expired => ¬ state.Vouched deviceId now

theorem trial_screen_iff (db : LicenseDb) (now : Int) :
    (∃ response, trialStatusResponse db now = .ok response ∧ response.isActive = true) ↔
      assertWithinTrialWindow db now = .ok () := by
  unfold trialStatusResponse assertWithinTrialWindow
  cases hdays : trialDaysRemaining db now with
  | error e => simp [bind, Except.bind]
  | ok remaining =>
    have hprofile : ∃ createdAt, db.profile = some createdAt := by
      unfold trialDaysRemaining at hdays
      split at hdays
      · simp at hdays
      · simp at hdays
      · next createdAt hprofile => exact ⟨_, hprofile⟩
    obtain ⟨createdAt, hprofile⟩ := hprofile
    by_cases hlate : remaining < 0
    · simp [bind, Except.bind, hprofile, hlate, pure, Except.pure, throw, throwThe,
        MonadExceptOf.throw]
    · simp [bind, Except.bind, hprofile, hlate, pure, Except.pure]
      omega

section

variable [LicenseTokens] {db : LicenseDb} {state : LicenseStateRow}

theorem gateOpen_trial (deviceId : String) (now : Int)
    (h : db.getLicenseState = none ∨
      ∃ state, db.getLicenseState = some state ∧ state.subscriptionStatusCached = .trial) :
    GateOpen db deviceId now ↔ assertWithinTrialWindow db now = .ok () := by
  unfold GateOpen assertWriteAllowed
  obtain h | ⟨state, h, hstatus⟩ := h
  · rw [h]
  · simp [h, hstatus]

omit [LicenseTokens] in
theorem screenActive_trial (now : Int)
    (h : db.getLicenseState = none ∨
      ∃ state, db.getLicenseState = some state ∧ state.subscriptionStatusCached = .trial) :
    ScreenActive db now ↔ assertWithinTrialWindow db now = .ok () := by
  rw [← trial_screen_iff]
  unfold ScreenActive computeLicenseStatus
  obtain h | ⟨state, h, hstatus⟩ := h
  · rw [h]
  · simp [h, hstatus]

/-- Beyond the trial the gate goes by the token, unless it is shut. -/
theorem gateOpen_iff (deviceId : String) (now : Int) (h : db.getLicenseState = some state)
    (htrial : state.subscriptionStatusCached ≠ .trial) :
    GateOpen db deviceId now ↔
      (state.subscriptionStatusCached ≠ .locked ∧
        state.subscriptionStatusCached ≠ .anonymousEval) ∧ state.Vouched deviceId now := by
  unfold GateOpen assertWriteAllowed LicenseStateRow.Vouched
  rw [h]
  dsimp only
  by_cases hlocked : state.subscriptionStatusCached = .locked
  · simp [hlocked, throw, throwThe, MonadExceptOf.throw]
  by_cases hanonymous : state.subscriptionStatusCached = .anonymousEval
  · simp [hanonymous, throw, throwThe, MonadExceptOf.throw]
  rw [if_neg hlocked, if_neg hanonymous, if_neg htrial]
  cases hverify : LicenseTokens.verifyLicenseJwt state.licenseJwt now with
  | none => simp [throw, throwThe, MonadExceptOf.throw]
  | some claims =>
    by_cases hdevice : claims.deviceId = deviceId
    · simp [hlocked, hanonymous, hdevice, pure, Except.pure]
    · simp [hdevice, throw, throwThe, MonadExceptOf.throw]

omit [LicenseTokens] in
theorem screenActive_iff (now : Int) (h : db.getLicenseState = some state)
    (htrial : state.subscriptionStatusCached ≠ .trial) :
    ScreenActive db now ↔ state.subscriptionStatusCached = .active ∨
      state.subscriptionStatusCached = .grace := by
  unfold ScreenActive computeLicenseStatus
  rw [h]
  dsimp only
  rw [if_neg htrial]
  simp

/-- **The screen and the gate**: they agree just if the cached status is borne out by the
token. -/
theorem license_screen_agrees_iff (db : LicenseDb) (deviceId : String) (now : Int) :
    (ScreenActive db now ↔ GateOpen db deviceId now) ↔
      ∀ state ∈ db.getLicenseState, state.Enforced deviceId now := by
  cases h : db.getLicenseState with
  | none =>
    have hnone := Or.inl (b := ∃ state, db.getLicenseState = some state ∧
      state.subscriptionStatusCached = .trial) h
    rw [screenActive_trial now hnone, gateOpen_trial deviceId now hnone]
    simp
  | some state =>
    simp only [Option.mem_some_iff, forall_eq']
    by_cases htrial : state.subscriptionStatusCached = .trial
    · have hsome : db.getLicenseState = none ∨ ∃ state, db.getLicenseState = some state ∧
          state.subscriptionStatusCached = .trial := .inr ⟨state, h, htrial⟩
      rw [screenActive_trial now hsome, gateOpen_trial deviceId now hsome]
      simp [LicenseStateRow.Enforced, htrial]
    · rw [screenActive_iff now h htrial, gateOpen_iff deviceId now h htrial]
      unfold LicenseStateRow.Enforced
      cases hstatus : state.subscriptionStatusCached <;> simp_all

end

/-- A token that is good whenever it is asked for. -/
@[reducible] def goodToken : LicenseTokens where
  verifyLicenseJwt _ _ := some
    { sub := "user@example.com", deviceId := "device-A", plan := "desktop_pro_monthly",
      billingInterval := "monthly", exp := 172800 }

/-- A cancelled licence, its token still good. -/
def canceledLicense : LicenseDb where
  profile := some (some 0)
  licenseState := some
    { licenseJwt := "jwt", subscriptionStatusCached := "canceled",
      planIdCached := some "desktop_pro_monthly", billingIntervalCached := some "monthly",
      currentPeriodEndCached := none, jwtExpiresAt := 172800000000000,
      lastServerValidatedAt := none, lastKnownValidTime := 0,
      deviceFingerprint := some "device-A", source := "server_fresh", checked := by decide }

theorem canceled_license_writes :
    letI := goodToken
    GateOpen canceledLicense "device-A" 1 ∧ ¬ ScreenActive canceledLicense 1 := by
  let := goodToken
  constructor
  · show assertWriteAllowed canceledLicense (.ok "device-A") 1 = .ok ()
    rfl
  · rintro ⟨response, hresponse, hactive⟩
    have hscreen : (computeLicenseStatus canceledLicense 1).map (·.isActive) = .ok false := rfl
    rw [hresponse] at hscreen
    simp [Except.map, hactive] at hscreen

end Dinero
