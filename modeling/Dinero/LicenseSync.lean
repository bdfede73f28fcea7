import Dinero.License
import Dinero.Activation

/-!
# Dinero.LicenseSync

How the desktop takes over the answer of `validateLicense`: the poll of the
background worker and the refresh on request.

The answer carries two fields that tell how things stand, `status` and `state`.
The client reads `status`, which is `validated` whatever the subscription is.
-/

namespace Dinero

open Licensing (LicenseJwt Response ServerLicenseState ApiError Request Secrets)

/-! ## the answer on its way -/

/-- `ValidateResult` as it is sent; the two times, which the client does not read, are left out. -/
def validateResult (print : LicenseJwt → String) : Response → Option (List (String × String))
  | .validated state jwt plan billingInterval _ _ =>
    some [("status", "validated"), ("state", state.text), ("jwt", print jwt), ("plan", plan),
      ("billing_interval", billingInterval)]
  | _ => none

structure LicenseResponse where
  jwt : String
  status : String
deriving DecidableEq, Repr

def LicenseResponse.read (json : List (String × String)) : Option LicenseResponse := do
  let jwt ← json.lookup "jwt"
  let status ← json.lookup "status"
  return { jwt, status }

/-- `LicensingClient::validate`: none is any failure. -/
def clientValidate (print : LicenseJwt → String) (answer : Except ApiError Response) :
    Option LicenseResponse :=
  match answer with
  | .ok response => (validateResult print response).bind LicenseResponse.read
  | .error _ => none

@[simp] theorem clientValidate_validated (print : LicenseJwt → String) (state : ServerLicenseState)
    (jwt : LicenseJwt) (plan billingInterval : String) (expiresAt serverTime : Int) :
    clientValidate print (.ok (.validated state jwt plan billingInterval expiresAt serverTime)) =
      some { jwt := print jwt, status := "validated" } := rfl

/-! ## the row written -/

namespace LicenseDb

def modify (db : LicenseDb) (f : LicenseState → LicenseState) : LicenseDb :=
  { db with licenseState := db.licenseState.map f }

def cachedStatus (db : LicenseDb) : Option LicenseStatus :=
  db.getLicenseState.map (·.subscriptionStatusCached)

end LicenseDb

/-- `CURRENT_TIMESTAMP`, which has no fractions of a second. -/
def currentTimestamp (now : Int) : Int := now - now % 1000000000

/-- `UPDATE license_state` with an answer; a status that the `CHECK` refuses leaves the row as it
is. -/
def LicenseState.validated (row : LicenseState) (response : LicenseResponse) (now : Int) :
    LicenseState :=
  if h : response.status ∈ LicenseStatus.checked then
    { row with
      licenseJwt := response.jwt
      subscriptionStatusCached := response.status
      lastServerValidatedAt := some (currentTimestamp now)
      checked := h }
  else row

/-! ## transitions -/

def isLegalTransition : LicenseStatus → LicenseStatus → Bool
  | .anonymousEval, .trial => true
  | .trial, .active => true
  | .active, .grace => true
  | .grace, .active => true
  | .grace, .locked => true
  | .active, .locked => true
  | .trial, .locked => true
  | .anonymousEval, .locked => true
  | _, _ => false

/-- None is an illegal transition. -/
def transition (db : LicenseDb) (target : LicenseStatus) : Option LicenseDb :=
  let source := db.cachedStatus.getD .anonymousEval
  if source = target then some db
  else if isLegalTransition source target then
    some (db.modify fun row =>
      { row with subscriptionStatusCached := target.asStr, checked := target.asStr_mem_checked })
  else none

def transitionToLocked (db : LicenseDb) : Option LicenseDb := transition db .locked

/-! ## the background worker -/

def nanosPerHour : Int := 60 * 60 * 1000000000

def gracePeriod : Int := 7 * nanosPerDay

def clockCorrectionGrace : Int := nanosPerHour

def isGracePeriodExpired (lastValidated : Option Int) (now : Int) : Bool :=
  match lastValidated with
  | some lastValidated => decide (gracePeriod < now - lastValidated)
  | none => true

inductive PollOutcome where
  | noState
  | clockSkewLocked
  | active (state : LicenseStateRow)
deriving DecidableEq, Repr

/-- What the worker does before it asks the server; none is an error. -/
def checkClock (db : LicenseDb) (now : Int) : Option (PollOutcome × LicenseDb) :=
  match db.getLicenseState with
  | none => some (.noState, db)
  | some state =>
    if now < state.lastKnownValidTime - clockCorrectionGrace then
      (transitionToLocked db).map (PollOutcome.clockSkewLocked, ·)
    else some (.active state, db.modify fun row => { row with lastKnownValidTime := now })

/-- The server has answered, or could not be asked; what fails here has no effect. -/
def takeAnswer [LicenseTokens] (db : LicenseDb) (state : LicenseStateRow) (now : Int) :
    Option LicenseResponse → LicenseDb
  | some response =>
    match LicenseTokens.verifyLicenseJwt response.jwt now with
    | some _ => db.modify (·.validated response now)
    | none => (transitionToLocked db).getD db
  | none =>
    if state.subscriptionStatusCached = .active then (transition db .grace).getD db
    else if state.subscriptionStatusCached = .grace ∧
        isGracePeriodExpired state.lastServerValidatedAt now then
      (transitionToLocked db).getD db
    else db

/-- One round of `start_background_validation`. -/
def backgroundValidation [LicenseTokens] (db : LicenseDb) (getDeviceId : Except String String)
    (validate : String → Option LicenseResponse) (now : Int) : LicenseDb :=
  match checkClock db now with
  | some (.active state, db') =>
    if state.subscriptionStatusCached = .anonymousEval then db'
    else
      match getDeviceId with
      | .error _ => db'
      | .ok deviceId => takeAnswer db' state now (validate deviceId)
  | some (_, db') => db'
  | none => db

/-! ## the refresh command -/

/-- The variants of `AppError` a refresh ends in, less what the token library and the network
client report. -/
inductive RefreshError where
  | auth (text : String)
  | network
deriving DecidableEq, Repr

structure LicenseRefreshResponse where
  status : String
  state : String
deriving DecidableEq, Repr

/-- `DateTime::from_timestamp`, in nanoseconds: the years from -262143 to 262142. -/
def fromTimestamp (seconds : Int) : Option Int :=
  if -8334601228800 ≤ seconds ∧ seconds ≤ 8210266876799 then some (seconds * 1000000000) else none

/-- `UPDATE license_state` by a refresh. -/
def LicenseState.refreshed (row : LicenseState) (jwt : String) (status : LicenseStatus)
    (expiresAt now : Int) : LicenseState :=
  { row with
    licenseJwt := jwt
    subscriptionStatusCached := status.asStr
    currentPeriodEndCached := some expiresAt
    jwtExpiresAt := expiresAt
    lastServerValidatedAt := some (currentTimestamp now)
    checked := status.asStr_mem_checked }

def licenseRefresh [LicenseTokens] (db : LicenseDb) (getDeviceId : Except String String)
    (validate : String → Option LicenseResponse) (now : Int) :
    Except RefreshError LicenseRefreshResponse × LicenseDb :=
  match getDeviceId with
  | .error e => (.error (.auth e), db)
  | .ok deviceId =>
    match validate deviceId with
    | none => (.error .network, db)
    | some response =>
      match LicenseTokens.verifyLicenseJwt response.jwt now with
      | none => (.error (.auth "Refresh JWT failed verification"), db)
      | some claims =>
        if claims.deviceId ≠ deviceId then
          (.error (.auth "Refreshed JWT device_id does not match this device"), db)
        else
          match fromTimestamp claims.exp with
          | none => (.error (.auth "Invalid JWT expiry claim"), db)
          | some expiresAt =>
            let status := (LicenseStatus.parseStatus response.status).getD .active
            (.ok { status := "refreshed", state := status.asStr.toUpper },
              db.modify (·.refreshed response.jwt status expiresAt now))

/-! ## what is cached afterwards -/

/-- The cached status that a state of the server stands for. -/
def denoted : ServerLicenseState → LicenseStatus
  | .trial => .trial
  | .active => .active
  | .pastDue => .pastDue
  | .locked => .locked

namespace LicenseDb

/-- The worker asks the server. -/
def Polls (db : LicenseDb) (now : Int) : Prop :=
  ∃ state ∈ db.getLicenseState, state.subscriptionStatusCached ≠ .anonymousEval ∧
    ¬ now < state.lastKnownValidTime - clockCorrectionGrace

theorem cachedStatus_modify {db : LicenseDb} {f : LicenseState → LicenseState}
    (h : ∀ row, (f row).subscriptionStatusCached = row.subscriptionStatusCached) :
    (db.modify f).cachedStatus = db.cachedStatus := by
  unfold cachedStatus getLicenseState modify
  cases db.licenseState with
  | none => rfl
  | some row => simp [LicenseState.read, h row]

end LicenseDb

section

variable [LicenseTokens] {db : LicenseDb} {deviceId : String} {now : Int}
  {validate : String → Option LicenseResponse} {jwt : String} {claims : LicenseClaims}

omit [LicenseTokens] in
/-- An answer with the status `validated` is refused by the `CHECK`. -/
theorem LicenseState.validated_of_validated (row : LicenseState) (jwt : String) (now : Int) :
    row.validated { jwt, status := "validated" } now = row := by
  have hrefused : ¬ "validated" ∈ LicenseStatus.checked := by decide
  exact dif_neg hrefused

/-- **The worker** leaves the status that was cached before. -/
theorem cachedStatus_backgroundValidation (hpolls : db.Polls now)
    (hanswer : validate deviceId = some { jwt, status := "validated" })
    (hverify : LicenseTokens.verifyLicenseJwt jwt now = some claims) :
    (backgroundValidation db (.ok deviceId) validate now).cachedStatus = db.cachedStatus := by
  obtain ⟨state, hstate, hstatus, hclock⟩ := hpolls
  have hcheck : checkClock db now =
      some (.active state, db.modify fun row => { row with lastKnownValidTime := now }) := by
    unfold checkClock
    rw [Option.mem_def.mp hstate]
    exact if_neg hclock
  unfold backgroundValidation
  rw [hcheck]
  dsimp only
  rw [if_neg hstatus, hanswer]
  unfold takeAnswer
  simp only [hverify]
  rw [LicenseDb.cachedStatus_modify, LicenseDb.cachedStatus_modify]
  · exact fun _ => rfl
  · intro row
    rw [row.validated_of_validated]

/-- A refresh with a token of this device takes the status `validated` for an active licence. -/
theorem licenseRefresh_answered
    (hanswer : validate deviceId = some { jwt, status := "validated" })
    (hverify : LicenseTokens.verifyLicenseJwt jwt now = some claims)
    (hdevice : claims.deviceId = deviceId) :
    licenseRefresh db (.ok deviceId) validate now =
      if h : (fromTimestamp claims.exp).isSome then
        (.ok { status := "refreshed", state := LicenseStatus.active.asStr.toUpper },
          db.modify (·.refreshed jwt .active ((fromTimestamp claims.exp).get h) now))
      else (.error (.auth "Invalid JWT expiry claim"), db) := by
  unfold licenseRefresh
  dsimp only
  rw [hanswer]
  dsimp only
  rw [hverify]
  dsimp only
  rw [if_neg (not_not.mpr hdevice)]
  cases fromTimestamp claims.exp <;> rfl

omit [LicenseTokens] in
theorem LicenseDb.cachedStatus_refreshed (status : LicenseStatus) (expiresAt : Int) :
    (db.modify (·.refreshed jwt status expiresAt now)).cachedStatus =
      db.licenseState.map fun _ => status := by
  unfold LicenseDb.cachedStatus LicenseDb.getLicenseState LicenseDb.modify
  cases db.licenseState with
  | none => rfl
  | some row => simp [LicenseState.read, LicenseState.refreshed]

/-- **The refresh** leaves the licence active, if there is one. -/
theorem refresh_takesOver_iff (hanswer : validate deviceId = some { jwt, status := "validated" })
    (hverify : LicenseTokens.verifyLicenseJwt jwt now = some claims)
    (hdevice : claims.deviceId = deviceId) (status : LicenseStatus) :
    (∀ response db', licenseRefresh db (.ok deviceId) validate now = (.ok response, db') →
        db'.cachedStatus = some status) ↔
      ((fromTimestamp claims.exp).isSome → db.licenseState.isSome ∧ status = .active) := by
  rw [licenseRefresh_answered hanswer hverify hdevice]
  by_cases hexp : (fromTimestamp claims.exp).isSome
  · rw [dif_pos hexp]
    have hleft : ∀ expiresAt,
        (db.modify (·.refreshed jwt .active expiresAt now)).cachedStatus = some status ↔
          db.licenseState.isSome ∧ status = .active := by
      intro expiresAt
      rw [LicenseDb.cachedStatus_refreshed]
      cases db.licenseState <;> simp [eq_comm]
    simp [hleft, hexp]
  · rw [dif_neg hexp]
    simp [hexp]

end

/-! ## agreement with the server -/

/-- What the poll and the refresh leave is what the server said, where they get an answer. -/
def LicenseDb.TakesOver [LicenseTokens] (db : LicenseDb) (deviceId : String)
    (validate : String → Option LicenseResponse) (now : Int) (status : LicenseStatus) : Prop :=
  (db.Polls now →
    (backgroundValidation db (.ok deviceId) validate now).cachedStatus = some status) ∧
  ∀ response db', licenseRefresh db (.ok deviceId) validate now = (.ok response, db') →
    db'.cachedStatus = some status

/-- **Agreement on entitlement**: the worker takes over what was cached already, the refresh an
active licence. -/
theorem entitlement_agrees_iff [Secrets] [LicenseTokens] {d : Licensing.InvalidDate}
    {s : Licensing.Store} {deviceId : String} {account : Licensing.Account}
    {sub : Licensing.Subscription} (hbound : s.entitlement? deviceId = some (account, sub))
    (print : LicenseJwt → String) (db : LicenseDb) {now : Int} {claims : LicenseClaims}
    (hverify : LicenseTokens.verifyLicenseJwt (print (sub.jwt account deviceId s.clock)) now =
      some claims)
    (hdevice : claims.deviceId = deviceId) :
    db.TakesOver deviceId
        (fun device => clientValidate print ((Request.validate device).answer d s).1) now
        (denoted (Licensing.computeState sub.status)) ↔
      (db.Polls now → db.cachedStatus = some (denoted (Licensing.computeState sub.status))) ∧
        ((fromTimestamp claims.exp).isSome → db.licenseState.isSome ∧ sub.status = "active") := by
  obtain ⟨_, hrun⟩ := Licensing.run_validateLicense (d := d) hbound
  have hanswer : clientValidate print ((Request.validate deviceId).answer d s).1 =
      some { jwt := print (sub.jwt account deviceId s.clock), status := "validated" } := by
    show clientValidate print ((Licensing.validateLicense deviceId).run _ s).1 = _
    rw [hrun]
    rfl
  have hactive : denoted (Licensing.computeState sub.status) = .active ↔ sub.status = "active" := by
    rw [← Licensing.computeState_eq_active]
    cases Licensing.computeState sub.status <;> simp [denoted]
  unfold LicenseDb.TakesOver
  rw [refresh_takesOver_iff hanswer hverify hdevice, hactive]
  have hpoll : db.Polls now → (backgroundValidation db (.ok deviceId)
      (fun device => clientValidate print ((Request.validate device).answer d s).1)
      now).cachedStatus = db.cachedStatus :=
    fun hpolls => cachedStatus_backgroundValidation hpolls hanswer hverify
  constructor
  · exact fun h => ⟨fun hpolls => (hpoll hpolls).symm.trans (h.1 hpolls), h.2⟩
  · exact fun h => ⟨fun hpolls => (hpoll hpolls).trans (h.1 hpolls), h.2⟩

/-! ### one device -/

/-- The token of one device. -/
@[reducible] def laptopTokens : LicenseTokens where
  verifyLicenseJwt jwt now :=
    if jwt = "asha@example.com|laptop" ∧ now ≤ 172800000000000 then
      some
        { sub := "asha@example.com", deviceId := "laptop", plan := "desktop_pro_monthly",
          billingInterval := "monthly", exp := 172800 }
    else none

def printJwt (jwt : LicenseJwt) : String := jwt.sub ++ "|" ++ jwt.deviceId

/-- An active licence that was validated at the start. -/
def activeLicense : LicenseDb where
  profile := some (some 0)
  licenseState := some
    { licenseJwt := "asha@example.com|laptop", subscriptionStatusCached := "active",
      planIdCached := some "desktop_pro_monthly", billingIntervalCached := some "monthly",
      currentPeriodEndCached := none, jwtExpiresAt := 172800000000000,
      lastServerValidatedAt := some 0, lastKnownValidTime := 0,
      deviceFingerprint := some "laptop", source := "server_fresh", checked := by decide }

def activatedStore : Licensing.Store :=
  letI := Licensing.Secrets.plain
  ((Request.activate Licensing.firstActivation).answer .unbounded
    (.empty 0 Licensing.twoPayments)).2

theorem entitlement_agrees_active :
    letI := Licensing.Secrets.plain
    letI := laptopTokens
    activeLicense.TakesOver "laptop"
      (fun device => clientValidate printJwt
        ((Request.validate device).answer .unbounded activatedStore).1) 1 .active := by
  let := Licensing.Secrets.plain
  let := laptopTokens
  have hbound : activatedStore.entitlement? "laptop" = some (⟨0, "asha@example.com", false⟩,
      ⟨1, 0, "desktop_pro_monthly", "active", "monthly", some 0, none, false⟩) := by
    decide +kernel
  have hcached : activeLicense.cachedStatus = some .active := rfl
  exact (entitlement_agrees_iff (d := .unbounded) hbound printJwt activeLicense rfl rfl).mpr
    ⟨fun _ => hcached, fun _ => ⟨rfl, rfl⟩⟩

/-- The server says that the licence is locked: the worker leaves an active licence active, and the
refresh makes a cancelled one active. -/
theorem locked_answer_stays_active :
    letI := Licensing.Secrets.plain
    letI := laptopTokens
    ((Request.validate "laptop").answer .unbounded Licensing.canceledStore).1 =
        .ok (.validated .locked
          ⟨"asha@example.com", "laptop", "desktop_pro_monthly", "monthly", 0, 172800⟩
          "desktop_pro_monthly" "monthly" 172800000 0) ∧
      (backgroundValidation activeLicense (.ok "laptop")
        (fun device => clientValidate printJwt
          ((Request.validate device).answer .unbounded Licensing.canceledStore).1)
        1).cachedStatus = some .active ∧
      (licenseRefresh canceledLicense (.ok "laptop")
        (fun device => clientValidate printJwt
          ((Request.validate device).answer .unbounded Licensing.canceledStore).1)
        1).2.cachedStatus = some .active := by
  let := Licensing.Secrets.plain
  let := laptopTokens
  decide +kernel

end Dinero
