import Dinero.Backend

/-!
# Dinero.Endpoints

The endpoints of the licensing backend, call by call: activation and trials,
validation and refresh, deactivation and the support actions, cancellation and
refunds, the webhook and the reconciliation of the billing.

`backend` is the service that answers any number of these requests at once.
-/

namespace Dinero.Licensing

abbrev Endpoint (α : Type) := Routine Call.Reply ApiError α

abbrev perform (c : Call) : Endpoint c.Reply := Routine.perform c

/-- The HMAC of the provider: whether the signature is that of the text. -/
class Secrets where
  hmacMatches : String → String → Bool

/-- `if (p) throw e`. -/
def refuseWhen (p : Prop) [Decidable p] (e : ApiError) : Endpoint Unit :=
  if p then throw e else pure ()

/-! ## tokens -/

/-- A signed token; nobody else can make one. -/
structure LicenseJwt where
  sub : String
  deviceId : String
  plan : String
  billingInterval : String
  /-- In seconds. -/
  iat : Int
  exp : Int
deriving DecidableEq, Repr

def defaultExpirySeconds : Int := 48 * 60 * 60

def tokenLifetimeMs : Int := 48 * 60 * 60 * 1000

def signLicenseJwt (sub deviceId plan billingInterval : String) : Endpoint LicenseJwt := do
  let now : Int ← perform .now
  let iat := now / 1000
  return { sub, deviceId, plan, billingInterval, iat, exp := iat + defaultExpirySeconds }

/-- A part of a fingerprint that may be shown. -/
def maskDeviceFingerprint (fingerprint : String) : String :=
  if fingerprint.length ≤ 8 then "****"
  else String.ofList (fingerprint.toList.take 4) ++ "..." ++
    String.ofList (fingerprint.toList.drop (fingerprint.length - 4))

/-! ## the audit log -/

def logAuditEvent (data : AuditData) : Endpoint Unit := perform (.auditCreate data)

def maxDateMs : Int := 8640000000000000

/-- `new Date(ms)`, which is no date beyond a range of its own. -/
def date (ms : Int) : Option Int := if ms.natAbs ≤ maxDateMs then some ms else none

/-- A window that ends before the first date: `date (now - maxSafeInteger)` is none. -/
def maxSafeInteger : Int := 9007199254740991

def countRecentEvents (eventType : String) (windowMs : Int)
    (matchPayload : AuditPayload → Bool) : Endpoint Nat := do
  let now : Int ← perform .now
  let rows : List LicensingAuditLog ← perform (.auditFindMany eventType (date (now - windowMs)))
  return (rows.filter fun r => matchPayload r.payload).length

/-! ## answers -/

inductive ServerLicenseState where
  | trial
  | active
  | pastDue
  | locked
deriving DecidableEq, Repr

/-- What the endpoints answer with. -/
inductive Response where
  | activated (jwt : LicenseJwt) (plan billingInterval : String) (expiresAt : Int)
  | trialStarted (jwt : LicenseJwt) (trialEndsAt : Int)
  | existingSubscriptionRecognized (jwt : LicenseJwt) (plan billingInterval : String)
  | validated (state : ServerLicenseState) (jwt : LicenseJwt) (plan billingInterval : String)
      (expiresAt serverTime : Int)
  | refreshed (jwt : LicenseJwt) (expiresAt : Int)
  | reissued (jwt : LicenseJwt) (expiresAt : Int)
  | deactivated
  | bindingReset
  | cancelled (cancelAtPeriodEnd : Bool)
  | reactivated
  | refunded
  | processed
  | duplicateIgnored
  | reconciled (checked drifted corrected : Nat)
deriving DecidableEq, Repr

/-! ## activation -/

structure ActivateInput where
  email : String
  razorpayPaymentId : String
  razorpaySignature : String
  deviceId : String
  billingInterval : String
deriving DecidableEq, Repr

structure PlanInfo where
  planId : String
  billingInterval : String
deriving DecidableEq, Repr

def planByBillingInterval : String → Option PlanInfo
  | "monthly" => some ⟨"desktop_pro_monthly", "monthly"⟩
  | "annual" => some ⟨"desktop_pro_annual", "annual"⟩
  | _ => none

def rateLimitWindowMs : Int := 60 * 60 * 1000

def rateLimitMaxAttempts : Nat := 5

def verifyPaymentSignature [Secrets] (orderId paymentId signature : String) : Bool :=
  Secrets.hmacMatches (orderId ++ "|" ++ paymentId) signature

def findOrCreateAccount (email : String) : Endpoint Account := do
  let account : Option Account ← perform (.accountFindUnique email)
  match account with
  | some account => return account
  | none => perform (.accountCreate email)

/-- The device a license is bound to, if it is another one. -/
def otherDevice (currentBinding : Option LicenseToken) (deviceId : String) : Option String :=
  (currentBinding.bind (·.deviceFingerprint)).filter fun fingerprint =>
    fingerprint ≠ "" ∧ fingerprint ≠ deviceId

def refuseOtherDevice (currentBinding : Option LicenseToken) (deviceId : String) :
    Endpoint Unit :=
  match otherDevice currentBinding deviceId with
  | some fingerprint => throw (.licensing .deviceAlreadyBound
      ("License already bound to another device (" ++ maskDeviceFingerprint fingerprint ++ ")"))
  | none => pure ()

/-- A subscription, unless the account has one. -/
def ensureSubscription (account : Account) (planInfo : PlanInfo) (now : Int) :
    Endpoint Unit := do
  let existingSubscription : Option Subscription ← perform (.subscriptionFindFirst account.id)
  match existingSubscription with
  | some _ => return ()
  | none => perform (.subscriptionCreate
      { accountId := account.id
        planId := planInfo.planId
        status := "active"
        billingInterval := planInfo.billingInterval
        currentPeriodStart := some now })

/-- From the payment that has been verified to the account: its device, its subscription, its
token. -/
def bindAndIssue (input : ActivateInput) (planInfo : PlanInfo) (account : Account) :
    Endpoint Response := do
  let currentBinding : Option LicenseToken ← perform (.tokenFindFirst account.id)
  refuseOtherDevice currentBinding input.deviceId
  let now : Int ← perform .now
  let expiresAt := now + tokenLifetimeMs
  ensureSubscription account planInfo now
  perform (.tokenUpsert input.deviceId account.id now expiresAt)
  let jwt ← signLicenseJwt input.email input.deviceId planInfo.planId planInfo.billingInterval
  logAuditEvent
    { accountId := some account.id
      eventType := "license_activated"
      deviceFingerprint := some input.deviceId }
  return .activated jwt planInfo.planId planInfo.billingInterval expiresAt

def activateLicense [Secrets] (input : ActivateInput) : Endpoint Response := do
  logAuditEvent
    { eventType := "activation_attempt"
      payload := [("email", input.email), ("device_id", input.deviceId)] }
  let recentAttempts ← countRecentEvents "activation_attempt" rateLimitWindowMs
    fun payload => payload.lookup "email" == some input.email
  refuseWhen (recentAttempts > rateLimitMaxAttempts)
    (.licensing .rateLimited "Too many activation attempts for this account")
  let payment : RazorpayPaymentDetails ← perform (.paymentsFetch input.razorpayPaymentId)
  refuseWhen
    (verifyPaymentSignature payment.orderId input.razorpayPaymentId input.razorpaySignature = false)
    (.licensing .paymentVerificationFailed "Razorpay payment signature could not be verified")
  match planByBillingInterval input.billingInterval with
  | none => throw (.licensing .validationError "Unknown billing_interval")
  | some planInfo =>
    let account ← findOrCreateAccount input.email
    bindAndIssue input planInfo account

/-! ## trials -/

inductive TrialGuardDecision where
  | allowNewTrial
  | blockedEmailReused
  | blockedDeviceReused
  | recognizedReturningDevice (existingSubscriptionStatus : String)
deriving DecidableEq, Repr

structure TrialGuardInput where
  accountTrialUsed : Bool
  deviceBoundSubscriptionStatus : Option String
  deviceHasPriorTrialStartedEvent : Bool
deriving DecidableEq, Repr

/-- The device is bound to a subscription that is no trial. -/
def recognizes (deviceBoundSubscriptionStatus : Option String) : Option String :=
  deviceBoundSubscriptionStatus.filter fun status => status ≠ "" ∧ status ≠ "trialing"

def decideTrialEligibility (input : TrialGuardInput) : TrialGuardDecision :=
  match recognizes input.deviceBoundSubscriptionStatus with
  | some status => .recognizedReturningDevice status
  | none =>
    if input.deviceHasPriorTrialStartedEvent then .blockedDeviceReused
    else if input.accountTrialUsed then .blockedEmailReused
    else .allowNewTrial

def TrialGuardDecision.outcome : TrialGuardDecision → String
  | allowNewTrial => "allow_new_trial"
  | blockedEmailReused => "blocked_email_reused"
  | blockedDeviceReused => "blocked_device_reused"
  | recognizedReturningDevice _ => "recognized_returning_device"

def logTrialGuardDecision (deviceId : String) (decision : TrialGuardDecision) : Endpoint Unit :=
  match decision with
  | .allowNewTrial => pure ()
  | .recognizedReturningDevice _ => logAuditEvent
      { eventType := "trial_guard_recognized_returning_device"
        deviceFingerprint := some deviceId
        payload := [("outcome", decision.outcome)] }
  | .blockedEmailReused | .blockedDeviceReused => logAuditEvent
      { eventType := "trial_guard_blocked"
        deviceFingerprint := some deviceId
        payload := [("outcome", decision.outcome)] }

def deviceHasPriorTrialStartedEvent (deviceId : String) : Endpoint Bool := do
  let count ← countRecentEvents "trial_started" maxSafeInteger
    fun payload => payload.lookup "device_id" == some deviceId
  return decide (count > 0)

def trialDays : Int := 14

def trialPlanId : String := "desktop_pro_monthly"

structure StartTrialInput where
  email : String
  deviceId : String
deriving DecidableEq, Repr

/-- A trial that is allowed, from the account on. -/
def createTrial (input : StartTrialInput) (account : Account) : Endpoint Response := do
  let now : Int ← perform .now
  let trialEndsAt := now + trialDays * 24 * 60 * 60 * 1000
  perform (.subscriptionCreate
    { accountId := account.id
      planId := trialPlanId
      status := "trialing"
      billingInterval := "monthly"
      currentPeriodStart := some now
      currentPeriodEnd := some trialEndsAt })
  perform (.tokenCreate input.deviceId account.id now (now + tokenLifetimeMs))
  perform (.accountUseTrial account.id)
  logAuditEvent
    { accountId := some account.id
      eventType := "trial_started"
      deviceFingerprint := some input.deviceId
      payload := [("device_id", input.deviceId)] }
  let jwt ← signLicenseJwt input.email input.deviceId trialPlanId "monthly"
  return .trialStarted jwt trialEndsAt

/-- The status of the newest subscription of the account a device is bound to. -/
def boundSubscriptionStatus (existingBinding : Option LicenseToken) :
    Endpoint (Option String) := do
  match existingBinding with
  | none => return none
  | some binding =>
    let boundSub : Option Subscription ← perform (.subscriptionFindFirst binding.accountId)
    return boundSub.map (·.status)

/-- A token for the subscription the device is bound to. -/
def recognizeDevice (input : StartTrialInput) (existingBinding : Option LicenseToken) :
    Endpoint Response := do
  match existingBinding with
  | none => throw (.unexpected "Cannot read properties of null")
  | some binding =>
    let boundSub : Option Subscription ← perform (.subscriptionFindFirst binding.accountId)
    match boundSub with
    | none => throw (.unexpected "Cannot read properties of null")
    | some sub =>
      let jwt ← signLicenseJwt input.email input.deviceId sub.planId sub.billingInterval
      return .existingSubscriptionRecognized jwt sub.planId sub.billingInterval

def startTrial (input : StartTrialInput) : Endpoint Response := do
  let existingBinding : Option LicenseToken ← perform (.tokenFindByDevice input.deviceId)
  let deviceBoundSubscriptionStatus ← boundSubscriptionStatus existingBinding
  let account : Option Account ← perform (.accountFindUnique input.email)
  let priorTrial ← deviceHasPriorTrialStartedEvent input.deviceId
  let decision := decideTrialEligibility
    { accountTrialUsed := (account.map (·.trialUsed)).getD false
      deviceBoundSubscriptionStatus
      deviceHasPriorTrialStartedEvent := priorTrial }
  logTrialGuardDecision input.deviceId decision
  match decision with
  | .recognizedReturningDevice _ => recognizeDevice input existingBinding
  | .blockedDeviceReused =>
    throw (.licensing .validationError "A trial has already been started on this device")
  | .blockedEmailReused =>
    throw (.licensing .validationError "This account has already used its trial")
  | .allowNewTrial =>
    match account with
    | some account => createTrial input account
    | none =>
      let account : Account ← perform (.accountCreate input.email)
      createTrial input account

/-! ## validation and refresh -/

def computeState : String → ServerLicenseState
  | "trialing" => .trial
  | "active" => .active
  | "past_due" => .pastDue
  | _ => .locked

/-- The token of the device, and the newest subscription of its account. -/
def getTokenAndSubscription (deviceId : String) :
    Endpoint (LicenseToken × Option Subscription) := do
  let token : Option LicenseToken ← perform (.tokenFindByDevice deviceId)
  match token with
  | none => throw (.licensing .licenseInvalid "No license bound to this device")
  | some token =>
    let subscription : Option Subscription ← perform (.subscriptionFindFirst token.accountId)
    return (token, subscription)

/-- The token of the device with its account. -/
def getTokenWithAccount (deviceId : String) : Endpoint (LicenseToken × Account) := do
  let token : Option (LicenseToken × Account) ← perform (.tokenFindWithAccount deviceId)
  match token with
  | none => throw (.licensing .licenseInvalid "No license bound to this device")
  | some token => return token

def ServerLicenseState.text : ServerLicenseState → String
  | trial => "TRIAL"
  | active => "ACTIVE"
  | pastDue => "PAST_DUE"
  | locked => "LOCKED"

def validateLicense (deviceId : String) : Endpoint Response := do
  let (token, account) ← getTokenWithAccount deviceId
  let subscription : Option Subscription ← perform (.subscriptionFindFirst token.accountId)
  match subscription with
  | none => throw (.licensing .licenseInvalid "No subscription found for this license")
  | some subscription =>
    let state := computeState subscription.status
    let now : Int ← perform .now
    let expiresAt := now + tokenLifetimeMs
    let jwt ← signLicenseJwt account.email deviceId subscription.planId
      subscription.billingInterval
    logAuditEvent
      { accountId := some token.accountId
        eventType := "license_validated"
        deviceFingerprint := some deviceId
        payload := [("state", state.text)] }
    return .validated state jwt subscription.planId subscription.billingInterval expiresAt now

def maxStalenessMs : Int := 48 * 60 * 60 * 1000

/-- The statuses with which a token is renewed or issued anew. -/
def refreshable : List String := ["trialing", "active", "past_due"]

/-- `jwt` is what the token says, if its signature is good. -/
def refreshLicenseToken (jwt : Option LicenseJwt) (deviceId : String) : Endpoint Response := do
  match jwt with
  | none =>
    logAuditEvent { eventType := "jwt_verification_failed", deviceFingerprint := some deviceId }
    throw (.unexpected "invalid token")
  | some claims =>
    refuseWhen (claims.deviceId ≠ deviceId)
      (.licensing .deviceMismatch "JWT device_id does not match the requesting device")
    let nowMs : Int ← perform .now
    refuseWhen (nowMs - claims.exp * 1000 > maxStalenessMs)
      (.licensing .licenseInvalid "Token too stale to refresh -- call validate instead")
    let (_, subscription) ← getTokenAndSubscription deviceId
    match subscription.filter fun sub => sub.status ∈ refreshable with
    | none => throw (.licensing .licenseInvalid "Subscription is no longer refreshable")
    | some subscription =>
      let now : Int ← perform .now
      let newJwt ← signLicenseJwt claims.sub deviceId subscription.planId
        subscription.billingInterval
      return .refreshed newJwt (now + tokenLifetimeMs)

/-! ## devices -/

def deactivateLicense (deviceId : String) : Endpoint Response := do
  let (token, account) ← getTokenWithAccount deviceId
  let now : Int ← perform .now
  perform (.tokenUnbind token.id now)
  logAuditEvent
    { accountId := some token.accountId
      eventType := "license_deactivated"
      deviceFingerprint := some deviceId }
  perform (.emailSend account.email "Your Dinero license was deactivated")
  return .deactivated

/-- What `trim` takes off. -/
def whitespace : List Nat :=
  [0x9, 0xA, 0xB, 0xC, 0xD, 0x20, 0xA0, 0x1680, 0x2000, 0x2001, 0x2002, 0x2003, 0x2004, 0x2005,
    0x2006, 0x2007, 0x2008, 0x2009, 0x200A, 0x2028, 0x2029, 0x202F, 0x205F, 0x3000, 0xFEFF]

def blank (text : String) : Bool := text.toList.all fun c => c.toNat ∈ whitespace

def requireReason (reason : Option String) (message : String) : Endpoint Unit :=
  refuseWhen ((reason.map blank).getD true) (.licensing .validationError message)

def accountFor (email : String) : Endpoint Account := do
  let account : Option Account ← perform (.accountFindUnique email)
  match account with
  | some account => return account
  | none => throw (.licensing .notFound "No account found for that email")

def resetDeviceBinding (email : String) (reason : Option String) : Endpoint Response := do
  requireReason reason "reason is required to reset a device binding"
  let account ← accountFor email
  let token : Option LicenseToken ← perform (.tokenFindFirst account.id)
  match token with
  | none => throw (.licensing .notFound "No license token bound to this account")
  | some token =>
    let now : Int ← perform .now
    perform (.tokenUnbind token.id now)
    logAuditEvent
      { accountId := some account.id
        eventType := "admin_support_reset_binding"
        payload := [("reason", reason.getD "")] }
    return .bindingReset

/-- The newest token of the account is bound to the device, or a first one is made. -/
def rebindToken (account : Account) (deviceId : String) (now expiresAt : Int) :
    Endpoint Unit := do
  let existing : Option LicenseToken ← perform (.tokenFindFirst account.id)
  match existing with
  | some token => perform (.tokenRebind token.id deviceId now expiresAt)
  | none => perform (.tokenCreate deviceId account.id now expiresAt)

def reissueToken (email newDeviceId : String) (reason : Option String) : Endpoint Response := do
  requireReason reason "reason is required to reissue a token"
  let account ← accountFor email
  let conflicting : Option LicenseToken ← perform (.tokenFindByDevice newDeviceId)
  refuseWhen ((conflicting.filter fun token => token.accountId ≠ account.id).isSome)
    (.licensing .deviceAlreadyBound
      ("That device is already bound to another account's license (" ++
        maskDeviceFingerprint newDeviceId ++ ")"))
  let subscription : Option Subscription ← perform (.subscriptionFindFirst account.id)
  match subscription.filter fun sub => sub.status ∈ refreshable with
  | none => throw (.licensing .licenseInvalid "No refreshable subscription for this account")
  | some subscription =>
    let now : Int ← perform .now
    let expiresAt := now + tokenLifetimeMs
    let newJwt ← signLicenseJwt email newDeviceId subscription.planId subscription.billingInterval
    rebindToken account newDeviceId now expiresAt
    logAuditEvent
      { accountId := some account.id
        eventType := "admin_support_reissue_token"
        deviceFingerprint := some newDeviceId
        payload := [("reason", reason.getD "")] }
    return .reissued newJwt expiresAt

/-! ## billing -/

/-- The newest subscription of the account. -/
def subscriptionOf (accountId : Nat) : Endpoint Subscription := do
  let subscription : Option Subscription ← perform (.subscriptionFindFirst accountId)
  match subscription with
  | some subscription => return subscription
  | none => throw (.licensing .notFound "No subscription found for this account")

def boolText (b : Bool) : String := if b then "true" else "false"

def cancelSubscription (accountId : Nat) (cancelAtPeriodEnd : Option Bool) :
    Endpoint Response := do
  let subscription ← subscriptionOf accountId
  let cancelAtPeriodEnd := cancelAtPeriodEnd.getD true
  perform (.subscriptionUpdate subscription.id
    { cancelAtPeriodEnd := some cancelAtPeriodEnd
      status := some (if cancelAtPeriodEnd then subscription.status else "canceled") })
  logAuditEvent
    { accountId := some accountId
      eventType := "subscription_cancelled"
      payload := [("cancel_at_period_end", boolText cancelAtPeriodEnd)] }
  return .cancelled cancelAtPeriodEnd

/-- The period has ended. -/
def refuseEnded (currentPeriodEnd : Option Int) : Endpoint Unit :=
  match currentPeriodEnd with
  | none => pure ()
  | some periodEnd => do
    let now : Int ← perform .now
    refuseWhen (periodEnd < now) (.licensing .validationError
      "Subscription period has already ended -- reactivation requires a new checkout")

def reactivateSubscription (accountId : Nat) : Endpoint Response := do
  let subscription ← subscriptionOf accountId
  refuseEnded subscription.currentPeriodEnd
  perform (.subscriptionUpdate subscription.id { cancelAtPeriodEnd := some false })
  logAuditEvent { accountId := some accountId, eventType := "subscription_reactivated" }
  return .reactivated

/-- The charge is given back, and the subscription ends. -/
def issueRefund (account : Account) (subscription : Subscription) (reason paymentId : String) :
    Endpoint Response := do
  perform (.refundsCreate paymentId)
  perform (.subscriptionUpdate subscription.id { status := some "canceled" })
  logAuditEvent
    { accountId := some account.id
      eventType := "refund_issued"
      payload := [("reason", reason), ("razorpay_payment_id", paymentId)] }
  perform (.emailSend account.email "Your Dinero subscription has been refunded")
  return .refunded

def refundAccount (accountId : Nat) (reason : String) : Endpoint Response := do
  let account : Option Account ← perform (.accountFindById accountId)
  match account with
  | none => throw (.licensing .notFound "Unknown account")
  | some account =>
    let subscription ← subscriptionOf accountId
    let paymentRecord : Option PaymentProviderRecord ← perform (.recordFindPayment accountId)
    match (paymentRecord.bind (·.razorpayPaymentId)).filter (· ≠ "") with
    | none => throw (.licensing .notFound "No successful charge found to refund")
    | some paymentId => issueRefund account subscription reason paymentId

/-! ## the webhook -/

/-- `subscription` is the id and the account in the notes of a subscription entity, `invoice` the
subscription and the end of the period of an invoice entity. -/
structure RazorpayWebhookEvent where
  id : String
  event : String
  subscriptionId : Option String := none
  accountId : Option Nat := none
  invoiceSubscriptionId : Option String := none
  billingEnd : Option Int := none
deriving DecidableEq, Repr

def findSubscriptionByRazorpaySubscriptionId (razorpaySubscriptionId : String) :
    Endpoint (Option Subscription) := do
  let record : Option PaymentProviderRecord ←
    perform (.recordFindByRazorpaySubscription razorpaySubscriptionId)
  match record.bind (·.subscriptionId) with
  | none => return none
  | some subscriptionId =>
    let subscription : Option Subscription ← perform (.subscriptionFindById subscriptionId)
    return subscription

def isDuplicateEvent (eventId : String) : Endpoint Bool := do
  let count ← countRecentEvents "webhook_processed" maxSafeInteger
    fun payload => payload.lookup "event_id" == some eventId
  return decide (count > 0)

/-- What becomes of the newest subscription of an account, if it has one. -/
def activateNewest (existing : Option Subscription) : Endpoint Unit :=
  match existing with
  | some existing => perform (.subscriptionUpdate existing.id { status := some "active" })
  | none => pure ()

def onSubscriptionCreated (event : RazorpayWebhookEvent) : Endpoint Unit := do
  match event.accountId with
  | none => return ()
  | some accountId =>
    let existing : Option Subscription ← perform (.subscriptionFindFirst accountId)
    activateNewest existing
    perform (.recordCreate
      { accountId
        subscriptionId := existing.map (·.id)
        razorpaySubscriptionId := event.subscriptionId })

/-- The subscription of an invoice is changed, if it is known. -/
def patchLinked (razorpaySubscriptionId : String) (patch : SubscriptionPatch) :
    Endpoint Unit := do
  let subscription ← findSubscriptionByRazorpaySubscriptionId razorpaySubscriptionId
  match subscription with
  | none => return ()
  | some subscription => perform (.subscriptionUpdate subscription.id patch)

/-- `!id`: an empty text counts as none. -/
def truthy (text : Option String) : Option String := text.filter (· ≠ "")

def onInvoicePaid (event : RazorpayWebhookEvent) : Endpoint Unit :=
  match truthy event.invoiceSubscriptionId, event.billingEnd.filter (· ≠ 0) with
  | some razorpaySubscriptionId, some billingEndUnix =>
    patchLinked razorpaySubscriptionId
      { currentPeriodEnd := some (billingEndUnix * 1000), status := some "active" }
  | _, _ => pure ()

def onPaymentFailed (event : RazorpayWebhookEvent) : Endpoint Unit :=
  match truthy event.invoiceSubscriptionId with
  | some razorpaySubscriptionId =>
    patchLinked razorpaySubscriptionId { status := some "past_due" }
  | none => pure ()

/-- `EVENT_HANDLERS`; an event of another type has no effect. -/
def handleEvent (event : RazorpayWebhookEvent) : Endpoint Unit :=
  match event.event with
  | "subscription.created" => onSubscriptionCreated event
  | "invoice.paid" => onInvoicePaid event
  | "invoice.payment_failed" => onPaymentFailed event
  | _ => pure ()

/-- An event that has not been processed yet. -/
def processFresh (event : RazorpayWebhookEvent) : Endpoint Response := do
  handleEvent event
  logAuditEvent
    { eventType := "webhook_processed"
      payload := [("event_id", event.id), ("event_type", event.event)] }
  return .processed

def processWebhookEvent (event : RazorpayWebhookEvent) : Endpoint Response := do
  let duplicate ← isDuplicateEvent event.id
  match duplicate with
  | true => return .duplicateIgnored
  | false => processFresh event

/-! ## reconciliation -/

def razorpayToLocalStatus : String → Option String
  | "active" => some "active"
  | "halted" => some "past_due"
  | "cancelled" => some "canceled"
  | "completed" => some "canceled"
  | _ => none

/-- One subscription; whether it had drifted. -/
def reconcileOne (sub : Subscription) : Endpoint Bool := do
  let record : Option PaymentProviderRecord ← perform (.recordFindBySubscription sub.id)
  match truthy (record.bind (·.razorpaySubscriptionId)) with
  | none => return false
  | some razorpaySubscriptionId =>
    -- a subscription the provider does not answer for is left alone
    let remote : Option String ←
      (some <$> perform (.subscriptionsFetch razorpaySubscriptionId)).catching fun _ => return none
    match (remote.bind razorpayToLocalStatus).filter (· ≠ sub.status) with
    | none => return false
    | some expectedLocalStatus =>
      perform (.subscriptionUpdate sub.id { status := some expectedLocalStatus })
      logAuditEvent
        { accountId := some sub.accountId
          eventType := "billing_reconciliation_correction"
          payload := [("local_status_was", sub.status), ("corrected_to", expectedLocalStatus),
            ("razorpay_status", remote.getD "")] }
      return true

/-- How many of the subscriptions had drifted; each of these is corrected. -/
def reconcileAll : List Subscription → Endpoint Nat
  | [] => return 0
  | sub :: rest => do
    let drifted ← reconcileOne sub
    let others ← reconcileAll rest
    return others + drifted.toNat

def runBillingReconciliation : Endpoint Response := do
  let subscriptions : List Subscription ← perform (.subscriptionFindMany ["active", "past_due"])
  let drifted ← reconcileAll subscriptions
  return .reconciled subscriptions.length drifted drifted

/-! ## the service -/

inductive Request where
  | activate (input : ActivateInput)
  | startTrial (input : StartTrialInput)
  | validate (deviceId : String)
  | refresh (jwt : Option LicenseJwt) (deviceId : String)
  | deactivate (deviceId : String)
  | resetBinding (email : String) (reason : Option String)
  | reissue (email newDeviceId : String) (reason : Option String)
  | cancel (accountId : Nat) (cancelAtPeriodEnd : Option Bool)
  | reactivate (accountId : Nat)
  | refund (accountId : Nat) (reason : String)
  | webhook (event : RazorpayWebhookEvent)
  | reconcile
deriving DecidableEq, Repr

def Request.program [Secrets] : Request → Endpoint Response
  | activate input => activateLicense input
  | startTrial input => Licensing.startTrial input
  | validate deviceId => validateLicense deviceId
  | refresh jwt deviceId => refreshLicenseToken jwt deviceId
  | deactivate deviceId => deactivateLicense deviceId
  | resetBinding email reason => resetDeviceBinding email reason
  | reissue email newDeviceId reason => reissueToken email newDeviceId reason
  | cancel accountId cancelAtPeriodEnd => cancelSubscription accountId cancelAtPeriodEnd
  | reactivate accountId => reactivateSubscription accountId
  | refund accountId reason => refundAccount accountId reason
  | webhook event => processWebhookEvent event
  | reconcile => runBillingReconciliation

def backend [Secrets] (invalidDate : InvalidDate) :
    Service Call.Reply Store Request Outside ApiError Response where
  program := Request.program
  exec := Store.exec invalidDate
  outside := Outside.apply

abbrev Backend := System Call.Reply Store Request ApiError Response

abbrev BackendEvent := SystemEvent Request Outside ApiError

/-- One request with no other beside it. -/
def Request.answer [Secrets] (invalidDate : InvalidDate) (r : Request) (s : Store) :
    Except ApiError Response × Store :=
  r.program.run (Store.exec invalidDate) s

end Dinero.Licensing
