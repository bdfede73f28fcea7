import Dinero.Sessions

/-!
# Dinero.Backend

The licensing backend: its tables, and every call its endpoints make on the
database, on the payment provider and on the clock.

The endpoints themselves are in `Dinero.Endpoints`.  A call is what nothing can
come between: one query of the database client, one request to the provider.
-/

namespace Dinero.Licensing

/-! ## rows

Every table holds its newest row first. -/

structure Account where
  id : Nat
  email : String
  trialUsed : Bool
deriving DecidableEq, Repr

/-- Two texts that `citext` takes for one. -/
def sameEmail (a b : String) : Bool := a.toLower == b.toLower

structure Subscription where
  id : Nat
  accountId : Nat
  planId : String
  status : String
  billingInterval : String
  currentPeriodStart : Option Int
  currentPeriodEnd : Option Int
  cancelAtPeriodEnd : Bool
deriving DecidableEq, Repr

structure LicenseToken where
  id : Nat
  accountId : Nat
  deviceFingerprint : Option String
  deviceBoundAt : Option Int
  jwtIssuedAt : Option Int
  jwtExpiresAt : Option Int
  revokedAt : Option Int
deriving DecidableEq, Repr

structure PaymentProviderRecord where
  id : Nat
  accountId : Nat
  subscriptionId : Option Nat
  razorpaySubscriptionId : Option String
  razorpayPaymentId : Option String
deriving DecidableEq, Repr

/-- The text fields of a `payload`. -/
abbrev AuditPayload := List (String × String)

structure LicensingAuditLog where
  accountId : Option Nat
  eventType : String
  deviceFingerprint : Option String
  payload : AuditPayload
  createdAt : Int
deriving DecidableEq, Repr

/-! ## the provider -/

structure RazorpayPaymentDetails where
  orderId : String
  amount : Nat
deriving DecidableEq, Repr

/-- The order a payment is made for; `notes` names the plan. -/
structure RazorpayOrder where
  id : String
  amount : Nat
  planId : String
deriving DecidableEq, Repr

/-- What the provider has on record.  `refunds` are the payments refunded. -/
structure Razorpay where
  orders : List RazorpayOrder
  payments : List (String × RazorpayPaymentDetails)
  subscriptions : List (String × String)
  refunds : List String
deriving DecidableEq, Repr

namespace Razorpay

def payment? (r : Razorpay) (paymentId : String) : Option RazorpayPaymentDetails :=
  (r.payments.find? (·.1 == paymentId)).map (·.2)

/-- The plan that was paid for. -/
def paidPlan? (r : Razorpay) (paymentId : String) : Option String :=
  (r.payment? paymentId).bind fun payment =>
    (r.orders.find? (·.id == payment.orderId)).map (·.planId)

def subscription? (r : Razorpay) (razorpaySubscriptionId : String) : Option String :=
  (r.subscriptions.find? (·.1 == razorpaySubscriptionId)).map (·.2)

end Razorpay

/-! ## the store -/

structure Store where
  /-- In milliseconds. -/
  clock : Int
  nextId : Nat
  accounts : List Account
  subscriptions : List Subscription
  licenseTokens : List LicenseToken
  paymentProviderRecords : List PaymentProviderRecord
  auditLog : List LicensingAuditLog
  razorpay : Razorpay
deriving DecidableEq, Repr

/-- Nothing has happened yet. -/
def Store.empty (clock : Int) (razorpay : Razorpay) : Store :=
  ⟨clock, 0, [], [], [], [], [], razorpay⟩

namespace Store

def account? (s : Store) (email : String) : Option Account :=
  s.accounts.find? fun a => sameEmail a.email email

def accountById? (s : Store) (id : Nat) : Option Account := s.accounts.find? (·.id == id)

/-- The newest subscription of the account. -/
def subscription? (s : Store) (accountId : Nat) : Option Subscription :=
  s.subscriptions.find? (·.accountId == accountId)

def subscriptionById? (s : Store) (id : Nat) : Option Subscription :=
  s.subscriptions.find? (·.id == id)

/-- The newest token of the account. -/
def token? (s : Store) (accountId : Nat) : Option LicenseToken :=
  s.licenseTokens.find? (·.accountId == accountId)

def tokenOn? (s : Store) (device : String) : Option LicenseToken :=
  s.licenseTokens.find? (·.deviceFingerprint == some device)

/-- The token on the device with its account, which it always has. -/
def tokenWithAccount? (s : Store) (device : String) : Option (LicenseToken × Account) :=
  (s.tokenOn? device).bind fun token => (s.accountById? token.accountId).map (token, ·)

def recordOf? (s : Store) (razorpaySubscriptionId : String) : Option PaymentProviderRecord :=
  s.paymentProviderRecords.find? (·.razorpaySubscriptionId == some razorpaySubscriptionId)

def recordFor? (s : Store) (subscriptionId : Nat) : Option PaymentProviderRecord :=
  s.paymentProviderRecords.find? (·.subscriptionId == some subscriptionId)

/-- The newest record of a payment of the account. -/
def charge? (s : Store) (accountId : Nat) : Option PaymentProviderRecord :=
  s.paymentProviderRecords.find? fun r => r.accountId == accountId && r.razorpayPaymentId.isSome

end Store

/-! ## errors -/

inductive LicensingErrorCode where
  | validationError
  | notFound
  | licenseInvalid
  | deviceAlreadyBound
  | deviceMismatch
  | paymentVerificationFailed
  | rateLimited
deriving DecidableEq, Repr

/-- `LicensingApiError`, or anything else that is thrown. -/
inductive ApiError where
  | licensing (code : LicensingErrorCode) (message : String)
  | unexpected (message : String)
deriving DecidableEq, Repr

/-! ## calls -/

structure AuditData where
  accountId : Option Nat := none
  eventType : String
  deviceFingerprint : Option String := none
  payload : AuditPayload := []
deriving DecidableEq, Repr

structure SubscriptionData where
  accountId : Nat
  planId : String
  status : String
  billingInterval : String
  currentPeriodStart : Option Int
  currentPeriodEnd : Option Int := none
deriving DecidableEq, Repr

/-- The fields of an `update`; what is `none` is left as it is. -/
structure SubscriptionPatch where
  status : Option String := none
  currentPeriodEnd : Option Int := none
  cancelAtPeriodEnd : Option Bool := none
deriving DecidableEq, Repr

def Subscription.patch (sub : Subscription) (p : SubscriptionPatch) : Subscription :=
  { sub with
    status := p.status.getD sub.status
    currentPeriodEnd := p.currentPeriodEnd.or sub.currentPeriodEnd
    cancelAtPeriodEnd := p.cancelAtPeriodEnd.getD sub.cancelAtPeriodEnd }

structure RecordData where
  accountId : Nat
  subscriptionId : Option Nat
  razorpaySubscriptionId : Option String
  razorpayPaymentId : Option String := none
deriving DecidableEq, Repr

inductive Call where
  /-- `new Date()`. -/
  | now
  | auditCreate (data : AuditData)
  /-- The rows from `since` on; `none` is an invalid date. -/
  | auditFindMany (eventType : String) (since : Option Int)
  | accountFindUnique (email : String)
  | accountFindById (id : Nat)
  | accountCreate (email : String)
  | accountUseTrial (id : Nat)
  | tokenFindFirst (accountId : Nat)
  | tokenFindByDevice (device : String)
  /-- `include: { account: true }`. -/
  | tokenFindWithAccount (device : String)
  | tokenUpsert (device : String) (accountId : Nat) (now expiresAt : Int)
  | tokenCreate (device : String) (accountId : Nat) (now expiresAt : Int)
  | tokenUnbind (id : Nat) (revokedAt : Int)
  | tokenRebind (id : Nat) (device : String) (now expiresAt : Int)
  | subscriptionFindFirst (accountId : Nat)
  | subscriptionFindById (id : Nat)
  | subscriptionFindMany (statuses : List String)
  | subscriptionCreate (data : SubscriptionData)
  | subscriptionUpdate (id : Nat) (patch : SubscriptionPatch)
  | recordCreate (data : RecordData)
  | recordFindByRazorpaySubscription (razorpaySubscriptionId : String)
  | recordFindBySubscription (subscriptionId : Nat)
  | recordFindPayment (accountId : Nat)
  | paymentsFetch (paymentId : String)
  | refundsCreate (paymentId : String)
  | subscriptionsFetch (razorpaySubscriptionId : String)
  | emailSend (recipient subject : String)
deriving DecidableEq, Repr

/-- What a call is answered with. -/
@[reducible] def Call.Reply : Call → Type
  | now => Int
  | auditFindMany _ _ => List LicensingAuditLog
  | accountFindUnique _ | accountFindById _ => Option Account
  | accountCreate _ => Account
  | tokenFindFirst _ | tokenFindByDevice _ => Option LicenseToken
  | tokenFindWithAccount _ => Option (LicenseToken × Account)
  | subscriptionFindFirst _ | subscriptionFindById _ => Option Subscription
  | subscriptionFindMany _ => List Subscription
  | recordFindByRazorpaySubscription _ | recordFindBySubscription _ | recordFindPayment _ =>
    Option PaymentProviderRecord
  | paymentsFetch _ => RazorpayPaymentDetails
  | subscriptionsFetch _ => String
  | auditCreate _ | accountUseTrial _ | tokenUpsert _ _ _ _ | tokenCreate _ _ _ _
  | tokenUnbind _ _ | tokenRebind _ _ _ _ | subscriptionCreate _ | subscriptionUpdate _ _
  | recordCreate _ | refundsCreate _ | emailSend _ _ => Unit

/-- What the database client makes of a bound that is no date: it refuses the query, or asks for
all rows. -/
inductive InvalidDate where
  | refused
  | unbounded
deriving DecidableEq, Repr

def uniqueFailed : ApiError := .unexpected "Unique constraint failed"

def recordMissing : ApiError := .unexpected "Record to update not found."

def foreignKeyFailed : ApiError := .unexpected "Foreign key constraint failed"

/-- A token as it is bound. -/
def LicenseToken.bound (id accountId : Nat) (device : String) (now expiresAt : Int) :
    LicenseToken where
  id
  accountId
  deviceFingerprint := some device
  deviceBoundAt := some now
  jwtIssuedAt := some now
  jwtExpiresAt := some expiresAt
  revokedAt := none

namespace Store

/-- The row with the id is changed. -/
def modifyToken (s : Store) (id : Nat) (f : LicenseToken → LicenseToken) : Store :=
  { s with licenseTokens := s.licenseTokens.map fun t => if t.id = id then f t else t }

def modifySubscription (s : Store) (id : Nat) (f : Subscription → Subscription) : Store :=
  { s with subscriptions := s.subscriptions.map fun sub => if sub.id = id then f sub else sub }

def createToken (s : Store) (device : String) (accountId : Nat) (now expiresAt : Int) : Store :=
  { s with
    nextId := s.nextId + 1
    licenseTokens := .bound s.nextId accountId device now expiresAt :: s.licenseTokens }

def createSubscription (s : Store) (data : SubscriptionData) : Store :=
  { s with
    nextId := s.nextId + 1
    subscriptions :=
      { id := s.nextId
        accountId := data.accountId
        planId := data.planId
        status := data.status
        billingInterval := data.billingInterval
        currentPeriodStart := data.currentPeriodStart
        currentPeriodEnd := data.currentPeriodEnd
        cancelAtPeriodEnd := false } :: s.subscriptions }

def createRecord (s : Store) (data : RecordData) : Store :=
  { s with
    nextId := s.nextId + 1
    paymentProviderRecords :=
      { id := s.nextId
        accountId := data.accountId
        subscriptionId := data.subscriptionId
        razorpaySubscriptionId := data.razorpaySubscriptionId
        razorpayPaymentId := data.razorpayPaymentId } :: s.paymentProviderRecords }

def logEntry (s : Store) (data : AuditData) : Store :=
  { s with
    auditLog :=
      { accountId := data.accountId
        eventType := data.eventType
        deviceFingerprint := data.deviceFingerprint
        payload := data.payload
        createdAt := s.clock } :: s.auditLog }

/-- A row that refers to an account is written. -/
def insertFor (s : Store) (accountId : Nat) (written : Store) : Except ApiError Unit × Store :=
  if (s.accountById? accountId).isSome then (.ok (), written) else (.error foreignKeyFailed, s)

/-- One call. -/
def exec (invalidDate : InvalidDate) : (c : Call) → Store → Except ApiError c.Reply × Store
  | .now, s => (.ok s.clock, s)
  | .auditCreate data, s => (.ok (), s.logEntry data)
  | .auditFindMany eventType (some since), s =>
    (.ok (s.auditLog.filter fun e => e.eventType == eventType && decide (since ≤ e.createdAt)), s)
  | .auditFindMany eventType none, s =>
    match invalidDate with
    | .refused => (.error (.unexpected "Provided Date object is invalid"), s)
    | .unbounded => (.ok (s.auditLog.filter fun e => e.eventType == eventType), s)
  | .accountFindUnique email, s => (.ok (s.account? email), s)
  | .accountFindById id, s => (.ok (s.accountById? id), s)
  | .accountCreate email, s =>
    if (s.account? email).isSome then (.error uniqueFailed, s)
    else
      let account : Account := ⟨s.nextId, email, false⟩
      (.ok account, { s with nextId := s.nextId + 1, accounts := account :: s.accounts })
  | .accountUseTrial id, s =>
    if (s.accountById? id).isSome then
      (.ok (), { s with
        accounts := s.accounts.map fun a => if a.id = id then { a with trialUsed := true } else a })
    else (.error recordMissing, s)
  | .tokenFindFirst accountId, s => (.ok (s.token? accountId), s)
  | .tokenFindByDevice device, s => (.ok (s.tokenOn? device), s)
  | .tokenFindWithAccount device, s => (.ok (s.tokenWithAccount? device), s)
  | .tokenUpsert device accountId now expiresAt, s =>
    match s.tokenOn? device with
    | some token =>
      (.ok (), s.modifyToken token.id fun t =>
        { t with jwtIssuedAt := some now, jwtExpiresAt := some expiresAt, revokedAt := none })
    | none => s.insertFor accountId (s.createToken device accountId now expiresAt)
  | .tokenCreate device accountId now expiresAt, s =>
    if (s.tokenOn? device).isSome then (.error uniqueFailed, s)
    else s.insertFor accountId (s.createToken device accountId now expiresAt)
  | .tokenUnbind id revokedAt, s =>
    if s.licenseTokens.any (·.id == id) then
      (.ok (), s.modifyToken id fun t =>
        { t with deviceFingerprint := none, deviceBoundAt := none, revokedAt := some revokedAt })
    else (.error recordMissing, s)
  | .tokenRebind id device now expiresAt, s =>
    if s.licenseTokens.any (·.id == id) then
      if s.licenseTokens.any fun t => t.deviceFingerprint == some device && t.id != id then
        (.error uniqueFailed, s)
      else (.ok (), s.modifyToken id fun t => .bound t.id t.accountId device now expiresAt)
    else (.error recordMissing, s)
  | .subscriptionFindFirst accountId, s => (.ok (s.subscription? accountId), s)
  | .subscriptionFindById id, s => (.ok (s.subscriptionById? id), s)
  | .subscriptionFindMany statuses, s =>
    (.ok (s.subscriptions.filter (·.status ∈ statuses)), s)
  | .subscriptionCreate data, s => s.insertFor data.accountId (s.createSubscription data)
  | .subscriptionUpdate id patch, s =>
    if (s.subscriptionById? id).isSome then
      (.ok (), s.modifySubscription id (·.patch patch))
    else (.error recordMissing, s)
  | .recordCreate data, s => s.insertFor data.accountId (s.createRecord data)
  | .recordFindByRazorpaySubscription razorpaySubscriptionId, s =>
    (.ok (s.recordOf? razorpaySubscriptionId), s)
  | .recordFindBySubscription subscriptionId, s => (.ok (s.recordFor? subscriptionId), s)
  | .recordFindPayment accountId, s => (.ok (s.charge? accountId), s)
  | .paymentsFetch paymentId, s =>
    match s.razorpay.payment? paymentId with
    | some payment => (.ok payment, s)
    | none => (.error (.unexpected "The id provided does not exist"), s)
  | .refundsCreate paymentId, s =>
    (.ok (), { s with razorpay := { s.razorpay with refunds := paymentId :: s.razorpay.refunds } })
  | .subscriptionsFetch razorpaySubscriptionId, s =>
    match s.razorpay.subscription? razorpaySubscriptionId with
    | some status => (.ok status, s)
    | none => (.error (.unexpected "The id provided does not exist"), s)
  | .emailSend _ _, s => (.ok (), s)

end Store

/-- What happens outside: time goes by, and the provider changes its subscriptions. -/
inductive Outside where
  | tick (milliseconds : Nat)
  | provider (subscriptions : List (String × String))
deriving DecidableEq, Repr

def Outside.apply : Outside → Store → Store
  | tick milliseconds, s => { s with clock := s.clock + milliseconds }
  | provider subscriptions, s => { s with razorpay := { s.razorpay with subscriptions } }

end Dinero.Licensing
