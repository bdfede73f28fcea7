import Dinero.Constraints
import Dinero.Endpoints

/-!
# Dinero.Activation

What an activation leaves behind, and what the next validation makes of it.

An activation creates a subscription only for an account that has none, and the
token of a device stays with the account it was first bound to.  The validation
goes by the account of the token and its newest subscription.
-/

namespace Dinero.Licensing

variable {d : InvalidDate} {s s' : Store}

/-! ## reads -/

theorem run_now (s : Store) :
    (perform .now).run (Store.exec d) s = (.ok s.clock, s) := rfl

theorem run_accountFindUnique (email : String) (s : Store) :
    (perform (.accountFindUnique email)).run (Store.exec d) s = (.ok (s.account? email), s) := rfl

theorem run_tokenFindFirst (accountId : Nat) (s : Store) :
    (perform (.tokenFindFirst accountId)).run (Store.exec d) s = (.ok (s.token? accountId), s) :=
  rfl

theorem run_tokenFindByDevice (device : String) (s : Store) :
    (perform (.tokenFindByDevice device)).run (Store.exec d) s = (.ok (s.tokenOn? device), s) :=
  rfl

theorem run_tokenFindWithAccount (device : String) (s : Store) :
    (perform (.tokenFindWithAccount device)).run (Store.exec d) s =
      (.ok (s.tokenWithAccount? device), s) := rfl

theorem run_subscriptionFindFirst (accountId : Nat) (s : Store) :
    (perform (.subscriptionFindFirst accountId)).run (Store.exec d) s =
      (.ok (s.subscription? accountId), s) := rfl

/-! ## writes that succeed -/

theorem Store.insertFor_ok {accountId : Nat} {written : Store} {u : Unit}
    (h : s.insertFor accountId written = (.ok u, s')) :
    (s.accountById? accountId).isSome ∧ s' = written := by
  unfold Store.insertFor at h
  split at h
  · next haccount => exact ⟨haccount, (Prod.mk.inj h).2.symm⟩
  · exact absurd (Prod.mk.inj h).1 (by simp)

theorem accountCreate_ok {email : String} {account : Account}
    (h : s.exec d (.accountCreate email) = (.ok account, s')) :
    account = ⟨s.nextId, email, false⟩ ∧
      s' = { s with nextId := s.nextId + 1, accounts := account :: s.accounts } := by
  simp only [Store.exec] at h
  split at h
  · exact absurd (Prod.mk.inj h).1 (by simp [uniqueFailed])
  · obtain ⟨haccount, hs'⟩ := Prod.mk.inj h
    rw [← Except.ok.inj haccount]
    exact ⟨rfl, hs'.symm⟩

theorem subscriptionCreate_ok {data : SubscriptionData} {u : Unit}
    (h : s.exec d (.subscriptionCreate data) = (.ok u, s')) : s' = s.createSubscription data :=
  (Store.insertFor_ok h).2

theorem tokenCreate_ok {device : String} {accountId : Nat} {now expiresAt : Int} {u : Unit}
    (h : s.exec d (.tokenCreate device accountId now expiresAt) = (.ok u, s')) :
    s.tokenOn? device = none ∧ s' = s.createToken device accountId now expiresAt := by
  simp only [Store.exec] at h
  split at h
  · exact absurd (Prod.mk.inj h).1 (by simp [uniqueFailed])
  · next hfree => exact ⟨Option.not_isSome_iff_eq_none.mp hfree, (Store.insertFor_ok h).2⟩

theorem paymentsFetch_ok {paymentId : String} {payment : RazorpayPaymentDetails}
    (h : s.exec d (.paymentsFetch paymentId) = (.ok payment, s')) :
    s.razorpay.payment? paymentId = some payment ∧ s' = s := by
  simp only [Store.exec] at h
  split at h
  · next found hfound =>
    obtain ⟨hpayment, hs⟩ := Prod.mk.inj h
    exact ⟨by rw [hfound, Except.ok.inj hpayment], hs.symm⟩
  · exact absurd (Prod.mk.inj h).1 (by simp)

theorem tokenRebind_ok {id : Nat} {device : String} {now expiresAt : Int} {u : Unit}
    (h : s.exec d (.tokenRebind id device now expiresAt) = (.ok u, s')) :
    (∀ t ∈ s.licenseTokens, t.deviceFingerprint = some device → t.id = id) ∧
      s' = s.modifyToken id fun t => .bound t.id t.accountId device now expiresAt := by
  simp only [Store.exec] at h
  split at h
  · split at h
    · exact absurd (Prod.mk.inj h).1 (by simp [uniqueFailed])
    · next hfree =>
      refine ⟨fun t ht hdevice => ?_, (Prod.mk.inj h).2.symm⟩
      by_contra hne
      exact hfree (List.any_eq_true.mpr ⟨t, ht, by simp [hdevice, hne]⟩)
  · exact absurd (Prod.mk.inj h).1 (by simp [recordMissing])

/-! ## the parts of an activation -/

theorem run_refuseWhen (p : Prop) [Decidable p] (e : ApiError) (s : Store) :
    (refuseWhen p e).run (Store.exec d) s = if p then (.error e, s) else (.ok (), s) := by
  unfold refuseWhen
  split <;> rfl

theorem refuseWhen_ok {p : Prop} [Decidable p] {e : ApiError} {u : Unit}
    (h : (refuseWhen p e).run (Store.exec d) s = (.ok u, s')) : ¬ p ∧ s' = s := by
  rw [run_refuseWhen] at h
  split at h
  · simp at h
  · next hp => exact ⟨hp, (Prod.mk.inj h).2.symm⟩

/-- What comes after a refusal that was not made. -/
theorem refuseWhen_bind_ok {p : Prop} [Decidable p] {e : ApiError} {α : Type}
    {f : Unit → Endpoint α} {a : α}
    (h : (refuseWhen p e >>= f).run (Store.exec d) s = (.ok a, s')) :
    ¬ p ∧ (f ()).run (Store.exec d) s = (.ok a, s') := by
  obtain ⟨_, s₁, hrefuse, h⟩ := Routine.bind_eq_ok.mp h
  obtain ⟨hp, hs⟩ := refuseWhen_ok hrefuse
  exact ⟨hp, hs ▸ h⟩

theorem run_signLicenseJwt (sub deviceId plan billingInterval : String) (s : Store) :
    (signLicenseJwt sub deviceId plan billingInterval).run (Store.exec d) s =
      (.ok { sub, deviceId, plan, billingInterval, iat := s.clock / 1000,
             exp := s.clock / 1000 + defaultExpirySeconds }, s) := rfl

theorem run_logAuditEvent (data : AuditData) (s : Store) :
    (logAuditEvent data).run (Store.exec d) s = (.ok (), s.logEntry data) := rfl

/-- A count of events reads the log and nothing else. -/
theorem countRecentEvents_ok {eventType : String} {windowMs : Int}
    {matchPayload : AuditPayload → Bool} {n : Nat}
    (h : (countRecentEvents eventType windowMs matchPayload).run (Store.exec d) s = (.ok n, s')) :
    s' = s := by
  unfold countRecentEvents at h
  rw [Routine.bind_of_ok (run_now s)] at h
  cases hsince : date (s.clock - windowMs) with
  | some since =>
    rw [hsince] at h
    exact (Prod.mk.inj h).2.symm
  | none =>
    rw [hsince] at h
    cases d with
    | refused => exact absurd (Prod.mk.inj h).1 (by simp)
    | unbounded => exact (Prod.mk.inj h).2.symm

namespace Store

/-- A subscription is there. -/
def subscribed (s : Store) (account : Account) (planInfo : PlanInfo) (now : Int) : Store :=
  match s.subscription? account.id with
  | some _ => s
  | none => s.createSubscription
      { accountId := account.id
        planId := planInfo.planId
        status := "active"
        billingInterval := planInfo.billingInterval
        currentPeriodStart := some now }

/-- The upsert of a token. -/
def upsertToken (s : Store) (device : String) (accountId : Nat) (now expiresAt : Int) : Store :=
  match s.tokenOn? device with
  | some token => s.modifyToken token.id fun t =>
      { t with jwtIssuedAt := some now, jwtExpiresAt := some expiresAt, revokedAt := none }
  | none => s.createToken device accountId now expiresAt

/-- What an activation that is let through leaves. -/
def issued (s : Store) (input : ActivateInput) (planInfo : PlanInfo) (account : Account) : Store :=
  ((s.subscribed account planInfo s.clock).upsertToken input.deviceId account.id s.clock
    (s.clock + tokenLifetimeMs)).logEntry
      { accountId := some account.id
        eventType := "license_activated"
        deviceFingerprint := some input.deviceId }

/-! ## what is found afterwards -/

variable {account : Account} {planInfo : PlanInfo} {now : Int}

@[simp] theorem accounts_subscribed :
    (s.subscribed account planInfo now).accounts = s.accounts := by
  unfold subscribed
  split <;> rfl

@[simp] theorem licenseTokens_subscribed :
    (s.subscribed account planInfo now).licenseTokens = s.licenseTokens := by
  unfold subscribed
  split <;> rfl

@[simp] theorem clock_subscribed : (s.subscribed account planInfo now).clock = s.clock := by
  unfold subscribed
  split <;> rfl

/-- The newest subscription of an account that was given one. -/
theorem subscription?_subscribed (owner : Nat) :
    (s.subscribed account planInfo now).subscription? owner =
      if s.subscription? account.id = none ∧ owner = account.id then
        some
          { id := s.nextId
            accountId := account.id
            planId := planInfo.planId
            status := "active"
            billingInterval := planInfo.billingInterval
            currentPeriodStart := some now
            currentPeriodEnd := none
            cancelAtPeriodEnd := false }
      else s.subscription? owner := by
  unfold subscribed
  cases h : s.subscription? account.id with
  | some sub => simp
  | none =>
    by_cases howner : owner = account.id
    · subst howner
      simp [createSubscription, subscription?]
    · have hne : ¬ account.id = owner := fun heq => howner heq.symm
      simp [createSubscription, subscription?, howner, hne]

variable {device : String} {accountId : Nat} {expiresAt : Int}

@[simp] theorem accounts_upsertToken :
    (s.upsertToken device accountId now expiresAt).accounts = s.accounts := by
  unfold upsertToken
  split <;> rfl

@[simp] theorem subscriptions_upsertToken :
    (s.upsertToken device accountId now expiresAt).subscriptions = s.subscriptions := by
  unfold upsertToken
  split <;> rfl

/-- **The owner of a device**: an upsert leaves it with the account it was bound to, and gives it
to the account only if it was free. -/
theorem owner_upsertToken (s : Store) (device : String) (accountId : Nat) (now expiresAt : Int) :
    ((s.upsertToken device accountId now expiresAt).tokenOn? device).map (·.accountId) =
      some (((s.tokenOn? device).map (·.accountId)).getD accountId) := by
  unfold upsertToken
  cases h : s.tokenOn? device with
  | some token =>
    show (List.find? _ (s.licenseTokens.map _)).map _ = _
    rw [find?_map_of_eq]
    · unfold tokenOn? at h
      rw [h]
      simp
    · intro t
      split <;> rfl
  | none => simp [tokenOn?, createToken, LicenseToken.bound]

theorem exec_tokenUpsert (haccount : (s.accountById? accountId).isSome) :
    s.exec d (.tokenUpsert device accountId now expiresAt) =
      (.ok (), s.upsertToken device accountId now expiresAt) := by
  cases htoken : s.tokenOn? device with
  | some token => simp only [Store.exec, upsertToken, htoken]
  | none =>
    simp only [Store.exec, upsertToken, htoken]
    exact if_pos haccount

end Store

theorem run_ensureSubscription {account : Account} (planInfo : PlanInfo) (now : Int)
    (haccount : (s.accountById? account.id).isSome) :
    (ensureSubscription account planInfo now).run (Store.exec d) s =
      (.ok (), s.subscribed account planInfo now) := by
  unfold ensureSubscription Store.subscribed
  rw [Routine.bind_of_ok (run_subscriptionFindFirst account.id s)]
  cases s.subscription? account.id with
  | some _ => rfl
  | none =>
    rw [Routine.run_perform]
    exact if_pos haccount

/-- The token an activation hands out. -/
def ActivateInput.jwt (input : ActivateInput) (planInfo : PlanInfo) (clock : Int) : LicenseJwt where
  sub := input.email
  deviceId := input.deviceId
  plan := planInfo.planId
  billingInterval := planInfo.billingInterval
  iat := clock / 1000
  exp := clock / 1000 + defaultExpirySeconds

def ActivateInput.activated (input : ActivateInput) (planInfo : PlanInfo) (clock : Int) :
    Response :=
  .activated (input.jwt planInfo clock) planInfo.planId planInfo.billingInterval
    (clock + tokenLifetimeMs)

theorem run_bindAndIssue (input : ActivateInput) (planInfo : PlanInfo) {account : Account}
    (haccount : (s.accountById? account.id).isSome)
    (hfree : otherDevice (s.token? account.id) input.deviceId = none) :
    (bindAndIssue input planInfo account).run (Store.exec d) s =
      (.ok (input.activated planInfo s.clock), s.issued input planInfo account) := by
  have hallowed : (refuseOtherDevice (s.token? account.id) input.deviceId).run (Store.exec d) s =
      (.ok (), s) := by
    rw [refuseOtherDevice, hfree]
    rfl
  have haccount' : ((s.subscribed account planInfo s.clock).accountById? account.id).isSome := by
    simpa [Store.accountById?] using haccount
  have hupsert : (perform (.tokenUpsert input.deviceId account.id s.clock
      (s.clock + tokenLifetimeMs))).run (Store.exec d) (s.subscribed account planInfo s.clock) =
      (.ok (), (s.subscribed account planInfo s.clock).upsertToken input.deviceId account.id
        s.clock (s.clock + tokenLifetimeMs)) := by
    rw [Routine.run_perform]
    exact Store.exec_tokenUpsert haccount'
  have hclock : ((s.subscribed account planInfo s.clock).upsertToken input.deviceId account.id
      s.clock (s.clock + tokenLifetimeMs)).clock = s.clock := by
    unfold Store.upsertToken
    split <;> exact Store.clock_subscribed
  unfold bindAndIssue
  rw [Routine.bind_of_ok (run_tokenFindFirst account.id s),
    Routine.bind_of_ok hallowed,
    Routine.bind_of_ok (run_now s)]
  dsimp only
  rw [Routine.bind_of_ok (run_ensureSubscription planInfo s.clock haccount),
    Routine.bind_of_ok hupsert, Routine.bind_of_ok (run_signLicenseJwt _ _ _ _ _),
    Routine.bind_of_ok (run_logAuditEvent _ _), hclock]
  rfl

/-- An activation that succeeds was bound to no other device. -/
theorem bindAndIssue_ok {input : ActivateInput} {planInfo : PlanInfo} {account : Account}
    {r : Response} (haccount : (s.accountById? account.id).isSome)
    (h : (bindAndIssue input planInfo account).run (Store.exec d) s = (.ok r, s')) :
    otherDevice (s.token? account.id) input.deviceId = none ∧
      r = input.activated planInfo s.clock ∧ s' = s.issued input planInfo account := by
  cases hother : otherDevice (s.token? account.id) input.deviceId with
  | none =>
    rw [run_bindAndIssue input planInfo haccount hother, Prod.mk.injEq, Except.ok.injEq] at h
    exact ⟨rfl, h.1.symm, h.2.symm⟩
  | some fingerprint =>
    unfold bindAndIssue at h
    rw [Routine.bind_of_ok (run_tokenFindFirst account.id s), refuseOtherDevice, hother] at h
    simp at h

/-! ## the whole activation -/

namespace Store

/-- The account of the email, or the one that is made for it. -/
def accountFor (s : Store) (email : String) : Account :=
  (s.account? email).getD ⟨s.nextId, email, false⟩

def ensureAccount (s : Store) (email : String) : Store :=
  match s.account? email with
  | some _ => s
  | none => { s with
      nextId := s.nextId + 1
      accounts := ⟨s.nextId, email, false⟩ :: s.accounts }

theorem accountById?_ensureAccount (s : Store) (email : String) :
    ((s.ensureAccount email).accountById? (s.accountFor email).id).isSome := by
  unfold ensureAccount accountFor
  cases h : s.account? email with
  | some account => exact accountById?_of_account? h
  | none => simp [accountById?]

@[simp] theorem licenseTokens_ensureAccount (s : Store) (email : String) :
    (s.ensureAccount email).licenseTokens = s.licenseTokens := by
  unfold ensureAccount
  split <;> rfl

@[simp] theorem subscriptions_ensureAccount (s : Store) (email : String) :
    (s.ensureAccount email).subscriptions = s.subscriptions := by
  unfold ensureAccount
  split <;> rfl

@[simp] theorem clock_ensureAccount (s : Store) (email : String) :
    (s.ensureAccount email).clock = s.clock := by
  unfold ensureAccount
  split <;> rfl

theorem WellFormed.ensureAccount (h : s.WellFormed) (email : String) :
    (s.ensureAccount email).WellFormed := by
  unfold Store.ensureAccount
  split
  · exact h
  · exact h.createAccount email

end Store

theorem run_findOrCreateAccount (email : String) (s : Store) :
    (findOrCreateAccount email).run (Store.exec d) s =
      (.ok (s.accountFor email), s.ensureAccount email) := by
  unfold findOrCreateAccount Store.accountFor Store.ensureAccount
  rw [Routine.bind_of_ok (run_accountFindUnique email s)]
  cases h : s.account? email with
  | some account => rfl
  | none =>
    rw [Routine.run_perform]
    show (if (s.account? email).isSome then _ else _) = _
    rw [h]
    rfl

/-- The entry of an attempt, which comes before all else. -/
def Store.attempted (s : Store) (input : ActivateInput) : Store :=
  s.logEntry
    { eventType := "activation_attempt"
      payload := [("email", input.email), ("device_id", input.deviceId)] }

theorem Store.WellFormed.attempted (hs : s.WellFormed) (input : ActivateInput) :
    (s.attempted input).WellFormed := hs.change (.entry _)

/-- **An activation that succeeds**: its payment verifies, its account is bound to no other
device, and this is what it leaves. -/
theorem activateLicense_ok [Secrets] {input : ActivateInput} {r : Response}
    (h : (activateLicense input).run (Store.exec d) s = (.ok r, s')) :
    ∃ planInfo payment, planByBillingInterval input.billingInterval = some planInfo ∧
      s.razorpay.payment? input.razorpayPaymentId = some payment ∧
      verifyPaymentSignature payment.orderId input.razorpayPaymentId input.razorpaySignature = true ∧
      otherDevice (s.token? (s.accountFor input.email).id) input.deviceId = none ∧
      r = input.activated planInfo s.clock ∧
      s' = ((s.attempted input).ensureAccount input.email).issued input planInfo
        (s.accountFor input.email) := by
  unfold activateLicense at h
  rw [Routine.bind_of_ok (run_logAuditEvent _ s)] at h
  obtain ⟨attempts, s₁, hcount, h⟩ := Routine.bind_eq_ok.mp h
  rw [countRecentEvents_ok hcount] at h
  replace h := (refuseWhen_bind_ok h).2
  obtain ⟨payment, s₃, hpayment, h⟩ := Routine.bind_eq_ok.mp h
  rw [Routine.run_perform] at hpayment
  have hfetch := paymentsFetch_ok hpayment
  rw [hfetch.2] at h
  obtain ⟨hverify, h⟩ := refuseWhen_bind_ok h
  cases hplan : planByBillingInterval input.billingInterval with
  | none =>
    rw [hplan] at h
    exact absurd (Prod.mk.inj h).1 (by simp)
  | some planInfo =>
    rw [hplan] at h
    dsimp only at h
    rw [Routine.bind_of_ok (run_findOrCreateAccount input.email _)] at h
    have haccount := Store.accountById?_ensureAccount (s.attempted input) input.email
    obtain ⟨hfree, hr, hs⟩ := bindAndIssue_ok haccount h
    have hsigned : verifyPaymentSignature payment.orderId input.razorpayPaymentId
        input.razorpaySignature = true := by simpa using hverify
    have htoken : ((s.attempted input).ensureAccount input.email).token?
        (s.accountFor input.email).id = s.token? (s.accountFor input.email).id := by
      simp [Store.token?, Store.attempted, Store.logEntry]
    have hclock : ((s.attempted input).ensureAccount input.email).clock = s.clock :=
      Store.clock_ensureAccount _ _
    exact ⟨planInfo, payment, rfl, hfetch.1, hsigned, htoken ▸ hfree, hclock ▸ hr, hs⟩

/-! ## validation -/

/-- The token a validation hands out. -/
def Subscription.jwt (sub : Subscription) (account : Account) (deviceId : String)
    (clock : Int) : LicenseJwt where
  sub := account.email
  deviceId
  plan := sub.planId
  billingInterval := sub.billingInterval
  iat := clock / 1000
  exp := clock / 1000 + defaultExpirySeconds

/-- The subscription a validation goes by, with the account. -/
def Store.entitlement? (s : Store) (deviceId : String) : Option (Account × Subscription) :=
  (s.tokenWithAccount? deviceId).bind fun found =>
    (s.subscription? found.1.accountId).map (found.2, ·)

theorem run_getTokenWithAccount (deviceId : String) (s : Store) :
    (getTokenWithAccount deviceId).run (Store.exec d) s = match s.tokenWithAccount? deviceId with
      | some found => (.ok found, s)
      | none => (.error (.licensing .licenseInvalid "No license bound to this device"), s) := by
  unfold getTokenWithAccount
  rw [Routine.bind_of_ok (run_tokenFindWithAccount deviceId s)]
  cases s.tokenWithAccount? deviceId <;> rfl

/-- **A validation** answers for the newest subscription of the account of the token. -/
theorem run_validateLicense {deviceId : String} {account : Account} {sub : Subscription}
    (h : s.entitlement? deviceId = some (account, sub)) :
    ∃ data, (validateLicense deviceId).run (Store.exec d) s =
      (.ok (.validated (computeState sub.status) (sub.jwt account deviceId s.clock) sub.planId
        sub.billingInterval (s.clock + tokenLifetimeMs) s.clock), s.logEntry data) := by
  unfold Store.entitlement? at h
  obtain ⟨⟨token, account'⟩, htoken, h⟩ := Option.bind_eq_some_iff.mp h
  obtain ⟨sub', hsub, h⟩ := Option.map_eq_some_iff.mp h
  obtain ⟨rfl, rfl⟩ := Prod.mk.inj h
  have hfound := run_getTokenWithAccount (d := d) deviceId s
  rw [htoken] at hfound
  unfold validateLicense
  rw [Routine.bind_of_ok hfound]
  dsimp only
  rw [Routine.bind_of_ok (run_subscriptionFindFirst token.accountId s), hsub]
  exact ⟨_, rfl⟩

/-- A device without a subscription is not validated. -/
theorem validateLicense_error {deviceId : String} (h : s.entitlement? deviceId = none) :
    ∃ e, (validateLicense deviceId).run (Store.exec d) s = (.error e, s) := by
  have hfound := run_getTokenWithAccount (d := d) deviceId s
  unfold validateLicense
  cases htoken : s.tokenWithAccount? deviceId with
  | none =>
    rw [htoken] at hfound
    exact ⟨_, Routine.bind_of_error hfound⟩
  | some found =>
    obtain ⟨token, account⟩ := found
    rw [htoken] at hfound
    rw [Routine.bind_of_ok hfound]
    dsimp only
    have hsub : s.subscription? token.accountId = none := by
      simpa [Store.entitlement?, htoken] using h
    rw [Routine.bind_of_ok (run_subscriptionFindFirst token.accountId s), hsub]
    exact ⟨_, rfl⟩

/-- The device is active on the plan. -/
def Store.ValidatesActive [Secrets] (d : InvalidDate) (s : Store) (deviceId planId : String) :
    Prop :=
  ∃ jwt billingInterval expiresAt serverTime s',
    (Request.validate deviceId).answer d s =
      (.ok (.validated .active jwt planId billingInterval expiresAt serverTime), s')

theorem computeState_eq_active {status : String} :
    computeState status = .active ↔ status = "active" := by
  constructor
  · intro h
    unfold computeState at h
    split at h <;> simp_all
  · rintro rfl
    rfl

theorem validatesActive_iff [Secrets] {deviceId planId : String} :
    s.ValidatesActive d deviceId planId ↔
      ∃ account sub, s.entitlement? deviceId = some (account, sub) ∧ sub.status = "active" ∧
        sub.planId = planId := by
  unfold Store.ValidatesActive
  show (∃ jwt billingInterval expiresAt serverTime s', (validateLicense deviceId).run _ _ = _) ↔ _
  cases hfound : s.entitlement? deviceId with
  | none =>
    obtain ⟨e, hrun⟩ := validateLicense_error (d := d) hfound
    simp [hrun]
  | some found =>
    obtain ⟨account, sub⟩ := found
    obtain ⟨data, hrun⟩ := run_validateLicense (d := d) hfound
    simp [hrun, computeState_eq_active]

/-! ## paying restores access -/

/-- The subscription the next validation of the device will go by is one that is made now, or is
active on the plan already. -/
def Store.Restores (s : Store) (input : ActivateInput) (planId : String) : Prop :=
  match ((s.tokenOn? input.deviceId).map (·.accountId)).or
      ((s.account? input.email).map (·.id)) with
  | none => True
  | some owner =>
    match s.subscription? owner with
    | none => (s.account? input.email).map (·.id) = some owner
    | some sub => sub.status = "active" ∧ sub.planId = planId

/-- What is found on the device after an activation. -/
theorem entitlement?_issued (input : ActivateInput) (planInfo : PlanInfo) {account : Account}
    (hs : s.WellFormed) (haccount : (s.accountById? account.id).isSome) :
    ∃ found, (s.issued input planInfo account).entitlement? input.deviceId =
      ((s.subscribed account planInfo s.clock).subscription?
        (((s.tokenOn? input.deviceId).map (·.accountId)).getD account.id)).map (found, ·) := by
  have howner := Store.owner_upsertToken (s.subscribed account planInfo s.clock) input.deviceId
    account.id s.clock (s.clock + tokenLifetimeMs)
  have hbefore : (s.subscribed account planInfo s.clock).tokenOn? input.deviceId =
      s.tokenOn? input.deviceId := by simp [Store.tokenOn?]
  rw [hbefore] at howner
  obtain ⟨token, htoken, hid⟩ := Option.map_eq_some_iff.mp howner
  -- the account of the token exists: it is the one that pays, or was there before
  have hexists : (s.accountById? token.accountId).isSome := by
    rw [hid]
    cases hon : s.tokenOn? input.deviceId with
    | none => exact haccount
    | some bound =>
      rw [Store.accountById?_isSome]
      exact hs.tokenAccounts bound (Store.mem_of_tokenOn? hon).1
  obtain ⟨found, hfound⟩ := Option.isSome_iff_exists.mp hexists
  refine ⟨found, ?_⟩
  have haccounts : (s.issued input planInfo account).accountById? token.accountId = some found := by
    simpa [Store.issued, Store.logEntry, Store.accountById?] using hfound
  have hon : (s.issued input planInfo account).tokenOn? input.deviceId = some token := htoken
  have hsubs : ∀ owner, (s.issued input planInfo account).subscription? owner =
      (s.subscribed account planInfo s.clock).subscription? owner := by
    intro owner
    simp [Store.issued, Store.logEntry, Store.subscription?]
  simp only [Store.entitlement?, Store.tokenWithAccount?, hon, Option.bind_some, haccounts,
    Option.map_some, hsubs]
  rw [hid]

/-- A new account has no subscription yet. -/
theorem Store.WellFormed.subscription?_nextId (hs : s.WellFormed) :
    s.subscription? s.nextId = none := by
  rw [Store.subscription?, List.find?_eq_none]
  intro sub hsub heq
  obtain ⟨account, haccount, hid⟩ := List.mem_map.mp (hs.subscriptionAccounts sub hsub)
  have hlt := hs.accountFresh account haccount
  have hnext : sub.accountId = s.nextId := by simpa using heq
  omega

/-- The account that pays is the owner of a token just if it was found by its email. -/
theorem Store.WellFormed.accountFor_id_eq (hs : s.WellFormed) (email : String) {device : String}
    {token : LicenseToken} (htoken : s.tokenOn? device = some token) :
    token.accountId = (s.accountFor email).id ↔
      (s.account? email).map (·.id) = some token.accountId := by
  unfold Store.accountFor
  cases s.account? email with
  | some account => simp [eq_comm]
  | none =>
    obtain ⟨owner, howner, hid⟩ := List.mem_map.mp
      (hs.tokenAccounts token (Store.mem_of_tokenOn? htoken).1)
    have hlt := hs.accountFresh owner howner
    have hne : token.accountId ≠ s.nextId := by omega
    simpa using hne

/-- The subscription an activation leaves the device with is active on the plan. -/
theorem Store.restores_iff (hs : s.WellFormed) {s₁ : Store}
    (hsame : s₁.subscriptions = s.subscriptions) {input : ActivateInput} {planInfo : PlanInfo}
    {now : Int} :
    s.Restores input planInfo.planId ↔
      ∃ sub, (s₁.subscribed (s.accountFor input.email) planInfo now).subscription?
          (((s.tokenOn? input.deviceId).map (·.accountId)).getD (s.accountFor input.email).id) =
        some sub ∧ sub.status = "active" ∧ sub.planId = planInfo.planId := by
  have hsubs : ∀ owner, s₁.subscription? owner = s.subscription? owner := by
    intro owner
    rw [Store.subscription?, hsame, Store.subscription?]
  unfold Store.Restores
  simp only [Store.subscription?_subscribed, hsubs]
  cases htoken : s.tokenOn? input.deviceId with
  | some token =>
    have howner := hs.accountFor_id_eq input.email htoken
    simp only [Option.map_some, Option.some_or, Option.getD_some]
    cases hsub : s.subscription? token.accountId with
    | some sub =>
      have hother : ¬ (s.subscription? (s.accountFor input.email).id = none ∧
          token.accountId = (s.accountFor input.email).id) := by
        rintro ⟨hnone, hid⟩
        rw [← hid, hsub] at hnone
        simp at hnone
      simp [if_neg hother]
    | none =>
      show (s.account? input.email).map (·.id) = some token.accountId ↔ _
      rw [← howner]
      by_cases hid : token.accountId = (s.accountFor input.email).id
      · simp [hid, hid ▸ hsub]
      · simp [hid]
  | none =>
    simp only [Option.map_none, Option.none_or, Option.getD_none]
    unfold Store.accountFor
    cases haccount : s.account? input.email with
    | some account =>
      simp only [Option.map_some, Option.getD_some]
      cases hsub : s.subscription? account.id <;> simp
    | none => simp [hs.subscription?_nextId]

/-- **Paying restores access** just if the subscription the device is validated by is made by the
activation, or was active on the plan before. -/
theorem paying_restores_access_iff [Secrets] (hs : s.WellFormed) {input : ActivateInput}
    {jwt : LicenseJwt} {plan billingInterval : String} {expiresAt : Int}
    (h : (Request.activate input).answer d s =
      (.ok (.activated jwt plan billingInterval expiresAt), s')) :
    s'.ValidatesActive d input.deviceId plan ↔ s.Restores input plan := by
  obtain ⟨planInfo, -, -, -, -, -, hr, rfl⟩ := activateLicense_ok h
  obtain rfl : plan = planInfo.planId := by
    simp only [ActivateInput.activated, Response.activated.injEq] at hr
    exact hr.2.1
  have hs₂ := (hs.attempted input).ensureAccount input.email
  obtain ⟨found, hfound⟩ := entitlement?_issued input planInfo hs₂
    (Store.accountById?_ensureAccount (s.attempted input) input.email)
  have hsame : ((s.attempted input).ensureAccount input.email).subscriptions = s.subscriptions :=
    Store.subscriptions_ensureAccount _ _
  have htoken : ((s.attempted input).ensureAccount input.email).tokenOn? input.deviceId =
      s.tokenOn? input.deviceId := by simp [Store.tokenOn?, Store.attempted, Store.logEntry]
  rw [validatesActive_iff, Store.restores_iff hs hsame, ← htoken]
  constructor
  · rintro ⟨account, sub, hsub, hactive⟩
    obtain ⟨_, hsub', heq⟩ := Option.map_eq_some_iff.mp (hfound.symm.trans hsub)
    rw [← (Prod.mk.inj heq).2] at hactive
    exact ⟨_, hsub', hactive⟩
  · rintro ⟨sub, hsub, hactive⟩
    exact ⟨found, sub, hfound.trans (Option.map_eq_some_iff.mpr ⟨sub, hsub, rfl⟩), hactive⟩

/-! ### two payments of one account -/

/-- Signatures that show the text they are of. -/
@[reducible] def Secrets.plain : Secrets := ⟨fun text signature => signature == text⟩

/-- Two monthly orders that were paid. -/
def twoPayments : Razorpay where
  orders := [⟨"order_1", 19900, "desktop_pro_monthly"⟩, ⟨"order_2", 19900, "desktop_pro_monthly"⟩]
  payments := [("pay_1", ⟨"order_1", 19900⟩), ("pay_2", ⟨"order_2", 19900⟩)]
  subscriptions := []
  refunds := []

def firstActivation : ActivateInput where
  email := "asha@example.com"
  razorpayPaymentId := "pay_1"
  razorpaySignature := "order_1|pay_1"
  deviceId := "laptop"
  billingInterval := "monthly"

def secondActivation : ActivateInput :=
  { firstActivation with razorpayPaymentId := "pay_2", razorpaySignature := "order_2|pay_2" }

theorem paying_restores_access_first :
    letI := Secrets.plain
    ((Request.activate firstActivation).answer .unbounded (.empty 0 twoPayments)).2.ValidatesActive
      .unbounded "laptop" "desktop_pro_monthly" := by
  let := Secrets.plain
  have hrun : (Request.activate firstActivation).answer .unbounded (.empty 0 twoPayments) =
      (.ok (.activated ⟨"asha@example.com", "laptop", "desktop_pro_monthly", "monthly", 0, 172800⟩
        "desktop_pro_monthly" "monthly" 172800000),
      ((Request.activate firstActivation).answer .unbounded (.empty 0 twoPayments)).2) :=
    Prod.ext (by decide +kernel) rfl
  have hnew : (Store.empty 0 twoPayments).Restores firstActivation "desktop_pro_monthly" := trivial
  exact (paying_restores_access_iff (Store.wellFormed_empty 0 twoPayments) hrun).mpr hnew

/-- The first payment was canceled at once. -/
def canceledStore : Store :=
  letI := Secrets.plain
  ((Request.cancel 0 (some false)).answer .unbounded
    ((Request.activate firstActivation).answer .unbounded (.empty 0 twoPayments)).2).2

/-- An account that canceled and pays once more stays locked. -/
theorem paid_and_locked :
    letI := Secrets.plain
    ((Request.activate secondActivation).answer .unbounded canceledStore).1 =
        .ok (.activated ⟨"asha@example.com", "laptop", "desktop_pro_monthly", "monthly", 0, 172800⟩
          "desktop_pro_monthly" "monthly" 172800000) ∧
      ((Request.validate "laptop").answer .unbounded
        ((Request.activate secondActivation).answer .unbounded canceledStore).2).1 =
        .ok (.validated .locked
          ⟨"asha@example.com", "laptop", "desktop_pro_monthly", "monthly", 0, 172800⟩
          "desktop_pro_monthly" "monthly" 172800000 0) := by
  let := Secrets.plain
  decide +kernel

end Dinero.Licensing
