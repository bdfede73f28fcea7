import Dinero.Activation
import Dinero.Runs

/-!
# Dinero.Entitlement

Whether an entitlement ends: what the endpoints answer once the period of a
subscription is over, and for which subscriptions they sign a token.

The status of a subscription is all that counts for them.  A refresh and a new
token look at it; an activation and a returning device do not; and nobody looks
at the end of the period.
-/

namespace Dinero.Licensing

/-! ## runs -/

/-- One thing after the other: a request that is answered, or something from outside. -/
inductive Operation where
  | request (r : Request)
  | outside (o : Outside)
deriving DecidableEq, Repr

def Store.after [Secrets] (d : InvalidDate) (s : Store) : Operation → Store
  | .request r => (r.answer d s).2
  | .outside o => o.apply s

/-! ## the end of an entitlement -/

/-- The statuses of a subscription that entitles to nothing. -/
def dead : List String := ["canceled", "locked", "expired"]

/-- Its period is over. -/
def Subscription.over (sub : Subscription) (now : Int) : Bool :=
  sub.currentPeriodEnd.any (· < now)

/-- The newest subscription of the account of a device. -/
def Store.newestOn? (s : Store) (device : String) : Option Subscription :=
  (s.tokenOn? device).bind fun token => s.subscription? token.accountId

/-- An answer that honours the end of the subscription it is given for. -/
def Response.Honours (s : Store) : Response → Prop
  | .validated state jwt _ _ _ _ =>
    ∀ sub ∈ s.newestOn? jwt.deviceId, sub.over s.clock = true →
      state ≠ .trial ∧ (state = .active → sub.cancelAtPeriodEnd = false)
  | .activated jwt _ _ _ | .trialStarted jwt _ | .existingSubscriptionRecognized jwt _ _
  | .refreshed jwt _ | .reissued jwt _ => ∀ sub ∈ s.newestOn? jwt.deviceId, sub.status ∉ dead
  | _ => True

/-- Whatever is answered honours the end of the entitlement. -/
def Store.Honours [Secrets] (d : InvalidDate) (s : Store) : Operation → Prop
  | .request r => ∀ response, (r.answer d s).1 = .ok response → response.Honours (r.answer d s).2
  | .outside _ => True

/-- The account whose subscription an activation leaves the device with. -/
def Store.ownerOf? (s : Store) (input : ActivateInput) : Option Nat :=
  ((s.tokenOn? input.deviceId).map (·.accountId)).or ((s.account? input.email).map (·.id))

/-- The operation comes before the end of the subscription: a validation finds none whose period
is over, and who asks for a token has none that is dead. -/
def Store.Timely (s : Store) : Operation → Prop
  | .request (.validate deviceId) =>
    ∀ sub ∈ s.newestOn? deviceId, sub.over s.clock = true →
      sub.status ≠ "trialing" ∧ (sub.status = "active" → sub.cancelAtPeriodEnd = false)
  | .request (.activate input) =>
    ∀ owner ∈ s.ownerOf? input, ∀ sub ∈ s.subscription? owner, sub.status ∉ dead
  | .request (.startTrial input) => ∀ sub ∈ s.newestOn? input.deviceId, sub.status ∉ dead
  | _ => True

instance decidableTimely (s : Store) : (op : Operation) → Decidable (s.Timely op)
  | .request (.validate deviceId) =>
    inferInstanceAs (Decidable (∀ sub ∈ s.newestOn? deviceId, sub.over s.clock = true →
      sub.status ≠ "trialing" ∧ (sub.status = "active" → sub.cancelAtPeriodEnd = false)))
  | .request (.activate input) =>
    inferInstanceAs (Decidable
      (∀ owner ∈ s.ownerOf? input, ∀ sub ∈ s.subscription? owner, sub.status ∉ dead))
  | .request (.startTrial input) =>
    inferInstanceAs (Decidable (∀ sub ∈ s.newestOn? input.deviceId, sub.status ∉ dead))
  | .request (.refresh _ _) | .request (.deactivate _) | .request (.resetBinding _ _)
  | .request (.reissue _ _ _) | .request (.cancel _ _) | .request (.reactivate _)
  | .request (.refund _ _) | .request (.webhook _) | .request .reconcile | .outside _ =>
    isTrue trivial

variable {d : InvalidDate} {s s' : Store}

/-! ## the endpoints one by one -/

theorem newestOn?_logEntry (data : AuditData) (device : String) :
    (s.logEntry data).newestOn? device = s.newestOn? device := rfl

theorem entitlement?_map (device : String) (h : s.WellFormed) :
    (s.entitlement? device).map (·.2) = s.newestOn? device := by
  unfold Store.entitlement? Store.newestOn? Store.tokenWithAccount?
  cases htoken : s.tokenOn? device with
  | none => rfl
  | some token =>
    have haccount := h.tokenAccounts token (Store.mem_of_tokenOn? htoken).1
    obtain ⟨account, haccount⟩ := Option.isSome_iff_exists.mp
      (Store.accountById?_isSome.mpr haccount)
    simp only [Option.bind_some, haccount, Option.map_some]
    cases s.subscription? token.accountId <;> rfl

theorem computeState_eq_trial {status : String} : computeState status = .trial ↔
    status = "trialing" := by
  constructor
  · intro h
    unfold computeState at h
    split at h <;> simp_all
  · rintro rfl
    rfl

/-- **Validation** honours the end just if it comes in time. -/
theorem validate_honours_iff [Secrets] (hs : s.WellFormed) (deviceId : String) :
    s.Honours d (.request (.validate deviceId)) ↔ s.Timely (.request (.validate deviceId)) := by
  have hnewest := entitlement?_map deviceId hs
  cases hfound : s.entitlement? deviceId with
  | none =>
    obtain ⟨e, hrun⟩ := validateLicense_error (d := d) hfound
    have hanswer : (Request.validate deviceId).answer d s = (.error e, s) := hrun
    rw [hfound] at hnewest
    simp [Store.Honours, Store.Timely, hanswer, ← hnewest]
  | some found =>
    obtain ⟨account, sub⟩ := found
    obtain ⟨data, hrun⟩ := run_validateLicense (d := d) hfound
    have hanswer : (Request.validate deviceId).answer d s = (_, s.logEntry data) := hrun
    rw [hfound] at hnewest
    have hsub : s.newestOn? deviceId = some sub := hnewest.symm
    have hlog : (s.logEntry data).newestOn? deviceId = some sub := hsub
    have hclock : (s.logEntry data).clock = s.clock := rfl
    simp only [Store.Honours, Store.Timely, hanswer, hsub, Except.ok.injEq, forall_eq',
      Response.Honours, Subscription.jwt, hlog, hclock, Option.mem_some_iff, ne_eq,
      computeState_eq_trial, computeState_eq_active]

theorem not_dead_of_refreshable {status : String} (h : status ∈ refreshable) : status ∉ dead := by
  simp only [refreshable, List.mem_cons, List.not_mem_nil, or_false] at h
  rcases h with rfl | rfl | rfl <;> decide

theorem getTokenAndSubscription_ok {deviceId : String} {token : LicenseToken}
    {subscription : Option Subscription}
    (h : (getTokenAndSubscription deviceId).run (Store.exec d) s = (.ok (token, subscription), s')) :
    s.newestOn? deviceId = subscription ∧ s' = s := by
  unfold getTokenAndSubscription at h
  rw [Routine.bind_of_ok (run_tokenFindByDevice deviceId s)] at h
  cases htoken : s.tokenOn? deviceId with
  | none =>
    rw [htoken] at h
    exact absurd (Prod.mk.inj h).1 (by simp)
  | some found =>
    rw [htoken] at h
    dsimp only at h
    rw [Routine.bind_of_ok (run_subscriptionFindFirst found.accountId s)] at h
    obtain ⟨hresult, rfl⟩ := Prod.mk.inj h
    obtain ⟨rfl, rfl⟩ := Prod.mk.inj (Except.ok.inj hresult)
    simp [Store.newestOn?, htoken]

theorem refreshLicenseToken_ok {jwt : Option LicenseJwt} {deviceId : String} {response : Response}
    (h : (refreshLicenseToken jwt deviceId).run (Store.exec d) s = (.ok response, s')) :
    ∃ newJwt expiresAt sub, response = .refreshed newJwt expiresAt ∧ newJwt.deviceId = deviceId ∧
      s.newestOn? deviceId = some sub ∧ sub.status ∈ refreshable ∧ s' = s := by
  unfold refreshLicenseToken at h
  cases jwt with
  | none =>
    dsimp only at h
    rw [Routine.bind_of_ok (run_logAuditEvent _ s)] at h
    exact absurd (Prod.mk.inj h).1 (by simp)
  | some claims =>
    dsimp only at h
    replace h := (refuseWhen_bind_ok h).2
    rw [Routine.bind_of_ok (run_now s)] at h
    replace h := (refuseWhen_bind_ok h).2
    obtain ⟨⟨token, subscription⟩, s₁, hfound, h⟩ := Routine.bind_eq_ok.mp h
    obtain ⟨hnewest, hs⟩ := getTokenAndSubscription_ok hfound
    rw [hs] at h
    dsimp only at h
    cases hlive : subscription.filter fun sub => sub.status ∈ refreshable with
    | none =>
      rw [hlive] at h
      exact absurd (Prod.mk.inj h).1 (by simp)
    | some sub =>
      rw [hlive] at h
      dsimp only at h
      rw [Routine.bind_of_ok (run_now s), Routine.bind_of_ok (run_signLicenseJwt _ _ _ _ s)] at h
      obtain ⟨hresponse, hs'⟩ := Prod.mk.inj h
      obtain ⟨hsub, hstatus⟩ := Option.filter_eq_some_iff.mp hlive
      exact ⟨_, _, sub, (Except.ok.inj hresponse).symm, rfl, hnewest.trans hsub,
        by simpa using hstatus, hs'.symm⟩

/-- A refresh signs a token for a subscription that is alive. -/
theorem refresh_honours [Secrets] (jwt : Option LicenseJwt) (deviceId : String) :
    s.Honours d (.request (.refresh jwt deviceId)) := by
  intro response hok
  have h : (refreshLicenseToken jwt deviceId).run (Store.exec d) s = (.ok response, _) :=
    Prod.ext hok rfl
  obtain ⟨newJwt, expiresAt, sub, rfl, hdevice, hnewest, hstatus, hs'⟩ := refreshLicenseToken_ok h
  show ∀ newest ∈ Store.newestOn? _ newJwt.deviceId, newest.status ∉ dead
  have hafter : ((Request.refresh jwt deviceId).answer d s).2 = s := hs'
  rw [hafter, hdevice, hnewest]
  intro newest hmem
  rw [← Option.some.inj hmem]
  exact not_dead_of_refreshable hstatus

theorem WellFormed.answer [Secrets] (hs : s.WellFormed) (r : Request) :
    (r.answer d s).2.WellFormed :=
  Routine.run_invariant (fun c _ h => h.exec d c) r.program hs

/-- The subscription that an activation leaves the device with is new or was there before. -/
theorem subscribed_owner (hs : s.WellFormed) {s₁ : Store} (hsame : s₁.subscriptions = s.subscriptions)
    {input : ActivateInput} {planInfo : PlanInfo} {now : Int} {sub : Subscription}
    (h : (s₁.subscribed (s.accountFor input.email) planInfo now).subscription?
      (((s.tokenOn? input.deviceId).map (·.accountId)).getD (s.accountFor input.email).id) =
        some sub) :
    sub.status = "active" ∨ ∃ owner ∈ s.ownerOf? input, s.subscription? owner = some sub := by
  have hsubs : ∀ owner, s₁.subscription? owner = s.subscription? owner := by
    intro owner
    rw [Store.subscription?, hsame, Store.subscription?]
  rw [Store.subscription?_subscribed, hsubs, hsubs] at h
  split at h
  · left
    rw [← Option.some.inj h]
  · right
    unfold Store.ownerOf?
    unfold Store.accountFor at h
    cases htoken : s.tokenOn? input.deviceId with
    | some token => exact ⟨token.accountId, rfl, by simpa [htoken] using h⟩
    | none =>
      cases haccount : s.account? input.email with
      | some account => exact ⟨account.id, rfl, by simpa [htoken, haccount] using h⟩
      | none => simp [htoken, haccount, hs.subscription?_nextId] at h

/-- **Activation** honours the end of a subscription that is alive. -/
theorem activate_honours [Secrets] (hs : s.WellFormed) {input : ActivateInput}
    (htimely : s.Timely (.request (.activate input))) :
    s.Honours d (.request (.activate input)) := by
  intro response hok
  have h : (activateLicense input).run (Store.exec d) s = (.ok response, _) := Prod.ext hok rfl
  obtain ⟨planInfo, -, -, -, -, -, rfl, hleft⟩ := activateLicense_ok h
  have hafter : ((Request.activate input).answer d s).2 = _ := hleft
  have hs' := WellFormed.answer (d := d) hs (.activate input)
  have hs₂ := (hs.attempted input).ensureAccount input.email
  obtain ⟨found, hfound⟩ := entitlement?_issued input planInfo hs₂
    (Store.accountById?_ensureAccount (s.attempted input) input.email)
  have htoken : ((s.attempted input).ensureAccount input.email).tokenOn? input.deviceId =
      s.tokenOn? input.deviceId := by simp [Store.tokenOn?, Store.attempted, Store.logEntry]
  have hsame : ((s.attempted input).ensureAccount input.email).subscriptions = s.subscriptions :=
    Store.subscriptions_ensureAccount _ _
  show ∀ sub ∈ Store.newestOn? _ input.deviceId, sub.status ∉ dead
  intro sub hsub
  rw [← entitlement?_map input.deviceId hs', hafter, Option.mem_def, Option.map_eq_some_iff] at hsub
  obtain ⟨entitlement, hentitlement, hsub⟩ := hsub
  obtain ⟨newest, hnewest, heq⟩ := Option.map_eq_some_iff.mp (hfound.symm.trans hentitlement)
  obtain rfl : newest = sub := by rw [← hsub, ← heq]
  rw [htoken] at hnewest
  rcases subscribed_owner hs hsame hnewest with hactive | ⟨owner, howner, hbefore⟩
  · rw [hactive]
    decide
  · exact htimely owner howner newest hbefore

/-! ### trials -/

theorem run_boundSubscriptionStatus (existingBinding : Option LicenseToken) (s : Store) :
    (boundSubscriptionStatus existingBinding).run (Store.exec d) s =
      (.ok ((existingBinding.bind fun token => s.subscription? token.accountId).map (·.status)),
        s) := by
  unfold boundSubscriptionStatus
  cases existingBinding with
  | none => rfl
  | some binding =>
    dsimp only
    rw [Routine.bind_of_ok (run_subscriptionFindFirst binding.accountId s)]
    rfl

theorem deviceHasPriorTrialStartedEvent_ok {deviceId : String} {prior : Bool}
    (h : (deviceHasPriorTrialStartedEvent deviceId).run (Store.exec d) s = (.ok prior, s')) :
    s' = s := by
  unfold deviceHasPriorTrialStartedEvent at h
  obtain ⟨count, s₁, hcount, h⟩ := Routine.bind_eq_ok.mp h
  rw [countRecentEvents_ok hcount] at h
  exact (Prod.mk.inj h).2.symm

/-- A trial that is created leaves the device with it. -/
theorem createTrial_ok {input : StartTrialInput} {account : Account} {response : Response}
    (h : (createTrial input account).run (Store.exec d) s = (.ok response, s')) :
    ∃ jwt trialEndsAt, response = .trialStarted jwt trialEndsAt ∧ jwt.deviceId = input.deviceId ∧
      ∃ sub, s'.newestOn? input.deviceId = some sub ∧ sub.status = "trialing" := by
  unfold createTrial at h
  rw [Routine.bind_of_ok (run_now s)] at h
  obtain ⟨_, s₁, hsubscription, h⟩ := Routine.bind_eq_ok.mp h
  rw [Routine.run_perform] at hsubscription
  obtain ⟨_, s₂, htoken, h⟩ := Routine.bind_eq_ok.mp h
  rw [Routine.run_perform] at htoken
  obtain ⟨_, s₃, htrial, h⟩ := Routine.bind_eq_ok.mp h
  rw [Routine.run_perform] at htrial
  rw [Routine.bind_of_ok (run_logAuditEvent _ _),
    Routine.bind_of_ok (run_signLicenseJwt _ _ _ _ _)] at h
  obtain ⟨hresponse, hs'⟩ := Prod.mk.inj h
  have hsame : s₃.newestOn? input.deviceId = s₂.newestOn? input.deviceId := by
    have hchange := Store.exec_change d (.accountUseTrial account.id) s₂
    rw [htrial] at hchange
    cases hchange <;> rfl
  have hnewest : s'.newestOn? input.deviceId = s₂.newestOn? input.deviceId := by
    rw [← hs', newestOn?_logEntry, hsame]
  refine ⟨_, _, (Except.ok.inj hresponse).symm, rfl, ?_⟩
  rw [hnewest, (tokenCreate_ok htoken).2, subscriptionCreate_ok hsubscription]
  simp [Store.newestOn?, Store.tokenOn?, Store.createToken, LicenseToken.bound,
    Store.subscription?, Store.createSubscription]

/-- A device that is recognized gets a token for the subscription it is bound to. -/
theorem recognizeDevice_ok {input : StartTrialInput} {response : Response}
    (h : (recognizeDevice input (s.tokenOn? input.deviceId)).run (Store.exec d) s =
      (.ok response, s')) :
    ∃ jwt plan billingInterval, response = .existingSubscriptionRecognized jwt plan billingInterval ∧
      jwt.deviceId = input.deviceId ∧ s' = s := by
  unfold recognizeDevice at h
  cases htoken : s.tokenOn? input.deviceId with
  | none =>
    rw [htoken] at h
    exact absurd (Prod.mk.inj h).1 (by simp)
  | some binding =>
    rw [htoken] at h
    dsimp only at h
    rw [Routine.bind_of_ok (run_subscriptionFindFirst binding.accountId s)] at h
    cases hsub : s.subscription? binding.accountId with
    | none =>
      rw [hsub] at h
      exact absurd (Prod.mk.inj h).1 (by simp)
    | some sub =>
      rw [hsub] at h
      dsimp only at h
      rw [Routine.bind_of_ok (run_signLicenseJwt _ _ _ _ s)] at h
      obtain ⟨hresponse, hs'⟩ := Prod.mk.inj h
      exact ⟨_, _, _, (Except.ok.inj hresponse).symm, rfl, hs'.symm⟩

theorem run_logTrialGuardDecision (deviceId : String) (decision : TrialGuardDecision) (s : Store) :
    ∃ log, (logTrialGuardDecision deviceId decision).run (Store.exec d) s =
      (.ok (), { s with auditLog := log }) := by
  cases decision with
  | allowNewTrial => exact ⟨s.auditLog, rfl⟩
  | blockedEmailReused => exact ⟨_, rfl⟩
  | blockedDeviceReused => exact ⟨_, rfl⟩
  | recognizedReturningDevice _ => exact ⟨_, rfl⟩

/-- **A trial** that is answered is a new one, or the device is recognized. -/
theorem startTrial_ok {input : StartTrialInput} {response : Response}
    (h : (startTrial input).run (Store.exec d) s = (.ok response, s')) :
    (∃ jwt trialEndsAt, response = .trialStarted jwt trialEndsAt ∧ jwt.deviceId = input.deviceId ∧
      ∃ sub, s'.newestOn? input.deviceId = some sub ∧ sub.status = "trialing") ∨
    ∃ jwt plan billingInterval, response = .existingSubscriptionRecognized jwt plan billingInterval ∧
      jwt.deviceId = input.deviceId ∧ s'.newestOn? input.deviceId = s.newestOn? input.deviceId := by
  unfold startTrial at h
  rw [Routine.bind_of_ok (run_tokenFindByDevice _ s),
    Routine.bind_of_ok (run_boundSubscriptionStatus _ s),
    Routine.bind_of_ok (run_accountFindUnique _ s)] at h
  obtain ⟨prior, s₁, hprior, h⟩ := Routine.bind_eq_ok.mp h
  rw [deviceHasPriorTrialStartedEvent_ok hprior] at h
  dsimp only at h
  generalize hdecision : decideTrialEligibility _ = decision at h
  obtain ⟨log, hlog⟩ := run_logTrialGuardDecision (d := d) input.deviceId decision s
  rw [Routine.bind_of_ok hlog] at h
  cases decision with
  | recognizedReturningDevice _ =>
    right
    have hrecognized : (recognizeDevice input
        (Store.tokenOn? { s with auditLog := log } input.deviceId)).run (Store.exec d)
          { s with auditLog := log } = (.ok response, s') := h
    obtain ⟨jwt, plan, billingInterval, hresponse, hdevice, hs'⟩ := recognizeDevice_ok hrecognized
    exact ⟨jwt, plan, billingInterval, hresponse, hdevice, by rw [hs']; rfl⟩
  | blockedDeviceReused => exact absurd (Prod.mk.inj h).1 (by simp)
  | blockedEmailReused => exact absurd (Prod.mk.inj h).1 (by simp)
  | allowNewTrial =>
    left
    cases haccount : s.account? input.email with
    | some account =>
      rw [haccount] at h
      exact createTrial_ok h
    | none =>
      rw [haccount] at h
      dsimp only at h
      obtain ⟨account, s₂, -, h⟩ := Routine.bind_eq_ok.mp h
      exact createTrial_ok h

theorem startTrial_honours [Secrets] {input : StartTrialInput}
    (htimely : s.Timely (.request (.startTrial input))) :
    s.Honours d (.request (.startTrial input)) := by
  intro response hok
  have h : (startTrial input).run (Store.exec d) s = (.ok response, _) := Prod.ext hok rfl
  rcases startTrial_ok h with ⟨jwt, trialEndsAt, rfl, hdevice, sub, hnewest, hstatus⟩ |
    ⟨jwt, plan, billingInterval, rfl, hdevice, hnewest⟩
  · show ∀ newest ∈ Store.newestOn? _ jwt.deviceId, newest.status ∉ dead
    intro newest hmem
    rw [hdevice] at hmem
    have heq : newest = sub := Option.some.inj (hmem.symm.trans hnewest)
    rw [heq, hstatus]
    decide
  · show ∀ newest ∈ Store.newestOn? _ jwt.deviceId, newest.status ∉ dead
    intro newest hmem
    rw [hdevice] at hmem
    exact htimely newest (hnewest.symm.trans hmem)

/-! ### the others -/

/-- An answer without a token. -/
def Response.Unsigned : Response → Prop
  | validated _ _ _ _ _ _ | activated _ _ _ _ | trialStarted _ _
  | existingSubscriptionRecognized _ _ _ | refreshed _ _ | reissued _ _ => False
  | _ => True

theorem Response.Unsigned.honours {response : Response} (h : response.Unsigned) (s : Store) :
    response.Honours s := by
  cases response <;> trivial

theorem unsigned_honours [Secrets] {r : Request} (h : r.program.Ends Response.Unsigned) :
    s.Honours d (.request r) := by
  intro response hok
  have hrun : r.program.run (Store.exec d) s = (.ok response, _) := Prod.ext hok rfl
  exact (h.run hrun).honours _

theorem ends_deactivateLicense (deviceId : String) :
    (deactivateLicense deviceId).Ends Response.Unsigned :=
  .bind fun _ => .bind fun _ => .bind fun _ => .bind fun _ => .bind fun _ => trivial

theorem ends_resetDeviceBinding (email : String) (reason : Option String) :
    (resetDeviceBinding email reason).Ends Response.Unsigned := by
  refine .bind fun _ => .bind fun _ => .bind fun token => ?_
  cases token with
  | none => trivial
  | some token => exact .bind fun _ => .bind fun _ => .bind fun _ => trivial

theorem ends_refundAccount (accountId : Nat) (reason : String) :
    (refundAccount accountId reason).Ends Response.Unsigned := by
  refine .bind fun account => ?_
  cases account with
  | none => trivial
  | some account =>
    refine .bind fun sub => .bind fun record => ?_
    cases (record.bind (·.razorpayPaymentId)).filter (· ≠ "") with
    | none => trivial
    | some paymentId => exact .bind fun _ => .bind fun _ => .bind fun _ => .bind fun _ => trivial

theorem ends_processWebhookEvent (event : RazorpayWebhookEvent) :
    (processWebhookEvent event).Ends Response.Unsigned := by
  refine .bind fun duplicate => ?_
  cases duplicate with
  | true => trivial
  | false => exact .bind fun _ => .bind fun _ => trivial

/-! ### a token issued anew -/

/-- The device that a token is issued for has the newest subscription of the account. -/
theorem newestOn?_rebindToken (hs : s.WellFormed) {account : Account} {device : String}
    {now expiresAt : Int} {u : Unit}
    (h : (rebindToken account device now expiresAt).run (Store.exec d) s = (.ok u, s')) :
    s'.newestOn? device = s.subscription? account.id := by
  unfold rebindToken at h
  rw [Routine.bind_of_ok (run_tokenFindFirst account.id s)] at h
  cases htoken : s.token? account.id with
  | none =>
    rw [htoken] at h
    dsimp only at h
    rw [Routine.run_perform] at h
    rw [(tokenCreate_ok h).2]
    simp [Store.newestOn?, Store.tokenOn?, Store.createToken, LicenseToken.bound,
      Store.subscription?]
  | some token =>
    rw [htoken] at h
    dsimp only at h
    rw [Routine.run_perform] at h
    obtain ⟨hfree, rfl⟩ := tokenRebind_ok h
    obtain ⟨hmem, haccount⟩ := Store.mem_of_token? htoken
    -- the rebound token is the only one on the device
    obtain ⟨bound, hbound⟩ : ∃ bound, (s.modifyToken token.id fun t =>
        .bound t.id t.accountId device now expiresAt).tokenOn? device = some bound := by
      refine Option.isSome_iff_exists.mp (List.find?_isSome.mpr ⟨_, List.mem_map_of_mem hmem, ?_⟩)
      rw [if_pos rfl]
      simp [LicenseToken.bound]
    obtain ⟨hbefore, hdevice⟩ := Store.mem_of_tokenOn? hbound
    obtain ⟨old, hold, rfl⟩ := List.mem_map.mp hbefore
    have hid : old.id = token.id := by
      by_contra hne
      rw [if_neg hne] at hdevice
      exact hne (hfree old hold hdevice)
    have howner : old.accountId = account.id := by rw [hs.token_eq hold hmem hid, haccount]
    rw [Store.newestOn?, hbound, Option.bind_some, if_pos hid]
    show s.subscription? old.accountId = _
    rw [howner]

theorem accountFor_ok {email : String} {account : Account}
    (h : (accountFor email).run (Store.exec d) s = (.ok account, s')) : s' = s := by
  unfold accountFor at h
  rw [Routine.bind_of_ok (run_accountFindUnique email s)] at h
  cases haccount : s.account? email with
  | none =>
    rw [haccount] at h
    exact absurd (Prod.mk.inj h).1 (by simp)
  | some found =>
    rw [haccount] at h
    exact (Prod.mk.inj h).2.symm

theorem reissueToken_ok (hs : s.WellFormed) {email newDeviceId : String} {reason : Option String}
    {response : Response}
    (h : (reissueToken email newDeviceId reason).run (Store.exec d) s = (.ok response, s')) :
    ∃ jwt expiresAt sub, response = .reissued jwt expiresAt ∧ jwt.deviceId = newDeviceId ∧
      s'.newestOn? newDeviceId = some sub ∧ sub.status ∈ refreshable := by
  unfold reissueToken requireReason at h
  replace h := (refuseWhen_bind_ok h).2
  obtain ⟨account, s₁, haccount, h⟩ := Routine.bind_eq_ok.mp h
  rw [accountFor_ok haccount, Routine.bind_of_ok (run_tokenFindByDevice newDeviceId s)] at h
  replace h := (refuseWhen_bind_ok h).2
  rw [Routine.bind_of_ok (run_subscriptionFindFirst account.id s)] at h
  cases hlive : (s.subscription? account.id).filter fun sub => sub.status ∈ refreshable with
  | none =>
    rw [hlive] at h
    exact absurd (Prod.mk.inj h).1 (by simp)
  | some sub =>
    rw [hlive] at h
    dsimp only at h
    rw [Routine.bind_of_ok (run_now s), Routine.bind_of_ok (run_signLicenseJwt _ _ _ _ s)] at h
    obtain ⟨_, s₂, hrebind, h⟩ := Routine.bind_eq_ok.mp h
    rw [Routine.bind_of_ok (run_logAuditEvent _ s₂)] at h
    obtain ⟨hresponse, hs'⟩ := Prod.mk.inj h
    obtain ⟨hsub, hstatus⟩ := Option.filter_eq_some_iff.mp hlive
    refine ⟨_, _, sub, (Except.ok.inj hresponse).symm, rfl, ?_, by simpa using hstatus⟩
    rw [← hs', newestOn?_logEntry, newestOn?_rebindToken hs hrebind, hsub]

/-- A token is issued anew for a subscription that is alive. -/
theorem reissue_honours [Secrets] (hs : s.WellFormed) (email newDeviceId : String)
    (reason : Option String) : s.Honours d (.request (.reissue email newDeviceId reason)) := by
  intro response hok
  have h : (reissueToken email newDeviceId reason).run (Store.exec d) s = (.ok response, _) :=
    Prod.ext hok rfl
  obtain ⟨jwt, expiresAt, sub, rfl, hdevice, hnewest, hstatus⟩ := reissueToken_ok hs h
  show ∀ newest ∈ Store.newestOn? _ jwt.deviceId, newest.status ∉ dead
  intro newest hmem
  rw [hdevice] at hmem
  have heq : newest = sub := Option.some.inj (hmem.symm.trans hnewest)
  rw [heq]
  exact not_dead_of_refreshable hstatus

/-! ## every run -/

theorem WellFormed.after [Secrets] (hs : s.WellFormed) (op : Operation) :
    (s.after d op).WellFormed := by
  cases op with
  | request r => exact WellFormed.answer hs r
  | outside o => exact hs.outside o

/-- One operation that comes in time honours the end. -/
theorem honours_of_timely [Secrets] (hs : s.WellFormed) {op : Operation} (h : s.Timely op) :
    s.Honours d op := by
  cases op with
  | outside o => trivial
  | request r =>
    cases r with
    | validate deviceId => exact (validate_honours_iff hs deviceId).mpr h
    | activate input => exact activate_honours hs h
    | startTrial input => exact startTrial_honours h
    | refresh jwt deviceId => exact refresh_honours jwt deviceId
    | reissue email newDeviceId reason => exact reissue_honours hs email newDeviceId reason
    | deactivate deviceId => exact unsigned_honours (ends_deactivateLicense deviceId)
    | resetBinding email reason => exact unsigned_honours (ends_resetDeviceBinding email reason)
    | cancel accountId cancelAtPeriodEnd =>
      exact unsigned_honours (.bind fun _ => .bind fun _ => .bind fun _ => trivial)
    | reactivate accountId =>
      exact unsigned_honours (.bind fun _ => .bind fun _ => .bind fun _ => .bind fun _ => trivial)
    | refund accountId reason => exact unsigned_honours (ends_refundAccount accountId reason)
    | webhook event => exact unsigned_honours (ends_processWebhookEvent event)
    | reconcile => exact unsigned_honours (.bind fun _ => .bind fun _ => trivial)

def trialOnLaptop : Operation := .request (.startTrial ⟨"asha@example.com", "laptop"⟩)

def days (n : Nat) : Operation := .outside (.tick (n * 24 * 60 * 60 * 1000))

/-- A trial that is validated after a day, and paid for. -/
def trialPaid : List Operation :=
  [trialOnLaptop, days 1, .request (.validate "laptop"), .request (.activate firstActivation)]

/-- After the trial of two weeks. -/
def trialOver : Store :=
  letI := Secrets.plain
  [trialOnLaptop, days 15].foldl (Store.after .unbounded) (.empty 0 twoPayments)

end Dinero.Licensing
