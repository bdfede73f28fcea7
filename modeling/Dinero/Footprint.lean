import Dinero.Endpoints

/-!
# Dinero.Footprint

Which endpoint can make which call, whatever it is answered with and whatever the
others do meanwhile.
-/

namespace Dinero.Licensing

/-- A call that changes a table other than the audit log, or the provider. -/
def Call.writes : Call → Bool
  | accountCreate _ | accountUseTrial _ | tokenUpsert _ _ _ _ | tokenCreate _ _ _ _
  | tokenUnbind _ _ | tokenRebind _ _ _ _ | subscriptionCreate _ | subscriptionUpdate _ _
  | recordCreate _ | refundsCreate _ => true
  | _ => false

/-- What a request can write. -/
inductive Request.MayWrite : Request → Call → Prop where
  | activateAccount (input : ActivateInput) :
    MayWrite (.activate input) (.accountCreate input.email)
  | activateSubscription (input : ActivateInput) (planInfo : PlanInfo) (accountId : Nat)
    (now : Int) (hplan : planByBillingInterval input.billingInterval = some planInfo) :
    MayWrite (.activate input) (.subscriptionCreate
      { accountId, planId := planInfo.planId, status := "active",
        billingInterval := planInfo.billingInterval, currentPeriodStart := some now })
  | activateToken (input : ActivateInput) (accountId : Nat) (now expiresAt : Int) :
    MayWrite (.activate input) (.tokenUpsert input.deviceId accountId now expiresAt)
  | trialAccount (input : StartTrialInput) :
    MayWrite (.startTrial input) (.accountCreate input.email)
  | trialSubscription (input : StartTrialInput) (accountId : Nat) (start periodEnd : Int) :
    MayWrite (.startTrial input) (.subscriptionCreate
      { accountId, planId := trialPlanId, status := "trialing", billingInterval := "monthly",
        currentPeriodStart := some start, currentPeriodEnd := some periodEnd })
  | trialToken (input : StartTrialInput) (accountId : Nat) (now expiresAt : Int) :
    MayWrite (.startTrial input) (.tokenCreate input.deviceId accountId now expiresAt)
  | trialUsed (input : StartTrialInput) (accountId : Nat) :
    MayWrite (.startTrial input) (.accountUseTrial accountId)
  | deactivate (deviceId : String) (id : Nat) (revokedAt : Int) :
    MayWrite (.deactivate deviceId) (.tokenUnbind id revokedAt)
  | resetBinding (email : String) (reason : Option String) (id : Nat) (revokedAt : Int) :
    MayWrite (.resetBinding email reason) (.tokenUnbind id revokedAt)
  | reissueRebind (email newDeviceId : String) (reason : Option String) (id : Nat)
    (now expiresAt : Int) :
    MayWrite (.reissue email newDeviceId reason) (.tokenRebind id newDeviceId now expiresAt)
  | reissueCreate (email newDeviceId : String) (reason : Option String) (accountId : Nat)
    (now expiresAt : Int) :
    MayWrite (.reissue email newDeviceId reason) (.tokenCreate newDeviceId accountId now expiresAt)
  | cancel (accountId : Nat) (cancelAtPeriodEnd : Option Bool) (id : Nat)
    (patch : SubscriptionPatch) :
    MayWrite (.cancel accountId cancelAtPeriodEnd) (.subscriptionUpdate id patch)
  | reactivate (accountId id : Nat) :
    MayWrite (.reactivate accountId) (.subscriptionUpdate id { cancelAtPeriodEnd := some false })
  | refund (accountId : Nat) (reason paymentId : String) :
    MayWrite (.refund accountId reason) (.refundsCreate paymentId)
  | refundCancel (accountId : Nat) (reason : String) (id : Nat) :
    MayWrite (.refund accountId reason) (.subscriptionUpdate id { status := some "canceled" })
  | webhookRecord (event : RazorpayWebhookEvent) (accountId : Nat) (subscriptionId : Option Nat)
    (haccount : event.accountId = some accountId) :
    MayWrite (.webhook event) (.recordCreate
      { accountId, subscriptionId, razorpaySubscriptionId := event.subscriptionId })
  | webhookPatch (event : RazorpayWebhookEvent) (id : Nat) (patch : SubscriptionPatch) :
    MayWrite (.webhook event) (.subscriptionUpdate id patch)
  | reconcile (id : Nat) (status : String) :
    MayWrite .reconcile (.subscriptionUpdate id { status := some status })

def Request.MayCall (r : Request) (c : Call) : Prop := c.writes = true → r.MayWrite c

/-- A call that writes nothing. -/
def Call.Reads (c : Call) : Prop := c.writes = false

section

variable {r : Request} {α : Type}

theorem mayCall_of_writes_eq_false {c : Call} (h : c.writes = false) : r.MayCall c := by
  intro hwrites
  rw [h] at hwrites
  cases hwrites

theorem mayCall_of_mayWrite {c : Call} (h : r.MayWrite c) : r.MayCall c := fun _ => h

/-- A part that writes nothing is allowed to everybody. -/
theorem within_of_reads {x : Endpoint α} (h : x.Within Call.Reads) : x.Within r.MayCall :=
  h.mono fun _ => mayCall_of_writes_eq_false

theorem reads_bind {c : Call} {f : c.Reply → Endpoint α} (hc : c.writes = false)
    (hf : ∀ reply, (f reply).Within Call.Reads) : (perform c >>= f).Within Call.Reads :=
  Routine.within_perform_bind.mpr ⟨hc, hf⟩

theorem reads_perform {c : Call} (hc : c.writes = false) : (perform c).Within Call.Reads :=
  Routine.within_perform.mpr hc

/-- On from a call that writes nothing. -/
theorem within_read_bind {c : Call} {f : c.Reply → Endpoint α} (hc : c.writes = false)
    (hf : ∀ reply, (f reply).Within r.MayCall) : (perform c >>= f).Within r.MayCall :=
  Routine.within_perform_bind.mpr ⟨mayCall_of_writes_eq_false hc, hf⟩

/-- On from a write of the request. -/
theorem within_write_bind {c : Call} {f : c.Reply → Endpoint α} (hc : r.MayWrite c)
    (hf : ∀ reply, (f reply).Within r.MayCall) : (perform c >>= f).Within r.MayCall :=
  Routine.within_perform_bind.mpr ⟨mayCall_of_mayWrite hc, hf⟩

theorem within_read {c : Call} (hc : c.writes = false) : (perform c).Within r.MayCall :=
  Routine.within_perform.mpr (mayCall_of_writes_eq_false hc)

theorem within_write {c : Call} (hc : r.MayWrite c) : (perform c).Within r.MayCall :=
  Routine.within_perform.mpr (mayCall_of_mayWrite hc)

/-! ## parts that write nothing -/

theorem reads_refuseWhen (p : Prop) [Decidable p] (e : ApiError) :
    (refuseWhen p e).Within Call.Reads := by
  unfold refuseWhen
  split <;> trivial

theorem reads_signLicenseJwt (sub deviceId plan billingInterval : String) :
    (signLicenseJwt sub deviceId plan billingInterval).Within Call.Reads :=
  reads_bind rfl fun _ => trivial

theorem reads_logAuditEvent (data : AuditData) : (logAuditEvent data).Within Call.Reads :=
  reads_perform rfl

theorem reads_countRecentEvents (eventType : String) (windowMs : Int)
    (matchPayload : AuditPayload → Bool) :
    (countRecentEvents eventType windowMs matchPayload).Within Call.Reads :=
  reads_bind rfl fun _ => reads_bind rfl fun _ => trivial

theorem reads_getTokenAndSubscription (deviceId : String) :
    (getTokenAndSubscription deviceId).Within Call.Reads := by
  refine reads_bind rfl fun token => ?_
  cases token with
  | none => trivial
  | some token => exact reads_bind rfl fun _ => trivial

theorem reads_getTokenWithAccount (deviceId : String) :
    (getTokenWithAccount deviceId).Within Call.Reads := by
  refine reads_bind rfl fun token => ?_
  cases token <;> trivial

theorem reads_accountFor (email : String) : (accountFor email).Within Call.Reads := by
  refine reads_bind rfl fun account => ?_
  cases account <;> trivial

theorem reads_subscriptionOf (accountId : Nat) :
    (subscriptionOf accountId).Within Call.Reads := by
  refine reads_bind rfl fun subscription => ?_
  cases subscription <;> trivial

theorem reads_requireReason (reason : Option String) (message : String) :
    (requireReason reason message).Within Call.Reads := reads_refuseWhen _ _

theorem reads_refuseEnded (currentPeriodEnd : Option Int) :
    (refuseEnded currentPeriodEnd).Within Call.Reads := by
  cases currentPeriodEnd with
  | none => trivial
  | some periodEnd => exact reads_bind rfl fun _ => reads_refuseWhen _ _

theorem reads_refuseOtherDevice (currentBinding : Option LicenseToken)
    (deviceId : String) : (refuseOtherDevice currentBinding deviceId).Within Call.Reads := by
  unfold refuseOtherDevice
  cases otherDevice currentBinding deviceId <;> trivial

theorem reads_recognizeDevice (input : StartTrialInput) (existingBinding : Option LicenseToken) :
    (recognizeDevice input existingBinding).Within Call.Reads := by
  cases existingBinding with
  | none => trivial
  | some binding =>
    refine reads_bind rfl fun boundSub => ?_
    cases boundSub with
    | none => trivial
    | some sub => exact (reads_signLicenseJwt _ _ _ _).bind fun _ => trivial

theorem reads_logTrialGuardDecision (deviceId : String)
    (decision : TrialGuardDecision) :
    (logTrialGuardDecision deviceId decision).Within Call.Reads := by
  cases decision with
  | allowNewTrial => trivial
  | blockedEmailReused => exact reads_logAuditEvent _
  | blockedDeviceReused => exact reads_logAuditEvent _
  | recognizedReturningDevice _ => exact reads_logAuditEvent _

theorem reads_boundSubscriptionStatus (existingBinding : Option LicenseToken) :
    (boundSubscriptionStatus existingBinding).Within Call.Reads := by
  cases existingBinding with
  | none => trivial
  | some binding => exact reads_bind rfl fun _ => trivial

theorem reads_deviceHasPriorTrialStartedEvent (deviceId : String) :
    (deviceHasPriorTrialStartedEvent deviceId).Within Call.Reads :=
  Routine.Within.bind (reads_countRecentEvents _ _ _) fun _ => trivial

theorem reads_findSubscriptionByRazorpaySubscriptionId
    (razorpaySubscriptionId : String) :
    (findSubscriptionByRazorpaySubscriptionId razorpaySubscriptionId).Within Call.Reads := by
  refine reads_bind rfl fun record => ?_
  cases record.bind (·.subscriptionId) with
  | none => trivial
  | some subscriptionId => exact reads_perform rfl

theorem reads_isDuplicateEvent (eventId : String) :
    (isDuplicateEvent eventId).Within Call.Reads :=
  Routine.Within.bind (reads_countRecentEvents _ _ _) fun _ => trivial

end

/-! ## the endpoints -/

section

variable (input : ActivateInput)

theorem within_findOrCreateAccount :
    (findOrCreateAccount input.email).Within (Request.activate input).MayCall := by
  refine within_read_bind rfl fun account => ?_
  cases account with
  | none => exact within_write (.activateAccount input)
  | some account => trivial

theorem within_ensureSubscription {planInfo : PlanInfo}
    (hplan : planByBillingInterval input.billingInterval = some planInfo) (account : Account)
    (now : Int) :
    (ensureSubscription account planInfo now).Within (Request.activate input).MayCall := by
  refine within_read_bind rfl fun existingSubscription => ?_
  cases existingSubscription with
  | none => exact within_write (.activateSubscription input planInfo account.id now hplan)
  | some _ => trivial

theorem within_bindAndIssue {planInfo : PlanInfo}
    (hplan : planByBillingInterval input.billingInterval = some planInfo) (account : Account) :
    (bindAndIssue input planInfo account).Within (Request.activate input).MayCall := by
  refine within_read_bind rfl fun currentBinding => ?_
  refine (within_of_reads (reads_refuseOtherDevice currentBinding input.deviceId)).bind fun _ => ?_
  refine within_read_bind rfl fun now => ?_
  refine (within_ensureSubscription input hplan account now).bind fun _ => ?_
  refine within_write_bind (.activateToken input account.id _ _) fun _ => ?_
  refine (within_of_reads (reads_signLicenseJwt _ _ _ _)).bind fun _ => ?_
  exact (within_of_reads (reads_logAuditEvent _)).bind fun _ => trivial

theorem within_activateLicense [Secrets] :
    (activateLicense input).Within (Request.activate input).MayCall := by
  refine (within_of_reads (reads_logAuditEvent _)).bind fun _ => ?_
  refine (within_of_reads (reads_countRecentEvents _ _ _)).bind fun _ => ?_
  refine (within_of_reads (reads_refuseWhen _ _)).bind fun _ => ?_
  refine within_read_bind rfl fun _ => ?_
  refine (within_of_reads (reads_refuseWhen _ _)).bind fun _ => ?_
  cases hplan : planByBillingInterval input.billingInterval with
  | none => trivial
  | some planInfo =>
    exact (within_findOrCreateAccount input).bind fun account =>
      within_bindAndIssue input hplan account

end

section

variable (input : StartTrialInput)

theorem within_createTrial (account : Account) :
    (createTrial input account).Within (Request.startTrial input).MayCall := by
  refine within_read_bind rfl fun now => ?_
  refine within_write_bind (.trialSubscription input account.id _ _) fun _ => ?_
  refine within_write_bind (.trialToken input account.id _ _) fun _ => ?_
  refine within_write_bind (.trialUsed input account.id) fun _ => ?_
  refine (within_of_reads (reads_logAuditEvent _)).bind fun _ => ?_
  exact (within_of_reads (reads_signLicenseJwt _ _ _ _)).bind fun _ => trivial

theorem within_startTrial :
    (startTrial input).Within (Request.startTrial input).MayCall := by
  refine within_read_bind rfl fun existingBinding => ?_
  refine (within_of_reads (reads_boundSubscriptionStatus existingBinding)).bind fun status => ?_
  refine within_read_bind rfl fun account => ?_
  refine (within_of_reads (reads_deviceHasPriorTrialStartedEvent input.deviceId)).bind fun priorTrial => ?_
  refine (within_of_reads (reads_logTrialGuardDecision _ _)).bind fun _ => ?_
  cases decideTrialEligibility
      { accountTrialUsed := (account.map (·.trialUsed)).getD false
        deviceBoundSubscriptionStatus := status
        deviceHasPriorTrialStartedEvent := priorTrial } with
  | recognizedReturningDevice _ => exact (within_of_reads (reads_recognizeDevice input existingBinding))
  | blockedDeviceReused => trivial
  | blockedEmailReused => trivial
  | allowNewTrial =>
    cases account with
    | some account => exact within_createTrial input account
    | none =>
      exact within_write_bind (.trialAccount input) fun account => within_createTrial input account

end

theorem within_validateLicense (deviceId : String) :
    (validateLicense deviceId).Within (Request.validate deviceId).MayCall := by
  refine (within_of_reads (reads_getTokenWithAccount deviceId)).bind fun found => ?_
  refine within_read_bind rfl fun subscription => ?_
  cases subscription with
  | none => trivial
  | some subscription =>
    refine within_read_bind rfl fun now => ?_
    refine (within_of_reads (reads_signLicenseJwt _ _ _ _)).bind fun _ => ?_
    exact (within_of_reads (reads_logAuditEvent _)).bind fun _ => trivial

theorem within_refreshLicenseToken (jwt : Option LicenseJwt) (deviceId : String) :
    (refreshLicenseToken jwt deviceId).Within (Request.refresh jwt deviceId).MayCall := by
  cases jwt with
  | none => exact (within_of_reads (reads_logAuditEvent _)).bind fun _ => trivial
  | some claims =>
    refine (within_of_reads (reads_refuseWhen _ _)).bind fun _ => ?_
    refine within_read_bind rfl fun nowMs => ?_
    refine (within_of_reads (reads_refuseWhen _ _)).bind fun _ => ?_
    refine (within_of_reads (reads_getTokenAndSubscription deviceId)).bind fun found => ?_
    obtain ⟨_, subscription⟩ := found
    dsimp only
    cases subscription.filter fun sub => sub.status ∈ refreshable with
    | none => trivial
    | some subscription =>
      refine within_read_bind rfl fun now => ?_
      exact (within_of_reads (reads_signLicenseJwt _ _ _ _)).bind fun _ => trivial

theorem within_deactivateLicense (deviceId : String) :
    (deactivateLicense deviceId).Within (Request.deactivate deviceId).MayCall := by
  refine (within_of_reads (reads_getTokenWithAccount deviceId)).bind fun found => ?_
  refine within_read_bind rfl fun now => ?_
  refine within_write_bind (.deactivate deviceId _ _) fun _ => ?_
  refine (within_of_reads (reads_logAuditEvent _)).bind fun _ => ?_
  exact within_read_bind rfl fun _ => trivial

theorem within_resetDeviceBinding (email : String) (reason : Option String) :
    (resetDeviceBinding email reason).Within (Request.resetBinding email reason).MayCall := by
  refine (within_of_reads (reads_requireReason _ _)).bind fun _ => ?_
  refine (within_of_reads (reads_accountFor email)).bind fun account => ?_
  refine within_read_bind rfl fun token => ?_
  cases token with
  | none => trivial
  | some token =>
    refine within_read_bind rfl fun now => ?_
    refine within_write_bind (.resetBinding email reason _ _) fun _ => ?_
    exact (within_of_reads (reads_logAuditEvent _)).bind fun _ => trivial

theorem within_reissueToken (email newDeviceId : String) (reason : Option String) :
    (reissueToken email newDeviceId reason).Within
      (Request.reissue email newDeviceId reason).MayCall := by
  refine (within_of_reads (reads_requireReason _ _)).bind fun _ => ?_
  refine (within_of_reads (reads_accountFor email)).bind fun account => ?_
  refine within_read_bind rfl fun conflicting => ?_
  refine (within_of_reads (reads_refuseWhen _ _)).bind fun _ => ?_
  refine within_read_bind rfl fun subscription => ?_
  cases subscription.filter fun sub => sub.status ∈ refreshable with
  | none => trivial
  | some subscription =>
    refine within_read_bind rfl fun now => ?_
    refine (within_of_reads (reads_signLicenseJwt _ _ _ _)).bind fun newJwt => ?_
    refine Routine.Within.bind ?_ fun _ => (within_of_reads (reads_logAuditEvent _)).bind fun _ => trivial
    refine within_read_bind rfl fun existing => ?_
    cases existing with
    | some token => exact within_write (.reissueRebind email newDeviceId reason _ _ _)
    | none => exact within_write (.reissueCreate email newDeviceId reason _ _ _)

theorem within_cancelSubscription (accountId : Nat) (cancelAtPeriodEnd : Option Bool) :
    (cancelSubscription accountId cancelAtPeriodEnd).Within
      (Request.cancel accountId cancelAtPeriodEnd).MayCall := by
  refine (within_of_reads (reads_subscriptionOf accountId)).bind fun subscription => ?_
  refine within_write_bind (.cancel accountId cancelAtPeriodEnd _ _) fun _ => ?_
  exact (within_of_reads (reads_logAuditEvent _)).bind fun _ => trivial

theorem within_reactivateSubscription (accountId : Nat) :
    (reactivateSubscription accountId).Within (Request.reactivate accountId).MayCall := by
  refine (within_of_reads (reads_subscriptionOf accountId)).bind fun subscription => ?_
  refine (within_of_reads (reads_refuseEnded subscription.currentPeriodEnd)).bind fun _ => ?_
  refine within_write_bind (.reactivate accountId _) fun _ => ?_
  exact (within_of_reads (reads_logAuditEvent _)).bind fun _ => trivial

theorem within_issueRefund (accountId : Nat) (account : Account) (subscription : Subscription)
    (reason paymentId : String) :
    (issueRefund account subscription reason paymentId).Within
      (Request.refund accountId reason).MayCall := by
  refine within_write_bind (.refund accountId reason paymentId) fun _ => ?_
  refine within_write_bind (.refundCancel accountId reason _) fun _ => ?_
  refine (within_of_reads (reads_logAuditEvent _)).bind fun _ => ?_
  exact within_read_bind rfl fun _ => trivial

theorem within_refundAccount (accountId : Nat) (reason : String) :
    (refundAccount accountId reason).Within (Request.refund accountId reason).MayCall := by
  refine within_read_bind rfl fun account => ?_
  cases account with
  | none => trivial
  | some account =>
    refine (within_of_reads (reads_subscriptionOf accountId)).bind fun subscription => ?_
    refine within_read_bind rfl fun paymentRecord => ?_
    cases (paymentRecord.bind (·.razorpayPaymentId)).filter (· ≠ "") with
    | none => trivial
    | some paymentId => exact within_issueRefund accountId account subscription reason paymentId

/-! ## the webhook and the reconciliation -/

section

variable (event : RazorpayWebhookEvent)

theorem within_onSubscriptionCreated :
    (onSubscriptionCreated event).Within (Request.webhook event).MayCall := by
  unfold onSubscriptionCreated
  cases haccount : event.accountId with
  | none => trivial
  | some accountId =>
    refine within_read_bind rfl fun existing => ?_
    have hrecord := within_write (Request.MayWrite.webhookRecord event accountId
      (existing.map (·.id)) haccount)
    cases existing with
    | none => exact hrecord
    | some existing => exact within_write_bind (.webhookPatch event _ _) fun _ => hrecord

theorem within_patchLinked (razorpaySubscriptionId : String) (patch : SubscriptionPatch) :
    (patchLinked razorpaySubscriptionId patch).Within (Request.webhook event).MayCall := by
  refine (within_of_reads (reads_findSubscriptionByRazorpaySubscriptionId _)).bind fun subscription => ?_
  cases subscription with
  | none => trivial
  | some subscription => exact within_write (.webhookPatch event _ _)

theorem within_handleEvent : (handleEvent event).Within (Request.webhook event).MayCall := by
  unfold handleEvent
  split
  · exact within_onSubscriptionCreated event
  · unfold onInvoicePaid
    split
    · exact within_patchLinked event _ _
    · trivial
  · unfold onPaymentFailed
    split
    · exact within_patchLinked event _ _
    · trivial
  · trivial

theorem within_processWebhookEvent :
    (processWebhookEvent event).Within (Request.webhook event).MayCall := by
  refine (within_of_reads (reads_isDuplicateEvent event.id)).bind fun duplicate => ?_
  cases duplicate with
  | true => trivial
  | false =>
    exact (within_handleEvent event).bind fun _ => (within_of_reads (reads_logAuditEvent _)).bind fun _ => trivial

end

theorem within_none {r : Request} :
    (return none : Endpoint (Option String)).Within r.MayCall := trivial

theorem within_reconcileOne (sub : Subscription) :
    (reconcileOne sub).Within Request.reconcile.MayCall := by
  refine within_read_bind rfl fun record => ?_
  cases truthy (record.bind (·.razorpaySubscriptionId)) with
  | none => trivial
  | some razorpaySubscriptionId =>
    have hfetch : (some <$> perform (.subscriptionsFetch razorpaySubscriptionId) :
        Endpoint (Option String)).Within Request.reconcile.MayCall :=
      Routine.Within.bind (within_read rfl) fun _ => trivial
    refine Routine.Within.bind (Routine.Within.catching hfetch fun _ => within_none) fun remote => ?_
    cases (remote.bind razorpayToLocalStatus).filter (· ≠ sub.status) with
    | none => trivial
    | some expectedLocalStatus =>
      refine within_write_bind (.reconcile _ _) fun _ => ?_
      exact (within_of_reads (reads_logAuditEvent _)).bind fun _ => trivial

theorem within_reconcileAll (subs : List Subscription) :
    (reconcileAll subs).Within Request.reconcile.MayCall := by
  induction subs with
  | nil => trivial
  | cons sub rest ih => exact (within_reconcileOne sub).bind fun _ => ih.bind fun _ => trivial

/-- **The footprint** of every endpoint. -/
theorem program_within [Secrets] (r : Request) : r.program.Within r.MayCall := by
  cases r with
  | activate input => exact within_activateLicense input
  | startTrial input => exact within_startTrial input
  | validate deviceId => exact within_validateLicense deviceId
  | refresh jwt deviceId => exact within_refreshLicenseToken jwt deviceId
  | deactivate deviceId => exact within_deactivateLicense deviceId
  | resetBinding email reason => exact within_resetDeviceBinding email reason
  | reissue email newDeviceId reason => exact within_reissueToken email newDeviceId reason
  | cancel accountId cancelAtPeriodEnd =>
    exact within_cancelSubscription accountId cancelAtPeriodEnd
  | reactivate accountId => exact within_reactivateSubscription accountId
  | refund accountId reason => exact within_refundAccount accountId reason
  | webhook event => exact within_processWebhookEvent event
  | reconcile =>
    exact within_read_bind rfl fun subs => (within_reconcileAll subs).bind fun _ => trivial

end Dinero.Licensing
