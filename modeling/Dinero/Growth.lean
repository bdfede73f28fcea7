import Dinero.Activation
import Dinero.Footprint

/-!
# Dinero.Growth

What stays in the store whatever the others do, and what an activation in progress
knows by it: the account of its email and that it has a subscription.
-/

namespace Dinero.Licensing

variable {d : InvalidDate} {s s' : Store}

namespace Store

def accountId? (s : Store) (email : String) : Option Nat := (s.account? email).map (·.id)

/-- Accounts stay, with their subscriptions, and so does what the provider was paid. -/
structure Grows (s s' : Store) : Prop where
  accounts : ∀ email id, s.accountId? email = some id → s'.accountId? email = some id
  subscribed : ∀ id, (s.subscription? id).isSome → (s'.subscription? id).isSome
  payments : s'.razorpay.payments = s.razorpay.payments
  orders : s'.razorpay.orders = s.razorpay.orders

theorem grows_refl (s : Store) : s.Grows s := ⟨fun _ _ h => h, fun _ h => h, rfl, rfl⟩

theorem grows_trans (s s' s'' : Store) (h : s.Grows s') (h' : s'.Grows s'') : s.Grows s'' :=
  ⟨fun email id hid => h'.accounts email id (h.accounts email id hid),
    fun id hsub => h'.subscribed id (h.subscribed id hsub),
    h'.payments.trans h.payments, h'.orders.trans h.orders⟩

/-! ## lookups after a write -/

theorem sameEmail_trans_left {a b c : String} (h : sameEmail a b = true) (h' : sameEmail c b = true) :
    sameEmail a c = true := by
  unfold sameEmail at h h' ⊢
  rw [beq_iff_eq] at h h' ⊢
  rw [h, h']

/-- A new account is found by its email. -/
theorem accountId?_of_cons {account : Account} (h : s'.accounts = account :: s.accounts)
    (email : String) :
    s'.accountId? email =
      if sameEmail account.email email = true then some account.id else s.accountId? email := by
  unfold accountId? account?
  rw [h, List.find?_cons]
  by_cases hsame : sameEmail account.email email = true
  · rw [hsame, if_pos rfl]
    rfl
  · rw [if_neg hsame]
    rw [Bool.not_eq_true] at hsame
    rw [hsame]

theorem subscription?_createSubscription (data : SubscriptionData) (owner : Nat) :
    (s.createSubscription data).subscription? owner =
      if data.accountId = owner then (s.createSubscription data).subscriptions.head?
      else s.subscription? owner := by
  unfold createSubscription subscription?
  by_cases howner : data.accountId = owner
  · simp [howner]
  · have hother : (data.accountId == owner) = false := by simpa using howner
    rw [List.find?_cons, hother, if_neg howner]

theorem subscription?_modifySubscription (id : Nat) (patch : SubscriptionPatch) (owner : Nat) :
    (s.modifySubscription id (·.patch patch)).subscription? owner =
      (s.subscription? owner).map fun sub => if sub.id = id then sub.patch patch else sub := by
  refine find?_map_of_eq fun sub => ?_
  split <;> rfl

theorem accountId?_useTrial (id : Nat) (email : String) :
    ({ s with accounts := s.accounts.map fun a =>
      if a.id = id then { a with trialUsed := true } else a } : Store).accountId? email =
        s.accountId? email := by
  unfold accountId? account?
  rw [find?_map_of_eq, Option.map_map]
  · congr 1
    funext a
    simp only [Function.comp_apply]
    split <;> rfl
  · intro a
    split <;> rfl

/-- **Every call lets the store grow.** -/
theorem Change.grows {c : Call} (h : s.Change c s') : s.Grows s' := by
  cases h with
  | account email hnew =>
    refine ⟨fun other id hid => ?_, fun _ h => h, rfl, rfl⟩
    obtain ⟨found, hfound, hid⟩ := Option.map_eq_some_iff.mp hid
    have hsame : ¬ sameEmail email other = true := by
      intro hsame
      have hother := List.find?_some hfound
      have hemail := sameEmail_trans_left hother hsame
      exact absurd hemail (List.find?_eq_none.mp hnew found (mem_of_account? hfound))
    rw [accountId?_of_cons rfl, if_neg hsame]
    exact Option.map_eq_some_iff.mpr ⟨found, hfound, hid⟩
  | trialUsed id =>
    refine ⟨fun email owner howner => ?_, fun _ h => h, rfl, rfl⟩
    rw [accountId?_useTrial]
    exact howner
  | subscription data haccount =>
    refine ⟨fun _ _ h => h, fun id hsub => ?_, rfl, rfl⟩
    rw [subscription?_createSubscription]
    split
    · rfl
    · exact hsub
  | patch id patch =>
    refine ⟨fun _ _ h => h, fun owner hsub => ?_, rfl, rfl⟩
    rw [subscription?_modifySubscription, Option.isSome_map]
    exact hsub
  | _ => exact ⟨fun _ _ h => h, fun _ h => h, rfl, rfl⟩

theorem accountId?_of_create {email : String} {account : Account}
    (h : s.exec d (.accountCreate email) = (.ok account, s')) :
    s'.accountId? email = some account.id := by
  obtain ⟨haccount, rfl⟩ := accountCreate_ok h
  rw [accountId?_of_cons rfl, if_pos]
  rw [haccount]
  simp [sameEmail]

theorem exec_grows (c : Call) (s : Store) : s.Grows (s.exec d c).2 := (exec_change d c s).grows

theorem grows_of_exec {c : Call} {reply : Except ApiError c.Reply}
    (h : s.exec d c = (reply, s')) : s.Grows s' := by
  have hgrows := exec_grows (d := d) c s
  rw [h] at hgrows
  exact hgrows

theorem outside_grows (o : Outside) (s : Store) : s.Grows (o.apply s) := by
  cases o <;> exact ⟨fun _ _ h => h, fun _ h => h, rfl, rfl⟩

end Store

/-! ## an activation in progress -/

section

variable [Secrets]

/-- The provider has this payment, and the signature is good. -/
def ActivateInput.verified (input : ActivateInput) (r : Razorpay) : Bool :=
  (r.payment? input.razorpayPaymentId).any fun payment =>
    verifyPaymentSignature payment.orderId input.razorpayPaymentId input.razorpaySignature

theorem Store.Grows.verified {input : ActivateInput} (h : s.Grows s') :
    input.verified s'.razorpay = input.verified s.razorpay := by
  unfold ActivateInput.verified Razorpay.payment?
  rw [h.payments]

/-- What an activation knows when it makes a call: nothing is written before the payment is
verified, and it is written for the account of the email. -/
def ActivateInput.Promises (input : ActivateInput) (s : Store) : Call → Prop
  | .accountCreate _ => input.verified s.razorpay = true
  | .subscriptionCreate data =>
    input.verified s.razorpay = true ∧ s.accountId? input.email = some data.accountId
  | .tokenUpsert _ accountId _ _ =>
    input.verified s.razorpay = true ∧ s.accountId? input.email = some accountId ∧
      (s.subscription? accountId).isSome
  | _ => True

/-- What an activation has done when it succeeds. -/
def ActivateInput.Delivers (input : ActivateInput) (s : Store) (response : Response) : Prop :=
  input.verified s.razorpay = true ∧
    ∃ planInfo jwt expiresAt, planByBillingInterval input.billingInterval = some planInfo ∧
      response = .activated jwt planInfo.planId planInfo.billingInterval expiresAt ∧
      jwt.plan = planInfo.planId ∧ jwt.billingInterval = planInfo.billingInterval ∧
      ∃ accountId, s.accountId? input.email = some accountId ∧ (s.subscription? accountId).isSome

/-- The calls of a request, and what an activation knows. -/
def Request.Promises (r : Request) (s : Store) (c : Call) : Prop :=
  r.MayCall c ∧ ∀ input, r = .activate input → input.Promises s c

def Request.Delivers (r : Request) (s : Store) (response : Response) : Prop :=
  ∀ input, r = .activate input → input.Delivers s response

variable (input : ActivateInput) {α β : Type} {Ψ : Store → α → Prop} {Ψ' : Store → β → Prop}

theorem promises_of_reads {c : Call} (hc : c.writes = false) (s : Store) :
    (Request.activate input).Promises s c := by
  refine ⟨mayCall_of_writes_eq_false hc, fun other _ => ?_⟩
  cases c with
  | accountCreate _ | subscriptionCreate _ | tokenUpsert _ _ _ _ => cases hc
  | _ => trivial

/-- A part that reads keeps what is known. -/
theorem safe_reads {x : Endpoint α} (h : x.Within Call.Reads) {I : Store → Prop}
    (hgrows : ∀ s s', I s → s.Grows s' → I s') (hs : I s) :
    x.Safe (Store.exec d) Store.Grows (Request.activate input).Promises (fun s _ => I s) s :=
  h.safe hgrows (fun s c hI hc => ⟨promises_of_reads input hc s, hgrows s _ hI (s.exec_grows c)⟩)
    (fun _ _ hI => hI) hs

/-- The account is that of the email, and the payment is verified. -/
def ActivateInput.Knows (accountId : Nat) (s : Store) : Prop :=
  input.verified s.razorpay = true ∧ s.accountId? input.email = some accountId

theorem knows_grows {accountId : Nat} (s s' : Store) (h : input.Knows accountId s)
    (hgrows : s.Grows s') : input.Knows accountId s' :=
  ⟨hgrows.verified.trans h.1, hgrows.accounts _ _ h.2⟩

/-- … and has a subscription. -/
def ActivateInput.KnowsSubscribed (accountId : Nat) (s : Store) : Prop :=
  input.Knows accountId s ∧ (s.subscription? accountId).isSome

theorem knowsSubscribed_grows {accountId : Nat} (s s' : Store)
    (h : input.KnowsSubscribed accountId s) (hgrows : s.Grows s') :
    input.KnowsSubscribed accountId s' :=
  ⟨knows_grows input s s' h.1 hgrows, hgrows.subscribed _ h.2⟩

theorem safe_findOrCreateAccount (hs : input.verified s.razorpay = true) :
    (findOrCreateAccount input.email).Safe (Store.exec d) Store.Grows
      (Request.activate input).Promises (fun s account => input.Knows account.id s) s := by
  refine Routine.Safe.perform fun s₁ h₁ => ⟨promises_of_reads input rfl s₁, fun found s₂ hreply => ?_⟩
  obtain ⟨hfound, rfl⟩ := Prod.mk.inj hreply
  obtain rfl : s₁.account? input.email = found := Except.ok.inj hfound
  have hverified := h₁.verified.trans hs
  cases haccount : s₁.account? input.email with
  | some account =>
    have hknows : input.Knows account.id s₁ := ⟨hverified, by simp [Store.accountId?, haccount]⟩
    exact fun s₃ h₃ => knows_grows input s₁ s₃ hknows h₃
  | none =>
    refine Routine.Safe.perform_done fun s₃ h₃ => ⟨?_, fun account s₄ hcreate s₅ h₅ => ?_⟩
    · refine ⟨mayCall_of_mayWrite (.activateAccount input), fun other hother => ?_⟩
      obtain rfl : input = other := by simpa using hother
      exact h₃.verified.trans hverified
    · have hid : s₄.accountId? input.email = some account.id := Store.accountId?_of_create hcreate
      have hgrows : s₃.Grows s₄ := Store.grows_of_exec hcreate
      have hverified₄ := hgrows.verified.trans (h₃.verified.trans hverified)
      exact knows_grows input s₄ s₅ ⟨hverified₄, hid⟩ h₅

theorem safe_ensureSubscription {planInfo : PlanInfo}
    (hplan : planByBillingInterval input.billingInterval = some planInfo) (account : Account)
    (now : Int) (hs : input.Knows account.id s) :
    (ensureSubscription account planInfo now).Safe (Store.exec d) Store.Grows
      (Request.activate input).Promises (fun s _ => input.KnowsSubscribed account.id s) s := by
  refine Routine.Safe.perform fun s₁ h₁ => ⟨promises_of_reads input rfl s₁, fun found s₂ hreply => ?_⟩
  obtain ⟨hfound, rfl⟩ := Prod.mk.inj hreply
  obtain rfl : s₁.subscription? account.id = found := Except.ok.inj hfound
  have hknows := knows_grows input s s₁ hs h₁
  cases hsub : s₁.subscription? account.id with
  | some sub =>
    have hsubscribed : input.KnowsSubscribed account.id s₁ := ⟨hknows, by simp [hsub]⟩
    exact fun s₃ h₃ => knowsSubscribed_grows input s₁ s₃ hsubscribed h₃
  | none =>
    refine Routine.Safe.perform_done fun s₃ h₃ => ⟨?_, fun _ s₄ hcreate s₅ h₅ => ?_⟩
    · refine ⟨mayCall_of_mayWrite (.activateSubscription input planInfo account.id now hplan),
        fun other hother => ?_⟩
      obtain rfl : input = other := by simpa using hother
      exact knows_grows input s₁ s₃ hknows h₃
    · have hsome : (s₄.subscription? account.id).isSome := by
        rw [subscriptionCreate_ok hcreate]
        simp [Store.subscription?, Store.createSubscription]
      have hgrows : s₃.Grows s₄ := Store.grows_of_exec hcreate
      have hknows₄ := knows_grows input s₃ s₄ (knows_grows input s₁ s₃ hknows h₃) hgrows
      exact knowsSubscribed_grows input s₄ s₅ ⟨hknows₄, hsome⟩ h₅

theorem safe_signLicenseJwt {accountId : Nat} (planInfo : PlanInfo)
    (hs : input.KnowsSubscribed accountId s) :
    (signLicenseJwt input.email input.deviceId planInfo.planId planInfo.billingInterval).Safe
      (Store.exec d) Store.Grows (Request.activate input).Promises
      (fun s jwt => input.KnowsSubscribed accountId s ∧ jwt.plan = planInfo.planId ∧
        jwt.billingInterval = planInfo.billingInterval) s := by
  refine Routine.Safe.perform fun s₁ h₁ => ⟨promises_of_reads input rfl s₁, fun now s₂ hreply => ?_⟩
  have h₂ := knowsSubscribed_grows input s s₂ hs
    (Store.grows_trans _ _ _ h₁ (Store.grows_of_exec hreply))
  exact fun s₃ h₃ => ⟨knowsSubscribed_grows input s₂ s₃ h₂ h₃, rfl, rfl⟩

theorem safe_bindAndIssue {planInfo : PlanInfo}
    (hplan : planByBillingInterval input.billingInterval = some planInfo) (account : Account)
    (hs : input.Knows account.id s) :
    (bindAndIssue input planInfo account).Safe (Store.exec d) Store.Grows
      (Request.activate input).Promises input.Delivers s := by
  have hreads {α : Type} {x : Endpoint α} (h : x.Within Call.Reads) {s : Store}
      (hs : input.Knows account.id s) :=
    safe_reads (d := d) input h (knows_grows input) hs
  refine Routine.Safe.bind Store.grows_refl (hreads (reads_perform rfl) hs) fun binding s₁ h₁ => ?_
  refine Routine.Safe.bind Store.grows_refl (hreads (reads_refuseOtherDevice _ _) h₁) fun _ s₂ h₂ => ?_
  refine Routine.Safe.bind Store.grows_refl (hreads (reads_perform rfl) h₂) fun now s₃ h₃ => ?_
  refine Routine.Safe.bind Store.grows_refl (safe_ensureSubscription input hplan account now h₃)
    fun _ s₄ h₄ => ?_
  refine Routine.Safe.perform fun s₅ h₅ => ⟨?_, fun _ s₆ hupsert => ?_⟩
  · refine ⟨mayCall_of_mayWrite (.activateToken input account.id _ _), fun other hother => ?_⟩
    obtain rfl : input = other := by simpa using hother
    have hknows := knowsSubscribed_grows input s₄ s₅ h₄ h₅
    exact ⟨hknows.1.1, hknows.1.2, hknows.2⟩
  · have hgrows : s₅.Grows s₆ := Store.grows_of_exec hupsert
    have h₆ := knowsSubscribed_grows input s₅ s₆ (knowsSubscribed_grows input s₄ s₅ h₄ h₅) hgrows
    refine Routine.Safe.bind Store.grows_refl (safe_signLicenseJwt input planInfo h₆)
      fun jwt s₇ h₇ => ?_
    have hlog := safe_reads (d := d) input (reads_logAuditEvent
      { accountId := some account.id, eventType := "license_activated",
        deviceFingerprint := some input.deviceId }) (knowsSubscribed_grows input) h₇.1
    refine Routine.Safe.bind Store.grows_refl hlog fun _ s₈ h₈ s₉ h₉ => ?_
    have hend := knowsSubscribed_grows input s₈ s₉ h₈ h₉
    exact ⟨hend.1.1, planInfo, jwt, now + tokenLifetimeMs, hplan, rfl, h₇.2.1, h₇.2.2,
      account.id, hend.1.2, hend.2⟩

/-- **What an activation knows**, whatever the others do meanwhile. -/
theorem safe_activateLicense (s : Store) :
    (activateLicense input).Safe (Store.exec d) Store.Grows (Request.activate input).Promises
      input.Delivers s := by
  have hreads {α : Type} {x : Endpoint α} (h : x.Within Call.Reads) (s : Store) :=
    safe_reads (d := d) input h (I := fun _ => True) (fun _ _ _ _ => trivial) (s := s) trivial
  refine Routine.Safe.bind Store.grows_refl (hreads (reads_logAuditEvent _) s) fun _ s₁ _ => ?_
  refine Routine.Safe.bind Store.grows_refl (hreads (reads_countRecentEvents _ _ _) s₁)
    fun attempts s₂ _ => ?_
  refine Routine.Safe.bind Store.grows_refl (hreads (reads_refuseWhen _ _) s₂) fun _ s₃ _ => ?_
  refine Routine.Safe.perform fun s₄ _ => ⟨promises_of_reads input rfl s₄,
    fun payment s₅ hreply => ?_⟩
  obtain ⟨hpayment, rfl⟩ := paymentsFetch_ok hreply
  by_cases hsignature : verifyPaymentSignature payment.orderId input.razorpayPaymentId
      input.razorpaySignature = false
  · rw [refuseWhen, if_pos hsignature]
    trivial
  · rw [refuseWhen, if_neg hsignature]
    have hverified : input.verified s₅.razorpay = true := by
      rw [ActivateInput.verified, hpayment, Option.any_some]
      simpa using hsignature
    rw [Routine.pure_eq, Routine.done_bind]
    cases hplan : planByBillingInterval input.billingInterval with
    | none => trivial
    | some planInfo =>
      exact Routine.Safe.bind Store.grows_refl (safe_findOrCreateAccount input hverified)
        fun account s₆ h₆ => safe_bindAndIssue input hplan account h₆

end

theorem safe_notActivating [Secrets] {r : Request} (hr : ∀ input, r ≠ .activate input)
    (s : Store) : r.program.Safe (Store.exec d) Store.Grows r.Promises r.Delivers s := by
  refine (program_within r).safe (I := fun _ => True) (fun _ _ _ _ => trivial) ?_ ?_ trivial
  · exact fun s c _ hc => ⟨⟨hc, fun input h => absurd h (hr input)⟩, trivial⟩
  · exact fun _ _ _ input h => absurd h (hr input)

/-- **The contract** of the backend while its store grows. -/
theorem growth_contract [Secrets] :
    (backend d).Contract Store.Grows Request.Promises Request.Delivers where
  refl := Store.grows_refl
  trans := Store.grows_trans
  call _ c s _ := s.exec_grows c
  outside := Store.outside_grows
  start r s := by
    cases r with
    | activate input =>
      refine (safe_activateLicense input s).imp fun s response h other hother => ?_
      obtain rfl : input = other := by simpa using hother
      exact h
    | _ => exact safe_notActivating (fun _ h => by cases h) s

end Dinero.Licensing
