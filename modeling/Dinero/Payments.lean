import Dinero.Charges
import Dinero.Constraints
import Dinero.Growth
import Dinero.Runs

/-!
# Dinero.Payments

What is bought with a payment: the provider knows the plan of its order, an
activation takes the plan from the request, and nobody remembers for whom a
payment was used.
-/

namespace Dinero.Licensing

variable {d : InvalidDate} {s s' : Store}

/-! ## sales -/

/-- The backend, and the activations that succeeded with the tokens issued, newest first. -/
structure Sales where
  system : Backend
  issued : List (ActivateInput × LicenseJwt) := []

namespace Sales

def step [Secrets] (d : InvalidDate) (l : Sales) (e : BackendEvent) : Sales where
  system := l.system.step (backend d) e
  issued := match l.system.answered (backend d) e with
    | some (.activate input, .activated jwt _ _ _) => (input, jwt) :: l.issued
    | _ => l.issued

def store (l : Sales) : Store := l.system.store

/-- Each payment activates one account at most, and gives it the plan of its order. -/
structure PaidFor (l : Sales) : Prop where
  account : ∀ a ∈ l.issued, ∀ b ∈ l.issued, a.1.razorpayPaymentId = b.1.razorpayPaymentId →
    l.store.accountId? a.1.email = l.store.accountId? b.1.email
  plan : ∀ a ∈ l.issued, ∃ billingInterval planInfo,
    planByBillingInterval billingInterval = some planInfo ∧
      l.store.razorpay.paidPlan? a.1.razorpayPaymentId = some planInfo.planId ∧
      a.2.plan = planInfo.planId ∧ a.2.billingInterval = planInfo.billingInterval ∧
      ∃ id sub, l.store.accountId? a.1.email = some id ∧ l.store.subscription? id = some sub ∧
        sub.planId = planInfo.planId ∧ sub.billingInterval = planInfo.billingInterval

end Sales

/-! ## accounts and their emails -/

theorem Store.Grows.paidPlan? (h : s.Grows s') (paymentId : String) :
    s'.razorpay.paidPlan? paymentId = s.razorpay.paidPlan? paymentId := by
  unfold Razorpay.paidPlan? Razorpay.payment?
  rw [h.payments, h.orders]

/-- Emails that are taken for one have one account. -/
theorem accountId?_of_sameEmail {email other : String} (h : sameEmail email other = true) :
    s.accountId? email = s.accountId? other := by
  have heq : email.toLower = other.toLower := by simpa [sameEmail] using h
  unfold Store.accountId? Store.account? sameEmail
  rw [heq]

/-- Two emails with one account are taken for one. -/
theorem sameEmail_of_accountId? (hs : s.WellFormed) {email other : String} {id : Nat}
    (h : s.accountId? email = some id) (h' : s.accountId? other = some id) :
    sameEmail email other = true := by
  obtain ⟨a, ha, hid⟩ := Option.map_eq_some_iff.mp h
  obtain ⟨b, hb, hid'⟩ := Option.map_eq_some_iff.mp h'
  have hsame : a = b := List.inj_on_of_nodup_map hs.accountIds (Store.mem_of_account? ha)
    (Store.mem_of_account? hb) (hid.trans hid'.symm)
  have hemail := List.find?_some ha
  have hother := List.find?_some hb
  rw [hsame] at hemail
  unfold sameEmail at hemail hother ⊢
  rw [beq_iff_eq] at hemail hother ⊢
  rw [← hemail, hother]

section

variable [Secrets]

/-! ## honest purchases -/

/-- The plan an activation will issue a token for, if its payment is good. -/
def ActivateInput.purchase? (input : ActivateInput) (r : Razorpay) : Option PlanInfo :=
  if input.verified r = true then planByBillingInterval input.billingInterval else none

/-- A subscription to the plan. -/
def Subscription.IsFor (sub : Subscription) (planInfo : PlanInfo) : Prop :=
  sub.planId = planInfo.planId ∧ sub.billingInterval = planInfo.billingInterval

/-- The newest subscription of the email, if any, is to the plan. -/
def Store.HasNoOther (s : Store) (email : String) (planInfo : PlanInfo) : Prop :=
  ∀ id ∈ s.accountId? email, ∀ sub ∈ s.subscription? id, sub.IsFor planInfo

/-- Two purchases that get on: one payment is used by one email, and one email buys one plan. -/
def ActivateInput.Agrees (input other : ActivateInput) (r : Razorpay) : Prop :=
  ∀ planInfo ∈ input.purchase? r, ∀ planInfo' ∈ other.purchase? r,
    (input.razorpayPaymentId = other.razorpayPaymentId →
      sameEmail input.email other.email = true) ∧
    (sameEmail input.email other.email = true → planInfo = planInfo')

/-- An honest purchase: of the plan that was paid for, with a payment that nobody else has used,
for an account that has no other plan. -/
def Sales.Honest (l : Sales) : BackendEvent → Prop
  | .start (.activate input) =>
    (∀ planInfo ∈ input.purchase? l.store.razorpay,
      l.store.razorpay.paidPlan? input.razorpayPaymentId = some planInfo.planId ∧
        l.store.HasNoOther input.email planInfo) ∧
    ∀ other, .activate other ∈ l.system.requests → input.Agrees other l.store.razorpay
  | _ => True

/-! ## what is kept -/

/-- What every request that came in has bought, and what was issued for it. -/
structure Sales.Sound (d : InvalidDate) (l : Sales) : Prop where
  wellFormed : l.store.WellFormed
  safe : l.system.AllSafe (backend d) Store.Grows Request.Promises Request.Delivers
  only : ∀ r ∈ l.system.requests, ∃ input, r = .activate input
  bought : ∀ input, .activate input ∈ l.system.requests →
    ∀ planInfo ∈ input.purchase? l.store.razorpay,
      l.store.razorpay.paidPlan? input.razorpayPaymentId = some planInfo.planId ∧
        l.store.HasNoOther input.email planInfo
  agree : ∀ input, .activate input ∈ l.system.requests →
    ∀ other, .activate other ∈ l.system.requests → input.Agrees other l.store.razorpay
  issued : ∀ a ∈ l.issued, .activate a.1 ∈ l.system.requests ∧
    ∃ planInfo ∈ a.1.purchase? l.store.razorpay,
      a.2.plan = planInfo.planId ∧ a.2.billingInterval = planInfo.billingInterval ∧
      ∃ id, l.store.accountId? a.1.email = some id ∧ (l.store.subscription? id).isSome

theorem Store.Grows.purchase? {input : ActivateInput} (h : s.Grows s') :
    input.purchase? s'.razorpay = input.purchase? s.razorpay := by
  unfold ActivateInput.purchase?
  rw [h.verified]

theorem Sales.Sound.paidFor {l : Sales} (h : l.Sound d) : l.PaidFor where
  account a ha b hb hpayment := by
    obtain ⟨hreq, planInfo, hplan, -⟩ := h.issued a ha
    obtain ⟨hreq', planInfo', hplan', -⟩ := h.issued b hb
    exact accountId?_of_sameEmail ((h.agree a.1 hreq b.1 hreq' planInfo hplan planInfo' hplan').1
      hpayment)
  plan a ha := by
    obtain ⟨hreq, planInfo, hplan, hjwt, hinterval, id, hid, hsub⟩ := h.issued a ha
    obtain ⟨hpaid, hother⟩ := h.bought a.1 hreq planInfo hplan
    obtain ⟨sub, hsub⟩ := Option.isSome_iff_exists.mp hsub
    have hpurchase := hplan
    unfold ActivateInput.purchase? at hpurchase
    rw [Option.mem_def, Option.ite_none_right_eq_some] at hpurchase
    obtain ⟨hsubPlan, hsubInterval⟩ := hother id hid sub hsub
    exact ⟨a.1.billingInterval, planInfo, hpurchase.2, hpaid, hjwt, hinterval, id, sub, hid, hsub,
      hsubPlan, hsubInterval⟩

theorem ActivateInput.Agrees.symm {input other : ActivateInput} {r : Razorpay}
    (h : input.Agrees other r) : other.Agrees input r := by
  intro planInfo hplan planInfo' hplan'
  obtain ⟨hpayment, hemail⟩ := h planInfo' hplan' planInfo hplan
  have hsymm : sameEmail input.email other.email = sameEmail other.email input.email :=
    Bool.beq_comm
  rw [hsymm] at hpayment hemail
  exact ⟨fun heq => hpayment heq.symm, fun heq => (hemail heq).symm⟩

theorem ActivateInput.agrees_self (input : ActivateInput) (r : Razorpay) :
    input.Agrees input r := by
  intro planInfo hplan planInfo' hplan'
  refine ⟨fun _ => by simp [sameEmail], fun _ => Option.some.inj (hplan.symm.trans hplan')⟩

/-! ## one step -/

omit [Secrets] in
/-- What the accounts' newest subscriptions are for does not depend on anything else. -/
theorem HasNoOther.of_same {email : String} {planInfo : PlanInfo} (h : s.HasNoOther email planInfo)
    (haccount : s'.accountId? email = s.accountId? email)
    (hsub : ∀ id, s'.subscription? id = s.subscription? id) : s'.HasNoOther email planInfo := by
  intro id hid sub hmem
  rw [haccount] at hid
  rw [hsub] at hmem
  exact h id hid sub hmem

/-- The calls of an activation leave every email with the plan it has bought. -/
theorem HasNoOther.change (hs : s.WellFormed) {c : Call} (hchange : s.Change c s')
    {buyer : ActivateInput} (hcall : (Request.activate buyer).Promises s c)
    {email : String} {planInfo : PlanInfo} (h : s.HasNoOther email planInfo)
    (hbuyer : ∀ planInfo' ∈ buyer.purchase? s.razorpay, sameEmail buyer.email email = true →
      planInfo' = planInfo) : s'.HasNoOther email planInfo := by
  have hpromise := hcall.2 buyer rfl
  cases hchange with
  | account other hnew =>
    intro id hid sub hsub
    rw [Store.accountId?_of_cons rfl] at hid
    split at hid
    · -- a new account has no subscription
      obtain rfl : s.nextId = id := Option.some.inj hid
      have hnone : s.subscription? s.nextId = none := hs.subscription?_nextId
      exact absurd (hnone.symm.trans hsub) (by simp)
    · exact h id hid sub hsub
  | trialUsed id => cases hcall.1 rfl
  | patch id patch => cases hcall.1 rfl
  | subscription data haccount =>
    obtain ⟨hverified, hid'⟩ := hpromise
    intro id hid sub hsub
    have hid : s.accountId? email = some id := hid
    rw [Store.subscription?_createSubscription] at hsub
    split at hsub
    · next howner =>
      cases hcall.1 rfl with
      | activateSubscription _ planInfo' accountId now hplan =>
        have hpurchase : planInfo' ∈ buyer.purchase? s.razorpay := by
          rw [ActivateInput.purchase?, if_pos hverified]
          exact hplan
        have hsame := sameEmail_of_accountId? hs (hid'.trans (congrArg some howner)) hid
        rw [← hbuyer planInfo' hpurchase hsame, ← Option.some.inj hsub]
        exact ⟨rfl, rfl⟩
    · exact h id hid sub hsub
  | _ => exact h

variable {l : Sales}

namespace Sales

/-- Who has bought a plan has no other after any event. -/
theorem Sound.hasNoOther_step (h : l.Sound d) (e : BackendEvent) {input : ActivateInput}
    (hreq : .activate input ∈ l.system.requests) {planInfo : PlanInfo}
    (hplan : planInfo ∈ input.purchase? l.store.razorpay) :
    (l.step d e).store.HasNoOther input.email planInfo := by
  have hbefore := (h.bought input hreq planInfo hplan).2
  cases e with
  | start r => exact hbefore
  | advance i =>
    show (l.system.step (backend d) (.advance i)).store.HasNoOther input.email planInfo
    cases hnext : l.system.next? i with
    | none =>
      rw [System.store_advance_of_none hnext]
      exact hbefore
    | some call =>
      obtain ⟨r, c⟩ := call
      rw [System.store_advance_of_some hnext]
      have hbuyer := System.mem_requests_of_next? hnext
      obtain ⟨buyer, rfl⟩ := h.only r hbuyer
      refine HasNoOther.change h.wellFormed (Store.exec_change d c l.store)
        (h.safe.next growth_contract hnext) hbefore fun planInfo' hplan' hemail => ?_
      exact (h.agree buyer hbuyer input hreq planInfo' hplan' planInfo hplan).2 hemail
  | fail i e => exact hbefore
  | outside o => cases o <;> exact HasNoOther.of_same hbefore rfl fun _ => rfl

theorem issued_step (d : InvalidDate) (l : Sales) (e : BackendEvent) {a : ActivateInput × LicenseJwt}
    (ha : a ∈ (l.step d e).issued) :
    a ∈ l.issued ∨ ∃ plan billingInterval expiresAt,
      l.system.answered (backend d) e =
        some (.activate a.1, .activated a.2 plan billingInterval expiresAt) := by
  unfold step at ha
  dsimp only at ha
  split at ha
  · next input jwt plan billingInterval expiresAt hanswered =>
    rcases List.mem_cons.mp ha with rfl | ha
    · exact .inr ⟨plan, billingInterval, expiresAt, hanswered⟩
    · exact .inl ha
  · exact .inl ha

/-- **One honest step.** -/
theorem Sound.step (h : l.Sound d) {e : BackendEvent} (hhonest : l.Honest e)
    (honly : ∀ r, e = .start r → ∃ input, r = .activate input) : (l.step d e).Sound d := by
  have hgrows : l.store.Grows (l.step d e).store := h.safe.store_step growth_contract e
  have hsafe := h.safe.step growth_contract e
  -- who has come in: the requests before, and the one that starts now
  have hreqs : ∀ r ∈ (l.step d e).system.requests, r ∈ l.system.requests ∨ e = .start r := by
    intro r hr
    have hr : r ∈ (l.system.step (backend d) e).requests := hr
    rw [System.requests_step] at hr
    cases e with
    | start r' =>
      rcases List.mem_append.mp hr with hr | hr
      · exact .inl hr
      · exact .inr (congrArg _ (List.mem_singleton.mp hr).symm)
    | advance i => exact .inl hr
    | fail i e => exact .inl hr
    | outside o => exact .inl hr
  have hold : ∀ r ∈ l.system.requests, r ∈ (l.step d e).system.requests := by
    intro r hr
    show r ∈ (l.system.step (backend d) e).requests
    rw [System.requests_step]
    cases e with
    | start r' => exact List.mem_append_left _ hr
    | advance i => exact hr
    | fail i e => exact hr
    | outside o => exact hr
  constructor
  · exact System.store_invariant (fun c _ hs => hs.exec d c) (fun o _ hs => hs.outside o)
      h.wellFormed e
  · exact hsafe
  · intro r hr
    rcases hreqs r hr with hr | rfl
    · exact h.only r hr
    · exact honly r rfl
  · intro input hr planInfo hplan
    rw [hgrows.purchase?] at hplan
    rw [hgrows.paidPlan?]
    rcases hreqs _ hr with hr | rfl
    · exact ⟨(h.bought input hr planInfo hplan).1, h.hasNoOther_step e hr hplan⟩
    · exact hhonest.1 planInfo hplan
  · intro input hr other hr' planInfo hplan planInfo' hplan'
    rw [hgrows.purchase?] at hplan hplan'
    rcases hreqs _ hr with hin | rfl
    · rcases hreqs _ hr' with hin' | rfl
      · exact h.agree input hin other hin' planInfo hplan planInfo' hplan'
      · exact (hhonest.2 input hin).symm planInfo hplan planInfo' hplan'
    · rcases hreqs _ hr' with hin' | heq
      · exact hhonest.2 other hin' planInfo hplan planInfo' hplan'
      · obtain rfl : input = other := by simpa using heq
        exact input.agrees_self _ planInfo hplan planInfo' hplan'
  · intro a ha
    rcases issued_step d l e ha with ha | ⟨plan, billingInterval, expiresAt, hanswered⟩
    · obtain ⟨hreq, planInfo, hplan, hjwt, hinterval, id, hid, hsub⟩ := h.issued a ha
      exact ⟨hold _ hreq, planInfo, hgrows.purchase?.symm ▸ hplan, hjwt, hinterval, id,
        hgrows.accounts _ _ hid, hgrows.subscribed _ hsub⟩
    · have hmem := System.mem_of_answered hanswered
      obtain ⟨hverified, planInfo, jwt, expiresAt', hplan, hresponse, hjwt, hinterval, id, hid, hsub⟩ :=
        hsafe.ended growth_contract hmem a.1 rfl
      obtain ⟨rfl, -⟩ : a.2 = jwt ∧ _ := by simpa using hresponse
      have hpurchase : a.1.purchase? (l.step d e).store.razorpay = some planInfo :=
        (if_pos hverified).trans hplan
      exact ⟨List.mem_map.mpr ⟨_, hmem, rfl⟩, planInfo, hpurchase, hjwt, hinterval, id, hid, hsub⟩

/-- What an honest run keeps. -/
theorem Sound.run (h : l.Sound d) {events : List BackendEvent}
    (honly : ∀ r, .start r ∈ events → ∃ input, r = .activate input)
    (hhonest : Runs.Guarded (Sales.step d) Sales.Honest l events) :
    (events.foldl (Sales.step d) l).Sound d := by
  induction events generalizing l with
  | nil => exact h
  | cons e events ih =>
    have hstep := h.step hhonest.1 fun r hr => honly r (hr ▸ List.mem_cons_self)
    exact ih hstep (fun r hr => honly r (List.mem_cons_of_mem e hr)) hhonest.2

end Sales

end

/-! ## one purchase, and one that is replayed -/

def replayedActivation : ActivateInput :=
  { firstActivation with email := "ravi@example.com", deviceId := "phone", billingInterval := "annual" }

def replayedEvents : List BackendEvent :=
  activationEvents ++ .start (.activate replayedActivation) :: List.replicate 13 (.advance 1)

def replayedSales : Sales :=
  letI := Secrets.plain
  replayedEvents.foldl (Sales.step .unbounded) ⟨⟨.empty 0 twoPayments, []⟩, []⟩

end Dinero.Licensing
