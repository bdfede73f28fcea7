import Dinero.Activation
import Dinero.Footprint

/-!
# Dinero.Charges

What becomes of a charge: an activation verifies a payment and records it nowhere,
the webhook records subscriptions and no payment, and a refund looks for a payment
that is recorded.
-/

namespace Dinero.Licensing

/-! ## what is recorded -/

/-- No payment is on record. -/
def Store.Uncharged (s : Store) : Prop :=
  ∀ record ∈ s.paymentProviderRecords, record.razorpayPaymentId = none

variable {d : InvalidDate} {s s' : Store}

theorem Request.MayCall.recordsNoPayment {r : Request} {data : RecordData}
    (h : r.MayCall (.recordCreate data)) : data.razorpayPaymentId = none := by
  cases h rfl
  rfl

theorem Store.Change.uncharged {c : Call} (h : s.Change c s')
    (hc : ∀ data, c = .recordCreate data → data.razorpayPaymentId = none) :
    s'.Uncharged ↔ s.Uncharged := by
  cases h with
  | record data haccount =>
    show (∀ record ∈ _ :: s.paymentProviderRecords, record.razorpayPaymentId = none) ↔ _
    rw [List.forall_mem_cons]
    exact and_iff_right (hc data rfl)
  | _ => exact Iff.rfl

/-- Only a refund changes what the provider gave back. -/
theorem Store.Change.razorpay {c : Call} (h : s.Change c s')
    (hc : ∀ paymentId, c ≠ .refundsCreate paymentId) : s'.razorpay = s.razorpay := by
  cases h with
  | refund paymentId => exact absurd rfl (hc paymentId)
  | _ => rfl

theorem Store.Uncharged.charge? (h : s.Uncharged) (accountId : Nat) :
    s.charge? accountId = none := by
  rw [Store.charge?, List.find?_eq_none]
  intro record hrecord
  simp [h record hrecord]

/-! ## no refund is ever made -/

/-- Whether payments are on record does not change. -/
def SameCharged (s s' : Store) : Prop := s'.Uncharged ↔ s.Uncharged

theorem sameCharged_refl (s : Store) : SameCharged s s := Iff.rfl

theorem sameCharged_trans (s s' s'' : Store) (h : SameCharged s s') (h' : SameCharged s' s'') :
    SameCharged s s'' := h'.trans h

/-- The calls of a request while no payment is on record. -/
def NoRefund (r : Request) (s : Store) (c : Call) : Prop :=
  r.MayCall c ∧ (s.Uncharged → ∀ paymentId, c ≠ .refundsCreate paymentId)

theorem sameCharged_exec {r : Request} {c : Call} (h : r.MayCall c) :
    SameCharged s (s.exec d c).2 :=
  (Store.exec_change d c s).uncharged fun _ hc => (hc ▸ h).recordsNoPayment

theorem sameCharged_outside (o : Outside) (s : Store) : SameCharged s (o.apply s) := by
  cases o <;> exact Iff.rfl

/-- Once a payment is on record nothing is promised. -/
theorem safe_charged {α : Type} {r : Request} {x : Endpoint α} (h : x.Within r.MayCall)
    (hs : ¬ s.Uncharged) :
    x.Safe (Store.exec d) SameCharged (NoRefund r) (fun _ _ => True) s := by
  refine h.safe (I := fun s => ¬ s.Uncharged) ?_ ?_ (fun _ _ _ => trivial) hs
  · exact fun s s' hs hsame => (not_congr hsame).mpr hs
  · intro s c hs hc
    exact ⟨⟨hc, fun hs' => absurd hs' hs⟩, (not_congr (sameCharged_exec hc)).mpr hs⟩

/-- Only a refund refunds. -/
theorem safe_notRefunding {α : Type} {r : Request} {x : Endpoint α} (h : x.Within r.MayCall)
    (hr : ∀ paymentId, ¬ r.MayWrite (.refundsCreate paymentId)) (s : Store) :
    x.Safe (Store.exec d) SameCharged (NoRefund r) (fun _ _ => True) s := by
  refine h.safe (I := fun _ => True) (fun _ _ _ _ => trivial) ?_ (fun _ _ _ => trivial) trivial
  intro s c _ hc
  refine ⟨⟨hc, fun _ paymentId hrefund => ?_⟩, trivial⟩
  subst hrefund
  exact hr paymentId (hc rfl)

theorem charge?_of_filter {record : Option PaymentProviderRecord} {paymentId : String}
    (h : (record.bind (·.razorpayPaymentId)).filter (· ≠ "") = some paymentId) :
    record ≠ none := by
  rintro rfl
  simp at h

/-- While no payment is on record, every refund is refused. -/
theorem run_refundAccount (h : s.Uncharged) (accountId : Nat) (reason : String) :
    ∃ e, (refundAccount accountId reason).run (Store.exec d) s = (.error e, s) := by
  have haccount : (perform (.accountFindById accountId)).run (Store.exec d) s =
      (.ok (s.accountById? accountId), s) := rfl
  have hsub : (perform (.subscriptionFindFirst accountId)).run (Store.exec d) s =
      (.ok (s.subscription? accountId), s) := rfl
  have hrecord : (perform (.recordFindPayment accountId)).run (Store.exec d) s =
      (.ok (s.charge? accountId), s) := rfl
  unfold refundAccount subscriptionOf
  rw [Routine.bind_of_ok haccount]
  cases s.accountById? accountId with
  | none => exact ⟨_, rfl⟩
  | some account =>
    dsimp only
    rw [Routine.run_bind, Routine.bind_of_ok hsub]
    cases s.subscription? accountId with
    | none => exact ⟨_, rfl⟩
    | some sub =>
      dsimp only [Routine.pure_eq, Routine.run_done]
      rw [Routine.bind_of_ok hrecord, h.charge? accountId]
      exact ⟨_, rfl⟩

theorem safe_refundAccount (accountId : Nat) (reason : String) (s : Store) :
    (refundAccount accountId reason).Safe (Store.exec d) SameCharged
      (NoRefund (.refund accountId reason)) (fun _ _ => True) s := by
  have hread : ∀ s' c, c.writes = false → NoRefund (.refund accountId reason) s' c := by
    intro s' c hc
    refine ⟨mayCall_of_writes_eq_false hc, fun _ paymentId hrefund => ?_⟩
    subst hrefund
    cases hc
  refine Routine.Safe.perform fun s₁ _ => ⟨hread s₁ _ rfl, fun account s₁' _ => ?_⟩
  cases account with
  | none => trivial
  | some account =>
    have hsub : (subscriptionOf accountId).Safe (Store.exec d) SameCharged
        (NoRefund (.refund accountId reason)) (fun _ _ => True) s₁' := by
      refine Routine.Safe.perform fun s₂ _ => ⟨hread s₂ _ rfl, fun sub s₂' _ => ?_⟩
      cases sub with
      | none => trivial
      | some sub => exact fun _ _ => trivial
    refine Routine.Safe.bind sameCharged_refl hsub fun sub s₂ _ => ?_
    refine Routine.Safe.perform fun s₃ _ => ⟨hread s₃ _ rfl, fun record s₃' hrecord => ?_⟩
    -- a payment is found only where one is on record
    obtain ⟨hfound, rfl⟩ := Prod.mk.inj hrecord
    cases hcharge : (record.bind (·.razorpayPaymentId)).filter (· ≠ "") with
    | none => trivial
    | some paymentId =>
      refine safe_charged (within_issueRefund accountId account sub reason paymentId) ?_
      intro huncharged
      have hnone := huncharged.charge? accountId
      rw [Except.ok.inj hfound] at hnone
      exact charge?_of_filter hcharge hnone

theorem safe_program [Secrets] (r : Request) (s : Store) :
    r.program.Safe (Store.exec d) SameCharged (NoRefund r) (fun _ _ => True) s := by
  cases r with
  | refund accountId reason => exact safe_refundAccount accountId reason s
  | _ => exact safe_notRefunding (program_within _) (fun _ h => by cases h) s

/-- **The contract**: no call goes to the provider for a refund. -/
theorem noRefund_contract [Secrets] :
    (backend d).Contract SameCharged NoRefund fun _ _ _ => True where
  refl := sameCharged_refl
  trans := sameCharged_trans
  call _ _ _ hc := sameCharged_exec hc.1
  outside := sameCharged_outside
  start := safe_program

/-! ## histories -/

/-- The backend, the activations that succeeded and the refunds that were made, newest first. -/
structure Billing where
  system : Backend
  activations : List ActivateInput := []
  refunds : List (Nat × String) := []

namespace Billing

def step [Secrets] (d : InvalidDate) (b : Billing) (e : BackendEvent) : Billing where
  system := b.system.step (backend d) e
  activations := match b.system.answered (backend d) e with
    | some (.activate input, .activated _ _ _ _) => input :: b.activations
    | _ => b.activations
  refunds := match e with
    | .advance i => match b.system.next? i with
      | some (.refund accountId _, .refundsCreate paymentId) => (accountId, paymentId) :: b.refunds
      | _ => b.refunds
    | _ => b.refunds

def run [Secrets] (d : InvalidDate) (b : Billing) (events : List BackendEvent) : Billing :=
  events.foldl (step d) b

/-- The payment of the newest activation for the email of the account. -/
def lastCharge? (b : Billing) (account : Account) : Option String :=
  (b.activations.find? fun input => sameEmail account.email input.email).map (·.razorpayPaymentId)

/-- A refund of the account gives back this payment. -/
def Refunds [Secrets] (d : InvalidDate) (b : Billing) (accountId : Nat) (paymentId : String) :
    Prop :=
  ∀ reason, ((Request.refund accountId reason).answer d b.system.store).1 = .ok .refunded ∧
    ((Request.refund accountId reason).answer d b.system.store).2.razorpay.refunds =
      paymentId :: b.system.store.razorpay.refunds

/-- Every request has been answered. -/
def Idle (b : Billing) : Prop := ∀ i, b.system.next? i = none

/-- From here on, requests for refunds, whichever calls fail and however they take turns, give
back a payment once at most, and leave the subscription of the account canceled. -/
def RefundsOnce [Secrets] (d : InvalidDate) (b : Billing) : Prop :=
  ∀ events : List BackendEvent, (∀ r, .start r ∈ events → ∃ id reason, r = .refund id reason) →
    let b' := { b with refunds := [] }.run d events
    b'.system.store.razorpay.refunds.Nodup ∧
      (b'.Idle → ∀ refund ∈ b'.refunds, ∀ sub ∈ b'.system.store.subscription? refund.1,
        sub.status = "canceled")

/-- What was charged last is refunded, and once. -/
def RefundSound [Secrets] (d : InvalidDate) (b : Billing) : Prop :=
  (∀ account ∈ b.system.store.accounts, ∀ paymentId ∈ b.lastCharge? account,
    b.Refunds d account.id paymentId) ∧ b.RefundsOnce d

/-- Nothing is on record, and nothing was given back. -/
structure Unrefunded (d : InvalidDate) [Secrets] (b : Billing) : Prop where
  uncharged : b.system.store.Uncharged
  safe : b.system.AllSafe (backend d) SameCharged NoRefund fun _ _ _ => True
  provider : b.system.store.razorpay.refunds = []
  refunds : b.refunds = []

variable [Secrets] {b : Billing}

/-- While no payment is on record, no call of a refund goes to the provider. -/
theorem Unrefunded.step (h : b.Unrefunded d) (e : BackendEvent) : (b.step d e).Unrefunded d := by
  have hle := h.safe.store_step noRefund_contract e
  have hcall : ∀ i r c, b.system.next? i = some (r, c) → ∀ paymentId, c ≠ .refundsCreate paymentId :=
    fun i r c hnext => (h.safe.next noRefund_contract hnext).2 h.uncharged
  refine ⟨hle.mpr h.uncharged, h.safe.step noRefund_contract e, ?_, ?_⟩
  · rw [← h.provider]
    cases e with
    | start r => rfl
    | advance i =>
      show (b.system.step (backend d) (.advance i)).store.razorpay.refunds = _
      cases hnext : b.system.next? i with
      | none => rw [System.store_advance_of_none hnext]
      | some call =>
        rw [System.store_advance_of_some hnext]
        have hchange := Store.exec_change d call.2 b.system.store
        exact congrArg (·.refunds) (hchange.razorpay (hcall i call.1 call.2 hnext))
    | fail i e => rfl
    | outside o => cases o <;> rfl
  · rw [← h.refunds]
    cases e with
    | advance i =>
      simp only [Billing.step]
      split
      · next hnext => exact absurd rfl (hcall i _ _ hnext _)
      · rfl
    | start r => rfl
    | fail i e => rfl
    | outside o => rfl

theorem Unrefunded.run (h : b.Unrefunded d) (events : List BackendEvent) :
    (b.run d events).Unrefunded d := by
  induction events generalizing b with
  | nil => exact h
  | cons e events ih => exact ih (h.step e)

/-- A refund is refused. -/
theorem Unrefunded.not_refunds (h : b.Unrefunded d) (accountId : Nat) (paymentId : String) :
    ¬ b.Refunds d accountId paymentId := by
  intro hrefunds
  obtain ⟨e, hrun⟩ := run_refundAccount (d := d) h.uncharged accountId ""
  have hok := (hrefunds "").1
  unfold Request.answer at hok
  rw [show (Request.refund accountId "").program = refundAccount accountId "" from rfl, hrun] at hok
  simp at hok

theorem Unrefunded.refundsOnce (h : b.Unrefunded d) : b.RefundsOnce d := by
  intro events _
  have hb : ({ b with refunds := [] } : Billing).Unrefunded d := ⟨h.uncharged, h.safe, h.provider, rfl⟩
  have hrun := hb.run events
  constructor
  · rw [hrun.provider]
    exact List.nodup_nil
  · intro _ refund hrefund
    rw [hrun.refunds] at hrefund
    simp at hrefund

/-- **Refunds**: what an activation charged is never given back; nothing else is promised
where no activation charged anybody. -/
theorem refund_sound_iff (hs : s.Uncharged) (hrefunds : s.razorpay.refunds = [])
    (events : List BackendEvent) :
    (Billing.run d ⟨⟨s, []⟩, [], []⟩ events).RefundSound d ↔
      ∀ account ∈ (Billing.run d ⟨⟨s, []⟩, [], []⟩ events).system.store.accounts,
        (Billing.run d ⟨⟨s, []⟩, [], []⟩ events).lastCharge? account = none := by
  have hstart : (⟨⟨s, []⟩, [], []⟩ : Billing).Unrefunded d :=
    ⟨hs, System.allSafe_nil s, hrefunds, rfl⟩
  have hrun := hstart.run events
  constructor
  · intro hsound account haccount
    cases hcharge : (Billing.run d ⟨⟨s, []⟩, [], []⟩ events).lastCharge? account with
    | none => rfl
    | some paymentId =>
      exact absurd (hsound.1 account haccount paymentId hcharge) (hrun.not_refunds _ _)
  · intro hnone
    refine ⟨fun account haccount paymentId hcharge => ?_, hrun.refundsOnce⟩
    rw [hnone account haccount] at hcharge
    simp at hcharge

end Billing

/-! ### one activation -/

/-- An activation, call by call. -/
def activationEvents : List BackendEvent :=
  .start (.activate firstActivation) :: List.replicate 13 (.advance 0)

def chargedBilling : Billing :=
  letI := Secrets.plain
  Billing.run .unbounded ⟨⟨.empty 0 twoPayments, []⟩, [], []⟩ activationEvents

theorem charged_not_refunded :
    letI := Secrets.plain
    chargedBilling.lastCharge? ⟨0, "asha@example.com", false⟩ = some "pay_1" ∧
      chargedBilling.system.store.accounts = [⟨0, "asha@example.com", false⟩] ∧
      ((Request.refund 0 "by mistake").answer .unbounded chargedBilling.system.store).1 =
        .error (.licensing .notFound "No successful charge found to refund") := by
  let := Secrets.plain
  decide +kernel

theorem refund_unsound_charged :
    letI := Secrets.plain
    ¬ chargedBilling.RefundSound .unbounded := by
  let := Secrets.plain
  intro hsound
  have hnone := (Billing.refund_sound_iff (s := .empty 0 twoPayments) (fun _ h => by cases h) rfl
    activationEvents).mp hsound
  revert hnone
  decide +kernel

end Dinero.Licensing
