import Dinero.Charges
import Dinero.Growth

/-!
# Dinero.Warrants

Where paid access comes from.  A subscription is paid for only if a verified payment
came in for the email of its account, or an event of the provider named the
account; and this holds of every run, however the requests come between one
another and whichever calls fail.

The requests that have come in are `received`.  A warrant is kept by whatever
happens later, so a session that has found one can rely on it until its last
call (`Store.Upholds`): a cancellation that writes back the status it has read, a
webhook and a reconciliation that follow a record to its subscription.
-/

namespace Dinero.Licensing

/-- The statuses of a subscription that is paid for. -/
def billed : List String := ["active", "past_due"]

variable {d : InvalidDate} {s s' : Store}

section

variable [Secrets] (received : Request → Prop)

/-! ## warrants -/

/-- Why an account may have a subscription that is paid for. -/
inductive Store.Warrant (s : Store) (accountId : Nat) : Prop where
  | payment (input : ActivateInput) (hreceived : received (.activate input))
    (hverified : input.verified s.razorpay = true)
    (haccount : s.accountId? input.email = some accountId)
  | event (event : RazorpayWebhookEvent) (hreceived : received (.webhook event))
    (hcreated : event.event = "subscription.created") (hnamed : event.accountId = some accountId)

/-- The subscription is there, and its account has a warrant. -/
def Store.Vouched (s : Store) (id : Nat) : Prop :=
  ∃ sub ∈ s.subscriptions, sub.id = id ∧ s.Warrant received sub.accountId

/-- What is paid for has a warrant, and so has what the provider's records are linked to. -/
structure Store.Warranted (s : Store) : Prop where
  wellFormed : s.WellFormed
  paid : ∀ sub ∈ s.subscriptions, sub.status ∈ billed → s.Warrant received sub.accountId
  linked : ∀ record ∈ s.paymentProviderRecords, ∀ id, record.subscriptionId = some id →
    s.Vouched received id

/-- The call writes nothing without a warrant. -/
def Call.Warranted (s : Store) : Call → Prop
  | subscriptionCreate data => data.status ∈ billed → s.Warrant received data.accountId
  | subscriptionUpdate id patch =>
    ∀ status, patch.status = some status → status ∈ billed → s.Vouched received id
  | recordCreate data => ∀ id, data.subscriptionId = some id → s.Vouched received id
  | _ => True

/-- What the others leave of a store. -/
structure Store.Upholds (s s' : Store) : Prop where
  grows : s.Grows s'
  rows : ∀ sub ∈ s.subscriptions, ∃ sub' ∈ s'.subscriptions,
    sub'.id = sub.id ∧ sub'.accountId = sub.accountId
  warranted : s.Warranted received → s'.Warranted received

variable {received}

theorem Store.Warrant.grows {accountId : Nat} (h : s.Warrant received accountId)
    (hgrows : s.Grows s') : s'.Warrant received accountId := by
  cases h with
  | payment input hreceived hverified haccount =>
    exact .payment input hreceived (hgrows.verified.trans hverified)
      (hgrows.accounts _ _ haccount)
  | event event hreceived hcreated hnamed => exact .event event hreceived hcreated hnamed

theorem Store.Vouched.of_rows {id : Nat} (h : s.Vouched received id) (hgrows : s.Grows s')
    (hrows : ∀ sub ∈ s.subscriptions, ∃ sub' ∈ s'.subscriptions,
      sub'.id = sub.id ∧ sub'.accountId = sub.accountId) : s'.Vouched received id := by
  obtain ⟨sub, hsub, hid, hwarrant⟩ := h
  obtain ⟨sub', hsub', hid', haccount⟩ := hrows sub hsub
  refine ⟨sub', hsub', hid'.trans hid, ?_⟩
  rw [haccount]
  exact hwarrant.grows hgrows

theorem Store.Vouched.upholds {id : Nat} (h : s.Vouched received id)
    (hle : s.Upholds received s') : s'.Vouched received id := h.of_rows hle.grows hle.rows

/-- Every subscription with the id has the warrant. -/
theorem Store.Vouched.warrant {sub : Subscription} (hs : s.WellFormed)
    (h : s.Vouched received sub.id) (hsub : sub ∈ s.subscriptions) :
    s.Warrant received sub.accountId := by
  obtain ⟨other, hother, hid, hwarrant⟩ := h
  obtain rfl : other = sub := List.inj_on_of_nodup_map hs.subscriptionIds hother hsub hid
  exact hwarrant

theorem upholds_refl (s : Store) : s.Upholds received s :=
  ⟨s.grows_refl, fun sub hsub => ⟨sub, hsub, rfl, rfl⟩, fun h => h⟩

theorem upholds_trans (s s' s'' : Store) (h : s.Upholds received s')
    (h' : s'.Upholds received s'') : s.Upholds received s'' where
  grows := Store.grows_trans _ _ _ h.grows h'.grows
  rows sub hsub := by
    obtain ⟨sub', hsub', hid, haccount⟩ := h.rows sub hsub
    obtain ⟨sub'', hsub'', hid', haccount'⟩ := h'.rows sub' hsub'
    exact ⟨sub'', hsub'', hid'.trans hid, haccount'.trans haccount⟩
  warranted hs := h'.warranted (h.warranted hs)

/-! ## what one call keeps -/

omit [Secrets] in
/-- No subscription goes, and none goes to another account. -/
theorem Store.Change.rows {c : Call} (h : s.Change c s') :
    ∀ sub ∈ s.subscriptions, ∃ sub' ∈ s'.subscriptions,
      sub'.id = sub.id ∧ sub'.accountId = sub.accountId := by
  intro sub hsub
  cases h with
  | subscription data haccount => exact ⟨sub, List.mem_cons_of_mem _ hsub, rfl, rfl⟩
  | patch id patch =>
    refine ⟨_, List.mem_map_of_mem hsub, ?_⟩
    split <;> exact ⟨rfl, rfl⟩
  | _ => exact ⟨sub, hsub, rfl, rfl⟩

/-- **Every warranted call keeps the warrants.** -/
theorem Store.Warranted.change (h : s.Warranted received) {c : Call} (hchange : s.Change c s')
    (hc : c.Warranted received s) : s'.Warranted received := by
  have hgrows := hchange.grows
  have hlinked : ∀ id, s.Vouched received id → s'.Vouched received id :=
    fun id hid => hid.of_rows hgrows hchange.rows
  refine ⟨h.wellFormed.change hchange, ?_, ?_⟩
  · intro sub hsub hstatus
    have hkept (hold : sub ∈ s.subscriptions) : s'.Warrant received sub.accountId :=
      (h.paid sub hold hstatus).grows hgrows
    cases hchange with
    | subscription data haccount =>
      rcases List.mem_cons.mp hsub with rfl | hold
      · exact (hc hstatus).grows hgrows
      · exact hkept hold
    | patch id patch =>
      obtain ⟨old, hold, rfl⟩ := List.mem_map.mp hsub
      by_cases hid : old.id = id
      · rw [if_pos hid] at hstatus ⊢
        cases hpatch : patch.status with
        | none =>
          have hsame : (old.patch patch).status = old.status := by simp [Subscription.patch, hpatch]
          rw [hsame] at hstatus
          exact (h.paid old hold hstatus).grows hgrows
        | some status =>
          have hnew : (old.patch patch).status = status := by simp [Subscription.patch, hpatch]
          have hvouched := hc status hpatch (hnew ▸ hstatus)
          rw [← hid] at hvouched
          exact (hvouched.warrant h.wellFormed hold).grows hgrows
      · rw [if_neg hid] at hstatus ⊢
        exact (h.paid old hold hstatus).grows hgrows
    | _ => exact hkept hsub
  · intro record hrecord id hid
    cases hchange with
    | record data haccount =>
      rcases List.mem_cons.mp hrecord with rfl | hold
      · exact hlinked id (hc id hid)
      · exact hlinked id (h.linked record hold id hid)
    | _ => exact hlinked id (h.linked record hrecord id hid)

theorem exec_upholds {c : Call} (hc : s.Warranted received → c.Warranted received s) :
    s.Upholds received (s.exec d c).2 :=
  have hchange := Store.exec_change d c s
  ⟨hchange.grows, hchange.rows, fun hs => hs.change hchange (hc hs)⟩

theorem outside_upholds (o : Outside) (s : Store) : s.Upholds received (o.apply s) := by
  have hgrows := Store.outside_grows o s
  have hrows : ∀ sub ∈ s.subscriptions, ∃ sub' ∈ (o.apply s).subscriptions,
      sub'.id = sub.id ∧ sub'.accountId = sub.accountId := by
    intro sub hsub
    cases o <;> exact ⟨sub, hsub, rfl, rfl⟩
  refine ⟨hgrows, hrows, fun hs => ⟨hs.wellFormed.outside o, fun sub hsub hstatus => ?_,
    fun record hrecord id hid => ?_⟩⟩
  · cases o <;> exact (hs.paid sub hsub hstatus).grows hgrows
  · cases o <;> exact (hs.linked record hrecord id hid).of_rows hgrows hrows

variable (d received) in
/-- Whatever the others do, no call of the endpoint but is warranted. -/
abbrev Backs {α : Type} (x : Endpoint α) (s : Store) : Prop :=
  x.Safe (Store.exec d) (Store.Upholds received) (fun s c => c.Warranted received s)
    (fun s _ => s.Warranted received) s

/-! ## endpoints that need a warrant for few subscriptions -/

/-- A call that needs a warrant for no subscription but these. -/
def Call.For (ids : Nat → Prop) : Call → Prop
  | subscriptionCreate data => data.status ∉ billed
  | subscriptionUpdate id patch => ∀ status, patch.status = some status → status ∈ billed → ids id
  | recordCreate data => ∀ id, data.subscriptionId = some id → ids id
  | _ => True

omit [Secrets] in
theorem for_of_reads {ids : Nat → Prop} {c : Call} (h : c.Reads) : c.For ids := by
  cases c with
  | subscriptionCreate _ | subscriptionUpdate _ _ | recordCreate _ => cases h
  | _ => trivial

theorem Call.For.warranted {ids : Nat → Prop} {c : Call} (hc : c.For ids)
    (hids : ∀ id, ids id → s.Vouched received id) : c.Warranted received s := by
  cases c with
  | subscriptionCreate data => exact fun hstatus => absurd hstatus hc
  | subscriptionUpdate id patch =>
    exact fun status hpatch hstatus => hids id (hc status hpatch hstatus)
  | recordCreate data => exact fun id hid => hids id (hc id hid)
  | _ => trivial

theorem backs_of_for (ids : Nat → Prop) {α : Type} {x : Endpoint α}
    (hx : x.Within (Call.For ids)) (hs : s.Warranted received)
    (hids : ∀ id, ids id → s.Vouched received id) : Backs d received x s := by
  refine hx.safe
    (I := fun s : Store => s.Warranted received ∧ ∀ id, ids id → s.Vouched received id)
    ?_ ?_ (fun _ _ h => h.1) ⟨hs, hids⟩
  · intro s s' h hle
    exact ⟨hle.warranted h.1, fun id hid => (h.2 id hid).upholds hle⟩
  · intro s c h hc
    have hwarranted := hc.warranted h.2
    have hle : s.Upholds received (s.exec d c).2 := exec_upholds fun _ => hwarranted
    exact ⟨hwarranted, hle.warranted h.1, fun id hid => (h.2 id hid).upholds hle⟩

theorem backs_of_reads {α : Type} {x : Endpoint α} (hx : x.Within Call.Reads)
    (hs : s.Warranted received) : Backs d received x s :=
  backs_of_for (fun _ => False) (hx.mono fun _ => for_of_reads) hs fun _ h => h.elim

omit [Secrets] in
theorem for_logAuditEvent {ids : Nat → Prop} (data : AuditData) :
    (logAuditEvent data).Within (Call.For ids) :=
  (reads_logAuditEvent data).mono fun _ => for_of_reads

omit [Secrets] in
/-- These requests make no subscription a paid one. -/
theorem for_of_mayCall {r : Request} {c : Call} (h : r.MayCall c)
    (hactivate : ∀ input, r ≠ .activate input) (hcancel : ∀ id atEnd, r ≠ .cancel id atEnd)
    (hwebhook : ∀ event, r ≠ .webhook event) (hreconcile : r ≠ .reconcile) :
    c.For fun _ => False := by
  cases c with
  | subscriptionCreate data =>
    cases h rfl with
    | activateSubscription input _ _ _ _ => exact absurd rfl (hactivate input)
    | trialSubscription _ _ _ _ => simp [Call.For, billed]
  | subscriptionUpdate id patch =>
    cases h rfl with
    | cancel accountId atEnd _ _ => exact absurd rfl (hcancel accountId atEnd)
    | reactivate _ _ => simp [Call.For]
    | refundCancel _ _ _ => simp [Call.For, billed]
    | webhookPatch event _ _ => exact absurd rfl (hwebhook event)
    | reconcile _ _ => exact absurd rfl hreconcile
  | recordCreate data =>
    cases h rfl with
    | webhookRecord event _ _ _ => exact absurd rfl (hwebhook event)
  | _ => trivial

/-! ## activation -/

theorem warranted_of_promises {input : ActivateInput} (hreceived : received (.activate input))
    {c : Call} (h : (Request.activate input).Promises s c) : c.Warranted received s := by
  cases c with
  | subscriptionCreate data =>
    obtain ⟨hverified, haccount⟩ := h.2 input rfl
    exact fun _ => .payment input hreceived hverified haccount
  | subscriptionUpdate id patch => cases h.1 rfl
  | recordCreate data => cases h.1 rfl
  | _ => trivial

/-! ## cancellation -/

/-- A subscription that is read as paid for has a warrant, and keeps it. -/
theorem safe_subscriptionOf (accountId : Nat) (hs : s.Warranted received) :
    (subscriptionOf accountId).Safe (Store.exec d) (Store.Upholds received)
      (fun s c => c.Warranted received s)
      (fun s sub => s.Warranted received ∧ (sub.status ∈ billed → s.Vouched received sub.id)) s := by
  refine Routine.Safe.perform fun s₁ h₁ => ⟨trivial, fun found s₂ hreply => ?_⟩
  obtain ⟨hfound, rfl⟩ := Prod.mk.inj hreply
  obtain rfl : s₁.subscription? accountId = found := Except.ok.inj hfound
  have hs₁ := h₁.warranted hs
  cases hsub : s₁.subscription? accountId with
  | none => trivial
  | some sub =>
    have hmem : sub ∈ s₁.subscriptions := List.mem_of_find?_eq_some hsub
    intro s₂ h₂
    exact ⟨h₂.warranted hs₁, fun hstatus =>
      Store.Vouched.upholds ⟨sub, hmem, rfl, hs₁.paid sub hmem hstatus⟩ h₂⟩

/-- What a cancellation writes back has been read from a subscription with a warrant. -/
theorem backs_cancelSubscription (accountId : Nat) (cancelAtPeriodEnd : Option Bool)
    (hs : s.Warranted received) :
    Backs d received (cancelSubscription accountId cancelAtPeriodEnd) s := by
  refine Routine.Safe.bind upholds_refl (safe_subscriptionOf accountId hs) fun sub s₁ h₁ => ?_
  refine backs_of_for (fun id => id = sub.id ∧ sub.status ∈ billed) ?_ h₁.1 ?_
  · refine Routine.within_perform_bind.mpr ⟨?_, fun _ => ?_⟩
    · intro status hpatch hstatus
      refine ⟨rfl, ?_⟩
      obtain rfl : (if cancelAtPeriodEnd.getD true then sub.status else "canceled") = status :=
        Option.some.inj hpatch
      split at hstatus
      · exact hstatus
      · simp [billed] at hstatus
    · exact (for_logAuditEvent _).bind fun _ => trivial
  · rintro id ⟨rfl, hstatus⟩
    exact h₁.2 hstatus

/-! ## the webhook -/

/-- An event that names an account is its warrant. -/
theorem backs_onSubscriptionCreated {event : RazorpayWebhookEvent}
    (hreceived : received (.webhook event)) (hcreated : event.event = "subscription.created")
    (hs : s.Warranted received) : Backs d received (onSubscriptionCreated event) s := by
  unfold onSubscriptionCreated
  cases hnamed : event.accountId with
  | none => exact fun s' hle => hle.warranted hs
  | some accountId =>
    refine Routine.Safe.perform fun s₁ h₁ => ⟨trivial, fun found s₂ hreply => ?_⟩
    obtain ⟨hfound, rfl⟩ := Prod.mk.inj hreply
    obtain rfl : s₁.subscription? accountId = found := Except.ok.inj hfound
    have hs₁ := h₁.warranted hs
    cases hsub : s₁.subscription? accountId with
    | none =>
      refine backs_of_for (fun _ => False) ?_ hs₁ fun _ h => h.elim
      exact Routine.within_perform.mpr fun id hid => by simp at hid
    | some sub =>
      have hmem : sub ∈ s₁.subscriptions := List.mem_of_find?_eq_some hsub
      have howner : sub.accountId = accountId := by simpa using List.find?_some hsub
      refine backs_of_for (fun id => id = sub.id) ?_ hs₁ ?_
      · refine Routine.within_perform_bind.mpr ⟨fun _ _ _ => rfl, fun _ => ?_⟩
        exact Routine.within_perform.mpr fun id hid => (Option.some.inj hid).symm
      · rintro id rfl
        exact ⟨sub, hmem, rfl, .event event hreceived hcreated (by rw [hnamed, howner])⟩

/-- A subscription that a record leads to has a warrant, and keeps it. -/
theorem safe_findSubscription (razorpaySubscriptionId : String) (hs : s.Warranted received) :
    (findSubscriptionByRazorpaySubscriptionId razorpaySubscriptionId).Safe (Store.exec d)
      (Store.Upholds received) (fun s c => c.Warranted received s)
      (fun s found => s.Warranted received ∧
        ∀ sub, found = some sub → s.Vouched received sub.id) s := by
  refine Routine.Safe.perform fun s₁ h₁ => ⟨trivial, fun record s₂ hreply => ?_⟩
  obtain ⟨hrecord, rfl⟩ := Prod.mk.inj hreply
  obtain rfl : s₁.recordOf? razorpaySubscriptionId = record := Except.ok.inj hrecord
  have hs₁ := h₁.warranted hs
  cases hlink : (s₁.recordOf? razorpaySubscriptionId).bind (·.subscriptionId) with
  | none => exact fun s₂ h₂ => ⟨h₂.warranted hs₁, fun sub hsub => by cases hsub⟩
  | some id =>
    obtain ⟨record, hfound, hid⟩ := Option.bind_eq_some_iff.mp hlink
    have hvouched := hs₁.linked record (List.mem_of_find?_eq_some hfound) id hid
    refine Routine.Safe.perform fun s₂ h₂ => ⟨trivial, fun found s₃ hreply s₄ h₄ => ?_⟩
    obtain ⟨hsub, rfl⟩ := Prod.mk.inj hreply
    obtain rfl : s₂.subscriptionById? id = found := Except.ok.inj hsub
    have hle := upholds_trans _ _ _ h₂ h₄
    refine ⟨hle.warranted hs₁, fun sub hsub => ?_⟩
    have hsame : sub.id = id := by simpa using List.find?_some hsub
    rw [hsame]
    exact hvouched.upholds hle

theorem backs_patchLinked (razorpaySubscriptionId : String) (patch : SubscriptionPatch)
    (hs : s.Warranted received) :
    Backs d received (patchLinked razorpaySubscriptionId patch) s := by
  refine Routine.Safe.bind upholds_refl (safe_findSubscription razorpaySubscriptionId hs)
    fun found s₁ h₁ => ?_
  cases found with
  | none => exact fun s₂ h₂ => h₂.warranted h₁.1
  | some sub =>
    refine backs_of_for (fun id => id = sub.id)
      (Routine.within_perform.mpr fun _ _ _ => rfl) h₁.1 ?_
    rintro id rfl
    exact h₁.2 sub rfl

theorem backs_handleEvent {event : RazorpayWebhookEvent} (hreceived : received (.webhook event))
    (hs : s.Warranted received) : Backs d received (handleEvent event) s := by
  unfold handleEvent
  split
  · next hcreated => exact backs_onSubscriptionCreated hreceived hcreated hs
  · unfold onInvoicePaid
    split
    · exact backs_patchLinked _ _ hs
    · exact fun s' hle => hle.warranted hs
  · unfold onPaymentFailed
    split
    · exact backs_patchLinked _ _ hs
    · exact fun s' hle => hle.warranted hs
  · exact fun s' hle => hle.warranted hs

theorem backs_processWebhookEvent {event : RazorpayWebhookEvent}
    (hreceived : received (.webhook event)) (hs : s.Warranted received) :
    Backs d received (processWebhookEvent event) s := by
  refine Routine.Safe.bind upholds_refl (backs_of_reads (reads_isDuplicateEvent event.id) hs)
    fun duplicate s₁ h₁ => ?_
  cases duplicate with
  | true => exact fun s₂ h₂ => h₂.warranted h₁
  | false =>
    exact Routine.Safe.bind upholds_refl (backs_handleEvent hreceived h₁) fun _ s₂ h₂ =>
      backs_of_reads ((reads_logAuditEvent _).bind fun _ => trivial) h₂

/-! ## reconciliation -/

/-- A subscription that is corrected is one that a record is linked to. -/
theorem backs_reconcileOne (sub : Subscription) (hs : s.Warranted received) :
    Backs d received (reconcileOne sub) s := by
  refine Routine.Safe.perform fun s₁ h₁ => ⟨trivial, fun record s₂ hreply => ?_⟩
  obtain ⟨hrecord, rfl⟩ := Prod.mk.inj hreply
  obtain rfl : s₁.recordFor? sub.id = record := Except.ok.inj hrecord
  have hs₁ := h₁.warranted hs
  cases hfound : s₁.recordFor? sub.id with
  | none => exact fun s₂ h₂ => h₂.warranted hs₁
  | some record =>
    have hlink : record.subscriptionId = some sub.id := by simpa using List.find?_some hfound
    have hvouched := hs₁.linked record (List.mem_of_find?_eq_some hfound) sub.id hlink
    refine backs_of_for (fun id => id = sub.id) ?_ hs₁ (by rintro id rfl; exact hvouched)
    cases truthy ((some record).bind (·.razorpaySubscriptionId)) with
    | none => trivial
    | some razorpaySubscriptionId =>
      have hfetch : (some <$> perform (.subscriptionsFetch razorpaySubscriptionId) :
          Endpoint (Option String)).Within (Call.For fun id => id = sub.id) :=
        Routine.Within.bind (Routine.within_perform.mpr trivial) fun _ => trivial
      refine Routine.Within.bind (hfetch.catching fun _ => trivial) fun remote => ?_
      cases (remote.bind razorpayToLocalStatus).filter (· ≠ sub.status) with
      | none => trivial
      | some expectedLocalStatus =>
        refine Routine.within_perform_bind.mpr ⟨fun _ _ _ => rfl, fun _ => ?_⟩
        exact (for_logAuditEvent _).bind fun _ => trivial

theorem backs_reconcileAll (subs : List Subscription) (hs : s.Warranted received) :
    Backs d received (reconcileAll subs) s := by
  induction subs generalizing s with
  | nil => exact fun s' hle => hle.warranted hs
  | cons sub rest ih =>
    refine Routine.Safe.bind upholds_refl (backs_reconcileOne sub hs) fun drifted s₁ h₁ => ?_
    exact Routine.Safe.bind upholds_refl (ih h₁) fun others s₂ h₂ s₃ h₃ => h₃.warranted h₂

/-! ## every run -/

/-- Whatever the others do, no call of a request that was received but is warranted. -/
theorem program_warranted {r : Request} (hreceived : received r) (hs : s.Warranted received) :
    r.program.Safe (Store.exec d) (Store.Upholds received) (fun s c => c.Warranted received s)
      (fun _ _ => True) s := by
  have hfor (hactivate : ∀ input, r ≠ .activate input) (hcancel : ∀ id atEnd, r ≠ .cancel id atEnd)
      (hwebhook : ∀ event, r ≠ .webhook event) (hreconcile : r ≠ .reconcile) :
      Backs d received r.program s :=
    backs_of_for (fun _ => False) ((program_within r).mono fun _ hc =>
      for_of_mayCall hc hactivate hcancel hwebhook hreconcile) hs fun _ h => h.elim
  have htrue (h : Backs d received r.program s) : r.program.Safe (Store.exec d)
      (Store.Upholds received) (fun s c => c.Warranted received s) (fun _ _ => True) s :=
    h.imp fun _ _ _ => trivial
  cases r with
  | activate input =>
    have hsafe : (activateLicense input).Safe (Store.exec d) (Store.Upholds received)
        (fun s c => c.Warranted received s) input.Delivers s :=
      (safe_activateLicense input s).weaken (fun _ _ h => h.grows)
        fun _ _ h => warranted_of_promises hreceived h
    exact hsafe.imp fun _ _ _ => trivial
  | cancel accountId cancelAtPeriodEnd =>
    exact htrue (backs_cancelSubscription accountId cancelAtPeriodEnd hs)
  | webhook event => exact htrue (backs_processWebhookEvent hreceived hs)
  | reconcile =>
    refine htrue (Routine.Safe.bind upholds_refl (backs_of_reads (reads_perform rfl) hs)
      fun subs s₁ h₁ => ?_)
    exact Routine.Safe.bind upholds_refl (backs_reconcileAll subs h₁)
      fun drifted s₂ h₂ s₃ h₃ => h₃.warranted h₂
  | _ =>
    exact htrue (hfor (fun _ h => by cases h) (fun _ _ h => by cases h) (fun _ h => by cases h)
      (fun h => by cases h))

variable (d received) in
/-- The store has its warrants, and no session will write anything without one. -/
structure Backend.Warranted (sys : Backend) : Prop where
  store : sys.store.Warranted received
  sessions : sys.AllSafe (backend d) (Store.Upholds received)
    (fun _ s c => c.Warranted received s) (fun _ _ _ => True)

/-- **Every event keeps the warrants.** -/
theorem Backend.Warranted.step {sys : Backend} (h : sys.Warranted d received) {e : BackendEvent}
    (hreceived : ∀ r, e = .start r → received r) :
    Backend.Warranted d received (sys.step (backend d) e) := by
  have hle : sys.store.Upholds received (sys.step (backend d) e).store :=
    h.sessions.le_step upholds_refl (fun _ _ hc => exec_upholds fun _ => hc)
      (fun o => outside_upholds o sys.store) e
  refine ⟨hle.warranted h.store, h.sessions.step_of_le upholds_refl upholds_trans hle ?_⟩
  exact fun r hr => program_warranted (hreceived r hr) h.store

theorem Backend.warranted_empty (clock : Int) (razorpay : Razorpay) :
    Backend.Warranted d received ⟨.empty clock razorpay, []⟩ where
  store := ⟨Store.wellFormed_empty clock razorpay, fun _ h => absurd h List.not_mem_nil,
    fun _ h => absurd h List.not_mem_nil⟩
  sessions := System.allSafe_nil _

/-- The backend after these events, from nothing on. -/
def Backend.after (d : InvalidDate) (clock : Int) (razorpay : Razorpay)
    (events : List BackendEvent) : Backend :=
  events.foldl (System.step (backend d)) ⟨.empty clock razorpay, []⟩

theorem Backend.warranted_after (clock : Int) (razorpay : Razorpay) (events : List BackendEvent) :
    (Backend.after d clock razorpay events).Warranted d fun r => .start r ∈ events := by
  have hrun : ∀ (rest : List BackendEvent) (sys : Backend), (∀ e ∈ rest, e ∈ events) →
      sys.Warranted d (fun r => .start r ∈ events) →
      Backend.Warranted d (fun r => .start r ∈ events)
        (rest.foldl (System.step (backend d)) sys) := by
    intro rest
    induction rest with
    | nil => exact fun _ _ h => h
    | cons e rest ih =>
      intro sys hmem h
      refine ih _ (fun e' he' => hmem e' (List.mem_cons_of_mem e he')) (h.step fun r hr => ?_)
      exact hr ▸ hmem e List.mem_cons_self
  exact hrun events _ (fun _ he => he) (Backend.warranted_empty clock razorpay)

/-- **Paid access is paid for.**  In every run, a subscription that is active or past due belongs
to the account of an email that an activation came in for with a verified payment, or to an account
that an event of the provider named. -/
theorem paid_access_is_warranted (clock : Int) (razorpay : Razorpay) (events : List BackendEvent)
    {sub : Subscription} (hsub : sub ∈ (Backend.after d clock razorpay events).store.subscriptions)
    (hpaid : sub.status ∈ billed) :
    (∃ input, .start (.activate input) ∈ events ∧
        input.verified (Backend.after d clock razorpay events).store.razorpay = true ∧
        (Backend.after d clock razorpay events).store.accountId? input.email =
          some sub.accountId) ∨
      ∃ event, .start (.webhook event) ∈ events ∧ event.event = "subscription.created" ∧
        event.accountId = some sub.accountId := by
  cases (Backend.warranted_after clock razorpay events).store.paid sub hsub hpaid with
  | payment input hreceived hverified haccount =>
    exact .inl ⟨input, hreceived, hverified, haccount⟩
  | event event hreceived hcreated hnamed => exact .inr ⟨event, hreceived, hcreated, hnamed⟩

end

/-- The backend after a first activation. -/
def activatedBackend : Backend :=
  letI := Secrets.plain
  Backend.after .unbounded 0 twoPayments activationEvents

def firstSubscription : Subscription :=
  ⟨1, 0, "desktop_pro_monthly", "active", "monthly", some 0, none, false⟩

/-- The first activation is the warrant. -/
theorem first_access_is_warranted :
    letI := Secrets.plain
    (∃ input, .start (.activate input) ∈ activationEvents ∧
        input.verified activatedBackend.store.razorpay = true ∧
        activatedBackend.store.accountId? input.email = some firstSubscription.accountId) ∨
      ∃ event, .start (.webhook event) ∈ activationEvents ∧
        event.event = "subscription.created" ∧
        event.accountId = some firstSubscription.accountId := by
  have hsub : firstSubscription ∈ activatedBackend.store.subscriptions := by decide +kernel
  rw [activatedBackend] at hsub ⊢
  exact @paid_access_is_warranted .unbounded Secrets.plain 0 twoPayments activationEvents _ hsub
    (by decide)

end Dinero.Licensing
