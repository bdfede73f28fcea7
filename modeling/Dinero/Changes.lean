import Dinero.Backend

/-!
# Dinero.Changes

What a call can do to the store, once for all calls: the store it leaves, and what
must hold for it to be left.
-/

namespace Dinero.Licensing

/-- The store that a call leaves. -/
inductive Store.Change (s : Store) : Call → Store → Prop where
  | unchanged (c : Call) : s.Change c s
  | entry (data : AuditData) : s.Change (.auditCreate data) (s.logEntry data)
  | account (email : String) (hnew : s.account? email = none) :
    s.Change (.accountCreate email)
      { s with nextId := s.nextId + 1, accounts := ⟨s.nextId, email, false⟩ :: s.accounts }
  | trialUsed (id : Nat) :
    s.Change (.accountUseTrial id)
      { s with
        accounts := s.accounts.map fun a => if a.id = id then { a with trialUsed := true } else a }
  | renewal (device : String) (accountId : Nat) (now expiresAt : Int) (token : LicenseToken)
    (hbound : s.tokenOn? device = some token) :
    s.Change (.tokenUpsert device accountId now expiresAt)
      (s.modifyToken token.id fun t =>
        { t with jwtIssuedAt := some now, jwtExpiresAt := some expiresAt, revokedAt := none })
  | upsert (device : String) (accountId : Nat) (now expiresAt : Int)
    (hfree : s.tokenOn? device = none) (haccount : (s.accountById? accountId).isSome) :
    s.Change (.tokenUpsert device accountId now expiresAt)
      (s.createToken device accountId now expiresAt)
  | token (device : String) (accountId : Nat) (now expiresAt : Int)
    (hfree : s.tokenOn? device = none) (haccount : (s.accountById? accountId).isSome) :
    s.Change (.tokenCreate device accountId now expiresAt)
      (s.createToken device accountId now expiresAt)
  | unbinding (id : Nat) (revokedAt : Int) :
    s.Change (.tokenUnbind id revokedAt)
      (s.modifyToken id fun t =>
        { t with
          deviceFingerprint := none, deviceBoundAt := none, revokedAt := some revokedAt })
  | rebinding (id : Nat) (device : String) (now expiresAt : Int)
    (hfree : ∀ t ∈ s.licenseTokens, t.deviceFingerprint = some device → t.id = id) :
    s.Change (.tokenRebind id device now expiresAt)
      (s.modifyToken id fun t => .bound t.id t.accountId device now expiresAt)
  | subscription (data : SubscriptionData) (haccount : (s.accountById? data.accountId).isSome) :
    s.Change (.subscriptionCreate data) (s.createSubscription data)
  | patch (id : Nat) (patch : SubscriptionPatch) :
    s.Change (.subscriptionUpdate id patch) (s.modifySubscription id (·.patch patch))
  | record (data : RecordData) (haccount : (s.accountById? data.accountId).isSome) :
    s.Change (.recordCreate data) (s.createRecord data)
  | refund (paymentId : String) :
    s.Change (.refundsCreate paymentId)
      { s with razorpay := { s.razorpay with refunds := paymentId :: s.razorpay.refunds } }

namespace Store

theorem Change.insertFor {s : Store} {c : Call} {accountId : Nat} {written : Store}
    (h : (s.accountById? accountId).isSome → s.Change c written) :
    s.Change c (s.insertFor accountId written).2 := by
  unfold Store.insertFor
  split
  · next haccount => exact h haccount
  · exact .unchanged c

/-- **What a call does.** -/
theorem exec_change (invalidDate : InvalidDate) (c : Call) (s : Store) :
    s.Change c (s.exec invalidDate c).2 := by
  cases c with
  | auditCreate data => exact .entry data
  | auditFindMany eventType since =>
    cases since with
    | some since => exact .unchanged _
    | none => cases invalidDate <;> exact .unchanged _
  | accountCreate email =>
    simp only [Store.exec]
    split
    · exact .unchanged _
    · next hnew => exact .account email (Option.not_isSome_iff_eq_none.mp hnew)
  | accountUseTrial id =>
    simp only [Store.exec]
    split
    · exact .trialUsed id
    · exact .unchanged _
  | tokenUpsert device accountId now expiresAt =>
    simp only [Store.exec]
    split
    · next token hbound => exact .renewal device accountId now expiresAt token hbound
    · next hfree =>
      exact .insertFor fun haccount => .upsert device accountId now expiresAt hfree haccount
  | tokenCreate device accountId now expiresAt =>
    simp only [Store.exec]
    split
    · exact .unchanged _
    · next hfree =>
      rw [Option.not_isSome_iff_eq_none] at hfree
      exact .insertFor fun haccount => .token device accountId now expiresAt hfree haccount
  | tokenUnbind id revokedAt =>
    simp only [Store.exec]
    split
    · exact .unbinding id revokedAt
    · exact .unchanged _
  | tokenRebind id device now expiresAt =>
    simp only [Store.exec]
    split
    · split
      · exact .unchanged _
      · next hfree =>
        refine .rebinding id device now expiresAt fun t ht hdevice => ?_
        by_contra hne
        exact hfree (List.any_eq_true.mpr ⟨t, ht, by simp [hdevice, hne]⟩)
    · exact .unchanged _
  | subscriptionCreate data => exact .insertFor fun haccount => .subscription data haccount
  | subscriptionUpdate id patch =>
    simp only [Store.exec]
    split
    · exact .patch id patch
    · exact .unchanged _
  | recordCreate data => exact .insertFor fun haccount => .record data haccount
  | refundsCreate paymentId => exact .refund paymentId
  | paymentsFetch paymentId =>
    simp only [Store.exec]
    split <;> exact .unchanged _
  | subscriptionsFetch razorpaySubscriptionId =>
    simp only [Store.exec]
    split <;> exact .unchanged _
  | now | accountFindUnique _ | accountFindById _ | tokenFindFirst _ | tokenFindByDevice _
  | tokenFindWithAccount _ | subscriptionFindFirst _ | subscriptionFindById _
  | subscriptionFindMany _ | recordFindByRazorpaySubscription _ | recordFindBySubscription _
  | recordFindPayment _ | emailSend _ _ => exact .unchanged _

end Store

end Dinero.Licensing
