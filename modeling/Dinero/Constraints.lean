import Mathlib.Data.List.Nodup
import Dinero.Changes

/-!
# Dinero.Constraints

The constraints of the licensing database, which every call keeps: keys are
unique and were handed out, a device is bound once, and tokens and subscriptions
belong to accounts that exist.
-/

namespace Dinero.Licensing

namespace Store

structure WellFormed (s : Store) : Prop where
  accountIds : (s.accounts.map (·.id)).Nodup
  tokenIds : (s.licenseTokens.map (·.id)).Nodup
  subscriptionIds : (s.subscriptions.map (·.id)).Nodup
  accountFresh : ∀ a ∈ s.accounts, a.id < s.nextId
  tokenFresh : ∀ t ∈ s.licenseTokens, t.id < s.nextId
  subscriptionFresh : ∀ sub ∈ s.subscriptions, sub.id < s.nextId
  devices : ∀ t ∈ s.licenseTokens, ∀ t' ∈ s.licenseTokens, ∀ device,
    t.deviceFingerprint = some device → t'.deviceFingerprint = some device → t.id = t'.id
  tokenAccounts : ∀ t ∈ s.licenseTokens, t.accountId ∈ s.accounts.map (·.id)
  subscriptionAccounts : ∀ sub ∈ s.subscriptions, sub.accountId ∈ s.accounts.map (·.id)

theorem wellFormed_empty (clock : Int) (razorpay : Razorpay) :
    (Store.empty clock razorpay).WellFormed := by
  constructor <;> simp [Store.empty]

/-! ## lookups -/

/-- A change that leaves the key alone finds the same rows. -/
theorem find?_map_of_eq {α : Type} {l : List α} {p : α → Bool} {f : α → α}
    (h : ∀ a, p (f a) = p a) : (l.map f).find? p = (l.find? p).map f := by
  rw [List.find?_map]
  exact congrArg (fun q => (l.find? q).map f) (funext h)

theorem mem_of_tokenOn? {s : Store} {device : String} {token : LicenseToken}
    (h : s.tokenOn? device = some token) :
    token ∈ s.licenseTokens ∧ token.deviceFingerprint = some device := by
  refine ⟨List.mem_of_find?_eq_some h, ?_⟩
  have hdevice := List.find?_some h
  simpa using hdevice

theorem mem_of_token? {s : Store} {accountId : Nat} {token : LicenseToken}
    (h : s.token? accountId = some token) :
    token ∈ s.licenseTokens ∧ token.accountId = accountId := by
  refine ⟨List.mem_of_find?_eq_some h, ?_⟩
  have haccount := List.find?_some h
  simpa using haccount

theorem tokenOn?_eq_none {s : Store} {device : String} :
    s.tokenOn? device = none ↔ ∀ t ∈ s.licenseTokens, t.deviceFingerprint ≠ some device := by
  simp [tokenOn?]

theorem accountById?_isSome {s : Store} {id : Nat} :
    (s.accountById? id).isSome ↔ id ∈ s.accounts.map (·.id) := by
  simp [accountById?, List.find?_isSome]

theorem id_of_accountById? {s : Store} {id : Nat} {account : Account}
    (h : s.accountById? id = some account) : account.id = id := by
  have hid := List.find?_some h
  simpa using hid

theorem mem_of_account? {s : Store} {email : String} {account : Account}
    (h : s.account? email = some account) : account ∈ s.accounts :=
  List.mem_of_find?_eq_some h

/-- An account that was found by its email is found by its id. -/
theorem accountById?_of_account? {s : Store} {email : String} {account : Account}
    (h : s.account? email = some account) : (s.accountById? account.id).isSome := by
  rw [accountById?_isSome, List.mem_map]
  exact ⟨account, mem_of_account? h, rfl⟩

/-- A token is found by its id. -/
theorem WellFormed.token_eq {s : Store} (hs : s.WellFormed) {t t' : LicenseToken}
    (ht : t ∈ s.licenseTokens) (ht' : t' ∈ s.licenseTokens) (hid : t.id = t'.id) : t = t' :=
  List.inj_on_of_nodup_map hs.tokenIds ht ht' hid

/-! ## rows written -/

variable {s : Store}

theorem WellFormed.createAccount (h : s.WellFormed) (email : String) :
    ({ s with
      nextId := s.nextId + 1
      accounts := ⟨s.nextId, email, false⟩ :: s.accounts } : Store).WellFormed where
  accountIds := by
    rw [List.map_cons, List.nodup_cons]
    refine ⟨?_, h.accountIds⟩
    intro hmem
    obtain ⟨a, ha, hid⟩ := List.mem_map.mp hmem
    have hlt := h.accountFresh a ha
    simp only at hid
    omega
  tokenIds := h.tokenIds
  subscriptionIds := h.subscriptionIds
  accountFresh a ha := by
    rcases List.mem_cons.mp ha with rfl | ha
    · exact Nat.lt_succ_self _
    · exact Nat.lt_succ_of_lt (h.accountFresh a ha)
  tokenFresh t ht := Nat.lt_succ_of_lt (h.tokenFresh t ht)
  subscriptionFresh sub hsub := Nat.lt_succ_of_lt (h.subscriptionFresh sub hsub)
  devices := h.devices
  tokenAccounts t ht := List.mem_cons_of_mem _ (h.tokenAccounts t ht)
  subscriptionAccounts sub hsub := List.mem_cons_of_mem _ (h.subscriptionAccounts sub hsub)

theorem WellFormed.useTrial (h : s.WellFormed) (id : Nat) :
    ({ s with accounts := s.accounts.map fun a =>
      if a.id = id then { a with trialUsed := true } else a } : Store).WellFormed := by
  have hids : (s.accounts.map fun a => if a.id = id then { a with trialUsed := true } else a).map
      (·.id) = s.accounts.map (·.id) := by
    rw [List.map_map]
    refine List.map_congr_left fun a _ => ?_
    simp only [Function.comp_apply]
    split <;> rfl
  refine ⟨?_, h.tokenIds, h.subscriptionIds, ?_, h.tokenFresh, h.subscriptionFresh, h.devices,
    ?_, ?_⟩
  · rw [hids]
    exact h.accountIds
  · intro a ha
    obtain ⟨old, hold, rfl⟩ := List.mem_map.mp ha
    have hlt := h.accountFresh old hold
    split <;> exact hlt
  · rw [hids]
    exact h.tokenAccounts
  · rw [hids]
    exact h.subscriptionAccounts

theorem WellFormed.createToken (h : s.WellFormed) {device : String} {accountId : Nat}
    (hfree : s.tokenOn? device = none) (haccount : (s.accountById? accountId).isSome)
    (now expiresAt : Int) : (s.createToken device accountId now expiresAt).WellFormed where
  accountIds := h.accountIds
  tokenIds := by
    show ((s.nextId :: s.licenseTokens.map (·.id)) : List Nat).Nodup
    rw [List.nodup_cons]
    refine ⟨?_, h.tokenIds⟩
    intro hmem
    obtain ⟨t, ht, hid⟩ := List.mem_map.mp hmem
    have hlt := h.tokenFresh t ht
    omega
  subscriptionIds := h.subscriptionIds
  accountFresh a ha := Nat.lt_succ_of_lt (h.accountFresh a ha)
  tokenFresh t ht := by
    rcases List.mem_cons.mp ht with rfl | ht
    · exact Nat.lt_succ_self _
    · exact Nat.lt_succ_of_lt (h.tokenFresh t ht)
  subscriptionFresh sub hsub := Nat.lt_succ_of_lt (h.subscriptionFresh sub hsub)
  devices t ht t' ht' d hd hd' := by
    have hnone := tokenOn?_eq_none.mp hfree
    rcases List.mem_cons.mp ht with rfl | ht
    · rcases List.mem_cons.mp ht' with rfl | ht'
      · rfl
      · have hd : device = d := Option.some.inj hd
        exact absurd (hd ▸ hd') (hnone t' ht')
    · rcases List.mem_cons.mp ht' with rfl | ht'
      · have hd' : device = d := Option.some.inj hd'
        exact absurd (hd' ▸ hd) (hnone t ht)
      · exact h.devices t ht t' ht' d hd hd'
  tokenAccounts t ht := by
    rcases List.mem_cons.mp ht with rfl | ht
    · exact accountById?_isSome.mp haccount
    · exact h.tokenAccounts t ht
  subscriptionAccounts := h.subscriptionAccounts

theorem WellFormed.createSubscription (h : s.WellFormed) {data : SubscriptionData}
    (haccount : (s.accountById? data.accountId).isSome) :
    (s.createSubscription data).WellFormed where
  accountIds := h.accountIds
  tokenIds := h.tokenIds
  subscriptionIds := by
    show ((s.nextId :: s.subscriptions.map (·.id)) : List Nat).Nodup
    rw [List.nodup_cons]
    refine ⟨?_, h.subscriptionIds⟩
    intro hmem
    obtain ⟨sub, hsub, hid⟩ := List.mem_map.mp hmem
    have hlt := h.subscriptionFresh sub hsub
    omega
  accountFresh a ha := Nat.lt_succ_of_lt (h.accountFresh a ha)
  tokenFresh t ht := Nat.lt_succ_of_lt (h.tokenFresh t ht)
  subscriptionFresh sub hsub := by
    rcases List.mem_cons.mp hsub with rfl | hsub
    · exact Nat.lt_succ_self _
    · exact Nat.lt_succ_of_lt (h.subscriptionFresh sub hsub)
  devices := h.devices
  tokenAccounts := h.tokenAccounts
  subscriptionAccounts sub hsub := by
    rcases List.mem_cons.mp hsub with rfl | hsub
    · exact accountById?_isSome.mp haccount
    · exact h.subscriptionAccounts sub hsub

theorem WellFormed.createRecord (h : s.WellFormed) (data : RecordData) :
    (s.createRecord data).WellFormed where
  accountIds := h.accountIds
  tokenIds := h.tokenIds
  subscriptionIds := h.subscriptionIds
  accountFresh a ha := Nat.lt_succ_of_lt (h.accountFresh a ha)
  tokenFresh t ht := Nat.lt_succ_of_lt (h.tokenFresh t ht)
  subscriptionFresh sub hsub := Nat.lt_succ_of_lt (h.subscriptionFresh sub hsub)
  devices := h.devices
  tokenAccounts := h.tokenAccounts
  subscriptionAccounts := h.subscriptionAccounts

/-- A change of the row with an id, which leaves its keys. -/
theorem WellFormed.modifySubscription (h : s.WellFormed) (id : Nat) (patch : SubscriptionPatch) :
    (s.modifySubscription id (·.patch patch)).WellFormed := by
  have hkeys : ∀ sub : Subscription, (if sub.id = id then sub.patch patch else sub).id = sub.id ∧
      (if sub.id = id then sub.patch patch else sub).accountId = sub.accountId := by
    intro sub
    split <;> exact ⟨rfl, rfl⟩
  refine ⟨h.accountIds, h.tokenIds, ?_, h.accountFresh, h.tokenFresh, ?_, h.devices,
    h.tokenAccounts, ?_⟩
  · have hids : (s.modifySubscription id (·.patch patch)).subscriptions.map (·.id) =
        s.subscriptions.map (·.id) := by
      show (s.subscriptions.map _).map _ = _
      rw [List.map_map]
      exact List.map_congr_left fun sub _ => (hkeys sub).1
    rw [hids]
    exact h.subscriptionIds
  · intro sub hsub
    obtain ⟨old, hold, rfl⟩ := List.mem_map.mp hsub
    rw [(hkeys old).1]
    exact h.subscriptionFresh old hold
  · intro sub hsub
    obtain ⟨old, hold, rfl⟩ := List.mem_map.mp hsub
    rw [(hkeys old).2]
    exact h.subscriptionAccounts old hold

theorem WellFormed.modifyToken (h : s.WellFormed) (id : Nat) {f : LicenseToken → LicenseToken}
    (hid : ∀ t, (f t).id = t.id) (haccount : ∀ t, (f t).accountId = t.accountId)
    (hdevice : ∀ t ∈ s.licenseTokens, t.id = id → ∀ device, (f t).deviceFingerprint = some device →
      ∀ t' ∈ s.licenseTokens, t'.deviceFingerprint = some device → t'.id = t.id) :
    (s.modifyToken id f).WellFormed := by
  have hkeys : ∀ t : LicenseToken, (if t.id = id then f t else t).id = t.id ∧
      (if t.id = id then f t else t).accountId = t.accountId := by
    intro t
    split
    · exact ⟨hid t, haccount t⟩
    · exact ⟨rfl, rfl⟩
  refine ⟨h.accountIds, ?_, h.subscriptionIds, h.accountFresh, ?_, h.subscriptionFresh, ?_, ?_,
    h.subscriptionAccounts⟩
  · have hids : (s.modifyToken id f).licenseTokens.map (·.id) = s.licenseTokens.map (·.id) := by
      show (s.licenseTokens.map _).map _ = _
      rw [List.map_map]
      exact List.map_congr_left fun t _ => (hkeys t).1
    rw [hids]
    exact h.tokenIds
  · intro t ht
    obtain ⟨old, hold, rfl⟩ := List.mem_map.mp ht
    rw [(hkeys old).1]
    exact h.tokenFresh old hold
  · intro t ht t' ht' device hd hd'
    obtain ⟨old, hold, rfl⟩ := List.mem_map.mp ht
    obtain ⟨old', hold', rfl⟩ := List.mem_map.mp ht'
    rw [(hkeys old).1, (hkeys old').1]
    by_cases hone : old.id = id
    · by_cases htwo : old'.id = id
      · rw [hone, htwo]
      · rw [if_pos hone] at hd
        rw [if_neg htwo] at hd'
        exact (hdevice old hold hone device hd old' hold' hd').symm
    · by_cases htwo : old'.id = id
      · rw [if_neg hone] at hd
        rw [if_pos htwo] at hd'
        exact hdevice old' hold' htwo device hd' old hold hd
      · rw [if_neg hone] at hd
        rw [if_neg htwo] at hd'
        exact h.devices old hold old' hold' device hd hd'
  · intro t ht
    obtain ⟨old, hold, rfl⟩ := List.mem_map.mp ht
    rw [(hkeys old).2]
    exact h.tokenAccounts old hold

/-- **Every call keeps the constraints.** -/
theorem WellFormed.change (h : s.WellFormed) {c : Call} {s' : Store} (hchange : s.Change c s') :
    s'.WellFormed := by
  cases hchange with
  | unchanged => exact h
  | entry data =>
    exact ⟨h.accountIds, h.tokenIds, h.subscriptionIds, h.accountFresh, h.tokenFresh,
      h.subscriptionFresh, h.devices, h.tokenAccounts, h.subscriptionAccounts⟩
  | account email hnew => exact h.createAccount email
  | trialUsed id => exact h.useTrial id
  | renewal device accountId now expiresAt token hbound =>
    refine h.modifyToken token.id (fun _ => rfl) (fun _ => rfl) ?_
    intro t ht _ d hd t' ht' hd'
    exact h.devices t' ht' t ht d hd' hd
  | upsert device accountId now expiresAt hfree haccount =>
    exact h.createToken hfree haccount now expiresAt
  | token device accountId now expiresAt hfree haccount =>
    exact h.createToken hfree haccount now expiresAt
  | unbinding id revokedAt =>
    refine h.modifyToken id (fun _ => rfl) (fun _ => rfl) ?_
    intro t _ _ device hd
    simp at hd
  | rebinding id device now expiresAt hfree =>
    refine h.modifyToken id (fun _ => rfl) (fun _ => rfl) ?_
    intro t ht hid d hd t' ht' hd'
    obtain rfl : device = d := Option.some.inj hd
    rw [hfree t' ht' hd', hid]
  | subscription data haccount => exact h.createSubscription haccount
  | patch id patch => exact h.modifySubscription id patch
  | record data haccount => exact h.createRecord data
  | refund paymentId =>
    exact ⟨h.accountIds, h.tokenIds, h.subscriptionIds, h.accountFresh, h.tokenFresh,
      h.subscriptionFresh, h.devices, h.tokenAccounts, h.subscriptionAccounts⟩

theorem WellFormed.exec (h : s.WellFormed) (invalidDate : InvalidDate) (c : Call) :
    (s.exec invalidDate c).2.WellFormed := h.change (exec_change invalidDate c s)

theorem WellFormed.outside (h : s.WellFormed) (o : Outside) : (o.apply s).WellFormed := by
  cases o <;> exact ⟨h.accountIds, h.tokenIds, h.subscriptionIds, h.accountFresh, h.tokenFresh,
    h.subscriptionFresh, h.devices, h.tokenAccounts, h.subscriptionAccounts⟩

end Store

end Dinero.Licensing
