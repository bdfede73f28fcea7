import Dinero.Corrections
import Dinero.Ledger

/-!
# Dinero.Undo

Whether a correction that is reverted leaves things as they were.

The row of a correction remembers the transaction and the rule, not what the
correction overwrote elsewhere.  `Reversible` is what a correction has to find
so that nothing is lost: it is exact for one correction, and enough for a whole
run, in whatever order its corrections are reverted.
-/

namespace Dinero

open Sql

variable [Extern]

/-! ## what is to be restored -/

/-- The live variant for a bank, field and source, and a template. -/
def Cleanup.liveVariant (b : Cleanup) (key : String × String × String) (templateHash : String) :
    Option FieldRuleVariantsRow :=
  (b.fieldRules.lookup key).bind fun p => b.variants.lookup (p.id, templateHash)

/-- Its payload and status. -/
def Cleanup.liveRule (b : Cleanup) (key : String × String × String) (templateHash : String) :
    Option (String × RuleStatus) :=
  (b.liveVariant key templateHash).map fun v => (v.rulePayloadJson, v.status)

/-- The merchant and category columns of a transaction. -/
def Cleanup.fieldsOf (b : Cleanup) (id : String) : Option MerchantFields :=
  (b.db.transactions.find? id).map (·.merchantFields)

/-- As far as merchants go, `b'` is as `b` was. -/
structure Restored (b b' : Cleanup) : Prop where
  transactions : ∀ id, b'.fieldsOf id = b.fieldsOf id
  aliases : ∀ name, b'.resolves name = b.resolves name
  rules : ∀ key templateHash, b'.liveRule key templateHash = b.liveRule key templateHash
  names : ∀ m ∈ b.db.merchants, (b'.db.merchants.find? m.id).map (·.name) = some m.name

/-- Nothing a correction overwrites is lost: the candidate shows the
transaction as it is, the merchant has its name already, the aliases are
there, and no live rule stands for the template. -/
structure Reversible [RuleLibraries] (b : Cleanup) (c : CleanupCandidate)
    (r : MerchantResolution) : Prop where
  shown : b.fieldsOf c.transactionId = some c.shown
  named : ∀ m ∈ b.db.merchants,
    b.liveMerchant (stripNoiseTokens r.merchantName) = some m.id → m.name = r.merchantName
  known : ∀ name ∈ (correctionAliases c r).map (·.2), ∃ id,
    b.liveMerchant (stripNoiseTokens r.merchantName) = some id ∧ b.resolves name = some id
  unruled : ∀ templateHash payload, learnableRule c r = some (templateHash, payload) →
    b.liveRule (c.bankName, "merchant", "email") templateHash = none

/-! ## the roll of merchants -/

/-- What a merchant is looked up by, and its name. -/
def MerchantsRow.entry (m : MerchantsRow) : String × String × String × Bool :=
  (m.id, m.name, m.normalizedName, m.isDeleted)

omit [Extern] in
theorem Cleanup.liveMerchant_eq (b : Cleanup) (normalized : String) :
    b.liveMerchant normalized =
      ((b.db.merchants.rows.map MerchantsRow.entry).find? fun e =>
        e.2.2.1 = normalized && !e.2.2.2).map (·.1) := by
  rw [List.find?_map, Option.map_map]
  rfl

omit [Extern] in
/-- A merchant that is found stays found when others are added behind. -/
theorem Cleanup.liveMerchant_of_prefix {b₀ b : Cleanup}
    (h : b₀.db.merchants.rows.map MerchantsRow.entry <+: b.db.merchants.rows.map MerchantsRow.entry)
    {normalized id : String} (hlive : b₀.liveMerchant normalized = some id) :
    b.liveMerchant normalized = some id := by
  obtain ⟨rest, hrest⟩ := h
  rw [Cleanup.liveMerchant_eq] at hlive ⊢
  obtain ⟨e, he, rfl⟩ := Option.map_eq_some_iff.mp hlive
  rw [← hrest, List.find?_append, he]
  rfl

/-- Renaming the merchant a name is found under changes no name of the roll
that is already right. -/
theorem roll_renamed {b₀ b : Cleanup}
    (h : b₀.db.merchants.rows.map MerchantsRow.entry <+: b.db.merchants.rows.map MerchantsRow.entry)
    {name id : String} (hlive : b.liveMerchant (stripNoiseTokens name) = some id)
    (hnamed : ∀ m ∈ b₀.db.merchants,
      b₀.liveMerchant (stripNoiseTokens name) = some m.id → m.name = name) (now : Int) :
    b₀.db.merchants.rows.map MerchantsRow.entry <+:
      (b.db.merchants.modify id (renamePatch name now)).rows.map MerchantsRow.entry := by
  obtain ⟨rest, hrest⟩ := h
  -- no row of the old roll that is renamed has another name
  have hkept : ∀ m ∈ b₀.db.merchants, m.id = id → m.name = name := by
    intro m hm hid
    refine hnamed m hm ?_
    rw [Cleanup.liveMerchant_eq, ← hrest, List.find?_append] at hlive
    rw [Cleanup.liveMerchant_eq]
    rcases hfind : (b₀.db.merchants.rows.map MerchantsRow.entry).find?
        (fun e => e.2.2.1 = stripNoiseTokens name && !e.2.2.2) with _ | e
    · -- found behind the old roll: then its id is not in it
      rw [hfind, Option.none_or] at hlive
      obtain ⟨e, he, heid⟩ := Option.map_eq_some_iff.mp hlive
      have hnodup : ((b.db.merchants.rows.map MerchantsRow.entry).map (·.1)).Nodup := by
        rw [List.map_map]
        exact b.db.merchants.nodup
      rw [← hrest, List.map_append, List.nodup_append] at hnodup
      have hleft : m.id ∈ (b₀.db.merchants.rows.map MerchantsRow.entry).map (·.1) :=
        List.mem_map.mpr ⟨m.entry, List.mem_map_of_mem hm, rfl⟩
      have hright : e.1 ∈ rest.map (·.1) := List.mem_map_of_mem (List.mem_of_find?_eq_some he)
      exact absurd (hid.trans heid.symm) (hnodup.2.2 _ hleft _ hright)
    · rw [hfind] at hlive
      rw [hfind, Option.map_some]
      have he : e.1 = id := by simpa using hlive
      rw [he, hid]
  have hrows : (b.db.merchants.modify id (renamePatch name now)).rows.map MerchantsRow.entry =
      (b.db.merchants.rows.map MerchantsRow.entry).map
        fun e => if e.1 = id then (e.1, name, e.2.2) else e := by
    rw [Table.modify, List.map_map, List.map_map]
    refine List.map_congr_left fun m _ => ?_
    by_cases hid : m.id = id
    · simp [Keyed.key, MerchantsRow.entry, renamePatch, hid]
    · simp [Keyed.key, MerchantsRow.entry, hid]
  rw [hrows, ← hrest, List.map_append, List.map_map]
  have hsame : b₀.db.merchants.rows.map
      ((fun e => if e.1 = id then (e.1, name, e.2.2) else e) ∘ MerchantsRow.entry) =
      b₀.db.merchants.rows.map MerchantsRow.entry := by
    refine List.map_congr_left fun m hm => ?_
    by_cases hid : m.id = id
    · simp [MerchantsRow.entry, hid, hkept m hm hid]
    · simp [MerchantsRow.entry, hid]
  rw [hsame]
  exact List.prefix_append _ _

/-! ## between the start of a run and its end -/

/-- The correction was applied since `b₀` and waits to be reverted. -/
def Pending (b₀ b : Cleanup) (k : MerchantLlmCorrectionsRow) : Prop :=
  k ∈ b.corrections ∧ k.id ∉ b₀.corrections.keys ∧ k.status = .applied

/-- What has happened since `b₀` can be undone: it is recorded in corrections
of the run that wait to be reverted, or it never touched what `b₀` had. -/
structure Between (b₀ b : Cleanup) (runId : String) : Prop where
  merchants : b₀.db.merchants.rows.map MerchantsRow.entry <+:
    b.db.merchants.rows.map MerchantsRow.entry
  aliases : ∀ name, b.resolves name = b₀.resolves name
  fieldRules : ∀ p ∈ b₀.fieldRules, p ∈ b.fieldRules
  parents : ∀ p ∈ b.fieldRules, p ∈ b₀.fieldRules ∨
    ∀ v ∈ b₀.variants, v.status.isLive = true → v.fieldRuleId ≠ p.id
  live : ∀ v ∈ b₀.variants, v.status.isLive = true → v ∈ b.variants
  learned : ∀ v ∈ b.variants, v.status.isLive = true → v ∈ b₀.variants ∨
    ∃ k, Pending b₀ b k ∧ k.learnedRuleId = some v.id
  found : ∀ id, b.db.transactions.contains id = b₀.db.transactions.contains id
  transactions : ∀ id, b.fieldsOf id = b₀.fieldsOf id ∨
    ∃ k, Pending b₀ b k ∧ k.transactionId = id
  old : ∀ x ∈ b₀.corrections.keys, x ∈ b.corrections.keys
  corrections : ∀ k ∈ b.corrections, k ∈ b₀.corrections ∨
    (k.id ∉ b₀.corrections.keys ∧ k.runId = runId ∧
      b₀.fieldsOf k.transactionId = some k.prev ∧
      ∀ v ∈ b₀.variants, v.status.isLive = true → k.learnedRuleId ≠ some v.id)

omit [Extern] in
theorem Between.refl (b : Cleanup) (runId : String) : Between b b runId where
  merchants := List.prefix_rfl
  aliases _ := rfl
  fieldRules _ h := h
  parents _ h := .inl h
  live _ h _ := h
  learned _ h _ := .inl h
  found _ := rfl
  transactions _ := .inl rfl
  old _ h := h
  corrections _ h := .inl h

/-! ### applying another correction -/

section Apply

variable [RuleLibraries] {b₀ b b' : Cleanup} {runId : String} {c : CleanupCandidate}
  {r : MerchantResolution} {merchantId : String} {k : MerchantLlmCorrectionsRow}

theorem Applied.merchants (h : Applied b b' runId c r merchantId k) (hb : Between b₀ b runId)
    (hrev : Reversible b₀ c r) : b₀.db.merchants.rows.map MerchantsRow.entry <+:
      b'.db.merchants.rows.map MerchantsRow.entry := by
  rcases h.resolved with ⟨hlive, now, hM⟩ | ⟨-, -, m, -, hM⟩
  · rw [hM]
    exact roll_renamed hb.merchants hlive hrev.named now
  · rw [(Table.insert?_eq_some.mp hM).2, List.map_append]
    exact hb.merchants.trans (List.prefix_append _ _)

/-- The aliases of a reversible correction resolve to its merchant already. -/
theorem Applied.resolves (h : Applied b b' runId c r merchantId k) (hb : Between b₀ b runId)
    (hrev : Reversible b₀ c r) (name : String) : b'.resolves name = b₀.resolves name := by
  rw [h.aliases]
  by_cases hname : name ∈ (correctionAliases c r).map (·.2)
  · obtain ⟨id, hlive, hres⟩ := hrev.known name hname
    have hlive' := Cleanup.liveMerchant_of_prefix hb.merchants hlive
    rw [if_pos hname, hres]
    rcases h.resolved with ⟨hfound, -⟩ | ⟨hnone, -⟩
    · exact hfound.symm.trans hlive'
    · rw [hnone] at hlive'
      exact absurd hlive' nofun
  · rw [if_neg hname]
    exact hb.aliases name

omit [Extern] [RuleLibraries] in
theorem Between.lookup_parent (hb : Between b₀ b runId) {key : String × String × String}
    {p : FieldRulesRow} (hp : p ∈ b.fieldRules) (hkey : p.ruleIndex = some key)
    {v : FieldRuleVariantsRow} (hv : v ∈ b₀.variants) {templateHash : String}
    (hindex : v.liveIndex = some (p.id, templateHash)) :
    b₀.liveRule key templateHash = some (v.rulePayloadJson, v.status) := by
  obtain ⟨hlive, hparent, -⟩ := liveIndex_eq_some.mp hindex
  rcases hb.parents p hp with hp₀ | hforeign
  · have hlookup : b₀.fieldRules.lookup key = some p := Indexed.lookup_eq_some.mpr ⟨hp₀, hkey⟩
    have hvariant : b₀.variants.lookup (p.id, templateHash) = some v :=
      Indexed.lookup_eq_some.mpr ⟨hv, hindex⟩
    rw [Cleanup.liveRule, Cleanup.liveVariant, hlookup, Option.bind_some, hvariant]
    rfl
  · exact absurd hparent (hforeign v hv hlive)

/-- What a correction taught is not among the live rules there were. -/
theorem Applied.learned_new (h : Applied b b' runId c r merchantId k) (hb : Between b₀ b runId)
    (hrev : Reversible b₀ c r) {v : FieldRuleVariantsRow} (hv : v ∈ b₀.variants)
    (hlive : v.status.isLive = true) : k.learnedRuleId ≠ some v.id := by
  have hvb := hb.live v hv hlive
  rcases h.learned with ⟨-, hnone, -, -⟩ | ⟨templateHash, payload, p, id, hrule, hid, hp, htaught⟩
  · rw [hnone]
    exact nofun
  · rw [hid]
    rintro ⟨⟩
    rcases htaught with ⟨w, -, -, hlookup, hw, -⟩ | ⟨-, w, hw, -, -, -, hV⟩
    · obtain ⟨hwb, hindex⟩ := Indexed.lookup_eq_some.mp hlookup
      have hwv : w = v := Table.eq_of_key_eq hwb hvb hw
      have hpb : p ∈ b.fieldRules ∧ p.ruleIndex = some (c.bankName, "merchant", "email") := by
        rcases hp with ⟨hfound, -⟩ | ⟨-, hfresh, -⟩
        · exact Indexed.lookup_eq_some.mp hfound
        · exact absurd (liveIndex_eq_some.mp hindex).2.1 (hfresh w hwb)
      have hold := hb.lookup_parent hpb.1 hpb.2 hv (hwv ▸ hindex)
      rw [hrev.unruled templateHash payload hrule] at hold
      exact absurd hold nofun
    · exact (Indexed.insert?_eq_some.mp hV).1 v hvb hw.symm

omit [Extern] [RuleLibraries] in
theorem HasParent.mono {key : String × String × String} {p q : FieldRulesRow}
    (h : HasParent b b' key p) (hq : q ∈ b.fieldRules) : q ∈ b'.fieldRules := by
  rcases h with ⟨-, hF⟩ | ⟨-, -, -, hF⟩
  · rwa [hF]
  · exact (Indexed.mem_of_insert? hF).mpr (.inl hq)

/-- A parent rule afterwards was there before, or is nobody's yet. -/
theorem Applied.parent_cases (h : Applied b b' runId c r merchantId k) {p : FieldRulesRow}
    (hp : p ∈ b'.fieldRules) : p ∈ b.fieldRules ∨ ∀ v ∈ b.variants, v.fieldRuleId ≠ p.id := by
  rcases h.learned with ⟨-, -, hF, -⟩ | ⟨-, -, q, -, -, -, hq, -⟩
  · rw [hF] at hp
    exact .inl hp
  · rcases hq with ⟨-, hF⟩ | ⟨-, hfresh, -, hF⟩
    · rw [hF] at hp
      exact .inl hp
    · rcases (Indexed.mem_of_insert? hF).mp hp with hold | rfl
      · exact .inl hold
      · exact .inr hfresh

theorem Applied.fieldRules (h : Applied b b' runId c r merchantId k) {p : FieldRulesRow}
    (hp : p ∈ b.fieldRules) : p ∈ b'.fieldRules := by
  rcases h.learned with ⟨-, -, hF, -⟩ | ⟨-, -, q, -, -, -, hq, -⟩
  · rwa [hF]
  · exact hq.mono hp

/-- A variant afterwards is an old one or the one that was taught; the others
stay. -/
theorem Applied.variant_iff (h : Applied b b' runId c r merchantId k) {v : FieldRuleVariantsRow}
    (hv : k.learnedRuleId ≠ some v.id) : v ∈ b'.variants ↔ v ∈ b.variants := by
  rcases h.learned with ⟨-, -, -, hV⟩ | ⟨_, _, p, id, -, hid, -, htaught⟩
  · rw [hV]
  · have hne : v.id ≠ id := by
      rintro rfl
      exact hv hid
    rcases htaught with ⟨w, w', now, -, -, -, hV⟩ | ⟨-, w, hw, -, -, -, hV⟩
    · have hiff := Table.mem_modify_of_ne (T := b.variants.toTable) (u := replacePatch w' now) hne
      rw [← hV] at hiff
      exact hiff
    · rw [Indexed.mem_of_insert? hV]
      constructor
      · rintro (hold | rfl)
        · exact hold
        · exact absurd hw hne
      · exact .inl

omit [Extern] [RuleLibraries] in
theorem Between.fresh_correction (hb : Between b₀ b runId)
    (h : ∀ x ∈ b.corrections, x.id ≠ k.id) : k.id ∉ b₀.corrections.keys := by
  intro hmem
  obtain ⟨x, hx, hid⟩ := Table.mem_keys.mp (hb.old _ hmem)
  exact h x hx hid

theorem Applied.pending (h : Applied b b' runId c r merchantId k) {x : MerchantLlmCorrectionsRow}
    (hx : Pending b₀ b x) : Pending b₀ b' x :=
  ⟨(Table.mem_of_insert? h.recorded).mpr (.inl hx.1), hx.2⟩

/-- A reversible correction is applied. -/
theorem Between.apply (hb : Between b₀ b runId) (h : Applied b b' runId c r merchantId k)
    (hrev : Reversible b₀ c r) : Between b₀ b' runId := by
  have hnew := hb.fresh_correction (Table.insert?_eq_some.mp h.recorded).1
  have hk : Pending b₀ b' k := ⟨(Table.mem_of_insert? h.recorded).mpr (.inr rfl), hnew, h.status⟩
  obtain ⟨new, now, hT⟩ := h.corrected
  constructor
  case merchants => exact h.merchants hb hrev
  case aliases => exact h.resolves hb hrev
  case fieldRules => exact fun p hp => h.fieldRules (hb.fieldRules p hp)
  case parents =>
    intro p hp
    rcases h.parent_cases hp with hold | hfresh
    · exact hb.parents p hold
    · exact .inr fun v hv hlive => hfresh v (hb.live v hv hlive)
  case live =>
    intro v hv hlive
    exact (h.variant_iff (h.learned_new hb hrev hv hlive)).mpr (hb.live v hv hlive)
  case learned =>
    intro v hv hlive
    by_cases hlearned : k.learnedRuleId = some v.id
    · exact .inr ⟨k, hk, hlearned⟩
    · rcases hb.learned v ((h.variant_iff hlearned).mp hv) hlive with hold | ⟨x, hx, hid⟩
      · exact .inl hold
      · exact .inr ⟨x, h.pending hx, hid⟩
  case found =>
    intro id
    rw [hT, Table.contains_modify]
    exact hb.found id
  case transactions =>
    intro id
    by_cases hid : id = c.transactionId
    · exact .inr ⟨k, hk, h.transactionId.trans hid.symm⟩
    · have hsame : b'.fieldsOf id = b.fieldsOf id := by
        rw [Cleanup.fieldsOf, hT, Table.find?_modify, if_neg hid]
        rfl
      rw [hsame]
      rcases hb.transactions id with hold | ⟨x, hx, htx⟩
      · exact .inl hold
      · exact .inr ⟨x, h.pending hx, htx⟩
  case old =>
    exact fun x hx => (Table.mem_keys_of_insert? h.recorded).mpr (.inl (hb.old x hx))
  case corrections =>
    intro x hx
    rcases (Table.mem_of_insert? h.recorded).mp hx with hold | rfl
    · exact hb.corrections x hold
    · refine .inr ⟨hnew, h.runId, ?_, fun v hv hlive => h.learned_new hb hrev hv hlive⟩
      rw [h.transactionId, h.prev]
      exact hrev.shown

end Apply

/-! ### reverting one -/

section Revert

variable {b₀ b b' : Cleanup} {runId : String} {k : MerchantLlmCorrectionsRow}

omit [Extern] in
/-- A correction that waits afterwards waited before, and is another one. -/
theorem Reverted.pending_iff (h : Reverted b b' k) {x : MerchantLlmCorrectionsRow} :
    Pending b₀ b' x ↔ Pending b₀ b x ∧ x.id ≠ k.id := by
  unfold Pending
  rw [h.corrections]
  constructor
  · rintro ⟨hx, hnew, hstatus⟩
    rcases Table.mem_modify_cases hx with ⟨hx, hne⟩ | ⟨y, hy, -, rfl⟩
    · exact ⟨⟨hx, hnew, hstatus⟩, hne⟩
    · exact absurd hstatus nofun
  · rintro ⟨⟨hx, hnew, hstatus⟩, hne⟩
    exact ⟨(Table.mem_modify_of_ne hne).mpr hx, hnew, hstatus⟩

omit [Extern] in
/-- A live variant afterwards is one of before that the correction did not
teach. -/
theorem Reverted.variant (h : Reverted b b' k) {v : FieldRuleVariantsRow} (hv : v ∈ b'.variants)
    (hlive : v.status.isLive = true) : v ∈ b.variants ∧ k.learnedRuleId ≠ some v.id := by
  obtain ⟨now, hV⟩ := h.variants
  have hv' : v ∈ retired b.variants.toTable now k.learnedRuleId := hV ▸ hv
  cases hlearned : k.learnedRuleId with
  | none =>
    rw [hlearned] at hv'
    exact ⟨hv', nofun⟩
  | some id =>
    rw [hlearned] at hv'
    rcases Table.mem_modify_cases hv' with ⟨hmem, hne⟩ | ⟨w, -, -, rfl⟩
    · refine ⟨hmem, ?_⟩
      rintro ⟨⟩
      exact hne rfl
    · exact absurd hlive nofun

omit [Extern] in
theorem Reverted.variant_mem (h : Reverted b b' k) {v : FieldRuleVariantsRow} (hv : v ∈ b.variants)
    (hne : k.learnedRuleId ≠ some v.id) : v ∈ b'.variants := by
  obtain ⟨now, hV⟩ := h.variants
  have hv' : v ∈ b'.variants.toTable := by
    rw [hV]
    cases hlearned : k.learnedRuleId with
    | none => exact hv
    | some id =>
      refine (Table.mem_modify_of_ne ?_).mpr hv
      rintro rfl
      exact hne hlearned
  exact hv'

omit [Extern] in
/-- A correction that waits is reverted. -/
theorem Between.revert (hb : Between b₀ b runId) (hk : Pending b₀ b k) (h : Reverted b b' k) :
    Between b₀ b' runId := by
  obtain ⟨now, hT⟩ := h.transactions
  have hrecord := hb.corrections k hk.1
  rcases hrecord with hold | ⟨-, -, hprev, hnotLearned⟩
  · exact absurd (Table.mem_keys.mpr ⟨k, hold, rfl⟩) hk.2.1
  constructor
  case merchants => exact h.merchants ▸ hb.merchants
  case aliases =>
    intro name
    rw [Cleanup.resolves, h.aliases]
    exact hb.aliases name
  case fieldRules => exact h.fieldRules ▸ hb.fieldRules
  case parents => exact h.fieldRules ▸ hb.parents
  case live => exact fun v hv hlive => h.variant_mem (hb.live v hv hlive) (hnotLearned v hv hlive)
  case learned =>
    intro v hv hlive
    obtain ⟨hvb, hne⟩ := h.variant hv hlive
    rcases hb.learned v hvb hlive with hold | ⟨x, hx, hid⟩
    · exact .inl hold
    · refine .inr ⟨x, h.pending_iff.mpr ⟨hx, fun hxk => ?_⟩, hid⟩
      rw [Table.eq_of_key_eq hx.1 hk.1 hxk] at hid
      exact hne hid
  case found =>
    intro id
    rw [hT, Table.contains_modify]
    exact hb.found id
  case transactions =>
    intro id
    by_cases hid : id = k.transactionId
    · left
      have hexists : b₀.db.transactions.contains id = true := by
        rw [hid, Table.contains]
        unfold Cleanup.fieldsOf at hprev
        rw [← Option.isSome_map, hprev]
        rfl
      obtain ⟨t, ht⟩ : ∃ t, b.db.transactions.find? id = some t :=
        Option.isSome_iff_exists.mp ((hb.found id).trans hexists)
      rw [hid] at ht ⊢
      rw [hprev, Cleanup.fieldsOf, hT, Table.find?_modify, if_pos rfl, ht]
      rfl
    · have hsame : b'.fieldsOf id = b.fieldsOf id := by
        rw [Cleanup.fieldsOf, hT, Table.find?_modify, if_neg hid]
        rfl
      rw [hsame]
      rcases hb.transactions id with hold | ⟨x, hx, htx⟩
      · exact .inl hold
      · refine .inr ⟨x, h.pending_iff.mpr ⟨hx, fun hxk => ?_⟩, htx⟩
        rw [Table.eq_of_key_eq hx.1 hk.1 hxk] at htx
        exact hid htx.symm
  case old =>
    intro x hx
    rw [h.corrections, Table.keys_modify]
    exact hb.old x hx
  case corrections =>
    intro x hx
    rw [h.corrections] at hx
    rcases Table.mem_modify_cases hx with ⟨hx, -⟩ | ⟨y, hy, hyk, rfl⟩
    · exact hb.corrections x hx
    · rcases hb.corrections y hy with hold | hrecorded
      · exact absurd (Table.mem_keys.mpr ⟨y, hold, hyk⟩) hk.2.1
      · exact .inr hrecorded

omit [Extern] in
/-- With nothing left to revert, the live variants under an old rule are the
old ones. -/
theorem Between.lookup_variant (hb : Between b₀ b runId) (hnone : ∀ k, ¬ Pending b₀ b k)
    (i : String × String) : b.variants.lookup i = b₀.variants.lookup i := by
  have hlive : ∀ v : FieldRuleVariantsRow, v.liveIndex = some i → v.status.isLive = true :=
    fun v hv => (liveIndex_eq_some.mp hv).1
  rcases hlookup : b₀.variants.lookup i with _ | v
  · rw [Indexed.lookup_eq_none] at hlookup ⊢
    intro v hv hi
    rcases hb.learned v hv (hlive v hi) with hold | ⟨k, hk, -⟩
    · exact hlookup v hold hi
    · exact hnone k hk
  · obtain ⟨hv, hi⟩ := Indexed.lookup_eq_some.mp hlookup
    exact Indexed.lookup_eq_some.mpr ⟨hb.live v hv (hlive v hi), hi⟩

omit [Extern] in
/-- When nothing waits any more, all is as it was. -/
theorem Between.restored (hb : Between b₀ b runId) (hnone : ∀ k, ¬ Pending b₀ b k) :
    Restored b₀ b where
  transactions id := (hb.transactions id).resolve_right fun ⟨k, hk, _⟩ => hnone k hk
  aliases := hb.aliases
  rules key templateHash := by
    have hvariant : b.liveVariant key templateHash = b₀.liveVariant key templateHash := by
      unfold Cleanup.liveVariant
      simp only [hb.lookup_variant hnone]
      rcases hlookup : b₀.fieldRules.lookup key with _ | p
      · rcases hlookup' : b.fieldRules.lookup key with _ | p
        · rfl
        · -- a parent that was created has no live variant left
          obtain ⟨hp, hkey⟩ := Indexed.lookup_eq_some.mp hlookup'
          rcases hb.parents p hp with hold | hforeign
          · exact absurd hkey (Indexed.lookup_eq_none.mp hlookup p hold)
          · refine Indexed.lookup_eq_none.mpr fun v hv hi => ?_
            obtain ⟨hlive, hparent, -⟩ := liveIndex_eq_some.mp hi
            exact hforeign v hv hlive hparent
      · obtain ⟨hp, hkey⟩ := Indexed.lookup_eq_some.mp hlookup
        rw [Indexed.lookup_eq_some.mpr ⟨hb.fieldRules p hp, hkey⟩]
    rw [Cleanup.liveRule, Cleanup.liveRule, hvariant]
  names m hm := by
    have hentry : m.entry ∈ b.db.merchants.rows.map MerchantsRow.entry :=
      hb.merchants.subset (List.mem_map_of_mem hm)
    obtain ⟨m', hm', heq⟩ := List.mem_map.mp hentry
    have hid : m'.id = m.id := congrArg (·.1) heq
    have hname : m'.name = m.name := congrArg (·.2.1) heq
    have hfind : b.db.merchants.find? m.id = some m' := Table.find?_eq_some.mpr ⟨hm', hid⟩
    rw [hfind, Option.map_some, hname]

end Revert

/-! ## one correction -/

section One

variable [RuleLibraries] {s s₁ : Store Cleanup} {runId : String} {c : CleanupCandidate}
  {r : MerchantResolution} {now : Int}

theorem applyCorrection_ok (h : UnusedDraws s)
    (hrun : applyCorrection runId c r (.quiet now) s = (.ok (), s₁)) :
    UnusedDraws s₁ ∧ ∃ merchantId k, Applied s.db s₁.db runId c r merchantId k := by
  rcases applyCorrection_cases h runId c r now with
    ⟨e, n, herr, -⟩ | ⟨-, e, s', herr⟩ | ⟨s', merchantId, k, hok, hunused, happ⟩
  · rw [herr] at hrun
    exact absurd (congrArg Prod.fst hrun) nofun
  · rw [herr] at hrun
    exact absurd (congrArg Prod.fst hrun) nofun
  · obtain rfl : s' = s₁ := congrArg Prod.snd (hok.symm.trans hrun)
    exact ⟨hunused, merchantId, k, happ⟩

variable {b b₁ b₂ : Cleanup} {merchantId : String} {k : MerchantLlmCorrectionsRow}

theorem Reversible.restored (h : Reversible b c r) (happ : Applied b b₁ runId c r merchantId k)
    (hrev : Reverted b₁ b₂ k) : Restored b b₂ := by
  have hb := (Between.refl b runId).apply happ h
  have hnew := (Between.refl b runId).fresh_correction (Table.insert?_eq_some.mp happ.recorded).1
  have hk : Pending b b₁ k :=
    ⟨(Table.mem_of_insert? happ.recorded).mpr (.inr rfl), hnew, happ.status⟩
  refine (hb.revert hk hrev).restored fun x hx => ?_
  obtain ⟨⟨hmem, hfresh, -⟩, hne⟩ := hrev.pending_iff.mp hx
  rcases (Table.mem_of_insert? happ.recorded).mp hmem with hold | rfl
  · exact hfresh (Table.mem_keys.mpr ⟨x, hold, rfl⟩)
  · exact hne rfl

/-- What was overwritten is gone: nothing of it can have been there. -/
theorem Restored.reversible (h : Restored b b₂) (happ : Applied b b₁ runId c r merchantId k)
    (hrev : Reverted b₁ b₂ k) : Reversible b c r := by
  constructor
  case shown =>
    obtain ⟨new, now, hT⟩ := happ.corrected
    obtain ⟨now', hT'⟩ := hrev.transactions
    obtain ⟨t, ht⟩ : ∃ t, b.db.transactions.find? c.transactionId = some t :=
      Option.isSome_iff_exists.mp happ.found
    rw [← h.transactions, Cleanup.fieldsOf, hT', happ.transactionId, Table.find?_modify, if_pos rfl,
      hT, Table.find?_modify, if_pos rfl, ht, ← happ.prev]
    rfl
  case named =>
    intro m hm hlive
    have hname := h.names m hm
    rcases happ.resolved with ⟨hfound, now, hM⟩ | ⟨hnone, -⟩
    · obtain rfl : m.id = merchantId := Option.some.inj (hlive.symm.trans hfound)
      have hfind : b.db.merchants.find? m.id = some m := Table.find?_eq_some.mpr ⟨hm, rfl⟩
      rw [hrev.merchants, hM, Table.find?_modify, if_pos rfl, hfind] at hname
      exact (Option.some.inj hname).symm
    · rw [hnone] at hlive
      exact absurd hlive nofun
  case known =>
    intro name hname
    have hres : b.resolves name = some merchantId := by
      rw [← h.aliases, Cleanup.resolves, hrev.aliases]
      exact (happ.aliases name).trans (if_pos hname)
    rcases happ.resolved with ⟨hfound, -⟩ | ⟨-, hfresh, -⟩
    · exact ⟨merchantId, hfound, hres⟩
    · obtain ⟨a, ha, hid⟩ := Option.map_eq_some_iff.mp hres
      exact absurd (.inr (.inr (.inl ⟨a, List.mem_of_find?_eq_some ha, hid⟩))) hfresh
  case unruled =>
    intro templateHash payload hrule
    rcases happ.learned with ⟨hnone, -⟩ | ⟨hash, _, p, id, hrule', hid, hp, htaught⟩
    · rw [hnone] at hrule
      exact absurd hrule nofun
    · obtain ⟨rfl, -⟩ : hash = templateHash ∧ _ := Prod.mk.inj (Option.some.inj (hrule'.symm.trans hrule))
      rcases hp with ⟨hfound, hF⟩ | ⟨hmissing, -⟩
      · rcases htaught with ⟨v, w, now, hv, hvid, -, -⟩ | ⟨hnone, -⟩
        · -- the live variant was replaced, and then retired
          have hgone : b₂.variants.lookup (p.id, hash) = none := by
            refine Indexed.lookup_eq_none.mpr fun x hx hi => ?_
            obtain ⟨hx₁, hne⟩ := hrev.variant hx (liveIndex_eq_some.mp hi).1
            have hxb : x ∈ b.variants := (happ.variant_iff hne).mp hx₁
            obtain ⟨hvb, hvi⟩ := Indexed.lookup_eq_some.mp hv
            obtain rfl := Indexed.eq_of_index_eq hxb hvb hi hvi
            rw [hvid] at hne
            exact hne hid
          rw [← h.rules, Cleanup.liveRule, Cleanup.liveVariant, hrev.fieldRules, hF, hfound,
            Option.bind_some, hgone]
          rfl
        · rw [Cleanup.liveRule, Cleanup.liveVariant, hfound, Option.bind_some, hnone]
          rfl
      · rw [Cleanup.liveRule, Cleanup.liveVariant, hmissing]
        rfl

end One

/-! ## runs -/

/-- The corrections of a run, each at its time; one that fails is passed over. -/
def applyRun [RuleLibraries] (runId : String) (s : Store Cleanup) :
    List (Int × CleanupCandidate × MerchantResolution) → Store Cleanup
  | [] => s
  | (now, c, r) :: rest => applyRun runId (applyCorrection runId c r (.quiet now) s).2 rest

theorem applyRun_between [RuleLibraries] {s : Store Cleanup} {b₀ : Cleanup} {runId : String}
    (h : UnusedDraws s) (hb : Between b₀ s.db runId)
    {corrections : List (Int × CleanupCandidate × MerchantResolution)}
    (hrev : ∀ x ∈ corrections, Reversible b₀ x.2.1 x.2.2) :
    UnusedDraws (applyRun runId s corrections) ∧
      Between b₀ (applyRun runId s corrections).db runId := by
  induction corrections generalizing s with
  | nil => exact ⟨h, hb⟩
  | cons x rest ih =>
    obtain ⟨now, c, r⟩ := x
    have hhead : Reversible b₀ c r := hrev _ List.mem_cons_self
    have hrest : ∀ x ∈ rest, Reversible b₀ x.2.1 x.2.2 :=
      fun x hx => hrev x (List.mem_cons_of_mem _ hx)
    rw [applyRun]
    rcases applyCorrection_cases h runId c r now with
      ⟨e, n, herr, hunused⟩ | ⟨hmissing, -⟩ | ⟨s', merchantId, k, hok, hunused, happ⟩
    · rw [herr]
      exact ih hunused hb hrest
    · -- a candidate that shows a transaction names one
      have hexists : b₀.db.transactions.contains c.transactionId = true := by
        have hshown := hhead.shown
        unfold Cleanup.fieldsOf at hshown
        rw [Table.contains, ← Option.isSome_map, hshown]
        rfl
      rw [hb.found, hexists] at hmissing
      exact Bool.noConfusion hmissing
    · rw [hok]
      exact ih hunused (hb.apply happ hhead) hrest

theorem revertAll_restores [RuleLibraries] {s : Store Cleanup} {b₀ : Cleanup} {runId : String}
    (h : UnusedDraws s) (hb : Between b₀ s.db runId) (now : Int) {ids : List String}
    (hnodup : ids.Nodup) (hids : ∀ id ∈ ids, ∃ k, Pending b₀ s.db k ∧ k.id = id)
    (hall : ∀ k, Pending b₀ s.db k → k.id ∈ ids) :
    ∃ n s', revertAll ids (.quiet now) s = (.ok n, s') ∧ Restored b₀ s'.db := by
  induction ids generalizing s with
  | nil => exact ⟨0, s, rfl, hb.restored fun k hk => absurd (hall k hk) List.not_mem_nil⟩
  | cons id ids ih =>
    obtain ⟨k, hk, rfl⟩ := hids id List.mem_cons_self
    obtain ⟨hnotMem, hnodup'⟩ := List.nodup_cons.mp hnodup
    obtain ⟨s', hrun, hunused, hreverted⟩ := revertCorrection_quiet h hk.1 hk.2.2 now
    have hids' : ∀ id ∈ ids, ∃ x, Pending b₀ s'.db x ∧ x.id = id := by
      intro id hid
      obtain ⟨x, hx, rfl⟩ := hids id (List.mem_cons_of_mem _ hid)
      refine ⟨x, hreverted.pending_iff.mpr ⟨hx, fun hxk => ?_⟩, rfl⟩
      rw [hxk] at hid
      exact hnotMem hid
    have hall' : ∀ x, Pending b₀ s'.db x → x.id ∈ ids := by
      intro x hx
      obtain ⟨hold, hne⟩ := hreverted.pending_iff.mp hx
      exact (List.mem_cons.mp (hall x hold)).resolve_left hne
    obtain ⟨n, s'', hrest, hrestored⟩ := ih hunused (hb.revert hk hreverted) hnodup' hids' hall'
    refine ⟨n + 1, s'', ?_, hrestored⟩
    rw [revertAll, Eff.bind_of_ok hrun, Eff.bind_of_ok hrest]
    rfl

/-- All corrections of a run, if the run is all that was applied under its id. -/
theorem revertRun_restores [RuleLibraries] {s : Store Cleanup} {b₀ : Cleanup} {runId : String}
    (h : UnusedDraws s) (hb : Between b₀ s.db runId)
    (hfirst : ∀ k ∈ b₀.corrections, k.runId = runId → k.status ≠ .applied) (now : Int) :
    ∃ n s', revertRun runId (.quiet now) s = (.ok n, s') ∧ Restored b₀ s'.db := by
  have hpending : ∀ k, Pending b₀ s.db k ↔ k ∈ scan (s.db.corrections.rows.filter fun k =>
      k.runId = runId && k.status = .applied) := by
    intro k
    rw [mem_scan, List.mem_filter, Bool.and_eq_true, decide_eq_true_iff, decide_eq_true_iff]
    constructor
    · rintro ⟨hk, hnew, hstatus⟩
      rcases hb.corrections k hk with hold | ⟨-, hrun, -⟩
      · exact absurd (Table.mem_keys.mpr ⟨k, hold, rfl⟩) hnew
      · exact ⟨hk, hrun, hstatus⟩
    · rintro ⟨hk, hrun, hstatus⟩
      rcases hb.corrections k hk with hold | ⟨hnew, -⟩
      · exact absurd hstatus (hfirst k hold hrun)
      · exact ⟨hk, hnew, hstatus⟩
  have hnodup : ((scan (s.db.corrections.rows.filter fun k =>
      k.runId = runId && k.status = .applied)).map (·.id)).Nodup := by
    rw [((Extern.scan_perm _).map _).nodup_iff]
    exact s.db.corrections.nodup.sublist (List.filter_sublist.map _)
  rw [revertRun, Eff.bind_of_ok (fetch_apply _ _ s)]
  refine revertAll_restores h hb now hnodup (fun id hid => ?_) fun k hk => ?_
  · obtain ⟨k, hk, rfl⟩ := List.mem_map.mp hid
    exact ⟨k, (hpending k).mpr hk, rfl⟩
  · exact List.mem_map_of_mem ((hpending k).mp hk)

/-- What reverting gives back.  One correction: everything, just when the
correction was reversible.  A run: everything, if all its corrections were
reversible before the run. -/
theorem corrections_undone [RuleLibraries] (s : Store Cleanup) (h : UnusedDraws s)
    (runId : String) :
    (∀ c r now now' s₁, applyCorrection runId c r (.quiet now) s = (.ok (), s₁) →
      ∃ k s₂, s.db.corrections.insert? k = some s₁.db.corrections ∧
        revertCorrection k.id (.quiet now') s₁ = (.ok (), s₂) ∧
        (Restored s.db s₂.db ↔ Reversible s.db c r)) ∧
    ∀ corrections now', (∀ k ∈ s.db.corrections, k.runId = runId → k.status ≠ .applied) →
      (∀ x ∈ corrections, Reversible s.db x.2.1 x.2.2) →
      ∃ n s₂, revertRun runId (.quiet now') (applyRun runId s corrections) = (.ok n, s₂) ∧
        Restored s.db s₂.db := by
  constructor
  · intro c r now now' s₁ hrun
    obtain ⟨hunused, merchantId, k, happ⟩ := applyCorrection_ok h hrun
    have hk : k ∈ s₁.db.corrections := (Table.mem_of_insert? happ.recorded).mpr (.inr rfl)
    obtain ⟨s₂, hrevert, -, hreverted⟩ := revertCorrection_quiet hunused hk happ.status now'
    exact ⟨k, s₂, happ.recorded, hrevert, fun hres => hres.reversible happ hreverted,
      fun hrev => hrev.restored happ hreverted⟩
  · intro corrections now' hfirst hrev
    obtain ⟨hunused, hb⟩ := applyRun_between h (Between.refl s.db runId) hrev
    exact revertRun_restores hunused hb hfirst now'

/-! ## two corrections -/

omit [Extern] in
/-- A debit nobody has named yet, and two merchants with an alias each. -/
def cleanupStart (rules : Indexed FieldRulesRow FieldRulesRow.ruleIndex)
    (variants : Indexed FieldRuleVariantsRow FieldRuleVariantsRow.liveIndex) : Store Cleanup where
  db := {
    db := { firstLedger.db with
      transactions := ⟨[{ debited "t1" 500 1000 with
        merchantDisplayName := some "USING YOUR" }], by simp⟩
      merchants := ⟨[
        ⟨"m1", "Swiggy", "SWIGGY", .system, false, none, none⟩,
        ⟨"m2", "Zomato", "ZOMATO", .system, false, none, none⟩], by decide⟩
      merchantAliases := ⟨[
        ⟨"a1", "m1", "SWIGGY", "SWIGGY", 1, none⟩,
        ⟨"a2", "m2", "INSTAMART", "INSTAMART", 1, none⟩], by decide⟩ }
    categories := .empty
    fieldRules := rules
    variants := variants
    ruleChangeLog := .empty
    corrections := .empty }
  nextUuid := 0
  skip := none

omit [Extern] in
def usingYour (body : Option String) : CleanupCandidate where
  transactionId := "t1"
  observationId := none
  bankName := "SBI Card"
  currentMerchant := "USING YOUR"
  body := body
  categoryId := none
  merchantEntityId := none
  merchantDisplayName := some "USING YOUR"
  merchantNormalizedName := none

omit [Extern] in
/-- The ids of `Extern.ascii` end in a hyphen. -/
theorem ne_uuid_ascii {x : String} (h : x.toList.getLast? ≠ some '-') (k : Nat) :
    letI := Extern.ascii
    x ≠ uuid k := by
  rintro rfl
  exact h (by simp [uuid])

omit [Extern] in
theorem unused_cleanupStart (rules : Indexed FieldRulesRow FieldRulesRow.ruleIndex)
    (variants : Indexed FieldRuleVariantsRow FieldRuleVariantsRow.liveIndex)
    (hrules : ∀ p ∈ rules.rows, p.id = "p1")
    (hvariants : ∀ v ∈ variants.rows, v.id = "v1" ∧ v.fieldRuleId = "p1") :
    letI := Extern.ascii
    UnusedDraws (cleanupStart rules variants) := by
  let := Extern.ascii
  intro k _ hused
  have hne : ∀ x ∈ ["m1", "m2", "a1", "a2", "p1", "v1"], x ≠ uuid k := by
    intro x hx
    refine ne_uuid_ascii ?_ k
    revert x
    decide
  rcases hused with h | h | ⟨a, h, hid⟩ | h | h | ⟨v, h, hid⟩ | h | h
  · obtain ⟨m, hm, hid⟩ := Table.mem_keys.mp h
    simp only [cleanupStart, Table.mem_def, List.mem_cons, List.not_mem_nil, or_false] at hm
    rcases hm with rfl | rfl
    · exact hne "m1" (by simp) hid
    · exact hne "m2" (by simp) hid
  · obtain ⟨a, ha, hid⟩ := Table.mem_keys.mp h
    simp only [cleanupStart, Table.mem_def, List.mem_cons, List.not_mem_nil, or_false] at ha
    rcases ha with rfl | rfl
    · exact hne "a1" (by simp) hid
    · exact hne "a2" (by simp) hid
  · simp only [cleanupStart, Table.mem_def, List.mem_cons, List.not_mem_nil, or_false] at h
    rcases h with rfl | rfl
    · exact hne "m1" (by simp) hid
    · exact hne "m2" (by simp) hid
  · obtain ⟨p, hp, hid⟩ := Table.mem_keys.mp h
    exact hne "p1" (by simp) ((hrules p hp).symm.trans hid)
  · obtain ⟨v, hv, hid⟩ := Table.mem_keys.mp h
    exact hne "v1" (by simp) ((hvariants v hv).1.symm.trans hid)
  · exact hne "p1" (by simp) ((hvariants v h).2.symm.trans hid)
  · exact absurd h List.not_mem_nil
  · exact absurd h List.not_mem_nil

omit [Extern] in
/-- A merchant that has its name and its alias, and a rule for a new
template. -/
theorem corrections_undone_known :
    letI := Extern.ascii
    letI := RuleLibraries.words
    let s := cleanupStart .empty .empty
    let c := usingYour (some "at SWIGGY on")
    let r : MerchantResolution := ⟨"SWIGGY", "Swiggy", "Food", 9 / 10⟩
    (∃ s₁ k s₂, applyCorrection "run" c r (.quiet 1) s = (.ok (), s₁) ∧
      revertCorrection k (.quiet 2) s₁ = (.ok (), s₂) ∧ Restored s.db s₂.db) ∧
    ∃ n s₂, revertRun "run" (.quiet 2) (applyRun "run" s [(1, c, r)]) = (.ok n, s₂) ∧
      Restored s.db s₂.db := by
  let := Extern.ascii
  let := RuleLibraries.words
  intro s c r
  have hunused : UnusedDraws s := unused_cleanupStart _ _ (by simp [Indexed.empty, Table.empty])
    (by simp [Indexed.empty, Table.empty])
  have hrev : Reversible s.db c r := by
    constructor
    case shown => decide +kernel
    case named =>
      show ∀ m ∈ s.db.db.merchants.rows, _
      decide +kernel
    case known =>
      have hnames : (correctionAliases c r).map (·.2) = ["SWIGGY"] := by decide +kernel
      rw [hnames]
      intro name hname
      rw [List.mem_singleton.mp hname]
      exact ⟨"m1", by decide +kernel, by decide +kernel⟩
    case unruled => exact fun _ _ _ => rfl
  obtain ⟨hone, hrun⟩ := corrections_undone s hunused "run"
  refine ⟨?_, hrun _ 2 (fun k hk => absurd hk List.not_mem_nil) ?_⟩
  · rcases happly : applyCorrection "run" c r (.quiet 1) s with ⟨e | ⟨⟨⟩⟩, s₁⟩
    · have hok : (applyCorrection "run" c r (.quiet 1) s).1.isOk = true := by decide +kernel
      rw [happly] at hok
      exact Bool.noConfusion (show false = true from hok)
    · obtain ⟨k, s₂, -, hrevert, hiff⟩ := hone c r 1 2 s₁ happly
      exact ⟨s₁, k.id, s₂, rfl, hrevert, hiff.mpr hrev⟩
  · intro x hx
    rw [List.mem_singleton.mp hx]
    exact hrev

omit [Extern] in
/-- The rule that stood for the template of the email. -/
def oldRule : Indexed FieldRulesRow FieldRulesRow.ruleIndex where
  rows := [⟨"p1", "SBI Card", "merchant", "email"⟩]
  nodup := by simp
  unique := by simp

omit [Extern] in
def oldVariant : Indexed FieldRuleVariantsRow FieldRuleVariantsRow.liveIndex where
  rows := [{
    id := "v1", fieldRuleId := "p1", templateHash := "at instamart on"
    rulePayloadJson := "old", status := .trusted, successCount := 12, failureCount := 0
    confidence := 1, authoredBy := "deterministic", learnedFrom := "user_edit", updatedAt := 0 }]
  nodup := by simp
  unique := by simp

omit [Extern] in
/-- The merchant keeps the new name, the alias the new merchant, and the rule
that worked is retired. -/
theorem correction_not_undone :
    letI := Extern.ascii
    letI := RuleLibraries.words
    let s := cleanupStart oldRule oldVariant
    let c := usingYour (some "at INSTAMART on")
    let r : MerchantResolution := ⟨"INSTAMART", "SWIGGY", "Food", 9 / 10⟩
    let s₁ := (applyCorrection "run" c r (.quiet 1) s).2
    let s₂ := (revertCorrection (uuid 3) (.quiet 2) s₁).2
    ((applyCorrection "run" c r (.quiet 1) s).1.isOk = true ∧
      (revertCorrection (uuid 3) (.quiet 2) s₁).1.isOk = true) ∧
    ((s.db.db.merchants.find? "m1").map (·.name) = some "Swiggy" ∧
      (s₂.db.db.merchants.find? "m1").map (·.name) = some "SWIGGY") ∧
    (s.db.resolves "INSTAMART" = some "m2" ∧ s₂.db.resolves "INSTAMART" = some "m1") ∧
    (s.db.liveRule ("SBI Card", "merchant", "email") "at instamart on" = some ("old", .trusted) ∧
      s₂.db.liveRule ("SBI Card", "merchant", "email") "at instamart on" = none) ∧
    ¬ Restored s.db s₂.db := by
  let := Extern.ascii
  let := RuleLibraries.words
  intro s c r s₁ s₂
  have halias : s.db.resolves "INSTAMART" = some "m2" ∧ s₂.db.resolves "INSTAMART" = some "m1" := by
    decide +kernel
  refine ⟨by decide +kernel, by decide +kernel, halias, by decide +kernel, fun h => ?_⟩
  have hsame := h.aliases "INSTAMART"
  rw [halias.1, halias.2] at hsame
  exact absurd hsame (by decide)

end Dinero
