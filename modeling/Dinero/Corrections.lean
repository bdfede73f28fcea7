import Dinero.Cleanup

/-!
# Dinero.Corrections

What applying a correction does to the tables, and what reverting it does.

Each program of the pass is evaluated once, from a store whose next ids are not
in use; `Applied` and `Reverted` say what is left.
-/

namespace Dinero

open Sql

/-! ## ids in use -/

/-- The row ids of the tables a correction inserts into, and the ids their
rows refer to. -/
def Cleanup.Uses (b : Cleanup) (x : String) : Prop :=
  x ∈ b.db.merchants.keys ∨
  x ∈ b.db.merchantAliases.keys ∨ (∃ a ∈ b.db.merchantAliases, a.merchantEntityId = x) ∨
  x ∈ b.fieldRules.keys ∨
  x ∈ b.variants.keys ∨ (∃ v ∈ b.variants, v.fieldRuleId = x) ∨
  x ∈ b.ruleChangeLog.keys ∨ x ∈ b.corrections.keys

section Unused

variable [Extern]

/-- No draw to come is in use. -/
def UnusedDraws (s : Store Cleanup) : Prop := ∀ k, s.nextUuid ≤ k → ¬ s.db.Uses (uuid k)

variable {s : Store Cleanup}

theorem UnusedDraws.ne (h : UnusedDraws s) {x : String} (hx : s.db.Uses x) :
    x ≠ uuid s.nextUuid := by
  rintro rfl
  exact h _ (Nat.le_refl _) hx

/-- Tables that use no other ids. -/
theorem UnusedDraws.congr (h : UnusedDraws s) {b : Cleanup}
    (hb : ∀ x, b.Uses x → s.db.Uses x) : UnusedDraws { s with db := b } :=
  fun k hk hused => h k hk (hb _ hused)

/-- Tables that also use an id that was drawn before. -/
theorem UnusedDraws.with_drawn (h : UnusedDraws s) {b : Cleanup} {id : String}
    (hid : ∀ k, s.nextUuid ≤ k → uuid k ≠ id) (hb : ∀ x, b.Uses x → s.db.Uses x ∨ x = id) :
    UnusedDraws { s with db := b } := by
  intro k hk hused
  rcases hb _ hused with hold | hnew
  · exact h k hk hold
  · exact hid k hk hnew

/-- An id is drawn and may be used. -/
theorem UnusedDraws.draw (h : UnusedDraws s) {b : Cleanup}
    (hb : ∀ x, b.Uses x → s.db.Uses x ∨ x = uuid s.nextUuid) :
    UnusedDraws { s with db := b, nextUuid := s.nextUuid + 1 } := by
  intro k hk hused
  have hk' : s.nextUuid + 1 ≤ k := hk
  rcases hb _ hused with hold | hnew
  · exact h k (by omega) hold
  · have hkeq : k = s.nextUuid := Extern.uuid_injective hnew
    omega

end Unused

theorem writeOr_apply {error : SqlError} {f : Int → Cleanup → Option Cleanup} {ctx : Ctx Empty}
    {s : Store Cleanup} {b : Cleanup} (h : f ctx.now s.db = some b) :
    writeOr error f ctx s = (.ok (), { s with db := b }) := by
  refine update_apply ?_
  rw [h]

theorem onDb_apply {f : Int → Database → Except SqlError (α × Database)} {ctx : Ctx Empty}
    {s : Store Cleanup} {a : α} {db : Database} (h : f ctx.now s.db.db = .ok (a, db)) :
    onDb f ctx s = (.ok a, { s with db := { s.db with db := db } }) := by
  refine update_apply ?_
  rw [h]

theorem onDb_error {f : Int → Database → Except SqlError (α × Database)} {ctx : Ctx Empty}
    {s : Store Cleanup} {e : SqlError} (h : f ctx.now s.db.db = .error e) :
    onDb f ctx s = (.error e, s) := by
  simp only [onDb, update, h]

variable [Extern]

/-! ## the merchant -/

/-- What resolving a name to the merchant `id` did to the merchants. -/
def Resolved (b b' : Cleanup) (name id : String) : Prop :=
  (b.liveMerchant (stripNoiseTokens name) = some id ∧
    ∃ now, b'.db.merchants = b.db.merchants.modify id (renamePatch name now)) ∨
  (b.liveMerchant (stripNoiseTokens name) = none ∧ ¬ b.Uses id ∧
    ∃ m, m.id = id ∧ b.db.merchants.insert? m = some b'.db.merchants)

omit [Extern] in
theorem Cleanup.liveMerchant_eq_some {b : Cleanup} {normalized id : String}
    (h : b.liveMerchant normalized = some id) : ∃ m ∈ b.db.merchants, m.id = id := by
  obtain ⟨m, hm, rfl⟩ := Option.map_eq_some_iff.mp h
  exact ⟨m, List.mem_of_find?_eq_some hm, rfl⟩

theorem resolveCanonicalMerchant_cases {s : Store Cleanup} (h : UnusedDraws s) (name : String)
    (now : Int) :
    (∃ e n, resolveCanonicalMerchant name (.quiet now) s = (.error e, { s with nextUuid := n }) ∧
      UnusedDraws { s with nextUuid := n }) ∨
    ∃ id db n, resolveCanonicalMerchant name (.quiet now) s =
        (.ok (id, stripNoiseTokens name), ⟨{ s.db with db := db }, n, s.skip⟩) ∧
      UnusedDraws ⟨{ s.db with db := db }, n, s.skip⟩ ∧
      (∃ T, db = { s.db.db with merchants := T }) ∧
      Resolved s.db { s.db with db := db } name id ∧ db.merchants.contains id = true := by
  unfold resolveCanonicalMerchant
  by_cases hempty : stripNoiseTokens name = ""
  · left
    exact ⟨_, s.nextUuid, by rw [if_pos hempty]; rfl, h⟩
  · rw [if_neg hempty, Eff.bind_of_ok (fetch_apply _ _ s)]
    rcases hlive : s.db.liveMerchant (stripNoiseTokens name) with _ | id
    · dsimp only
      rw [Eff.bind_of_ok (newUuid_apply _ _ s)]
      let m : MerchantsRow := {
        id := uuid s.nextUuid, name := name, normalizedName := stripNoiseTokens name
        source := .user, isDeleted := false, createdAt := some now, updatedAt := some now }
      rcases hins : s.db.db.insertMerchant m with e | ⟨⟨⟩, db⟩
      · left
        refine ⟨e, s.nextUuid + 1, ?_, h.draw fun x hx => .inl hx⟩
        exact Eff.bind_of_error (onDb_error hins)
      · right
        obtain ⟨-, T, hT, rfl⟩ := Database.insertMerchant_eq_ok.mp hins
        have hkeys : ∀ x, x ∈ T.keys ↔ x ∈ s.db.db.merchants.keys ∨ x = uuid s.nextUuid :=
          fun x => Table.mem_keys_of_insert? hT
        refine ⟨uuid s.nextUuid, _, s.nextUuid + 1, ?_, h.draw fun x hx => ?_, ⟨T, rfl⟩,
          .inr ⟨hlive, h _ (Nat.le_refl _), m, rfl, hT⟩, ?_⟩
        · rw [Eff.bind_of_ok (onDb_apply hins)]
          rfl
        · rcases hx with hx | hx
          · rcases (hkeys x).mp hx with hold | hnew
            · exact .inl (.inl hold)
            · exact .inr hnew
          · exact .inl (.inr hx)
        · rw [Table.contains_iff, ← Table.mem_keys, hkeys]
          exact .inr rfl
    · dsimp only
      right
      obtain ⟨m, hm, hid⟩ := Cleanup.liveMerchant_eq_some hlive
      rw [Eff.bind_of_ok (onDb_apply rfl)]
      refine ⟨id, _, s.nextUuid, rfl, h.congr fun x hx => ?_, ⟨_, rfl⟩, .inl ⟨hlive, now, rfl⟩, ?_⟩
      · simpa [Cleanup.Uses] using hx
      · rw [Table.contains_modify, Table.contains_iff]
        exact ⟨m, hm, hid⟩

/-! ## aliases -/

omit [Extern] in
theorem Cleanup.resolves_modify {b : Cleanup} {a old : MerchantAliasesRow}
    (hold : b.db.merchantAliases.rows.find? (·.aliasNormalized = a.aliasNormalized) = some old)
    (name : String) :
    Cleanup.resolves { b with db := { b.db with
      merchantAliases := b.db.merchantAliases.modify old.id (realiasPatch a) } } name =
      if name = a.aliasNormalized then some a.merchantEntityId else b.resolves name := by
  have hmem : old ∈ b.db.merchantAliases := List.mem_of_find?_eq_some hold
  have halias : old.aliasNormalized = a.aliasNormalized := by simpa using List.find?_some hold
  unfold Cleanup.resolves
  rw [Table.rows_find?_modify fun _ => rfl, Option.map_map]
  by_cases hname : name = a.aliasNormalized
  · rw [if_pos hname, hname, hold]
    simp [Keyed.key, realiasPatch]
  · rw [if_neg hname]
    refine Option.map_congr fun r hr => ?_
    have hr' : r.aliasNormalized = name := by simpa using List.find?_some hr
    have hne : r.id ≠ old.id := by
      intro hid
      have heq : r = old := Table.eq_of_key_eq (List.mem_of_find?_eq_some hr) hmem hid
      rw [heq, halias] at hr'
      exact hname hr'.symm
    simp [Keyed.key, hne]

/-- An alias is recorded: it now resolves to the merchant, the others resolve
as before. -/
theorem upsertAlias_quiet {s : Store Cleanup} (h : UnusedDraws s) {merchantId : String}
    (hm : s.db.db.merchants.contains merchantId = true) (aliasRaw aliasNormalized : String)
    (confidence : ℚ) (now : Int) :
    ∃ T, upsertAlias merchantId aliasRaw aliasNormalized confidence (.quiet now) s =
        (.ok (), ⟨{ s.db with db := { s.db.db with merchantAliases := T } }, s.nextUuid + 1,
          s.skip⟩) ∧
      UnusedDraws ⟨{ s.db with db := { s.db.db with merchantAliases := T } }, s.nextUuid + 1,
        s.skip⟩ ∧
      ∀ name, Cleanup.resolves { s.db with db := { s.db.db with merchantAliases := T } } name =
        if name = aliasNormalized then some merchantId else s.db.resolves name := by
  have hused : s.db.Uses merchantId := .inl (Table.mem_keys.mpr (Table.contains_iff.mp hm))
  let a : MerchantAliasesRow := {
    id := uuid s.nextUuid, merchantEntityId := merchantId, aliasRaw := aliasRaw
    aliasNormalized := aliasNormalized, confidence := confidence, createdAt := some now }
  rw [upsertAlias, Eff.bind_of_ok (newUuid_apply _ _ s)]
  rcases hfind : s.db.db.merchantAliases.rows.find? (·.aliasNormalized = aliasNormalized) with
    _ | old
  · -- a new alias
    have hnew : ∀ x ∈ s.db.db.merchantAliases, x.aliasNormalized ≠ aliasNormalized := by
      simpa [Table.mem_def] using hfind
    obtain ⟨T, hT⟩ : ∃ T, s.db.db.merchantAliases.insert? a = some T :=
      Table.exists_insert fun x hx hid =>
        h.ne (.inr (.inl (Table.mem_keys.mpr ⟨x, hx, rfl⟩))) hid
    have hins : s.db.db.upsertAlias a = .ok ((), { s.db.db with merchantAliases := T }) := by
      have hany : ¬ (s.db.db.merchantAliases.rows.any
          (·.aliasNormalized = a.aliasNormalized)) = true := by
        simpa [Table.mem_def] using hnew
      unfold Database.upsertAlias
      rw [show s.db.db.merchantAliases.rows.find? (·.aliasNormalized = a.aliasNormalized) = none
        from hfind]
      show s.db.db.insertAlias a = _
      rw [Database.insertAlias, if_neg hany, insertInto_eq_ok]
      exact ⟨T, hT, hm, rfl⟩
    refine ⟨T, onDb_apply hins, h.draw fun x hx => ?_, fun name => ?_⟩
    · rcases hx with hx | hx | hx | hx
      · exact .inl (.inl hx)
      · rcases (Table.mem_keys_of_insert? hT).mp hx with hold | hnew
        · exact .inl (.inr (.inl hold))
        · exact .inr hnew
      · obtain ⟨y, hy, rfl⟩ := hx
        rcases (Table.mem_of_insert? hT).mp hy with hold | rfl
        · exact .inl (.inr (.inr (.inl ⟨y, hold, rfl⟩)))
        · exact .inl hused
      · exact .inl (.inr (.inr (.inr hx)))
    · unfold Cleanup.resolves
      simp only [(Table.insert?_eq_some.mp hT).2, List.find?_append]
      by_cases hname : name = aliasNormalized
      · rw [if_pos hname, hname, hfind]
        simp [a]
      · rw [if_neg hname]
        have hnot : List.find? (fun x => decide (x.aliasNormalized = name)) [a] = none := by
          simp [a, Ne.symm hname]
        rw [hnot, Option.or_none]
  · -- an alias that is there
    have hins : s.db.db.upsertAlias a = .ok ((), { s.db.db with
        merchantAliases := s.db.db.merchantAliases.modify old.id (realiasPatch a) }) := by
      unfold Database.upsertAlias
      rw [show s.db.db.merchantAliases.rows.find? (·.aliasNormalized = a.aliasNormalized)
        = some old from hfind]
      exact if_pos hm
    refine ⟨_, onDb_apply hins, h.draw fun x hx => .inl ?_, Cleanup.resolves_modify (a := a) hfind⟩
    rcases hx with hx | hx | hx | hx
    · exact .inl hx
    · exact .inr (.inl (by simpa using hx))
    · obtain ⟨y, hy, rfl⟩ := hx
      rcases Table.mem_modify_cases hy with ⟨hy, -⟩ | ⟨r, hr, -, rfl⟩
      · exact .inr (.inr (.inl ⟨y, hy, rfl⟩))
      · exact hused
    · exact .inr (.inr (.inr hx))

theorem upsertAliases_quiet {s : Store Cleanup} (h : UnusedDraws s) {merchantId : String}
    (hm : s.db.db.merchants.contains merchantId = true) (confidence : ℚ) (now : Int)
    (names : List (String × String)) :
    ∃ T n, upsertAliases merchantId confidence names (.quiet now) s =
        (.ok (), ⟨{ s.db with db := { s.db.db with merchantAliases := T } }, n, s.skip⟩) ∧
      UnusedDraws ⟨{ s.db with db := { s.db.db with merchantAliases := T } }, n, s.skip⟩ ∧
      ∀ name, Cleanup.resolves { s.db with db := { s.db.db with merchantAliases := T } } name =
        if name ∈ names.map (·.2) then some merchantId else s.db.resolves name := by
  induction names generalizing s with
  | nil => exact ⟨_, _, rfl, h, fun _ => rfl⟩
  | cons p names ih =>
    obtain ⟨raw, normalized⟩ := p
    obtain ⟨T, hrun, hunused, hres⟩ := upsertAlias_quiet h hm raw normalized confidence now
    obtain ⟨T', n, hrun', hunused', hres'⟩ := ih hunused hm
    refine ⟨T', n, ?_, hunused', fun name => ?_⟩
    · rw [upsertAliases, Eff.bind_of_ok hrun]
      exact hrun'
    · have hlast := hres' name
      by_cases hin : name ∈ names.map (·.2)
      · have hmem : name ∈ ((raw, normalized) :: names).map (·.2) := List.mem_cons_of_mem _ hin
        rw [if_pos hin] at hlast
        rw [hlast, if_pos hmem]
      · rw [if_neg hin] at hlast
        refine hlast.trans ((hres name).trans ?_)
        simp [hin]

/-! ## the rule -/

/-- `p` is the parent rule for the key, found or created. -/
def HasParent (b b' : Cleanup) (key : String × String × String) (p : FieldRulesRow) : Prop :=
  (b.fieldRules.lookup key = some p ∧ b'.fieldRules = b.fieldRules) ∨
  (b.fieldRules.lookup key = none ∧ (∀ v ∈ b.variants, v.fieldRuleId ≠ p.id) ∧
    p.ruleIndex = some key ∧ b.fieldRules.insert? p = some b'.fieldRules)

/-- The variant `id` now has the template, in place of the live one or as a
new one. -/
def Taught (b b' : Cleanup) (parentId templateHash id : String) : Prop :=
  (∃ v w now, b.variants.lookup (parentId, templateHash) = some v ∧ v.id = id ∧
    w.status = .active ∧ b'.variants.toTable = b.variants.toTable.modify id (replacePatch w now)) ∨
  (b.variants.lookup (parentId, templateHash) = none ∧
    ∃ v, v.id = id ∧ v.fieldRuleId = parentId ∧ v.templateHash = templateHash ∧
      v.status = .active ∧ b.variants.insert? v = some b'.variants)

/-- `upsert_variant` has stored the variant under a parent, in place of the live one of its
template or as a new one. -/
def StoredVariant (b b' : Cleanup) (v : FieldRuleVariant) (parentId id : String) : Prop :=
  (∃ old now, b.variants.lookup (parentId, v.templateHash) = some old ∧ old.id = id ∧
    b'.variants.toTable = b.variants.toTable.modify id (replacePatch v now)) ∨
  (b.variants.lookup (parentId, v.templateHash) = none ∧
    ∃ now, v.id = id ∧ b.variants.insert? (v.row parentId now) = some b'.variants)

omit [Extern] in
theorem StoredVariant.taught {b b' : Cleanup} {v : FieldRuleVariant} {parentId id : String}
    (h : StoredVariant b b' v parentId id) (hactive : v.status = .active) :
    Taught b b' parentId v.templateHash id := by
  rcases h with ⟨old, now, hlookup, hid, hV⟩ | ⟨hlookup, now, hid, hV⟩
  · exact .inl ⟨old, v, now, hlookup, hid, hactive, hV⟩
  · exact .inr ⟨hlookup, v.row parentId now, hid, rfl, rfl, hactive, hV⟩

/-- What a correction taught, if it could teach anything. -/
def Learned [RuleLibraries] (b b' : Cleanup) (c : CleanupCandidate) (r : MerchantResolution)
    (ruleId : Option String) : Prop :=
  (learnableRule c r = none ∧ ruleId = none ∧ b'.fieldRules = b.fieldRules ∧
    b'.variants = b.variants) ∨
  ∃ templateHash payload p id, learnableRule c r = some (templateHash, payload) ∧
    ruleId = some id ∧ HasParent b b' (c.bankName, "merchant", "email") p ∧
    Taught b b' p.id templateHash id

omit [Extern] in
theorem HasParent.mem {b b' : Cleanup} {key : String × String × String} {p : FieldRulesRow}
    (h : HasParent b b' key p) : p ∈ b'.fieldRules ∧ p.ruleIndex = some key := by
  rcases h with ⟨hlookup, hF⟩ | ⟨-, -, hkey, hF⟩
  · rw [hF]
    exact Indexed.lookup_eq_some.mp hlookup
  · exact ⟨(Indexed.mem_of_insert? hF).mpr (.inr rfl), hkey⟩

theorem getOrCreateParent_quiet {s : Store Cleanup} (h : UnusedDraws s)
    (bankName fieldName sourceType : String) (now : Int) :
    ∃ p F n, getOrCreateParent bankName fieldName sourceType (.quiet now) s =
        (.ok p.id, ⟨{ s.db with fieldRules := F }, n, s.skip⟩) ∧
      UnusedDraws ⟨{ s.db with fieldRules := F }, n, s.skip⟩ ∧ s.nextUuid ≤ n ∧
      HasParent s.db { s.db with fieldRules := F } (bankName, fieldName, sourceType) p := by
  rw [getOrCreateParent, Eff.bind_of_ok (fetch_apply _ _ s)]
  rcases hlookup : s.db.fieldRules.lookup (bankName, fieldName, sourceType) with _ | p
  · dsimp only
    rw [Eff.bind_of_ok (newUuid_apply _ _ s)]
    let p : FieldRulesRow := ⟨uuid s.nextUuid, bankName, fieldName, sourceType⟩
    obtain ⟨F, hF⟩ : ∃ F, s.db.fieldRules.insert? p = some F := by
      refine Indexed.exists_insert (fun x hx hid => ?_) (fun x hx i hi hp => ?_)
      · exact h.ne (.inr (.inr (.inr (.inl (Table.mem_keys.mpr ⟨x, hx, rfl⟩))))) hid
      · exact Indexed.lookup_eq_none.mp hlookup x hx (hi.trans hp.symm)
    refine ⟨p, F, s.nextUuid + 1, ?_, h.draw fun x hx => ?_, by omega,
      .inr ⟨hlookup, fun v hv hid => ?_, rfl, hF⟩⟩
    · rw [Eff.bind_of_ok (writeOr_apply (b := { s.db with fieldRules := F }) (by
        show (s.db.fieldRules.insert? p).map _ = _
        rw [hF, Option.map_some]))]
      rfl
    · rcases hx with hx | hx | hx | hx | hx
      · exact .inl (.inl hx)
      · exact .inl (.inr (.inl hx))
      · exact .inl (.inr (.inr (.inl hx)))
      · rcases (Indexed.mem_keys_of_insert? hF).mp hx with hold | hnew
        · exact .inl (.inr (.inr (.inr (.inl hold))))
        · exact .inr hnew
      · exact .inl (.inr (.inr (.inr (.inr hx))))
    · exact h.ne (.inr (.inr (.inr (.inr (.inr (.inl ⟨v, hv, rfl⟩)))))) hid
  · exact ⟨p, _, s.nextUuid, rfl, h, Nat.le_refl _, .inl ⟨hlookup, rfl⟩⟩

theorem insertChangeLog_quiet {s : Store Cleanup} (h : UnusedDraws s) (variantId : Option String)
    (action : String) (oldPayload newPayload feedbackLogId : Option String) (reason : String)
    (now : Int) :
    ∃ L, insertChangeLog variantId action oldPayload newPayload feedbackLogId reason
        (.quiet now) s = (.ok (), ⟨{ s.db with ruleChangeLog := L }, s.nextUuid + 1, s.skip⟩) ∧
      UnusedDraws ⟨{ s.db with ruleChangeLog := L }, s.nextUuid + 1, s.skip⟩ := by
  let l : RuleChangeLogRow :=
    ⟨uuid s.nextUuid, variantId, action, oldPayload, newPayload, feedbackLogId, reason⟩
  obtain ⟨L, hL⟩ : ∃ L, s.db.ruleChangeLog.insert? l = some L :=
    Table.exists_insert fun x hx hid =>
      h.ne (.inr (.inr (.inr (.inr (.inr (.inr (.inl (Table.mem_keys.mpr ⟨x, hx, rfl⟩)))))))) hid
  refine ⟨L, ?_, h.draw fun x hx => ?_⟩
  · rw [insertChangeLog, Eff.bind_of_ok (newUuid_apply _ _ s)]
    refine writeOr_apply ?_
    show (s.db.ruleChangeLog.insert? l).map _ = _
    rw [hL, Option.map_some]
  · rcases hx with hx | hx | hx | hx | hx | hx | hx | hx
    · exact .inl (.inl hx)
    · exact .inl (.inr (.inl hx))
    · exact .inl (.inr (.inr (.inl hx)))
    · exact .inl (.inr (.inr (.inr (.inl hx))))
    · exact .inl (.inr (.inr (.inr (.inr (.inl hx)))))
    · exact .inl (.inr (.inr (.inr (.inr (.inr (.inl hx))))))
    · rcases (Table.mem_keys_of_insert? hL).mp hx with hold | hnew
      · exact .inl (.inr (.inr (.inr (.inr (.inr (.inr (.inl hold)))))))
      · exact .inr hnew
    · exact .inl (.inr (.inr (.inr (.inr (.inr (.inr (.inr hx)))))))

omit [Extern] in
theorem liveIndex_of_live {v : FieldRuleVariantsRow} (h : v.status.isLive = true) :
    v.liveIndex = some (v.fieldRuleId, v.templateHash) := by
  rw [FieldRuleVariantsRow.liveIndex, if_pos h]

omit [Extern] in
/-- The index of a live row. -/
theorem liveIndex_eq_some {v : FieldRuleVariantsRow} {parentId templateHash : String} :
    v.liveIndex = some (parentId, templateHash) ↔
      v.status.isLive = true ∧ v.fieldRuleId = parentId ∧ v.templateHash = templateHash := by
  unfold FieldRuleVariantsRow.liveIndex
  split
  · next h => simp [h]
  · next h => simp [h]

omit [Extern] in
/-- A change to a variant that leaves its parent uses no other ids. -/
theorem uses_of_modify {b : Cleanup}
    {V : Indexed FieldRuleVariantsRow FieldRuleVariantsRow.liveIndex} {id : String}
    {u : Patch FieldRuleVariantsRow} (hV : V.toTable = b.variants.toTable.modify id u)
    (hu : ∀ v, (u.run v).fieldRuleId = v.fieldRuleId) {x : String}
    (hx : Cleanup.Uses { b with variants := V } x) : b.Uses x := by
  rcases hx with hx | hx | hx | hx | hx | hx | hx
  · exact .inl hx
  · exact .inr (.inl hx)
  · exact .inr (.inr (.inl hx))
  · exact .inr (.inr (.inr (.inl hx)))
  · refine .inr (.inr (.inr (.inr (.inl ?_))))
    have hx' : x ∈ V.toTable.keys := hx
    rwa [hV, Table.keys_modify] at hx'
  · obtain ⟨y, hy, rfl⟩ := hx
    have hy' : y ∈ b.variants.toTable.modify id u := hV ▸ hy
    rcases Table.mem_modify_cases hy' with ⟨hy, -⟩ | ⟨r, hr, -, rfl⟩
    · exact .inr (.inr (.inr (.inr (.inr (.inl ⟨y, hy, rfl⟩)))))
    · exact .inr (.inr (.inr (.inr (.inr (.inl ⟨r, hr, (hu r).symm⟩)))))
  · exact .inr (.inr (.inr (.inr (.inr (.inr hx)))))

theorem upsertVariant_stored [RuleLibraries] {s : Store Cleanup} (h : UnusedDraws s)
    (v : FieldRuleVariant) (hlive : v.status.isLive = true) (hnew : ¬ s.db.Uses v.id)
    (hdrawn : ∀ k, s.nextUuid ≤ k → uuid k ≠ v.id) (feedbackLogId : Option String) (now : Int) :
    ∃ p id F V L n, upsertVariant v feedbackLogId (.quiet now) s =
        (.ok id, ⟨{ s.db with fieldRules := F, variants := V, ruleChangeLog := L }, n, s.skip⟩) ∧
      UnusedDraws ⟨{ s.db with fieldRules := F, variants := V, ruleChangeLog := L }, n, s.skip⟩ ∧
      HasParent s.db { s.db with fieldRules := F, variants := V, ruleChangeLog := L }
        (v.bankName, v.fieldName, v.sourceType) p ∧
      StoredVariant s.db { s.db with fieldRules := F, variants := V, ruleChangeLog := L } v p.id
        id := by
  obtain ⟨p, F, n, hparent, hunused, hle, hp⟩ :=
    getOrCreateParent_quiet h v.bankName v.fieldName v.sourceType now
  rw [upsertVariant, Eff.bind_of_ok hparent, Eff.bind_of_ok (fetch_apply _ _ _)]
  dsimp only
  rcases hlookup : s.db.variants.lookup (p.id, v.templateHash) with _ | old
  · dsimp only
    have hfree := Indexed.lookup_eq_none.mp hlookup
    obtain ⟨V, hV⟩ : ∃ V, s.db.variants.insert? (v.row p.id now) = some V := by
      refine Indexed.exists_insert (fun x hx hid => ?_) (fun x hx i hi hr => ?_)
      · exact hnew (.inr (.inr (.inr (.inr (.inl (Table.mem_keys.mpr ⟨x, hx, hid⟩))))))
      · have hrow : (v.row p.id now).liveIndex = some (p.id, v.templateHash) :=
          liveIndex_of_live hlive
        exact hfree x hx (hi.trans (hr.symm.trans hrow))
    have hins : writeOr (uniqueFailed "field_rule_variants.id") (fun now b =>
        (b.variants.insert? (v.row p.id now)).map fun T => { b with variants := T }) (.quiet now)
        ⟨{ s.db with fieldRules := F }, n, s.skip⟩ =
          (.ok (), ⟨{ s.db with fieldRules := F, variants := V }, n, s.skip⟩) := by
      refine writeOr_apply ?_
      show (s.db.variants.insert? (v.row p.id now)).map _ = _
      rw [hV, Option.map_some]
    have hunused' : UnusedDraws ⟨{ s.db with fieldRules := F, variants := V }, n, s.skip⟩ := by
      refine hunused.with_drawn (fun k hk => hdrawn k (hle.trans hk)) fun x hx => ?_
      rcases hx with hx | hx | hx | hx | hx | hx | hx
      · exact .inl (.inl hx)
      · exact .inl (.inr (.inl hx))
      · exact .inl (.inr (.inr (.inl hx)))
      · exact .inl (.inr (.inr (.inr (.inl hx))))
      · rcases (Indexed.mem_keys_of_insert? hV).mp hx with hold | hkey
        · exact .inl (.inr (.inr (.inr (.inr (.inl hold)))))
        · exact .inr hkey
      · obtain ⟨y, hy, rfl⟩ := hx
        rcases (Indexed.mem_of_insert? hV).mp hy with hold | rfl
        · exact .inl (.inr (.inr (.inr (.inr (.inr (.inl ⟨y, hold, rfl⟩))))))
        · exact .inl (.inr (.inr (.inr (.inl (Table.mem_keys.mpr ⟨p, hp.mem.1, rfl⟩)))))
      · exact .inl (.inr (.inr (.inr (.inr (.inr (.inr hx))))))
    obtain ⟨L, hlog, hunused''⟩ := insertChangeLog_quiet hunused' (some v.id) "created" none
      (some v.rulePayloadJson) feedbackLogId "synthesized from a validated correction" now
    refine ⟨p, v.id, F, V, L, n + 1, ?_, hunused'', hp,
      .inr ⟨hlookup, now, rfl, hV⟩⟩
    rw [Eff.bind_of_ok hins, Eff.bind_of_ok hlog]
    rfl
  · dsimp only
    obtain ⟨hold, hindex⟩ := Indexed.lookup_eq_some.mp hlookup
    obtain ⟨-, hrule, htemplate⟩ := liveIndex_eq_some.mp hindex
    obtain ⟨V, hV⟩ : ∃ V, s.db.variants.modify? old.id (replacePatch v now) = some V := by
      refine Indexed.exists_modify fun x hx hid => .inl ?_
      have hx' : x = old := Table.eq_of_key_eq hx hold hid
      have hrow : ((replacePatch v now).run old).liveIndex =
          some (old.fieldRuleId, old.templateHash) := liveIndex_of_live hlive
      rw [hx', hrow, hindex, hrule, htemplate]
    have htable := Indexed.modify?_eq_some hV
    have hupdate : writeOr (uniqueFailed
        "field_rule_variants.field_rule_id, field_rule_variants.template_hash") (fun now b =>
        (b.variants.modify? old.id (replacePatch v now)).map fun T => { b with variants := T })
        (.quiet now) ⟨{ s.db with fieldRules := F }, n, s.skip⟩ =
          (.ok (), ⟨{ s.db with fieldRules := F, variants := V }, n, s.skip⟩) := by
      refine writeOr_apply ?_
      show (s.db.variants.modify? old.id (replacePatch v now)).map _ = _
      rw [hV, Option.map_some]
    have hunused' : UnusedDraws ⟨{ s.db with fieldRules := F, variants := V }, n, s.skip⟩ :=
      hunused.congr fun x hx =>
        uses_of_modify (b := { s.db with fieldRules := F }) htable (fun _ => rfl) hx
    obtain ⟨L, hlog, hunused''⟩ := insertChangeLog_quiet hunused' (some old.id) "created"
      (some (reprint old.rulePayloadJson)) (some v.rulePayloadJson) feedbackLogId
      "replaced by a newer validated rule" now
    refine ⟨p, old.id, F, V, L, n + 1, ?_, hunused'', hp,
      .inl ⟨old, now, hlookup, rfl, htable⟩⟩
    rw [Eff.bind_of_ok hupdate, Eff.bind_of_ok hlog]
    rfl

theorem upsertVariant_quiet [RuleLibraries] {s : Store Cleanup} (h : UnusedDraws s)
    (v : FieldRuleVariant) (hactive : v.status = .active) (hnew : ¬ s.db.Uses v.id)
    (hdrawn : ∀ k, s.nextUuid ≤ k → uuid k ≠ v.id) (now : Int) :
    ∃ p id F V L n, upsertVariant v none (.quiet now) s =
        (.ok id, ⟨{ s.db with fieldRules := F, variants := V, ruleChangeLog := L }, n, s.skip⟩) ∧
      UnusedDraws ⟨{ s.db with fieldRules := F, variants := V, ruleChangeLog := L }, n, s.skip⟩ ∧
      HasParent s.db { s.db with fieldRules := F, variants := V, ruleChangeLog := L }
        (v.bankName, v.fieldName, v.sourceType) p ∧
      Taught s.db { s.db with fieldRules := F, variants := V, ruleChangeLog := L } p.id
        v.templateHash id := by
  have hlive : v.status.isLive = true := by rw [hactive]; rfl
  obtain ⟨p, id, F, V, L, n, hrun, hunused, hp, hstored⟩ :=
    upsertVariant_stored h v hlive hnew hdrawn none now
  exact ⟨p, id, F, V, L, n, hrun, hunused, hp, hstored.taught hactive⟩

theorem learnRule_quiet [RuleLibraries] {s : Store Cleanup} (h : UnusedDraws s)
    (c : CleanupCandidate) (r : MerchantResolution) (now : Int) :
    ∃ ruleId F V L n, learnRule c r (.quiet now) s =
        (.ok ruleId, ⟨{ s.db with fieldRules := F, variants := V, ruleChangeLog := L }, n,
          s.skip⟩) ∧
      UnusedDraws ⟨{ s.db with fieldRules := F, variants := V, ruleChangeLog := L }, n, s.skip⟩ ∧
      Learned s.db { s.db with fieldRules := F, variants := V, ruleChangeLog := L } c r ruleId := by
  unfold learnRule Learned
  rcases learnableRule c r with _ | ⟨templateHash, payload⟩
  · exact ⟨none, _, _, _, _, rfl, h, .inl ⟨rfl, rfl, rfl, rfl⟩⟩
  · dsimp only
    let v := learnedVariant c r templateHash payload (uuid s.nextUuid)
    have hdraw : UnusedDraws { s with nextUuid := s.nextUuid + 1 } := h.draw fun x hx => .inl hx
    obtain ⟨p, id, F, V, L, n, hrun, hunused, hp, htaught⟩ := upsertVariant_quiet hdraw v rfl
      (h _ (Nat.le_refl _)) (fun k hk heq => by
        have hk' : s.nextUuid + 1 ≤ k := hk
        have hkeq : k = s.nextUuid := Extern.uuid_injective heq
        omega) now
    refine ⟨some id, F, V, L, n, ?_, hunused, .inr ⟨templateHash, payload, p, id, rfl, rfl, hp, htaught⟩⟩
    rw [Eff.bind_of_ok (newUuid_apply _ _ s)]
    rw [Eff.bind_apply, Eff.attempt_apply, hrun]
    rfl

/-! ## the whole correction -/

/-- What a correction that succeeds did: `k` is the row that is to undo it. -/
structure Applied [RuleLibraries] (b b' : Cleanup) (runId : String) (c : CleanupCandidate)
    (r : MerchantResolution) (merchantId : String) (k : MerchantLlmCorrectionsRow) : Prop where
  resolved : Resolved b b' r.merchantName merchantId
  aliases : ∀ name, b'.resolves name =
    if name ∈ (correctionAliases c r).map (·.2) then some merchantId else b.resolves name
  learned : Learned b b' c r k.learnedRuleId
  recorded : b.corrections.insert? k = some b'.corrections
  runId : k.runId = runId
  transactionId : k.transactionId = c.transactionId
  prev : k.prev = c.shown
  status : k.status = .applied
  found : b.db.transactions.contains c.transactionId = true
  corrected : ∃ new now, b'.db.transactions =
    b.db.transactions.modify c.transactionId (correctedPatch new now)

theorem insertCorrection_cases {s : Store Cleanup} (h : UnusedDraws s)
    (k : MerchantLlmCorrectionsRow) (hk : k.id = uuid s.nextUuid) (now : Int) :
    (s.db.db.transactions.contains k.transactionId = false ∧
      ∃ e, insertCorrection k (.quiet now) { s with nextUuid := s.nextUuid + 1 } =
        (.error e, { s with nextUuid := s.nextUuid + 1 })) ∨
    (s.db.db.transactions.contains k.transactionId = true ∧
      ∃ T, s.db.corrections.insert? k = some T ∧
        insertCorrection k (.quiet now) { s with nextUuid := s.nextUuid + 1 } =
          (.ok (), ⟨{ s.db with corrections := T }, s.nextUuid + 1, s.skip⟩) ∧
        UnusedDraws ⟨{ s.db with corrections := T }, s.nextUuid + 1, s.skip⟩) := by
  obtain ⟨T, hT⟩ : ∃ T, s.db.corrections.insert? k = some T :=
    Table.exists_insert fun x hx hid =>
      h.ne (.inr (.inr (.inr (.inr (.inr (.inr (.inr (Table.mem_keys.mpr ⟨x, hx, rfl⟩))))))))
        (hid.trans hk)
  by_cases hfound : s.db.db.transactions.contains k.transactionId = true
  · refine .inr ⟨hfound, T, hT, ?_, h.draw fun x hx => ?_⟩
    · refine update_apply ?_
      simp only [hT, hfound, if_true]
    · rcases hx with hx | hx | hx | hx | hx | hx | hx | hx
      · exact .inl (.inl hx)
      · exact .inl (.inr (.inl hx))
      · exact .inl (.inr (.inr (.inl hx)))
      · exact .inl (.inr (.inr (.inr (.inl hx))))
      · exact .inl (.inr (.inr (.inr (.inr (.inl hx)))))
      · exact .inl (.inr (.inr (.inr (.inr (.inr (.inl hx))))))
      · exact .inl (.inr (.inr (.inr (.inr (.inr (.inr (.inl hx)))))))
      · rcases (Table.mem_keys_of_insert? hT).mp hx with hold | hnew
        · exact .inl (.inr (.inr (.inr (.inr (.inr (.inr (.inr hold)))))))
        · exact .inr (hnew.trans hk)
  · rw [Bool.not_eq_true] at hfound
    refine .inl ⟨hfound, foreignKeyFailed, ?_⟩
    simp only [insertCorrection, update, hT, hfound]
    rfl

/-- A correction that fails has changed nothing, or names no transaction. -/
theorem applyCorrection_cases [RuleLibraries] {s : Store Cleanup} (h : UnusedDraws s)
    (runId : String) (c : CleanupCandidate) (r : MerchantResolution) (now : Int) :
    (∃ e n, applyCorrection runId c r (.quiet now) s = (.error e, { s with nextUuid := n }) ∧
      UnusedDraws { s with nextUuid := n }) ∨
    (s.db.db.transactions.contains c.transactionId = false ∧
      ∃ e s', applyCorrection runId c r (.quiet now) s = (.error e, s')) ∨
    ∃ s' merchantId k, applyCorrection runId c r (.quiet now) s = (.ok (), s') ∧
      UnusedDraws s' ∧ Applied s.db s'.db runId c r merchantId k := by
  unfold applyCorrection
  rcases resolveCanonicalMerchant_cases h r.merchantName now with
    ⟨e, n, hrun, hunused⟩ | ⟨id, db, n, hrun, hunused, ⟨M, rfl⟩, hresolved, hcontains⟩
  · left
    exact ⟨e, n, Eff.bind_of_error hrun, hunused⟩
  · right
    obtain ⟨A, n₁, hrun₁, hunused₁, hres⟩ := upsertAliases_quiet hunused hcontains r.confidence now
      (correctionAliases c r)
    obtain ⟨ruleId, F, V, L, n₂, hrun₂, hunused₂, hlearned⟩ := learnRule_quiet hunused₁ c r now
    rw [Eff.bind_of_ok hrun]
    dsimp only
    rw [Eff.bind_of_ok hrun₁, Eff.bind_of_ok (fetch_apply _ _ _), Eff.bind_of_ok hrun₂,
      Eff.bind_of_ok (newUuid_apply _ _ _)]
    let b : Cleanup := { s.db with
      db := { s.db.db with merchants := M, merchantAliases := A }
      fieldRules := F, variants := V, ruleChangeLog := L }
    let new : MerchantFields := ⟨some id, some r.merchantName, some (stripNoiseTokens r.merchantName),
      s.db.categoryIdForName r.category⟩
    let k : MerchantLlmCorrectionsRow := {
      id := uuid n₂, runId := runId, transactionId := c.transactionId
      observationId := c.observationId, prev := c.shown, new := new
      llmConfidence := r.confidence, learnedRuleId := ruleId, status := .applied }
    have hunused₂' : UnusedDraws ⟨b, n₂, s.skip⟩ := hunused₂
    rcases insertCorrection_cases hunused₂' k rfl now with
      ⟨hmissing, e, hrun₃⟩ | ⟨hfound, T, hT, hrun₃, hunused₃⟩
    · exact .inl ⟨hmissing, e, _, Eff.bind_of_error hrun₃⟩
    · right
      let b' : Cleanup := { b with
        db := { b.db with
          transactions := b.db.transactions.modify c.transactionId (correctedPatch new now) }
        corrections := T }
      refine ⟨⟨b', n₂ + 1, s.skip⟩, id, k, ?_, hunused₃, hresolved, hres, hlearned, hT, rfl, rfl,
        rfl, rfl, hfound, new, now, rfl⟩
      exact (Eff.bind_of_ok hrun₃).trans (onDb_apply rfl)

/-! ## the way back -/

/-- The variants once what was learned is retired. -/
def retired (V : Table FieldRuleVariantsRow) (now : Int) : Option String → Table FieldRuleVariantsRow
  | none => V
  | some id => V.modify id (retirePatch now)

/-- What reverting `k` does. -/
structure Reverted (b b' : Cleanup) (k : MerchantLlmCorrectionsRow) : Prop where
  merchants : b'.db.merchants = b.db.merchants
  aliases : b'.db.merchantAliases = b.db.merchantAliases
  fieldRules : b'.fieldRules = b.fieldRules
  variants : ∃ now, b'.variants.toTable = retired b.variants.toTable now k.learnedRuleId
  transactions : ∃ now, b'.db.transactions =
    b.db.transactions.modify k.transactionId (restoredPatch k.prev now)
  corrections : b'.corrections = b.corrections.modify k.id revertedPatch

theorem retireLearned_quiet [RuleLibraries] {s : Store Cleanup} (h : UnusedDraws s)
    (ruleId : Option String) (now : Int) :
    ∃ V L n, retireLearned ruleId (.quiet now) s =
        (.ok (), ⟨{ s.db with variants := V, ruleChangeLog := L }, n, s.skip⟩) ∧
      UnusedDraws ⟨{ s.db with variants := V, ruleChangeLog := L }, n, s.skip⟩ ∧
      V.toTable = retired s.db.variants.toTable now ruleId := by
  cases ruleId with
  | none => exact ⟨_, _, _, rfl, h, rfl⟩
  | some id =>
    rw [retireLearned, Eff.bind_apply, Eff.attempt_apply, revertRule,
      Eff.bind_of_ok (fetch_apply _ _ s)]
    rcases hfind : s.db.variants.find? id with _ | v
    · refine ⟨_, _, _, rfl, h, ?_⟩
      rw [retired, Table.modify_of_find?_none hfind]
    · dsimp only
      obtain ⟨V, hV⟩ : ∃ V, s.db.variants.modify? id (retirePatch now) = some V :=
        Indexed.exists_modify fun x _ _ => .inr rfl
      have htable := Indexed.modify?_eq_some hV
      have hunused : UnusedDraws { s with db := { s.db with variants := V } } :=
        h.congr fun x hx => uses_of_modify htable (fun _ => rfl) hx
      obtain ⟨L, hlog, hunused'⟩ := insertChangeLog_quiet hunused (some id) "reverted"
        (some (reprint v.rulePayloadJson)) none none "merchant cleanup correction reverted" now
      have hupdate : writeOr (uniqueFailed
          "field_rule_variants.field_rule_id, field_rule_variants.template_hash") (fun now b =>
          (b.variants.modify? id (retirePatch now)).map fun T => { b with variants := T })
          (.quiet now) s = (.ok (), { s with db := { s.db with variants := V } }) := by
        refine writeOr_apply ?_
        show (s.db.variants.modify? id (retirePatch now)).map _ = _
        rw [hV, Option.map_some]
      refine ⟨V, L, s.nextUuid + 1, ?_, hunused', htable⟩
      rw [Eff.bind_of_ok hupdate, hlog]
      rfl

theorem revertCorrection_quiet [RuleLibraries] {s : Store Cleanup} (h : UnusedDraws s)
    {k : MerchantLlmCorrectionsRow} (hk : k ∈ s.db.corrections) (hstatus : k.status = .applied)
    (now : Int) :
    ∃ s', revertCorrection k.id (.quiet now) s = (.ok (), s') ∧ UnusedDraws s' ∧
      Reverted s.db s'.db k := by
  have hfind : (s.db.corrections.find? k.id).filter (fun k => decide (k.status = .applied)) =
      some k := by
    have hrow : s.db.corrections.find? k.id = some k := Table.find?_eq_some.mpr ⟨hk, rfl⟩
    rw [hrow]
    simp [hstatus]
  let b : Cleanup := { s.db with db := { s.db.db with
    transactions := s.db.db.transactions.modify k.transactionId (restoredPatch k.prev now) } }
  have hunused : UnusedDraws { s with db := b } := h.congr fun x hx => hx
  obtain ⟨V, L, n, hrun, hunused', hV⟩ := retireLearned_quiet hunused k.learnedRuleId now
  refine ⟨⟨{ b with variants := V, ruleChangeLog := L
                    corrections := b.corrections.modify k.id revertedPatch }, n, s.skip⟩,
    ?_, hunused'.congr fun x hx => ?_, rfl, rfl, rfl, ⟨now, hV⟩, ⟨now, rfl⟩, rfl⟩
  · rw [revertCorrection, Eff.bind_of_ok (fetch_apply _ _ s), hfind]
    dsimp only
    rw [Eff.bind_of_ok (onDb_apply rfl)]
    exact Eff.bind_of_ok hrun
  · rcases hx with hx | hx | hx | hx | hx | hx | hx | hx
    · exact .inl hx
    · exact .inr (.inl hx)
    · exact .inr (.inr (.inl hx))
    · exact .inr (.inr (.inr (.inl hx)))
    · exact .inr (.inr (.inr (.inr (.inl hx))))
    · exact .inr (.inr (.inr (.inr (.inr (.inl hx)))))
    · exact .inr (.inr (.inr (.inr (.inr (.inr (.inl hx))))))
    · refine .inr (.inr (.inr (.inr (.inr (.inr (.inr ?_))))))
      rwa [← Table.keys_modify b.corrections k.id revertedPatch]

end Dinero
