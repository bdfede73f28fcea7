import Dinero.Edits
import Dinero.Resolver

/-!
# Dinero.Renames

What the resolver makes of both names of a transaction after a rename.

The alias written for the old name has the key of the new one, so the old name
is found after the rename just where it would have been found without it:
`rename_teaches_iff`.
-/

namespace Dinero

open Sql

variable [Extern]

/-- The merchant the normaliser finds for a name, by alias or by likeness. -/
def Database.foundMerchant (db : Database) (raw : String) : Option String :=
  match db.selectByAlias (stripNoiseTokens raw) with
  | some m => some m.id
  | none => (bestFuzzyMatch (stripNoiseTokens raw) db.liveMerchants).map (·.2.id)

/-- The normaliser answers the merchant `e`, whenever it is called. -/
def ResolvesTo (s : Store Database) (raw e : String) : Prop :=
  e ≠ "" ∧ ∀ now, ∃ name, (normalizeMerchantSync raw (.quiet now) s).1 = .ok (e, name)

/-- A merchant is answered just if it is found, unless it is created. -/
theorem resolvesTo_iff {s : Store Database} (hkeys : s.db.MerchantKeys s.nextUuid) {raw e : String}
    (hne : stripNoiseTokens raw ≠ "") (he : e ∈ s.db.merchants.keys ∨
      ∃ x ∈ s.db.merchants, x.normalizedName = stripNoiseTokens raw) :
    ResolvesTo s raw e ↔ e ≠ "" ∧ s.db.foundMerchant raw = some e := by
  constructor
  · rintro ⟨hid, hall⟩
    refine ⟨hid, ?_⟩
    obtain ⟨name, hanswer⟩ := hall 0
    have hstep := normalizerStep hkeys raw 0
    rw [hanswer] at hstep
    generalize (normalizeMerchantSync raw (.quiet 0) s).2.db = db at hstep
    unfold Database.foundMerchant
    cases hstep with
    | blank hblank => exact absurd hblank hne
    | unlikely => exact absurd rfl hid
    | known m _ halias => rw [halias]
    | alike m score _ _ halias hfuzzy =>
      rw [halias, hfuzzy]
      rfl
    | created m T _ _ _ _ hmid _ hfree =>
      rcases he with hthere | ⟨x, hx, hname⟩
      · exact absurd (hmid ▸ hthere) (hkeys.merchantIds s.nextUuid (Nat.le_refl _))
      · exact absurd hname (hfree x hx)
  · rintro ⟨hid, hfound⟩
    refine ⟨hid, fun now => ?_⟩
    have hstep := normalizerStep hkeys raw now
    generalize (normalizeMerchantSync raw (.quiet now) s).1 = answer at hstep ⊢
    generalize (normalizeMerchantSync raw (.quiet now) s).2.db = db at hstep
    unfold Database.foundMerchant at hfound
    cases hstep with
    | blank hblank => exact absurd hblank hne
    | unlikely halias hfuzzy =>
      rw [halias, hfuzzy] at hfound
      cases hfound
    | known m _ halias =>
      rw [halias] at hfound
      obtain rfl := Option.some.inj hfound
      exact ⟨_, rfl⟩
    | alike m score _ _ halias hfuzzy =>
      rw [halias, hfuzzy] at hfound
      obtain rfl := Option.some.inj hfound
      exact ⟨_, rfl⟩
    | created m T _ _ halias hfuzzy =>
      rw [halias, hfuzzy] at hfound
      cases hfound
    | clash e hne halias hfuzzy =>
      rw [halias, hfuzzy] at hfound
      cases hfound

theorem Database.foundMerchant_mem {db : Database} {raw e : String}
    (h : db.foundMerchant raw = some e) : e ∈ db.merchants.keys := by
  unfold foundMerchant at h
  split at h
  · next m halias =>
    obtain rfl := Option.some.inj h
    exact Table.mem_keys.mpr ⟨m, (Database.selectByAlias_some halias).1, rfl⟩
  · obtain ⟨best, hbest, rfl⟩ := Option.map_eq_some_iff.mp h
    have hm := (mem_liveMerchants.mp (bestFuzzyMatch_some hbest).1).1
    exact Table.mem_keys.mpr ⟨best.2, hm, rfl⟩

/-- Only merchants and aliases matter. -/
theorem Database.foundMerchant_of_eq {db db' : Database} (hm : db'.merchants = db.merchants)
    (ha : db'.merchantAliases = db.merchantAliases) (raw : String) :
    db'.foundMerchant raw = db.foundMerchant raw := by
  unfold foundMerchant selectByAlias liveMerchants
  rw [hm, ha]

/-- An alias of another name is not looked at. -/
theorem Database.foundMerchant_insert {db : Database} {a : MerchantAliasesRow}
    {T : Table MerchantAliasesRow} (hT : db.merchantAliases.insert? a = some T) {raw : String}
    (hupper : toUppercase (stripNoiseTokens raw) = stripNoiseTokens raw)
    (hname : a.aliasNormalized ≠ stripNoiseTokens raw) :
    { db with merchantAliases := T }.foundMerchant raw = db.foundMerchant raw := by
  have hrows := (Table.insert?_eq_some.mp hT).2
  have halias : { db with merchantAliases := T }.selectByAlias (stripNoiseTokens raw) =
      db.selectByAlias (stripNoiseTokens raw) := by
    simp only [selectByAlias, hrows, List.any_append, List.any_cons, List.any_nil, hupper, hname,
      decide_false, Bool.and_false, Bool.or_false]
  unfold foundMerchant
  rw [halias]
  rfl

/-! ## the rename -/

theorem renamedMerchant_keys {ids : List String} (old : TransactionsRow) (name : Option String) :
    Keeps (KeysWith ids) (renamedMerchant old name) := by
  have hlearn : ∀ {ids : List String} id oldVal cleaned,
      Keeps (KeysWith ids) (learnOldName id oldVal cleaned) := by
    intro ids id oldVal cleaned
    unfold learnOldName
    split
    · exact .pure _
    · exact NormalizerKeys.learnAlias _ _ _ _ _
  cases name with
  | none => exact .pure _
  | some merch =>
    simp only [renamedMerchant]
    split
    · exact .pure _
    · refine .bind (.attempt (.query _ _)) fun found => ?_
      split
      · exact .bind (hlearn _ _ _) fun _ => .pure _
      · refine keysWith_newUuid_bind (p := fun db => db) fun entityId => .bind .utcNow fun now =>
          .bind (.attempt (.exec fun _ n db _ db' hI h => ?_)) fun inserted => ?_
        · exact ⟨hI.1.insertMerchant (hI.2 entityId List.mem_cons_self) h, hI.2⟩
        split
        · exact .bind (hlearn _ _ _) fun _ => .pure _
        · exact .pure _

theorem applyTransactionFieldUpdate_keys {ids : List String} (transactionId : String)
    (payload : TransactionUpdatePayload) :
    Keeps (KeysWith ids) (applyTransactionFieldUpdate transactionId payload) := by
  refine .bind (.update fun _ _ _ _ _ h hf => ?_) fun found => ?_
  · obtain ⟨-, rfl⟩ := Prod.mk.inj (Except.ok.inj hf)
    exact h
  · cases found with
    | none => exact .fail _
    | some old =>
      refine .bind (renamedMerchant_keys _ _) fun merchant =>
        .update fun now n db _ db' h hf => ?_
      unfold Database.updateFields at hf
      split at hf
      · obtain ⟨-, rfl⟩ := Prod.mk.inj (Except.ok.inj hf)
        exact ⟨h.1.of_eq rfl rfl, h.2⟩
      · cases hf

/-- What a rename leaves of the merchants and aliases, with the merchant it names. -/
inductive RenameStep (old : TransactionsRow) (newName : String) (now : Int) (s : Store Database) :
    Option String → Database → Prop
  | found (m : MerchantsRow) (hfound : s.db.selectByAlias (stripNoiseTokens newName) = some m) :
      RenameStep old newName now s (some m.id) s.db
  | created (db₁ db : Database) (hnone : s.db.selectByAlias (stripNoiseTokens newName) = none)
      (hins : s.db.insertMerchant (userMerchant (uuid s.nextUuid) newName
        (stripNoiseTokens newName) now) = .ok ((), db₁))
      (hlearns : Learns (uuid s.nextUuid) (stripNoiseTokens newName) db₁ db) :
      RenameStep old newName now s (some (uuid s.nextUuid)) db
  | kept (e : SqlError) (hnone : s.db.selectByAlias (stripNoiseTokens newName) = none)
      (hins : s.db.insertMerchant (userMerchant (uuid s.nextUuid) newName
        (stripNoiseTokens newName) now) = .error e) :
      RenameStep old newName now s old.merchantEntityId s.db

section Rename

variable {s : Store Database} {old : TransactionsRow} {oldName newName : String}

omit [Extern] in
theorem attempt_of {x : Db α} {ctx : Ctx Stmt} {s s' : Store Database} {r : Except SqlError α}
    (h : x ctx s = (r, s')) : Eff.attempt x ctx s = (.ok r, s') := by
  rw [Eff.attempt_apply, h]

theorem learnOldName_answered (id oldVal cleaned : String) (now : Int) (s : Store Database) :
    (learnOldName id oldVal cleaned (.quiet now) s).1 = .ok () := by
  unfold learnOldName
  split <;> rfl

theorem createUserMerchant_quiet (kept : MerchantColumns) (merch oldVal cleaned : String)
    (now : Int) (s : Store Database) :
    createUserMerchant kept merch oldVal cleaned (.quiet now) s =
      match s.db.insertMerchant (userMerchant (uuid s.nextUuid) merch cleaned now) with
      | .ok (_, db) => (.ok ⟨some merch, some cleaned, some (uuid s.nextUuid)⟩,
          (learnOldName (uuid s.nextUuid) oldVal cleaned (.quiet now)
            { s with db := db, nextUuid := s.nextUuid + 1 }).2)
      | .error _ => (.ok kept, { s with nextUuid := s.nextUuid + 1 }) := by
  have hinsert : insertMerchant (userMerchant (uuid s.nextUuid) merch cleaned now) (.quiet now)
      { s with nextUuid := s.nextUuid + 1 } = _ := exec_quiet _ _ now _
  rw [createUserMerchant, Eff.bind_of_ok (newUuid_apply _ _ _), Eff.bind_of_ok (utcNow_apply _ _)]
  cases hins : s.db.insertMerchant (userMerchant (uuid s.nextUuid) merch cleaned now) with
  | error e =>
    simp only [hins] at hinsert
    exact Eff.bind_of_ok (attempt_of hinsert)
  | ok r =>
    obtain ⟨u, db⟩ := r
    simp only [hins] at hinsert
    refine (Eff.bind_of_ok (attempt_of hinsert)).trans ?_
    exact Eff.bind_of_ok (Prod.ext (learnOldName_answered _ _ _ _ _) rfl)

theorem learnOldName_learns (hkeys : s.db.MerchantKeys s.nextUuid) {id : String}
    (hid : s.db.merchants.contains id = true) (hold : oldName ≠ "") (cleaned : String) (now : Int) :
    Learns id cleaned s.db (learnOldName id oldName cleaned (.quiet now) s).2.db := by
  unfold learnOldName
  rw [if_neg hold]
  exact learnAlias_learns hkeys hid _ _ _ _ _

theorem createUserMerchant_step (hkeys : s.db.MerchantKeys s.nextUuid) (hold : oldName ≠ "")
    (hnone : s.db.selectByAlias (stripNoiseTokens newName) = none) {kept : MerchantColumns}
    (hkept : kept.entityId = old.merchantEntityId) (now : Int) {m : MerchantColumns}
    {s' : Store Database}
    (hrun : createUserMerchant kept newName oldName (stripNoiseTokens newName) (.quiet now) s =
      (.ok m, s')) : RenameStep old newName now s m.entityId s'.db := by
  rw [createUserMerchant_quiet] at hrun
  cases hins : s.db.insertMerchant (userMerchant (uuid s.nextUuid) newName
      (stripNoiseTokens newName) now) with
  | error e =>
    rw [hins] at hrun
    obtain ⟨hm, rfl⟩ := Prod.mk.inj hrun
    obtain rfl := Except.ok.inj hm
    exact hkept ▸ .kept e hnone hins
  | ok r =>
    obtain ⟨u, db₁⟩ := r
    rw [hins] at hrun
    obtain ⟨hm, rfl⟩ := Prod.mk.inj hrun
    obtain rfl := Except.ok.inj hm
    have hkeys₁ : db₁.MerchantKeys (s.nextUuid + 1) :=
      (hkeys.later (Nat.le_succ _)).insertMerchant ⟨s.nextUuid, Nat.lt_succ_self _, rfl⟩ hins
    have hthere : db₁.merchants.contains (uuid s.nextUuid) = true := by
      obtain ⟨-, T, hT, rfl⟩ := Database.insertMerchant_eq_ok.mp hins
      exact Table.contains_iff.mpr ⟨_, (Table.mem_of_insert? hT).mpr (.inr rfl), rfl⟩
    exact .created db₁ _ hnone hins (learnOldName_learns (s := ⟨db₁, s.nextUuid + 1, s.skip⟩)
      hkeys₁ hthere hold (stripNoiseTokens newName) now)

/-- **A rename**: the merchant of the new name, a new one, or the one that was there. -/
theorem renameStep (laws : TextLaws) (hkeys : s.db.MerchantKeys s.nextUuid) (hold : oldName ≠ "")
    (holdName : old.merchantDisplayName = some oldName) (hchanged : oldName ≠ newName)
    (hnew : stripNoiseTokens newName ≠ "") {now : Int} {m : MerchantColumns} {s' : Store Database}
    (hrun : renamedMerchant old (some newName) (.quiet now) s = (.ok m, s')) :
    RenameStep old newName now s m.entityId s'.db := by
  have hboth : ¬ (old.merchantDisplayName.getD "" = newName ∨ stripNoiseTokens newName = "") := by
    rw [holdName]
    exact not_or.mpr ⟨hchanged, hnew⟩
  have hselect : selectByAlias (stripNoiseTokens newName) (.quiet now) s =
      (.ok (s.db.selectByAlias (stripNoiseTokens newName)), s) := query_quiet _ _ now s
  simp only [renamedMerchant, if_neg hboth] at hrun
  rw [Eff.bind_of_ok (attempt_of hselect), holdName] at hrun
  cases hfound : s.db.selectByAlias (stripNoiseTokens newName) with
  | none =>
    rw [hfound] at hrun
    exact createUserMerchant_step hkeys hold hfound rfl now hrun
  | some x =>
    rw [hfound] at hrun
    dsimp only at hrun
    have hlearn : learnOldName x.id oldName (stripNoiseTokens newName) (.quiet now) s = (.ok (),
        (learnOldName x.id oldName (stripNoiseTokens newName) (.quiet now) s).2) :=
      Prod.ext (learnOldName_answered _ _ _ _ _) rfl
    rw [Option.getD_some, Eff.bind_of_ok hlearn] at hrun
    obtain ⟨hm, rfl⟩ := Prod.mk.inj hrun
    obtain rfl := Except.ok.inj hm
    obtain ⟨hx, -, a, ha, -, haname⟩ := Database.selectByAlias_some hfound
    rw [stripNoiseTokens_upper laws] at haname
    have hthere : s.db.merchants.contains x.id = true := Table.contains_iff.mpr ⟨x, hx, rfl⟩
    have hlearns := learnOldName_learns hkeys hthere hold (stripNoiseTokens newName) now
    -- the alias of the new name is there already
    cases hlearns with
    | learned _ _ _ _ hfree => exact absurd haname (hfree a ha)
    | taken _ _ _ hdb =>
      show RenameStep old newName now s (some x.id) _
      rw [hdb]
      exact .found x hfound

end Rename

/-! ## what it teaches -/

/-- Both names resolve to the merchant the transaction has now. -/
def RenameTaught (s : Store Database) (transactionId oldName newName : String) : Prop :=
  ∃ e, (s.db.getTransaction transactionId).bind (·.merchantEntityId) = some e ∧
    ResolvesTo s oldName e ∧ ResolvesTo s newName e

/-- The old name is found without the alias: by an alias or a likeness that leads to the
merchant of the new name, to the merchant the rename creates or, where it can create none, to the
merchant the transaction has, as the new name then has to be. -/
def Database.TeachesRename (db : Database) (n : Nat) (now : Int) (old : TransactionsRow)
    (oldName newName : String) : Prop :=
  match db.selectByAlias (stripNoiseTokens newName) with
  | some m => m.id ≠ "" ∧ db.foundMerchant oldName = some m.id
  | none =>
    match db.insertMerchant (userMerchant (uuid n) newName (stripNoiseTokens newName) now) with
    | .ok (_, db₁) => uuid n ≠ "" ∧ (stripNoiseTokens oldName = stripNoiseTokens newName ∨
        db₁.foundMerchant oldName = some (uuid n))
    | .error _ => ∃ e, old.merchantEntityId = some e ∧ e ≠ "" ∧
        db.foundMerchant oldName = some e ∧ db.foundMerchant newName = some e

section Taught

variable {s s' : Store Database} {old : TransactionsRow} {oldName newName : String}

/-- The merchant that was created is found by its name. -/
theorem ResolvesTo.of_created (laws : TextLaws) (hkeys : s.db.MerchantKeys s.nextUuid)
    (hkeys' : s'.db.MerchantKeys s'.nextUuid) {raw : String} {now : Int} {db₁ : Database}
    (hnone : s.db.selectByAlias (stripNoiseTokens newName) = none)
    (hins : s.db.insertMerchant (userMerchant (uuid s.nextUuid) newName
      (stripNoiseTokens newName) now) = .ok ((), db₁))
    {db : Database} (hlearns : Learns (uuid s.nextUuid) (stripNoiseTokens newName) db₁ db)
    (hm : s'.db.merchants = db.merchants) (ha : s'.db.merchantAliases = db.merchantAliases)
    (hid : uuid s.nextUuid ≠ "") (hnew : stripNoiseTokens newName ≠ "")
    (hraw : stripNoiseTokens raw = stripNoiseTokens newName) :
    ResolvesTo s' raw (uuid s.nextUuid) := by
  refine ⟨hid, fun now' => ?_⟩
  obtain ⟨-, T, hT, rfl⟩ := Database.insertMerchant_eq_ok.mp hins
  have hsettled := Database.Settles.of_created hkeys (stripNoiseTokens_upper laws newName) hnone
    (m := userMerchant (uuid s.nextUuid) newName (stripNoiseTokens newName) now) rfl rfl hT hlearns
  replace hsettled := hsettled.of_eq hm ha
  rw [← hraw] at hsettled
  have hne : stripNoiseTokens raw ≠ "" := by
    rw [hraw]
    exact hnew
  have hstep := normalizerStep hkeys' raw now'
  generalize (normalizeMerchantSync raw (.quiet now') s').1 = answer at hstep ⊢
  generalize (normalizeMerchantSync raw (.quiet now') s').2.db = after at hstep
  exact ⟨_, hstep.of_settled laws hkeys' hne hsettled⟩

/-- The database after the rename, as far as the merchants go. -/
theorem renameTaught_iff (laws : TextLaws) (hkeys : s.db.MerchantKeys s.nextUuid)
    (hkeys' : s'.db.MerchantKeys s'.nextUuid) {now : Int} {entity : Option String}
    (hold : stripNoiseTokens oldName ≠ "") (hnew : stripNoiseTokens newName ≠ "")
    {db : Database} (hstep : RenameStep old newName now s entity db)
    (hmerchants : s'.db.merchants = db.merchants)
    (haliases : s'.db.merchantAliases = db.merchantAliases) :
    (∃ e, entity = some e ∧ ResolvesTo s' oldName e ∧ ResolvesTo s' newName e) ↔
      s.db.TeachesRename s.nextUuid now old oldName newName := by
  have hsame := Database.foundMerchant_of_eq hmerchants haliases
  unfold Database.TeachesRename
  cases hstep with
  | found m hfound =>
    obtain ⟨hm, -⟩ := Database.selectByAlias_some hfound
    have hthere : m.id ∈ s'.db.merchants.keys := hmerchants ▸ Table.mem_keys.mpr ⟨m, hm, rfl⟩
    have hfoundNew : s'.db.foundMerchant newName = some m.id := by
      rw [hsame, Database.foundMerchant, hfound]
    simp only [hfound]
    constructor
    · rintro ⟨e, he, hresolved, -⟩
      obtain rfl := Option.some.inj he
      rw [resolvesTo_iff hkeys' hold (.inl hthere), hsame] at hresolved
      exact hresolved
    · intro hteaches
      refine ⟨m.id, rfl, ?_, ?_⟩
      · rw [resolvesTo_iff hkeys' hold (.inl hthere), hsame]
        exact hteaches
      · rw [resolvesTo_iff hkeys' hnew (.inl hthere)]
        exact ⟨hteaches.1, hfoundNew⟩
  | created db₁ _ hnone hins hlearns =>
    simp only [hnone, hins]
    have hcreated : ∀ raw, uuid s.nextUuid ≠ "" →
        stripNoiseTokens raw = stripNoiseTokens newName → ResolvesTo s' raw (uuid s.nextUuid) :=
      fun raw hid hraw => .of_created laws hkeys hkeys' hnone hins hlearns hmerchants haliases
        hid hnew hraw
    have hthere : uuid s.nextUuid ∈ s'.db.merchants.keys := by
      obtain ⟨-, T, hT, hdb₁⟩ := Database.insertMerchant_eq_ok.mp hins
      rw [hmerchants, hlearns.merchants, hdb₁]
      exact (Table.mem_keys_of_insert? hT).mpr (.inr rfl)
    have hbefore : stripNoiseTokens oldName ≠ stripNoiseTokens newName →
        s'.db.foundMerchant oldName = db₁.foundMerchant oldName := by
      intro hne
      rw [hsame]
      cases hlearns with
      | learned a T _ hname _ hT hdb' =>
        rw [hdb']
        refine Database.foundMerchant_insert hT (stripNoiseTokens_upper laws oldName) ?_
        rw [hname]
        exact hne.symm
      | taken _ _ _ hdb' => rw [hdb']
    constructor
    · rintro ⟨e, he, hresolved, -⟩
      obtain rfl := Option.some.inj he
      refine ⟨hresolved.1, ?_⟩
      by_cases hne : stripNoiseTokens oldName = stripNoiseTokens newName
      · exact .inl hne
      · rw [resolvesTo_iff hkeys' hold (.inl hthere), hbefore hne] at hresolved
        exact .inr hresolved.2
    · rintro ⟨hid, hteaches⟩
      refine ⟨_, rfl, ?_, hcreated newName hid rfl⟩
      by_cases hne : stripNoiseTokens oldName = stripNoiseTokens newName
      · exact hcreated oldName hid hne
      · rw [resolvesTo_iff hkeys' hold (.inl hthere), hbefore hne]
        exact ⟨hid, hteaches.resolve_left hne⟩
  | kept e hnone hins =>
    simp only [hnone, hins]
    have htaken : ∃ x ∈ s'.db.merchants, x.normalizedName = stripNoiseTokens newName := by
      rw [hmerchants]
      have hid : (userMerchant (uuid s.nextUuid) newName (stripNoiseTokens newName) now).id =
          uuid s.nextUuid := rfl
      have htaken := hkeys.taken hid hins
      rw [userMerchant] at htaken
      exact htaken
    constructor
    · rintro ⟨e, he, hresolvedOld, hresolvedNew⟩
      rw [resolvesTo_iff hkeys' hnew (.inr htaken)] at hresolvedNew
      have hthere := Database.foundMerchant_mem hresolvedNew.2
      rw [resolvesTo_iff hkeys' hold (.inl hthere), hsame] at hresolvedOld
      rw [hsame] at hresolvedNew
      exact ⟨e, he, hresolvedOld.1, hresolvedOld.2, hresolvedNew.2⟩
    · rintro ⟨e, he, hid, hfoundOld, hfoundNew⟩
      refine ⟨e, he, ?_, ?_⟩
      · rw [resolvesTo_iff hkeys' hold (.inl (hmerchants ▸ Database.foundMerchant_mem hfoundOld)), hsame]
        exact ⟨hid, hfoundOld⟩
      · rw [resolvesTo_iff hkeys' hnew (.inr htaken), hsame]
        exact ⟨hid, hfoundNew⟩

/-- **Just where the old name was found anyway.**  A rename teaches the resolver nothing: after it
both names resolve to the merchant of the transaction if and only if they would without the
alias. -/
theorem rename_teaches_iff (laws : TextLaws) (hkeys : s.db.MerchantKeys s.nextUuid)
    {transactionId : String} {payload : TransactionUpdatePayload}
    (hthere : s.db.getTransaction transactionId = some old)
    (holdName : old.merchantDisplayName = some oldName)
    (hnewName : payload.merchantDisplayName = some newName) (hne : oldName ≠ "")
    (hchanged : oldName ≠ newName) (hold : stripNoiseTokens oldName ≠ "")
    (hnew : stripNoiseTokens newName ≠ "") {now : Int}
    (hrun : applyTransactionFieldUpdate transactionId payload (.quiet now) s = (.ok (), s')) :
    RenameTaught s' transactionId oldName newName ↔
      s.db.TeachesRename s.nextUuid now old oldName newName := by
  have hkeys' : s'.db.MerchantKeys s'.nextUuid := by
    have hstart : KeysWith [] s.db s.nextUuid := ⟨hkeys, by simp⟩
    have hkept := applyTransactionFieldUpdate_keys transactionId payload (.quiet now) s hstart
    rw [hrun] at hkept
    exact hkept.1
  have heffect := transactionsUpdate_effect transactionId payload now s
  rw [hrun] at heffect
  generalize hdb : s'.db = db at heffect
  cases heffect with
  | stored old' m db hold' hrename hdb' hlearn _ _ =>
    obtain rfl : old' = old := Option.some.inj (hold'.symm.trans hthere)
    rw [hnewName] at hrename hdb'
    have hstep : RenameStep old' newName now s m.entityId db := by
      rw [hdb']
      exact renameStep laws hkeys hne holdName hchanged hnew (Prod.ext hrename rfl)
    obtain ⟨M, A, hM⟩ := hlearn
    have hrow : (s'.db.getTransaction transactionId).bind (·.merchantEntityId) = m.entityId := by
      obtain ⟨hmem, hid, hlive⟩ := Database.getTransaction_eq_some.mp hthere
      rw [hdb, hM, Database.getTransaction, Database.updateTransaction]
      dsimp only
      rw [Table.find?_modify, if_pos rfl, Table.find?_eq_some.mpr ⟨hmem, hid⟩, Option.map_some,
        Option.filter_some_pos (by simp [updatePatch, hlive])]
      rfl
    unfold RenameTaught
    rw [hrow]
    refine renameTaught_iff laws hkeys hkeys' hold hnew hstep ?_ ?_
    · rw [hdb]
      rfl
    · rw [hdb]
      rfl

end Taught

omit [Extern] in
/-- A debit at ZOMATO, and no merchants yet. -/
def namedOnce : Store Database :=
  { firstLedger with db := { firstLedger.db with
    transactions := ⟨[{ debited "t1" 500 1000 with merchantDisplayName := some "ZOMATO" }],
      by simp⟩ } }

theorem namedOnce_keys : namedOnce.db.MerchantKeys namedOnce.nextUuid := by
  constructor
  · intro m hm
    exact absurd hm List.not_mem_nil
  · intro a ha
    exact absurd ha List.not_mem_nil
  · intro a ha
    exact absurd ha List.not_mem_nil
  · intro k _ hk
    exact absurd hk List.not_mem_nil
  · intro k _ hk
    exact absurd hk List.not_mem_nil

omit [Extern] in
def renameTo (name : String) : TransactionUpdatePayload := { merchantDisplayName := some name }

omit [Extern] in
/-- The same name, written differently. -/
theorem rename_teaches_spelling :
    letI := Extern.ascii
    RenameTaught (applyTransactionFieldUpdate "t1" (renameTo "Zomato 48213") (.quiet 2000)
        namedOnce).2 "t1" "ZOMATO" "Zomato 48213" ↔
      namedOnce.db.TeachesRename 0 2000
        { debited "t1" 500 1000 with merchantDisplayName := some "ZOMATO" } "ZOMATO"
        "Zomato 48213" := by
  let := Extern.ascii
  have hok : (applyTransactionFieldUpdate "t1" (renameTo "Zomato 48213") (.quiet 2000)
      namedOnce).1 = .ok () := by decide +kernel
  exact rename_teaches_iff textLaws_ascii namedOnce_keys rfl rfl rfl (by decide) (by decide)
    (by decide +kernel) (by decide +kernel) (Prod.ext hok rfl)

omit [Extern] in
/-- A new name: the next email with the old one goes to a merchant of its own. -/
theorem rename_not_taught :
    letI := Extern.ascii
    let after := applyTransactionFieldUpdate "t1" (renameTo "Team lunch") (.quiet 2000) namedOnce
    namedOnce.db.MerchantKeys namedOnce.nextUuid ∧ after.1 = .ok () ∧
      ¬ RenameTaught after.2 "t1" "ZOMATO" "Team lunch" := by
  let := Extern.ascii
  intro after
  refine ⟨namedOnce_keys, by decide +kernel, ?_⟩
  have hentity : (after.2.db.getTransaction "t1").bind (·.merchantEntityId) = some (uuid 0) := by
    decide +kernel
  have hanswer : (normalizeMerchantSync "ZOMATO" (.quiet 3000) after.2).1 =
      .ok (uuid 2, "ZOMATO") := by decide +kernel
  generalize after.2 = s at hentity hanswer
  rintro ⟨e, he, hold, -⟩
  rw [hentity] at he
  obtain rfl := Option.some.inj he
  obtain ⟨name, hresolved⟩ := hold.2 3000
  rw [hanswer] at hresolved
  have hsame := (Prod.mk.inj (Except.ok.inj hresolved)).1
  exact absurd (Extern.uuid_injective hsame) (by decide)

end Dinero
