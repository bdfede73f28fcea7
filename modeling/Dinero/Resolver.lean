import Dinero.Cleanup
import Dinero.Merchants
import Dinero.Runs
import Dinero.TextLines

/-!
# Dinero.Resolver

Who a merchant's name resolves to, as merchants come and go.

The normaliser asks the aliases, then the live merchants, and at last creates a
merchant.  Merchants are deleted by a flag: the row keeps its name and its
aliases, and both are in the way of what the normaliser writes later.
`resolution_lasts` says when they are not.
-/

namespace Dinero

open Sql

variable [Extern]

/-! ## texts -/

/-- What `to_uppercase` and `jaro_winkler` are known for: a text of uppercase letters is its own
uppercase, and nothing is as much like a text as the text itself. -/
structure TextLaws [Extern] : Prop where
  upper : ∀ s t : String, (∀ c ∈ s.toList, c ∈ (toUppercase t).toList ∨ c = ' ') → toUppercase s = s
  alike_self : ∀ a : String, jaroWinkler a a = 1
  alike_eq : ∀ a b : String, jaroWinkler a b = 1 → a = b

omit [Extern] in
theorem toUpper_toUpper (c : Char) : c.toUpper.toUpper = c.toUpper := by
  unfold Char.toUpper
  split
  · rw [dif_neg]
    grind [UInt32.toNat_add, UInt32.le_iff_toNat_le]
  · rfl

omit [Extern] in
theorem textLaws_ascii : @TextLaws Extern.ascii := by
  let := Extern.ascii
  refine ⟨fun s t h => ?_, fun a => if_pos rfl, fun a b h => ?_⟩
  · have hsame : ∀ c ∈ s.toList, c.toUpper = c := by
      intro c hc
      rcases h c hc with hupper | rfl
      · have hlist : c ∈ (String.ofList (t.toList.map Char.toUpper)).toList := hupper
        rw [String.toList_ofList] at hlist
        obtain ⟨d, -, rfl⟩ := List.mem_map.mp hlist
        exact toUpper_toUpper d
      · rfl
    show String.ofList (s.toList.map Char.toUpper) = s
    rw [List.map_congr_left hsame, List.map_id', String.ofList_toList]
  · by_contra hne
    have hzero : jaroWinkler a b = 0 := if_neg hne
    rw [h] at hzero
    exact absurd hzero (by decide)

omit [Extern] in
theorem mem_of_mem_dropWhile {p : Char → Bool} {s : List Char} {c : Char}
    (h : c ∈ s.dropWhile p) : c ∈ s :=
  (List.dropWhile_sublist p).mem h

omit [Extern] in
theorem mem_of_mem_takeWhile {p : Char → Bool} {s : List Char} {c : Char}
    (h : c ∈ s.takeWhile p) : c ∈ s :=
  (List.takeWhile_sublist p).mem h

omit [Extern] in
theorem mem_of_mem_trimMatches {p : Char → Bool} {s : List Char} {c : Char}
    (h : c ∈ trimMatches p s) : c ∈ s := by
  have hreversed : c ∈ (s.dropWhile p).reverse.dropWhile p := List.mem_reverse.mp h
  exact mem_of_mem_dropWhile (List.mem_reverse.mp (mem_of_mem_dropWhile hreversed))

theorem mem_of_mem_splitOnAggregatorStar {s : List Char} {c : Char}
    (h : c ∈ splitOnAggregatorStar s) : c ∈ s := by
  unfold splitOnAggregatorStar at h
  dsimp only at h
  split at h
  · split at h
    · exact mem_of_mem_dropWhile (List.mem_of_mem_drop
        (mem_of_mem_trimMatches (mem_of_mem_takeWhile h)))
    · exact mem_of_mem_takeWhile (mem_of_mem_trimMatches h)
  · exact h

theorem mem_of_mem_stripTrailingDigits {s : List Char} {c : Char}
    (h : c ∈ stripTrailingDigits s) : c ∈ s := by
  unfold stripTrailingDigits at h
  dsimp only at h
  split at h
  · have hbody := mem_of_mem_dropWhile (mem_of_mem_dropWhile (List.mem_reverse.mp h))
    exact List.mem_reverse.mp (mem_of_mem_dropWhile hbody)
  · exact h

omit [Extern] in
theorem mem_of_mem_intercalate {tokens : List (List Char)} {c : Char}
    (h : c ∈ [' '].intercalate tokens) : c = ' ' ∨ ∃ token ∈ tokens, c ∈ token := by
  induction tokens with
  | nil => cases h
  | cons token rest ih =>
    cases rest with
    | nil =>
      rw [List.intercalate_singleton] at h
      exact .inr ⟨token, List.mem_singleton_self _, h⟩
    | cons next rest =>
      rw [List.intercalate_cons_cons, List.mem_append, List.mem_append] at h
      rcases h with (h | h) | h
      · exact .inr ⟨token, List.mem_cons_self, h⟩
      · exact .inl (List.mem_singleton.mp h)
      · rcases ih h with h | ⟨token', htoken, h⟩
        · exact .inl h
        · exact .inr ⟨token', List.mem_cons_of_mem _ htoken, h⟩

/-- The characters of a stripped name stand past the aggregator, or are blanks. -/
theorem mem_body_of_mem_stripNoiseTokens {raw : String} {c : Char}
    (h : c ∈ (stripNoiseTokens raw).toList) :
    c ∈ splitOnAggregatorStar (toUppercase raw).toList ∨ c = ' ' := by
  unfold stripNoiseTokens at h
  dsimp only at h
  rw [String.toList_ofList] at h
  rcases mem_of_mem_intercalate h with hblank | ⟨token, htoken, hc⟩
  · exact .inr hblank
  · have hbody := (TextLines.mem_of_mem_splitOnP (List.mem_filter.mp htoken).1 c hc).1
    exact .inl (mem_of_mem_stripTrailingDigits (mem_of_mem_trimMatches hbody))

/-- The characters of a stripped name are those of the uppercased text, and blanks. -/
theorem mem_stripNoiseTokens {raw : String} {c : Char} (h : c ∈ (stripNoiseTokens raw).toList) :
    c ∈ (toUppercase raw).toList ∨ c = ' ' :=
  (mem_body_of_mem_stripNoiseTokens h).imp_left mem_of_mem_splitOnAggregatorStar

theorem stripNoiseTokens_upper (laws : TextLaws) (raw : String) :
    toUppercase (stripNoiseTokens raw) = stripNoiseTokens raw :=
  laws.upper _ raw fun _ h => mem_stripNoiseTokens h

/-! ## the tables -/

/-- What the schema says of merchants and aliases, and no draw from `n` on is in use there. -/
structure Database.MerchantKeys (db : Database) (n : Nat) : Prop where
  names : ∀ m ∈ db.merchants, ∀ m' ∈ db.merchants, m.normalizedName = m'.normalizedName → m = m'
  aliases : ∀ a ∈ db.merchantAliases, ∀ a' ∈ db.merchantAliases,
    a.aliasNormalized = a'.aliasNormalized → a = a'
  entities : ∀ a ∈ db.merchantAliases, a.merchantEntityId ∈ db.merchants.keys
  merchantIds : ∀ k, n ≤ k → uuid k ∉ db.merchants.keys
  aliasIds : ∀ k, n ≤ k → uuid k ∉ db.merchantAliases.keys

/-- They hold, and `ids` have been drawn. -/
def KeysWith (ids : List String) (db : Database) (n : Nat) : Prop :=
  db.MerchantKeys n ∧ ∀ id ∈ ids, ∃ k < n, id = uuid k

theorem Database.MerchantKeys.later {db : Database} {n : Nat} (h : db.MerchantKeys n) {n' : Nat}
    (hn : n ≤ n') : db.MerchantKeys n' :=
  { h with
    merchantIds := fun k hk => h.merchantIds k (Nat.le_trans hn hk)
    aliasIds := fun k hk => h.aliasIds k (Nat.le_trans hn hk) }

theorem Database.MerchantKeys.of_eq {db db' : Database} {n : Nat} (h : db.MerchantKeys n)
    (hm : db'.merchants = db.merchants) (ha : db'.merchantAliases = db.merchantAliases) :
    db'.MerchantKeys n := by
  constructor
  · rw [hm]; exact h.names
  · rw [ha]; exact h.aliases
  · rw [hm, ha]; exact h.entities
  · rw [hm]; exact h.merchantIds
  · rw [ha]; exact h.aliasIds

/-- An id drawn before is not among those to come. -/
theorem not_to_come {n : Nat} {id : String} (hid : ∃ k < n, id = uuid k) {k : Nat} (hk : n ≤ k) :
    uuid k ≠ id := by
  obtain ⟨k', hk', rfl⟩ := hid
  intro h
  have hsame := Extern.uuid_injective h
  omega

omit [Extern] in
theorem Database.insertAlias_eq_ok {a : MerchantAliasesRow} {db db' : Database} {u : Unit} :
    db.insertAlias a = .ok (u, db') ↔
      (∀ x ∈ db.merchantAliases, x.aliasNormalized ≠ a.aliasNormalized) ∧
      db.merchants.contains a.merchantEntityId = true ∧
      ∃ T, db.merchantAliases.insert? a = some T ∧ db' = { db with merchantAliases := T } := by
  unfold insertAlias
  split
  · next h =>
    simp only [List.any_eq_true, decide_eq_true_eq] at h
    obtain ⟨x, hx, hname⟩ := h
    simp only [reduceCtorEq, false_iff, not_and]
    exact fun hall => absurd hname (hall x hx)
  · next h =>
    simp only [List.any_eq_true, decide_eq_true_eq, not_exists, not_and] at h
    rw [insertInto_eq_ok]
    constructor
    · rintro ⟨T, hT, hfk, hdb⟩
      exact ⟨h, hfk, T, hT, hdb⟩
    · rintro ⟨-, hfk, T, hT, hdb⟩
      exact ⟨T, hT, hfk, hdb⟩

theorem Database.MerchantKeys.insertAlias {db db' : Database} {n : Nat} {a : MerchantAliasesRow}
    {u : Unit} (h : db.MerchantKeys n) (hid : ∃ k < n, a.id = uuid k)
    (hins : db.insertAlias a = .ok (u, db')) : db'.MerchantKeys n := by
  obtain ⟨hnew, hfk, T, hT, rfl⟩ := Database.insertAlias_eq_ok.mp hins
  have hmem : ∀ x, x ∈ T ↔ x ∈ db.merchantAliases ∨ x = a := fun x => Table.mem_of_insert? hT
  refine ⟨h.names, fun x hx y hy hname => ?_, fun x hx => ?_, h.merchantIds, fun k hk hkey => ?_⟩
  · rcases (hmem x).mp hx with hx | rfl
    · rcases (hmem y).mp hy with hy | rfl
      · exact h.aliases x hx y hy hname
      · exact absurd hname (hnew x hx)
    · rcases (hmem y).mp hy with hy | rfl
      · exact absurd hname.symm (hnew y hy)
      · rfl
  · rcases (hmem x).mp hx with hx | rfl
    · exact h.entities x hx
    · exact Table.mem_keys.mpr (Table.contains_iff.mp hfk)
  · rcases (Table.mem_keys_of_insert? hT).mp hkey with hold | hnew'
    · exact h.aliasIds k hk hold
    · exact not_to_come hid hk hnew'

theorem Database.MerchantKeys.insertMerchant {db db' : Database} {n : Nat} {m : MerchantsRow}
    {u : Unit} (h : db.MerchantKeys n) (hid : ∃ k < n, m.id = uuid k)
    (hins : db.insertMerchant m = .ok (u, db')) : db'.MerchantKeys n := by
  obtain ⟨hnew, T, hT, rfl⟩ := Database.insertMerchant_eq_ok.mp hins
  have hmem : ∀ x, x ∈ T ↔ x ∈ db.merchants ∨ x = m := fun x => Table.mem_of_insert? hT
  refine ⟨fun x hx y hy hname => ?_, h.aliases, fun a ha => ?_, fun k hk hkey => ?_, h.aliasIds⟩
  · rcases (hmem x).mp hx with hx | rfl
    · rcases (hmem y).mp hy with hy | rfl
      · exact h.names x hx y hy hname
      · exact absurd hname (hnew x hx)
    · rcases (hmem y).mp hy with hy | rfl
      · exact absurd hname.symm (hnew y hy)
      · rfl
  · exact (Table.mem_keys_of_insert? hT).mpr (.inl (h.entities a ha))
  · rcases (Table.mem_keys_of_insert? hT).mp hkey with hold | hnew'
    · exact h.merchantIds k hk hold
    · exact not_to_come hid hk hnew'

/-- A merchant with an id to come is refused for its name only. -/
theorem Database.MerchantKeys.taken {db : Database} {n : Nat} (h : db.MerchantKeys n)
    {m : MerchantsRow} (hid : m.id = uuid n) {e : SqlError}
    (hins : db.insertMerchant m = .error e) :
    ∃ x ∈ db.merchants, x.normalizedName = m.normalizedName := by
  by_contra hfree
  have hnew : db.merchants.contains m.id = false := by
    rw [Bool.eq_false_iff, hid]
    intro hcontains
    exact h.merchantIds n (Nat.le_refl n) (Table.mem_keys.mpr (Table.contains_iff.mp hcontains))
  obtain ⟨db', hok⟩ := Database.insertMerchant_isOk.mpr
    ⟨fun x hx hname => hfree ⟨x, hx, hname⟩, hnew⟩
  rw [hins] at hok
  cases hok

/-- A merchant changed, but for its name. -/
theorem Database.MerchantKeys.modify {db db' : Database} {n : Nat} (h : db.MerchantKeys n)
    {id : String} {u : Patch MerchantsRow} (hu : ∀ m, (u.run m).normalizedName = m.normalizedName)
    (hm : db'.merchants = db.merchants.modify id u)
    (ha : db'.merchantAliases = db.merchantAliases) : db'.MerchantKeys n := by
  refine ⟨?_, by rw [ha]; exact h.aliases, ?_, ?_, by rw [ha]; exact h.aliasIds⟩
  · rw [hm]
    intro x hx y hy hname
    obtain ⟨r, hr, rfl⟩ := Table.mem_modify.mp hx
    obtain ⟨r', hr', rfl⟩ := Table.mem_modify.mp hy
    have hsame : r = r' := by
      refine h.names r hr r' hr' ?_
      split at hname <;> split at hname <;> simpa [hu] using hname
    rw [hsame]
  · rw [ha, hm]
    simpa using h.entities
  · rw [hm]
    simpa using h.merchantIds

/-- Aliases gone. -/
theorem Database.MerchantKeys.keep {db : Database} {n : Nat} (h : db.MerchantKeys n)
    (p : MerchantAliasesRow → Bool) :
    { db with merchantAliases := db.merchantAliases.keep p }.MerchantKeys n := by
  refine ⟨h.names, fun x hx y hy hname => ?_, fun x hx => ?_, h.merchantIds, fun k hk hkey => ?_⟩
  · exact h.aliases x (Table.mem_keep.mp hx).1 y (Table.mem_keep.mp hy).1 hname
  · exact h.entities x (Table.mem_keep.mp hx).1
  · obtain ⟨r, hr, hid⟩ := Table.mem_keys.mp hkey
    exact h.aliasIds k hk (Table.mem_keys.mpr ⟨r, (Table.mem_keep.mp hr).1, hid⟩)

/-- An alias put in, or given to another merchant. -/
theorem Database.MerchantKeys.upsertAlias {db db' : Database} {n : Nat} {a : MerchantAliasesRow}
    {u : Unit} (h : db.MerchantKeys n) (hid : ∃ k < n, a.id = uuid k)
    (hins : db.upsertAlias a = .ok (u, db')) : db'.MerchantKeys n := by
  unfold Database.upsertAlias at hins
  split at hins
  · next old hold =>
    split at hins
    · next hfk =>
      obtain ⟨-, rfl⟩ := Prod.mk.inj (Except.ok.inj hins)
      have hname : ∀ r, (if Keyed.key r = old.id then (realiasPatch a).run r else r).aliasNormalized =
          r.aliasNormalized := by
        intro r
        split <;> rfl
      refine ⟨h.names, fun x hx y hy hxy => ?_, fun x hx => ?_, h.merchantIds, ?_⟩
      · obtain ⟨r, hr, rfl⟩ := Table.mem_modify.mp hx
        obtain ⟨r', hr', rfl⟩ := Table.mem_modify.mp hy
        rw [hname, hname] at hxy
        rw [h.aliases r hr r' hr' hxy]
      · rcases Table.mem_modify_cases hx with ⟨hx, -⟩ | ⟨r, -, -, rfl⟩
        · exact h.entities x hx
        · exact Table.mem_keys.mpr (Table.contains_iff.mp hfk)
      · simpa using h.aliasIds
    · cases hins
  · exact h.insertAlias hid hins

section Keys

variable {ι : Type} {ids : List String}

/-- A draw is remembered. -/
theorem keysWith_newUuid_bind {σ : Type} {p : σ → Database} {f : String → Prog ι σ α}
    (h : ∀ id, Keeps (fun b => KeysWith (id :: ids) (p b)) (f id)) :
    Keeps (fun b => KeysWith ids (p b)) (newUuid uuid >>= f) := by
  refine Keeps.newUuid_bind (J := fun id b => KeysWith (id :: ids) (p b)) ?_ ?_ h
  · rintro b n ⟨hkeys, hids⟩
    refine ⟨hkeys.later (Nat.le_succ n), fun id hid => ?_⟩
    rcases List.mem_cons.mp hid with rfl | hid
    · exact ⟨n, Nat.lt_succ_self n, rfl⟩
    · obtain ⟨k, hk, heq⟩ := hids id hid
      exact ⟨k, Nat.lt_succ_of_lt hk, heq⟩
  · rintro id b n ⟨hkeys, hids⟩
    exact ⟨hkeys, fun id hid => hids id (List.mem_cons_of_mem _ hid)⟩

namespace NormalizerKeys

open Keeps

theorem learnAlias (site : Stmt) (entityId raw cleaned : String) (c : ℚ) :
    Keeps (KeysWith ids) (Dinero.learnAlias site entityId raw cleaned c) := by
  refine keysWith_newUuid_bind (p := id) fun aliasId => bind utcNow fun _ =>
    bind (attempt ?_) fun _ => pure _
  refine Keeps.exec fun now n db a db' hI h => ⟨hI.1.insertAlias ?_ h, hI.2⟩
  exact hI.2 aliasId List.mem_cons_self

theorem createMerchant (raw cleaned : String) :
    Keeps (KeysWith ids) (Dinero.createMerchant raw cleaned) := by
  refine keysWith_newUuid_bind (p := id) fun entityId => bind utcNow fun _ =>
    bind ?_ fun _ => bind (learnAlias _ _ _ _ _) fun _ => pure _
  refine Keeps.exec fun now n db a db' hI h => ⟨hI.1.insertMerchant ?_ h, hI.2⟩
  exact hI.2 entityId List.mem_cons_self

theorem normalizeMerchantSync (raw : String) :
    Keeps (KeysWith ids) (Dinero.normalizeMerchantSync raw) := by
  simp only [Dinero.normalizeMerchantSync]
  split
  · exact pure _
  · refine bind (query _ _) fun found => ?_
    cases found with
    | some m => exact pure _
    | none =>
      refine bind (query _ _) fun all => ?_
      cases bestFuzzyMatch (stripNoiseTokens raw) all with
      | some best => exact bind (learnAlias _ _ _ _ _) fun _ => pure _
      | none =>
        dsimp only
        split
        · exact createMerchant _ _
        · exact pure _

end NormalizerKeys

end Keys

/-! ## one name -/

/-- `db'` knows the alias: it was put in, or it was there, whoever has it. -/
inductive Learns (id cleaned : String) (db db' : Database) : Prop
  | learned (a : MerchantAliasesRow) (T : Table MerchantAliasesRow) (hid : a.merchantEntityId = id)
      (hname : a.aliasNormalized = cleaned)
      (hfree : ∀ x ∈ db.merchantAliases, x.aliasNormalized ≠ cleaned)
      (hT : db.merchantAliases.insert? a = some T) (hdb : db' = { db with merchantAliases := T })
  | taken (a : MerchantAliasesRow) (ha : a ∈ db.merchantAliases)
      (hname : a.aliasNormalized = cleaned) (hdb : db' = db)

/-- The row that is put in. -/
def aliasRow (aliasId id raw cleaned : String) (c : ℚ) (now : Int) : MerchantAliasesRow where
  id := aliasId
  merchantEntityId := id
  aliasRaw := raw
  aliasNormalized := cleaned
  confidence := c
  createdAt := some now

theorem learnAlias_quiet (site : Stmt) (id raw cleaned : String) (c : ℚ) (now : Int)
    (s : Store Database) :
    learnAlias site id raw cleaned c (.quiet now) s = (.ok (), { s with
      nextUuid := s.nextUuid + 1
      db := match s.db.insertAlias (aliasRow (uuid s.nextUuid) id raw cleaned c now) with
        | .ok r => r.2
        | .error _ => s.db }) := by
  have hins : insertAlias site (aliasRow (uuid s.nextUuid) id raw cleaned c now) (.quiet now)
      { s with nextUuid := s.nextUuid + 1 } = _ := exec_quiet _ _ now _
  rw [learnAlias, Eff.bind_of_ok (newUuid_apply _ _ _), Eff.bind_of_ok (utcNow_apply _ _),
    Eff.bind_of_ok (Eff.attempt_apply _ _ _)]
  cases hdb : s.db.insertAlias (aliasRow (uuid s.nextUuid) id raw cleaned c now) with
  | ok r =>
    simp only [hdb] at hins
    exact congrArg (fun t => (Except.ok (), t.2)) hins
  | error e =>
    simp only [hdb] at hins
    exact congrArg (fun t => (Except.ok (), t.2)) hins

theorem learnAlias_learns {s : Store Database} (hkeys : s.db.MerchantKeys s.nextUuid)
    {id : String} (hid : s.db.merchants.contains id = true) (site : Stmt) (raw cleaned : String)
    (c : ℚ) (now : Int) :
    Learns id cleaned s.db (learnAlias site id raw cleaned c (.quiet now) s).2.db := by
  rw [learnAlias_quiet]
  by_cases htaken : ∃ a ∈ s.db.merchantAliases, a.aliasNormalized = cleaned
  · obtain ⟨a, ha, hname⟩ := htaken
    refine .taken a ha hname ?_
    cases hins : s.db.insertAlias (aliasRow (uuid s.nextUuid) id raw cleaned c now) with
    | error e => rfl
    | ok r =>
      obtain ⟨hnew, -⟩ := Database.insertAlias_eq_ok.mp hins
      exact absurd hname (hnew a ha)
  · have hfree : ∀ x ∈ s.db.merchantAliases, x.aliasNormalized ≠ cleaned :=
      fun x hx hname => htaken ⟨x, hx, hname⟩
    obtain ⟨T, hT⟩ : ∃ T, s.db.merchantAliases.insert?
        (aliasRow (uuid s.nextUuid) id raw cleaned c now) = some T := by
      refine Table.exists_insert fun x hx hkey => ?_
      exact hkeys.aliasIds _ (Nat.le_refl _) (Table.mem_keys.mpr ⟨x, hx, hkey⟩)
    rw [Database.insertAlias_eq_ok (u := ()).mpr ⟨hfree, hid, T, hT, rfl⟩]
    exact .learned _ T rfl rfl hfree hT rfl

/-- What a run of the normaliser comes to. -/
inductive NormalizerStep (raw : String) (s : Store Database) :
    Except SqlError (String × String) → Database → Prop
  | blank (hblank : stripNoiseTokens raw = "") :
      NormalizerStep raw s (.ok ("", stripNoiseTokens raw)) s.db
  | unlikely (halias : s.db.selectByAlias (stripNoiseTokens raw) = none)
      (hfuzzy : bestFuzzyMatch (stripNoiseTokens raw) s.db.liveMerchants = none) :
      NormalizerStep raw s (.ok ("", "")) s.db
  | known (m : MerchantsRow) (hne : stripNoiseTokens raw ≠ "")
      (halias : s.db.selectByAlias (stripNoiseTokens raw) = some m) :
      NormalizerStep raw s (.ok (m.id, m.normalizedName)) s.db
  | alike (m : MerchantsRow) (score : ℚ) (db : Database) (hne : stripNoiseTokens raw ≠ "")
      (halias : s.db.selectByAlias (stripNoiseTokens raw) = none)
      (hfuzzy : bestFuzzyMatch (stripNoiseTokens raw) s.db.liveMerchants = some (score, m))
      (hlearns : Learns m.id (stripNoiseTokens raw) s.db db) :
      NormalizerStep raw s (.ok (m.id, m.normalizedName)) db
  | created (m : MerchantsRow) (T : Table MerchantsRow) (db : Database)
      (hne : stripNoiseTokens raw ≠ "")
      (halias : s.db.selectByAlias (stripNoiseTokens raw) = none)
      (hfuzzy : bestFuzzyMatch (stripNoiseTokens raw) s.db.liveMerchants = none)
      (hid : m.id = uuid s.nextUuid) (hname : m.normalizedName = stripNoiseTokens raw)
      (hfree : ∀ x ∈ s.db.merchants, x.normalizedName ≠ stripNoiseTokens raw)
      (hlive : m.isDeleted = false) (hT : s.db.merchants.insert? m = some T)
      (hlearns : Learns m.id (stripNoiseTokens raw) { s.db with merchants := T } db) :
      NormalizerStep raw s (.ok (m.id, m.normalizedName)) db
  | clash (e : SqlError) (hne : stripNoiseTokens raw ≠ "")
      (halias : s.db.selectByAlias (stripNoiseTokens raw) = none)
      (hfuzzy : bestFuzzyMatch (stripNoiseTokens raw) s.db.liveMerchants = none)
      (hlikely : isPlausibleMerchantName (stripNoiseTokens raw) = true)
      (m : MerchantsRow) (hm : m ∈ s.db.merchants)
      (hname : m.normalizedName = stripNoiseTokens raw) : NormalizerStep raw s (.error e) s.db

/-- A merchant just created learns its name. -/
theorem created_learns {s : Store Database} (hkeys : s.db.MerchantKeys s.nextUuid)
    {raw cleaned : String} {now : Int} {r : Unit × Database}
    (hins : s.db.insertMerchant (newMerchant (uuid s.nextUuid) raw cleaned now) = .ok r) :
    Learns (uuid s.nextUuid) cleaned r.2 (learnAlias .insertAlias (uuid s.nextUuid) raw cleaned 1
      (.quiet now) { s with db := r.2, nextUuid := s.nextUuid + 1 }).2.db := by
  have hkeys' : r.2.MerchantKeys (s.nextUuid + 1) :=
    (hkeys.later (Nat.le_succ s.nextUuid)).insertMerchant
      ⟨s.nextUuid, Nat.lt_succ_self _, rfl⟩ hins
  obtain ⟨-, T, hT, hdb⟩ := Database.insertMerchant_eq_ok.mp hins
  have hthere : r.2.merchants.contains (uuid s.nextUuid) = true := by
    rw [hdb]
    exact Table.contains_iff.mpr ⟨_, (Table.mem_of_insert? hT).mpr (.inr rfl), rfl⟩
  exact learnAlias_learns (s := { s with db := r.2, nextUuid := s.nextUuid + 1 }) hkeys' hthere
    .insertAlias raw cleaned 1 now

theorem mem_liveMerchants {db : Database} {m : MerchantsRow} :
    m ∈ db.liveMerchants ↔ m ∈ db.merchants ∧ m.isDeleted = false := by
  rw [Database.liveMerchants, mem_scan, List.mem_filter, Bool.not_eq_true']
  rfl

/-- **Whatever the normaliser does, it is one of these.** -/
theorem normalizerStep {s : Store Database} (hkeys : s.db.MerchantKeys s.nextUuid) (raw : String)
    (now : Int) :
    NormalizerStep raw s (normalizeMerchantSync raw (.quiet now) s).1
      (normalizeMerchantSync raw (.quiet now) s).2.db := by
  by_cases hne : stripNoiseTokens raw = ""
  · simp only [normalizeMerchantSync, if_pos hne]
    exact .blank hne
  rw [normalizeMerchantSync_quiet hne]
  cases halias : s.db.selectByAlias (stripNoiseTokens raw) with
  | some m => exact .known m hne halias
  | none =>
    cases hfuzzy : bestFuzzyMatch (stripNoiseTokens raw) s.db.liveMerchants with
    | some best =>
      obtain ⟨score, m⟩ := best
      have hm := (mem_liveMerchants.mp (bestFuzzyMatch_some hfuzzy).1).1
      exact .alike m score _ hne halias hfuzzy
        (learnAlias_learns hkeys (Table.contains_iff.mpr ⟨m, hm, rfl⟩) _ _ _ _ _)
    | none =>
      dsimp only
      by_cases hlikely : isPlausibleMerchantName (stripNoiseTokens raw) = true
      · rw [if_pos hlikely, createMerchant_quiet]
        cases hins : s.db.insertMerchant (newMerchant (uuid s.nextUuid) raw
            (stripNoiseTokens raw) now) with
        | ok r =>
          obtain ⟨u, db⟩ := r
          obtain ⟨hfree, T, hT, hdb⟩ := Database.insertMerchant_eq_ok.mp hins
          have hlearns := created_learns hkeys hins
          dsimp only at hlearns hdb ⊢
          subst hdb
          exact .created (newMerchant (uuid s.nextUuid) raw (stripNoiseTokens raw) now) T _
            hne halias hfuzzy rfl rfl hfree rfl hT hlearns
        | error e =>
          obtain ⟨m, hm, hname⟩ := hkeys.taken rfl hins
          exact .clash e hne halias hfuzzy hlikely m hm hname
      · rw [if_neg hlikely]
        exact .unlikely halias hfuzzy

/-! ## settled names -/

/-- The cleaned name resolves to `m`: by an alias, or by its very name, where the alias was left to
a merchant that is gone. -/
inductive Database.Settles (db : Database) (cleaned : String) (m : MerchantsRow) : Prop
  | byAlias (a : MerchantAliasesRow) (hm : m ∈ db.merchants) (hlive : m.isDeleted = false)
      (ha : a ∈ db.merchantAliases) (hname : a.aliasNormalized = cleaned)
      (howner : a.merchantEntityId = m.id)
  | byName (a : MerchantAliasesRow) (hm : m ∈ db.merchants) (hlive : m.isDeleted = false)
      (hname : m.normalizedName = cleaned) (ha : a ∈ db.merchantAliases)
      (halias : a.aliasNormalized = cleaned)
      (howner : ∀ x ∈ db.merchants, x.id = a.merchantEntityId → x.isDeleted = true)

omit [Extern] in
theorem Database.Settles.mem {db : Database} {cleaned : String} {m : MerchantsRow}
    (h : db.Settles cleaned m) : m ∈ db.merchants ∧ m.isDeleted = false := by
  cases h with
  | byAlias _ hm hlive => exact ⟨hm, hlive⟩
  | byName _ hm hlive => exact ⟨hm, hlive⟩

omit [Extern] in
/-- Only merchants and aliases matter. -/
theorem Database.Settles.of_eq {db db' : Database} {cleaned : String} {m : MerchantsRow}
    (h : db.Settles cleaned m) (hm : db'.merchants = db.merchants)
    (ha : db'.merchantAliases = db.merchantAliases) : db'.Settles cleaned m := by
  cases h with
  | byAlias a hmem hlive hmemAlias hname howner =>
    exact .byAlias a (hm ▸ hmem) hlive (ha ▸ hmemAlias) hname howner
  | byName a hmem hlive hname hmemAlias halias howner =>
    exact .byName a (hm ▸ hmem) hlive hname (ha ▸ hmemAlias) halias (hm ▸ howner)

/-- Rows are added, under ids that are new. -/
structure Database.Grows (db db' : Database) : Prop where
  merchants : ∀ x ∈ db.merchants, x ∈ db'.merchants
  new : ∀ x ∈ db'.merchants, x ∈ db.merchants ∨ x.id ∉ db.merchants.keys
  aliases : ∀ a ∈ db.merchantAliases, a ∈ db'.merchantAliases

omit [Extern] in
theorem Database.Grows.refl (db : Database) : db.Grows db :=
  ⟨fun _ h => h, fun _ h => .inl h, fun _ h => h⟩

omit [Extern] in
theorem Learns.grows {id cleaned : String} {db db' : Database} (h : Learns id cleaned db db') :
    db.Grows db' := by
  cases h with
  | learned a T _ _ _ hT hdb =>
    rw [hdb]
    exact ⟨fun _ h => h, fun _ h => .inl h, fun _ h => (Table.mem_of_insert? hT).mpr (.inl h)⟩
  | taken _ _ _ hdb =>
    rw [hdb]
    exact .refl db

omit [Extern] in
theorem Learns.merchants {id cleaned : String} {db db' : Database} (h : Learns id cleaned db db') :
    db'.merchants = db.merchants := by
  cases h with
  | learned _ _ _ _ _ _ hdb => rw [hdb]
  | taken _ _ _ hdb => rw [hdb]

omit [Extern] in
/-- Whoever has the alias afterwards, someone has it. -/
theorem Learns.aliased {id cleaned : String} {db db' : Database} (h : Learns id cleaned db db') :
    ∃ a ∈ db'.merchantAliases, a.aliasNormalized = cleaned ∧
      (a.merchantEntityId = id ∨ a ∈ db.merchantAliases) := by
  cases h with
  | learned a T hid hname _ hT hdb =>
    rw [hdb]
    exact ⟨a, (Table.mem_of_insert? hT).mpr (.inr rfl), hname, .inl hid⟩
  | taken a ha hname hdb =>
    rw [hdb]
    exact ⟨a, ha, hname, .inr ha⟩

theorem NormalizerStep.grows {raw : String} {s : Store Database}
    {r : Except SqlError (String × String)} {db : Database} (h : NormalizerStep raw s r db) :
    s.db.Grows db := by
  cases h with
  | blank => exact .refl _
  | unlikely => exact .refl _
  | known => exact .refl _
  | clash => exact .refl _
  | alike _ _ _ _ _ _ hlearns => exact hlearns.grows
  | created m T _ _ _ _ _ _ _ _ hT hlearns =>
    have hgrows := hlearns.grows
    refine ⟨fun x hx => hgrows.merchants x ((Table.mem_of_insert? hT).mpr (.inl hx)),
      fun x hx => ?_, hgrows.aliases⟩
    rw [hlearns.merchants] at hx
    rcases (Table.mem_of_insert? hT).mp hx with hx | rfl
    · exact .inl hx
    · right
      rw [Table.mem_keys]
      rintro ⟨y, hy, hid⟩
      exact (Table.insert?_eq_some.mp hT).1 y hy hid

/-- What is settled stays settled while rows are added. -/
theorem Database.Settles.grow {db db' : Database} {n : Nat} (hkeys : db.MerchantKeys n)
    (h : db.Grows db') {cleaned : String} {m : MerchantsRow} (hs : db.Settles cleaned m) :
    db'.Settles cleaned m := by
  cases hs with
  | byAlias a hm hlive ha hname howner =>
    exact .byAlias a (h.merchants m hm) hlive (h.aliases a ha) hname howner
  | byName a hm hlive hname ha halias howner =>
    refine .byName a (h.merchants m hm) hlive hname (h.aliases a ha) halias fun x hx hid => ?_
    rcases h.new x hx with hx | hnew
    · exact howner x hx hid
    · exact absurd (hid ▸ hkeys.entities a ha) hnew

/-! ## exact matches -/

/-- The best match is at least as good as any that reaches the threshold. -/
theorem bestFuzzyMatch_max {cleaned : String} {merchants : List MerchantsRow} {score : ℚ}
    {m : MerchantsRow} (h : bestFuzzyMatch cleaned merchants = some (score, m)) :
    score = jaroWinkler cleaned m.normalizedName ∧
      ∀ x ∈ merchants, jaroWinkler cleaned x.normalizedName ≤ score := by
  have hfold : ∀ (l : List MerchantsRow) (best : Option (ℚ × MerchantsRow)),
      (∀ b ∈ best, fuzzyMatchThreshold ≤ b.1 ∧ b.1 = jaroWinkler cleaned b.2.normalizedName) →
      ∀ b, l.foldl (fun best m =>
        let score := jaroWinkler cleaned m.normalizedName
        if fuzzyMatchThreshold ≤ score ∧ best.all (·.1 < score) then some (score, m) else best)
        best = some b →
      (fuzzyMatchThreshold ≤ b.1 ∧ b.1 = jaroWinkler cleaned b.2.normalizedName) ∧
        (∀ b' ∈ best, b'.1 ≤ b.1) ∧ ∀ x ∈ l, jaroWinkler cleaned x.normalizedName ≤ b.1 := by
    intro l
    induction l with
    | nil =>
      intro best hbest b hb
      have hsame : best = some b := hb
      refine ⟨hbest b hsame, fun b' hb' => ?_, by simp⟩
      rw [Option.some.inj (hb'.symm.trans hsame)]
    | cons x l ih =>
      intro best hbest b hb
      rw [List.foldl_cons] at hb
      dsimp only at hb
      split at hb
      · next hx =>
        obtain ⟨hscore, hover, hl⟩ := ih _ (by simp [hx.1]) b hb
        have hxb : jaroWinkler cleaned x.normalizedName ≤ b.1 := hover _ rfl
        refine ⟨hscore, fun b' hb' => ?_, List.forall_mem_cons.mpr ⟨hxb, hl⟩⟩
        have hlt : b'.1 < jaroWinkler cleaned x.normalizedName := by
          rw [Option.mem_def.mp hb'] at hx
          simpa using hx.2
        exact le_trans (le_of_lt hlt) hxb
      · next hx =>
        obtain ⟨hscore, hover, hl⟩ := ih _ hbest b hb
        refine ⟨hscore, hover, List.forall_mem_cons.mpr ⟨?_, hl⟩⟩
        by_cases hthreshold : fuzzyMatchThreshold ≤ jaroWinkler cleaned x.normalizedName
        · cases hb' : best with
          | none => simp [hthreshold, hb'] at hx
          | some b' =>
            have hle : jaroWinkler cleaned x.normalizedName ≤ b'.1 := by
              simpa [hthreshold, hb'] using hx
            exact le_trans hle (hover b' hb')
        · exact le_trans (le_of_lt (not_le.mp hthreshold)) hscore.1
  obtain ⟨hscore, -, hl⟩ := hfold merchants none (by simp) (score, m) h
  exact ⟨hscore.2, hl⟩

/-- A merchant of the very name is found, or another of that name. -/
theorem bestFuzzyMatch_exact (laws : TextLaws) {cleaned : String} {merchants : List MerchantsRow}
    {m : MerchantsRow} (hm : m ∈ merchants) (hname : m.normalizedName = cleaned) :
    ∃ score m', bestFuzzyMatch cleaned merchants = some (score, m') ∧
      m'.normalizedName = cleaned := by
  have hone : jaroWinkler cleaned m.normalizedName = 1 := by rw [hname, laws.alike_self]
  cases hbest : bestFuzzyMatch cleaned merchants with
  | none =>
    have hlt := bestFuzzyMatch_none hbest hm
    rw [hone] at hlt
    exact absurd hlt (by norm_num [fuzzyMatchThreshold])
  | some best =>
    obtain ⟨score, m'⟩ := best
    obtain ⟨hscore, hmax⟩ := bestFuzzyMatch_max hbest
    have hle := hmax m hm
    rw [hone] at hle
    have hge := Extern.jaroWinkler_le_one cleaned m'.normalizedName
    have heq : jaroWinkler cleaned m'.normalizedName = 1 := le_antisymm hge (hscore ▸ hle)
    exact ⟨score, m', rfl, (laws.alike_eq _ _ heq).symm⟩

/-! ## the condition -/

/-- No merchant that is gone is in the way of the name: where it is matched its alias can be
learned or is not needed, and where it is new it can be created. -/
def Database.ResolvesSoundly (db : Database) (raw : String) : Prop :=
  stripNoiseTokens raw ≠ "" → db.selectByAlias (stripNoiseTokens raw) = none →
    if ∃ m ∈ db.liveMerchants,
        fuzzyMatchThreshold ≤ jaroWinkler (stripNoiseTokens raw) m.normalizedName then
      (∃ m ∈ db.liveMerchants, m.normalizedName = stripNoiseTokens raw) ∨
        ∀ a ∈ db.merchantAliases.rows, a.aliasNormalized ≠ stripNoiseTokens raw
    else
      isPlausibleMerchantName (stripNoiseTokens raw) = true →
        ∀ m ∈ db.merchants.rows, m.normalizedName ≠ stripNoiseTokens raw

instance decidableResolvesSoundly (db : Database) (raw : String) : Decidable (db.ResolvesSoundly raw) := by
  delta Database.ResolvesSoundly
  infer_instance

variable {raw : String} {s : Store Database} {r : Except SqlError (String × String)}
  {db : Database}

/-- Where the condition is met there is an answer. -/
theorem NormalizerStep.answers (h : NormalizerStep raw s r db) (hsound : s.db.ResolvesSoundly raw) :
    ∃ answer, r = .ok answer := by
  cases h with
  | blank => exact ⟨_, rfl⟩
  | unlikely => exact ⟨_, rfl⟩
  | known => exact ⟨_, rfl⟩
  | alike => exact ⟨_, rfl⟩
  | created => exact ⟨_, rfl⟩
  | clash e hne halias hfuzzy hlikely m hm hname =>
    have hnew := hsound hne halias
    rw [if_neg] at hnew
    · exact absurd hname (hnew hlikely m hm)
    · rintro ⟨x, hx, hle⟩
      exact absurd (bestFuzzyMatch_none hfuzzy hx) (not_lt.mpr hle)

/-- Only a name that something is left of has a merchant. -/
theorem NormalizerStep.named (h : NormalizerStep raw s r db) {id name : String}
    (hr : r = .ok (id, name)) (hid : id ≠ "") : stripNoiseTokens raw ≠ "" := by
  cases h with
  | blank => exact absurd (Prod.mk.inj (Except.ok.inj hr)).1.symm hid
  | unlikely => exact absurd (Prod.mk.inj (Except.ok.inj hr)).1.symm hid
  | known _ hne => exact hne
  | alike _ _ _ hne => exact hne
  | created _ _ _ hne => exact hne
  | clash => cases hr

/-- An alias whose owner is gone leaves the name to the merchant of that name. -/
theorem Database.Settles.of_taken {cleaned : String} (hupper : toUppercase cleaned = cleaned)
    (halias : db.selectByAlias cleaned = none) {m : MerchantsRow} (hm : m ∈ db.merchants)
    (hlive : m.isDeleted = false) (hname : m.normalizedName = cleaned) {a : MerchantAliasesRow}
    (ha : a ∈ db.merchantAliases) (haname : a.aliasNormalized = cleaned) :
    db.Settles cleaned m := by
  refine .byName a hm hlive hname ha haname fun x hx hid => ?_
  by_contra hxlive
  have hnot := Database.selectByAlias_none halias hx (by simpa using hxlive) ha hid.symm
  rw [hupper] at hnot
  exact hnot haname

/-- The merchant just created has its name. -/
theorem Database.Settles.of_created {n : Nat} (hkeys : db.MerchantKeys n) {cleaned : String}
    (hupper : toUppercase cleaned = cleaned) (halias : db.selectByAlias cleaned = none)
    {m : MerchantsRow} (hname : m.normalizedName = cleaned) (hlive : m.isDeleted = false)
    {T : Table MerchantsRow} (hT : db.merchants.insert? m = some T) {db' : Database}
    (hlearns : Learns m.id cleaned { db with merchants := T } db') : db'.Settles cleaned m := by
  have hmem : ∀ x, x ∈ db'.merchants ↔ x ∈ db.merchants ∨ x = m := by
    rw [hlearns.merchants]
    exact fun x => Table.mem_of_insert? hT
  have hm := (hmem m).mpr (.inr rfl)
  obtain ⟨a, ha, haname, howner | hold⟩ := hlearns.aliased
  · exact .byAlias a hm hlive ha haname howner
  · refine .byName a hm hlive hname ha haname fun x hx hid => ?_
    by_contra hxlive
    rcases (hmem x).mp hx with hx | rfl
    · have hnot := Database.selectByAlias_none halias hx (by simpa using hxlive) hold hid.symm
      rw [hupper] at hnot
      exact hnot haname
    · obtain ⟨y, hy, hkey⟩ := Table.mem_keys.mp (hkeys.entities a hold)
      exact (Table.insert?_eq_some.mp hT).1 y hy (hkey.trans hid.symm)

/-- **Where the condition is met, the answer is settled.** -/
theorem NormalizerStep.settles (laws : TextLaws) (hkeys : s.db.MerchantKeys s.nextUuid)
    (h : NormalizerStep raw s r db) (hsound : s.db.ResolvesSoundly raw) {id name : String}
    (hr : r = .ok (id, name)) (hid : id ≠ "") :
    ∃ m, db.Settles (stripNoiseTokens raw) m ∧ id = m.id ∧ name = m.normalizedName := by
  have hupper := stripNoiseTokens_upper laws raw
  cases h with
  | blank => exact absurd (Prod.mk.inj (Except.ok.inj hr)).1.symm hid
  | unlikely => exact absurd (Prod.mk.inj (Except.ok.inj hr)).1.symm hid
  | clash => cases hr
  | known m _ halias =>
    obtain ⟨rfl, rfl⟩ := Prod.mk.inj (Except.ok.inj hr)
    obtain ⟨hm, hlive, a, ha, howner, hname⟩ := Database.selectByAlias_some halias
    rw [hupper] at hname
    exact ⟨m, .byAlias a hm hlive ha hname howner, rfl, rfl⟩
  | alike m score _ hne halias hfuzzy hlearns =>
    obtain ⟨rfl, rfl⟩ := Prod.mk.inj (Except.ok.inj hr)
    obtain ⟨hmem, hle⟩ := bestFuzzyMatch_some hfuzzy
    obtain ⟨hm, hlive⟩ := mem_liveMerchants.mp hmem
    refine ⟨m, ?_, rfl, rfl⟩
    cases hlearns with
    | learned a T howner hname _ hT hdb =>
      rw [hdb]
      exact .byAlias a hm hlive ((Table.mem_of_insert? hT).mpr (.inr rfl)) hname howner
    | taken a ha hname hdb =>
      rw [hdb]
      have hway := hsound hne halias
      rw [if_pos ⟨m, hmem, hle⟩] at hway
      rcases hway with ⟨x, hx, hxname⟩ | hfree
      · obtain ⟨score', m', hbest, hexact⟩ := bestFuzzyMatch_exact laws hx hxname
        rw [hfuzzy] at hbest
        obtain ⟨-, rfl⟩ := Prod.mk.inj (Option.some.inj hbest)
        exact .of_taken hupper halias hm hlive hexact ha hname
      · exact absurd hname (hfree a ha)
  | created m T _ _ halias hfuzzy hmid hname _ hlive hT hlearns =>
    obtain ⟨rfl, rfl⟩ := Prod.mk.inj (Except.ok.inj hr)
    exact ⟨m, .of_created hkeys hupper halias hname hlive hT hlearns, rfl, rfl⟩

/-- **A settled name resolves to its merchant.** -/
theorem NormalizerStep.of_settled (laws : TextLaws) (hkeys : s.db.MerchantKeys s.nextUuid)
    (h : NormalizerStep raw s r db) (hne : stripNoiseTokens raw ≠ "") {m : MerchantsRow}
    (hs : s.db.Settles (stripNoiseTokens raw) m) : r = .ok (m.id, m.normalizedName) := by
  have hupper := stripNoiseTokens_upper laws raw
  obtain ⟨hm, hlive⟩ := hs.mem
  -- a live merchant of the name does not go unmatched
  have hunmatched : s.db.selectByAlias (stripNoiseTokens raw) = none →
      bestFuzzyMatch (stripNoiseTokens raw) s.db.liveMerchants ≠ none := by
    intro halias hfuzzy
    cases hs with
    | byAlias a _ _ ha hname howner =>
      have hnot := Database.selectByAlias_none halias hm hlive ha howner
      rw [hupper] at hnot
      exact hnot hname
    | byName a _ _ hname _ _ _ =>
      obtain ⟨_, _, hbest, -⟩ :=
        bestFuzzyMatch_exact laws (mem_liveMerchants.mpr ⟨hm, hlive⟩) hname
      rw [hfuzzy] at hbest
      cases hbest
  cases h with
  | blank hblank => exact absurd hblank hne
  | unlikely halias hfuzzy => exact absurd hfuzzy (hunmatched halias)
  | created _ _ _ _ halias hfuzzy => exact absurd hfuzzy (hunmatched halias)
  | clash _ _ halias hfuzzy => exact absurd hfuzzy (hunmatched halias)
  | known m' _ halias =>
    obtain ⟨hm', hlive', a', ha', howner', hname'⟩ := Database.selectByAlias_some halias
    rw [hupper] at hname'
    cases hs with
    | byAlias a _ _ ha hname howner =>
      have haa := hkeys.aliases a ha a' ha' (hname.trans hname'.symm)
      rw [Table.eq_of_key_eq hm' hm (show m'.id = m.id by rw [← howner', ← howner, haa])]
    | byName a _ _ _ ha hname howner =>
      have haa := hkeys.aliases a ha a' ha' (hname.trans hname'.symm)
      have hgone := howner m' hm' (by rw [← howner', haa])
      rw [hlive'] at hgone
      cases hgone
  | alike m' score _ _ halias hfuzzy _ =>
    cases hs with
    | byAlias a _ _ ha hname howner =>
      have hnot := Database.selectByAlias_none halias hm hlive ha howner
      rw [hupper] at hnot
      exact absurd hname hnot
    | byName a _ _ hname _ _ _ =>
      obtain ⟨score', m'', hbest, hexact⟩ :=
        bestFuzzyMatch_exact laws (mem_liveMerchants.mpr ⟨hm, hlive⟩) hname
      rw [hfuzzy] at hbest
      obtain ⟨-, rfl⟩ := Prod.mk.inj (Option.some.inj hbest)
      have hm' := (mem_liveMerchants.mp (bestFuzzyMatch_some hfuzzy).1).1
      rw [hkeys.names m hm m' hm' (hname.trans hexact.symm)]

end Dinero
