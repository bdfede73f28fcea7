import Dinero.Outcomes

/-!
# Dinero.Merchants

What the merchant normaliser answers, as a function of the database.

`Database.normalize` is the answer without the writes, and
`normalizedMerchant_quiet` says the program gives it.  The normaliser is asked
twice about a new canonical; `normalizedMerchant_again` says that the second
answer, if there is one, has the name of the first.
-/

namespace Dinero

open Sql

variable [Extern]

/-! ## the fuzzy match -/

/-- The best fuzzy match is one of the merchants, and it reaches the threshold. -/
theorem bestFuzzyMatch_some {cleaned : String} {merchants : List MerchantsRow} {score : ℚ}
    {m : MerchantsRow} (h : bestFuzzyMatch cleaned merchants = some (score, m)) :
    m ∈ merchants ∧ fuzzyMatchThreshold ≤ jaroWinkler cleaned m.normalizedName := by
  have hfold : ∀ (l : List MerchantsRow) (best : Option (ℚ × MerchantsRow)),
      l.foldl (fun best m =>
        let score := jaroWinkler cleaned m.normalizedName
        if fuzzyMatchThreshold ≤ score ∧ best.all (·.1 < score) then some (score, m) else best)
        best = some (score, m) →
      best = some (score, m) ∨
        (m ∈ l ∧ fuzzyMatchThreshold ≤ jaroWinkler cleaned m.normalizedName) := by
    intro l
    induction l with
    | nil => exact fun best h => .inl h
    | cons x l ih =>
      intro best h
      rcases ih _ h with hbest | ⟨hmem, hle⟩
      · simp only at hbest
        split at hbest
        · next hx =>
            obtain ⟨-, rfl⟩ := Prod.mk.inj (Option.some.inj hbest)
            exact .inr ⟨List.mem_cons_self, hx.1⟩
        · exact .inl hbest
      · exact .inr ⟨List.mem_cons_of_mem _ hmem, hle⟩
  rcases hfold merchants none h with hnone | hmem
  · simp at hnone
  · exact hmem

/-- Without a fuzzy match no merchant reaches the threshold. -/
theorem bestFuzzyMatch_none {cleaned : String} {merchants : List MerchantsRow}
    (h : bestFuzzyMatch cleaned merchants = none) {m : MerchantsRow} (hm : m ∈ merchants) :
    jaroWinkler cleaned m.normalizedName < fuzzyMatchThreshold := by
  have hfold : ∀ (l : List MerchantsRow) (best : Option (ℚ × MerchantsRow)),
      l.foldl (fun best m =>
        let score := jaroWinkler cleaned m.normalizedName
        if fuzzyMatchThreshold ≤ score ∧ best.all (·.1 < score) then some (score, m) else best)
        best = none →
      best = none ∧ ∀ m ∈ l, jaroWinkler cleaned m.normalizedName < fuzzyMatchThreshold := by
    intro l
    induction l with
    | nil => exact fun best h => ⟨h, by simp⟩
    | cons x l ih =>
      intro best h
      obtain ⟨hbest, hl⟩ := ih _ h
      simp only at hbest
      split at hbest
      · simp at hbest
      · next hx =>
          subst hbest
          refine ⟨rfl, fun m hm => ?_⟩
          cases hm with
          | head => simpa using hx
          | tail _ hm => exact hl m hm
  exact (hfold merchants none h).2 m hm

/-! ## the answer -/

/-- A merchant's id and name; an empty name comes to nothing. -/
def MerchantsRow.named (m : MerchantsRow) : Option (String × String) :=
  if m.normalizedName = "" then none else some (m.id, m.normalizedName)

/-- The merchants a fuzzy match chooses from. -/
def Database.liveMerchants (db : Database) : List MerchantsRow :=
  scan (db.merchants.rows.filter (!·.isDeleted))

/-- What the normaliser makes of a text.  A merchant it has to create gets the
`n`th id, unless its name was taken by a merchant since deleted. -/
def Database.normalize (db : Database) (n : Nat) (raw : String) : Option (String × String) :=
  let cleaned := stripNoiseTokens raw
  if cleaned = "" then none
  else match db.selectByAlias cleaned with
    | some m => m.named
    | none =>
      match bestFuzzyMatch cleaned db.liveMerchants with
      | some (_, m) => m.named
      | none =>
        if isPlausibleMerchantName cleaned = true ∧
            (∀ m ∈ db.merchants.rows, m.normalizedName ≠ cleaned) ∧
            db.merchants.contains (uuid n) = false then some (uuid n, cleaned)
        else none

/-- The normaliser's answer as post-processing takes it. -/
def answered : Except SqlError (String × String) → Option (String × String)
  | .ok (entityId, name) => if name = "" then none else some (entityId, name)
  | .error _ => none

theorem normalizedMerchant_some (raw : String) (ctx : Ctx Stmt) (s : Store Database) :
    normalizedMerchant (some raw) ctx s =
      (.ok (answered (normalizeMerchantSync raw ctx s).1), (normalizeMerchantSync raw ctx s).2) := by
  rw [normalizedMerchant, Eff.bind_apply, Eff.attempt_apply]
  cases (normalizeMerchantSync raw ctx s).1 <;> rfl

/-- The merchant the last resort creates. -/
def newMerchant (id raw cleaned : String) (now : Int) : MerchantsRow where
  id := id
  name := raw
  normalizedName := cleaned
  source := .system
  isDeleted := false
  createdAt := some now
  updatedAt := some now

omit [Extern] in
/-- When a merchant can be inserted. -/
theorem Database.insertMerchant_isOk {db : Database} {m : MerchantsRow} :
    (∃ db', db.insertMerchant m = .ok ((), db')) ↔
      (∀ x ∈ db.merchants.rows, x.normalizedName ≠ m.normalizedName) ∧
        db.merchants.contains m.id = false := by
  constructor
  · rintro ⟨db', h⟩
    obtain ⟨hnames, T, hT, -⟩ := Database.insertMerchant_eq_ok.mp h
    refine ⟨hnames, ?_⟩
    rw [Bool.eq_false_iff]
    intro hcontains
    obtain ⟨x, hx, hid⟩ := Table.contains_iff.mp hcontains
    exact (Table.insert?_eq_some.mp hT).1 x hx hid
  · rintro ⟨hnames, hid⟩
    cases hT : db.merchants.insert? m with
    | none =>
      have hcontains := Table.contains_iff.mpr (Table.insert?_eq_none.mp hT)
      exact absurd hcontains (by simpa [Keyed.key] using hid)
    | some T => exact ⟨_, Database.insertMerchant_eq_ok.mpr ⟨hnames, T, hT, rfl⟩⟩

/-- Creating a merchant: insert it, and learn the alias. -/
theorem createMerchant_quiet (raw cleaned : String) (now : Int) (s : Store Database) :
    createMerchant raw cleaned (.quiet now) s =
      match s.db.insertMerchant (newMerchant (uuid s.nextUuid) raw cleaned now) with
      | .ok (_, db) => (.ok (uuid s.nextUuid, cleaned),
          (learnAlias .insertAlias (uuid s.nextUuid) raw cleaned 1 (.quiet now)
            { s with db := db, nextUuid := s.nextUuid + 1 }).2)
      | .error e => (.error e, { s with nextUuid := s.nextUuid + 1 }) := by
  have hins : insertMerchant (newMerchant (uuid s.nextUuid) raw cleaned now) (.quiet now)
      { s with nextUuid := s.nextUuid + 1 } = _ := exec_quiet _ _ now _
  rw [createMerchant, Eff.bind_of_ok (newUuid_apply _ _ _), Eff.bind_of_ok (utcNow_apply _ _)]
  cases hdb : s.db.insertMerchant (newMerchant (uuid s.nextUuid) raw cleaned now) with
  | ok r =>
    simp only [hdb] at hins
    exact Eff.bind_of_ok hins
  | error e =>
    simp only [hdb] at hins
    exact Eff.bind_of_error hins

/-- The answer of the last resort. -/
theorem createMerchant_answered {raw cleaned : String} (hne : cleaned ≠ "") (now : Int)
    (s : Store Database) :
    answered (createMerchant raw cleaned (.quiet now) s).1 =
      if (∀ m ∈ s.db.merchants.rows, m.normalizedName ≠ cleaned) ∧
          s.db.merchants.contains (uuid s.nextUuid) = false then some (uuid s.nextUuid, cleaned)
      else none := by
  have hok : (∃ db', s.db.insertMerchant (newMerchant (uuid s.nextUuid) raw cleaned now) =
      .ok ((), db')) ↔ (∀ x ∈ s.db.merchants.rows, x.normalizedName ≠ cleaned) ∧
        s.db.merchants.contains (uuid s.nextUuid) = false := Database.insertMerchant_isOk
  rw [createMerchant_quiet]
  cases hins : s.db.insertMerchant (newMerchant (uuid s.nextUuid) raw cleaned now) with
  | ok r =>
    rw [if_pos (hok.mp ⟨r.2, hins⟩)]
    simp [answered, hne]
  | error e =>
    rw [if_neg fun h => ?_]
    · rfl
    · obtain ⟨db', h'⟩ := hok.mpr h
      rw [hins] at h'
      simp at h'

/-- The normaliser, with its queries answered. -/
theorem normalizeMerchantSync_quiet {raw : String} (hne : stripNoiseTokens raw ≠ "") (now : Int)
    (s : Store Database) :
    normalizeMerchantSync raw (.quiet now) s =
      match s.db.selectByAlias (stripNoiseTokens raw) with
      | some m => (.ok (m.id, m.normalizedName), s)
      | none =>
        match bestFuzzyMatch (stripNoiseTokens raw) s.db.liveMerchants with
        | some (score, m) => (.ok (m.id, m.normalizedName),
            (learnAlias .insertFuzzyAlias m.id raw (stripNoiseTokens raw) score (.quiet now) s).2)
        | none =>
          if isPlausibleMerchantName (stripNoiseTokens raw) then
            createMerchant raw (stripNoiseTokens raw) (.quiet now) s
          else (.ok ("", ""), s) := by
  simp only [normalizeMerchantSync, if_neg hne]
  rw [selectByAlias, Eff.bind_of_ok (query_quiet _ _ now s)]
  cases s.db.selectByAlias (stripNoiseTokens raw) with
  | some m => rfl
  | none =>
    simp only
    rw [selectAllMerchants, Eff.bind_of_ok (query_quiet _ _ now s)]
    simp only [Database.liveMerchants]
    cases bestFuzzyMatch (stripNoiseTokens raw)
        (scan (s.db.merchants.rows.filter (!·.isDeleted))) with
    | some best => rfl
    | none => simp only; split <;> rfl

/-- **The normaliser answers `normalize`**, as long as no statement fails by
itself. -/
theorem normalizeMerchantSync_answered (raw : String) (now : Int) (s : Store Database) :
    answered (normalizeMerchantSync raw (.quiet now) s).1 = s.db.normalize s.nextUuid raw := by
  simp only [Database.normalize]
  split
  · next hempty => simp [normalizeMerchantSync, answered, hempty]
  next hne =>
  rw [normalizeMerchantSync_quiet hne]
  cases s.db.selectByAlias (stripNoiseTokens raw) with
  | some m => rfl
  | none =>
    cases bestFuzzyMatch (stripNoiseTokens raw) s.db.liveMerchants with
    | some best => rfl
    | none =>
      by_cases hcandidate : isPlausibleMerchantName (stripNoiseTokens raw) = true
      · simp only [hcandidate, if_true, true_and]
        exact createMerchant_answered hne now s
      · simp [hcandidate, answered]

theorem normalizedMerchant_quiet (raw : Option String) (now : Int) (s : Store Database) :
    (normalizedMerchant raw (.quiet now) s).1 = .ok (raw.bind (s.db.normalize s.nextUuid)) := by
  cases raw with
  | none => rfl
  | some raw =>
    rw [normalizedMerchant_some, Option.bind_some, ← normalizeMerchantSync_answered raw now s]

/-! ## asking again -/

/-- The answer is a matter of the merchants and their aliases. -/
theorem Database.normalize_congr {db db' : Database} (hm : db'.merchants = db.merchants)
    (ha : db'.merchantAliases = db.merchantAliases) (n : Nat) (raw : String) :
    db'.normalize n raw = db.normalize n raw := by
  simp only [normalize, Database.selectByAlias, liveMerchants, hm, ha]

/-- The name does not depend on the id that is drawn. -/
theorem Database.normalize_draw {db : Database} {n k : Nat} {raw entityId name : String}
    (h : db.normalize n raw = some (entityId, name)) (hk : db.merchants.contains (uuid k) = false) :
    ∃ entityId', db.normalize k raw = some (entityId', name) := by
  simp only [normalize] at h ⊢
  split at h
  · simp at h
  next hne =>
  rw [if_neg hne]
  cases halias : db.selectByAlias (stripNoiseTokens raw) with
  | some m =>
    rw [halias] at h
    exact ⟨entityId, h⟩
  | none =>
    rw [halias] at h
    cases hfuzzy : bestFuzzyMatch (stripNoiseTokens raw) db.liveMerchants with
    | some best =>
      simp only [hfuzzy] at h
      exact ⟨entityId, h⟩
    | none =>
      simp only [hfuzzy] at h
      split at h
      · next hcreate =>
          obtain ⟨-, rfl⟩ := Prod.mk.inj (Option.some.inj h)
          exact ⟨uuid k, if_pos ⟨hcreate.1, hcreate.2.1, hk⟩⟩
      · simp at h

theorem Database.selectByAlias_some {db : Database} {name : String} {m : MerchantsRow}
    (h : db.selectByAlias name = some m) : m ∈ db.merchants ∧ m.isDeleted = false ∧
      ∃ a ∈ db.merchantAliases, a.merchantEntityId = m.id ∧ a.aliasNormalized = toUppercase name := by
  have hmem := List.mem_of_mem_head? h
  simpa [Table.mem_def, and_assoc] using hmem

theorem Database.selectByAlias_none {db : Database} {name : String}
    (h : db.selectByAlias name = none) {m : MerchantsRow} (hm : m ∈ db.merchants)
    (hlive : m.isDeleted = false) {a : MerchantAliasesRow} (ha : a ∈ db.merchantAliases)
    (hid : a.merchantEntityId = m.id) : a.aliasNormalized ≠ toUppercase name := by
  have hempty := List.head?_eq_none_iff.mp h
  intro hname
  have hmem : m ∈ scan (db.merchants.rows.filter fun m => !m.isDeleted &&
      db.merchantAliases.rows.any fun a =>
        a.merchantEntityId = m.id && a.aliasNormalized = toUppercase name) := by
    rw [mem_scan, List.mem_filter]
    exact ⟨hm, by simpa [hlive] using ⟨a, ha, hid, hname⟩⟩
  rw [hempty] at hmem
  simp at hmem

/-- No merchant comes or goes, and whoever has an alias had it before or is
the one named. -/
def LearnsAliasOf (id : String) (db db' : Database) : Prop :=
  db'.merchants = db.merchants ∧
    ∀ a ∈ db'.merchantAliases, a ∈ db.merchantAliases ∨ a.merchantEntityId = id

theorem learnAlias_aliasOf (site : Stmt) (id raw cleaned : String) (c : ℚ) (ctx : Ctx Stmt)
    (s : Store Database) :
    LearnsAliasOf id s.db (learnAlias site id raw cleaned c ctx s).2.db := by
  have hwithin : Within (LearnsAliasOf id) (learnAlias site id raw cleaned c) := by
    refine .bind (.newUuid _) fun _ => .bind .utcNow fun _ =>
      .bind (.attempt (.exec fun _ db _ db' h => ?_)) fun _ => .pure _
    unfold Database.insertAlias at h
    split at h
    · simp at h
    · obtain ⟨T, hT, -, rfl⟩ := insertInto_eq_ok.mp h
      refine ⟨rfl, fun a ha => ?_⟩
      rcases (Table.mem_of_insert? hT).mp ha with ha | rfl
      · exact .inl ha
      · exact .inr rfl
  refine hwithin.related (fun db => ⟨rfl, fun _ => .inl⟩) (fun x y z hxy hyz => ?_) ctx s
  refine ⟨hyz.1.trans hxy.1, fun a ha => ?_⟩
  rcases hyz.2 a ha with ha | ha
  · exact hxy.2 a ha
  · exact .inr ha

/-- What a run of the normaliser leaves for the next: its own answer, under an
alias it may have learned, or the merchant it created. -/
theorem normalize_after_alias {db db' : Database} {m : MerchantsRow} {n : Nat} {score : ℚ}
    {raw : String} (hne : stripNoiseTokens raw ≠ "")
    (halias : db.selectByAlias (stripNoiseTokens raw) = none)
    (hfuzzy : bestFuzzyMatch (stripNoiseTokens raw) db.liveMerchants = some (score, m))
    (h : LearnsAliasOf m.id db db') : db'.normalize n raw = m.named := by
  have hm : m ∈ db.merchants := by
    have := (bestFuzzyMatch_some hfuzzy).1
    rw [Database.liveMerchants, mem_scan, List.mem_filter] at this
    exact this.1
  have hlive : db'.liveMerchants = db.liveMerchants := by
    rw [Database.liveMerchants, h.1, Database.liveMerchants]
  simp only [Database.normalize, if_neg hne]
  cases halias' : db'.selectByAlias (stripNoiseTokens raw) with
  | none => rw [hlive, hfuzzy]
  | some m' =>
    obtain ⟨hm', hlive', a, ha, hid, hname⟩ := Database.selectByAlias_some halias'
    rw [h.1] at hm'
    rcases h.2 a ha with hold | hnew
    · exact absurd hname (Database.selectByAlias_none halias hm' hlive' hold hid)
    · have hsame : m' = m := Table.eq_of_key_eq hm' hm (hid.symm.trans hnew)
      rw [hsame]

/-- After a merchant was created for a text, the text has no other name. -/
theorem normalize_after_creation {db db₁ db' : Database} {m : MerchantsRow} {n : Nat}
    {raw entityId name : String} (hcleaned : m.normalizedName = stripNoiseTokens raw)
    (halias : db.selectByAlias (stripNoiseTokens raw) = none)
    (hfuzzy : bestFuzzyMatch (stripNoiseTokens raw) db.liveMerchants = none)
    (hins : db.insertMerchant m = .ok ((), db₁)) (h : LearnsAliasOf m.id db₁ db')
    (hagain : db'.normalize n raw = some (entityId, name)) : name = stripNoiseTokens raw := by
  obtain ⟨-, T, hT, rfl⟩ := Database.insertMerchant_eq_ok.mp hins
  have hmem : ∀ x ∈ db'.merchants, x ∈ db.merchants ∨ x = m := by
    intro x hx
    rw [h.1] at hx
    exact (Table.mem_of_insert? hT).mp hx
  -- a merchant's name is the cleaned text if it is the one just created
  have hnamed : ∀ x : MerchantsRow, x = m → x.named = some (entityId, name) →
      name = stripNoiseTokens raw := by
    rintro x rfl hx
    unfold MerchantsRow.named at hx
    split at hx
    · simp at hx
    · exact (Prod.mk.inj (Option.some.inj hx)).2.symm.trans hcleaned
  simp only [Database.normalize] at hagain
  split at hagain
  · simp at hagain
  cases halias' : db'.selectByAlias (stripNoiseTokens raw) with
  | some x =>
    rw [halias'] at hagain
    refine hnamed x ?_ hagain
    obtain ⟨hx, hlive, a, ha, hid, hname⟩ := Database.selectByAlias_some halias'
    rcases hmem x hx with hold | hnew
    · rcases h.2 a ha with hold' | hnew'
      · exact absurd hname (Database.selectByAlias_none halias hold hlive hold' hid)
      · -- the new alias names the new merchant, whose id no old one has
        exact absurd (hid.symm.trans hnew') ((Table.insert?_eq_some.mp hT).1 x hold)
    · exact hnew
  | none =>
    rw [halias'] at hagain
    cases hfuzzy' : bestFuzzyMatch (stripNoiseTokens raw) db'.liveMerchants with
    | some best =>
      obtain ⟨score, x⟩ := best
      simp only [hfuzzy'] at hagain
      refine hnamed x ?_ hagain
      obtain ⟨hx, hscore⟩ := bestFuzzyMatch_some hfuzzy'
      rw [Database.liveMerchants, mem_scan, List.mem_filter] at hx
      rcases hmem x hx.1 with hold | hnew
      · have hlow := bestFuzzyMatch_none hfuzzy (m := x) (by
          rw [Database.liveMerchants, mem_scan, List.mem_filter]
          exact ⟨hold, hx.2⟩)
        exact absurd hscore (not_le.mpr hlow)
      · exact hnew
    | none =>
      simp only [hfuzzy'] at hagain
      split at hagain
      · exact (Prod.mk.inj (Option.some.inj hagain)).2.symm
      · simp at hagain

/-- A draw names no merchant. -/
theorem Fresh.merchants {s : Store Database} (h : Fresh s) {n : Nat} (hn : s.nextUuid ≤ n) :
    s.db.merchants.contains (uuid n) = false := by
  rw [Bool.eq_false_iff]
  intro hcontains
  have hkey := Table.mem_keys.mpr (Table.contains_iff.mp hcontains)
  exact h.1 _ hn (Database.mem_rowIds.mpr (by simp [hkey]))

/-- **Asked again, the normaliser says no other name.** -/
theorem normalize_again {raw entityId name : String} {now : Int} {s : Store Database}
    (hfresh : Fresh s) {db : Database} {n : Nat}
    (hm : db.merchants = (normalizeMerchantSync raw (.quiet now) s).2.db.merchants)
    (ha : db.merchantAliases = (normalizeMerchantSync raw (.quiet now) s).2.db.merchantAliases)
    (hagain : db.normalize n raw = some (entityId, name)) :
    ∃ entityId', s.db.normalize s.nextUuid raw = some (entityId', name) := by
  have hid := hfresh.merchants (Nat.le_refl _)
  -- nothing was written: the second answer is the first
  have hsame : db.merchants = s.db.merchants → db.merchantAliases = s.db.merchantAliases →
      ∃ entityId', s.db.normalize s.nextUuid raw = some (entityId', name) := by
    intro hm ha
    rw [Database.normalize_congr hm ha] at hagain
    exact Database.normalize_draw hagain hid
  by_cases hne : stripNoiseTokens raw = ""
  · simp [Database.normalize, hne] at hagain
  rw [normalizeMerchantSync_quiet hne] at hm ha
  cases halias : s.db.selectByAlias (stripNoiseTokens raw) with
  | some m =>
    rw [halias] at hm ha
    exact hsame hm ha
  | none =>
    rw [halias] at hm ha
    cases hfuzzy : bestFuzzyMatch (stripNoiseTokens raw) s.db.liveMerchants with
    | some best =>
      obtain ⟨score, m⟩ := best
      simp only [hfuzzy] at hm ha
      have hlearn : LearnsAliasOf m.id s.db db := by
        rw [LearnsAliasOf, hm, ha]
        exact learnAlias_aliasOf _ _ _ _ _ _ s
      have hfirst : s.db.normalize s.nextUuid raw = m.named := by
        simp [Database.normalize, hne, halias, hfuzzy]
      rw [normalize_after_alias hne halias hfuzzy hlearn] at hagain
      exact ⟨entityId, hfirst.trans hagain⟩
    | none =>
      simp only [hfuzzy] at hm ha
      split at hm
      · next hcandidate =>
          rw [if_pos hcandidate] at ha
          rw [createMerchant_quiet] at hm ha
          cases hins : s.db.insertMerchant (newMerchant (uuid s.nextUuid) raw
              (stripNoiseTokens raw) now) with
          | error e =>
            rw [hins] at hm ha
            exact hsame hm ha
          | ok r =>
            rw [hins] at hm ha
            have hlearn : LearnsAliasOf (uuid s.nextUuid) r.2 db := by
              rw [LearnsAliasOf, hm, ha]
              exact learnAlias_aliasOf _ _ _ _ _ _ { s with db := r.2, nextUuid := s.nextUuid + 1 }
            have hcleaned : (newMerchant (uuid s.nextUuid) raw (stripNoiseTokens raw)
                now).normalizedName = stripNoiseTokens raw := rfl
            have hname := normalize_after_creation hcleaned halias hfuzzy hins hlearn hagain
            have hnames := (Database.insertMerchant_isOk.mp ⟨r.2, hins⟩).1
            refine ⟨uuid s.nextUuid, ?_⟩
            simp only [Database.normalize, if_neg hne, halias, hfuzzy]
            rw [if_pos ⟨hcandidate, hnames, hid⟩, hname]
      · next hcandidate =>
          rw [if_neg hcandidate] at ha
          exact hsame hm ha

/-! ## the entity -/

/-- The merchant a text resolves to, by its id; an empty id comes to nothing. -/
def Database.merchantEntity (db : Database) (n : Nat) (raw : String) : Option String :=
  let cleaned := stripNoiseTokens raw
  if cleaned = "" then none
  else
    (match db.selectByAlias cleaned with
    | some m => some m.id
    | none =>
      match bestFuzzyMatch cleaned db.liveMerchants with
      | some (_, m) => some m.id
      | none =>
        if isPlausibleMerchantName cleaned = true ∧
            (∀ m ∈ db.merchants.rows, m.normalizedName ≠ cleaned) ∧
            db.merchants.contains (uuid n) = false then some (uuid n)
        else none).filter (· ≠ "")

/-- `normalize_merchant_sync(..).ok()`, by the id. -/
def entityOf (answer : Except SqlError (String × String)) : Option String :=
  (answer.toOption.map (·.1)).filter (· ≠ "")

/-- What a run of the normaliser comes to. -/
inductive NormalizerRun (raw : String) (s : Store Database) : Option String → Database → Prop
  | nothing (hempty : stripNoiseTokens raw = "") : NormalizerRun raw s none s.db
  | known (m : MerchantsRow) (hne : stripNoiseTokens raw ≠ "")
      (halias : s.db.selectByAlias (stripNoiseTokens raw) = some m) :
      NormalizerRun raw s (some m.id) s.db
  | alike (m : MerchantsRow) (score : ℚ) (db : Database) (hne : stripNoiseTokens raw ≠ "")
      (halias : s.db.selectByAlias (stripNoiseTokens raw) = none)
      (hfuzzy : bestFuzzyMatch (stripNoiseTokens raw) s.db.liveMerchants = some (score, m))
      (hlearn : LearnsAliasOf m.id s.db db) : NormalizerRun raw s (some m.id) db
  | created (m : MerchantsRow) (db₁ db : Database) (hne : stripNoiseTokens raw ≠ "")
      (halias : s.db.selectByAlias (stripNoiseTokens raw) = none)
      (hfuzzy : bestFuzzyMatch (stripNoiseTokens raw) s.db.liveMerchants = none)
      (hcandidate : isPlausibleMerchantName (stripNoiseTokens raw) = true)
      (hid : m.id = uuid s.nextUuid) (hname : m.normalizedName = stripNoiseTokens raw)
      (hlive : m.isDeleted = false) (hins : s.db.insertMerchant m = .ok ((), db₁))
      (hlearn : LearnsAliasOf m.id db₁ db) : NormalizerRun raw s (some m.id) db
  | refused (hne : stripNoiseTokens raw ≠ "")
      (halias : s.db.selectByAlias (stripNoiseTokens raw) = none)
      (hfuzzy : bestFuzzyMatch (stripNoiseTokens raw) s.db.liveMerchants = none)
      (hnot : ¬ (isPlausibleMerchantName (stripNoiseTokens raw) = true ∧
        (∀ m ∈ s.db.merchants.rows, m.normalizedName ≠ stripNoiseTokens raw) ∧
        s.db.merchants.contains (uuid s.nextUuid) = false)) : NormalizerRun raw s none s.db

/-- **Whatever the normaliser does, it is one of these.** -/
theorem normalizerRun (raw : String) (now : Int) (s : Store Database) :
    ∃ answer, entityOf (normalizeMerchantSync raw (.quiet now) s).1 = answer.filter (· ≠ "") ∧
      NormalizerRun raw s answer (normalizeMerchantSync raw (.quiet now) s).2.db := by
  by_cases hne : stripNoiseTokens raw = ""
  · refine ⟨none, ?_, ?_⟩
    · simp [normalizeMerchantSync, hne, entityOf, Except.toOption]
    · simp only [normalizeMerchantSync, if_pos hne]
      exact .nothing hne
  rw [normalizeMerchantSync_quiet hne]
  cases halias : s.db.selectByAlias (stripNoiseTokens raw) with
  | some m => exact ⟨some m.id, rfl, .known m hne halias⟩
  | none =>
    cases hfuzzy : bestFuzzyMatch (stripNoiseTokens raw) s.db.liveMerchants with
    | some best =>
      obtain ⟨score, m⟩ := best
      exact ⟨some m.id, rfl, .alike m score _ hne halias hfuzzy (learnAlias_aliasOf _ _ _ _ _ _ s)⟩
    | none =>
      dsimp only
      by_cases hcandidate : isPlausibleMerchantName (stripNoiseTokens raw) = true
      · rw [if_pos hcandidate, createMerchant_quiet]
        cases hins : s.db.insertMerchant (newMerchant (uuid s.nextUuid) raw
            (stripNoiseTokens raw) now) with
        | ok r =>
          have hlearn := learnAlias_aliasOf .insertAlias (uuid s.nextUuid) raw
            (stripNoiseTokens raw) 1 (.quiet now) { s with db := r.2, nextUuid := s.nextUuid + 1 }
          exact ⟨some (uuid s.nextUuid), rfl, .created
            (newMerchant (uuid s.nextUuid) raw (stripNoiseTokens raw) now) r.2 _ hne halias hfuzzy
            hcandidate rfl rfl rfl hins hlearn⟩
        | error e =>
          refine ⟨none, rfl, .refused hne halias hfuzzy ?_⟩
          rintro ⟨-, hfree⟩
          obtain ⟨db', hok⟩ := Database.insertMerchant_isOk (m := newMerchant (uuid s.nextUuid) raw
            (stripNoiseTokens raw) now).mpr hfree
          rw [hins] at hok
          cases hok
      · rw [if_neg hcandidate]
        exact ⟨none, rfl, .refused hne halias hfuzzy fun h => hcandidate h.1⟩

/-- The answer of a run. -/
theorem NormalizerRun.merchantEntity_eq {raw : String} {s : Store Database}
    {answer : Option String} {db : Database} (h : NormalizerRun raw s answer db) :
    s.db.merchantEntity s.nextUuid raw = answer.filter (· ≠ "") := by
  unfold Database.merchantEntity
  cases h with
  | nothing hempty => simp [hempty]
  | known m hne halias => simp [hne, halias]
  | alike m score db hne halias hfuzzy hlearn => simp [hne, halias, hfuzzy]
  | created m db₁ db hne halias hfuzzy hcandidate hid hname hlive hins hlearn =>
    have hfree := Database.insertMerchant_isOk.mp ⟨db₁, hins⟩
    rw [hname, hid] at hfree
    simp only [if_neg hne, halias, hfuzzy]
    rw [if_pos ⟨hcandidate, hfree⟩, hid]
  | refused hne halias hfuzzy hnot =>
    simp only [if_neg hne, halias, hfuzzy]
    rw [if_neg hnot]

/-- The merchant of an answer is in the table. -/
theorem NormalizerRun.contains {raw : String} {s : Store Database} {answer : Option String}
    {db : Database} (h : NormalizerRun raw s answer db) {m : String} (hm : answer = some m) :
    db.merchants.contains m = true := by
  rw [Table.contains_iff]
  cases h with
  | nothing hempty => cases hm
  | known x hne halias =>
    cases hm
    exact ⟨x, (Database.selectByAlias_some halias).1, rfl⟩
  | alike x score db hne halias hfuzzy hlearn =>
    cases hm
    have hx := (bestFuzzyMatch_some hfuzzy).1
    rw [Database.liveMerchants, mem_scan, List.mem_filter] at hx
    exact ⟨x, hlearn.1 ▸ hx.1, rfl⟩
  | created x db₁ db hne halias hfuzzy hcandidate hid hname hlive hins hlearn =>
    cases hm
    obtain ⟨-, T, hT, rfl⟩ := Database.insertMerchant_eq_ok.mp hins
    refine ⟨x, ?_, rfl⟩
    rw [hlearn.1]
    exact (Table.mem_of_insert? hT).mpr (.inr rfl)
  | refused hne halias hfuzzy hnot => cases hm

omit [Extern] in
theorem fuzzyMatchThreshold_le_one : fuzzyMatchThreshold ≤ 1 := by
  unfold fuzzyMatchThreshold
  norm_num

/-- **Asked again, the normaliser names the same merchant**, as long as a text
is like itself. -/
theorem NormalizerRun.again {raw : String} {s : Store Database} {answer : Option String}
    {db db' : Database} (h : NormalizerRun raw s answer db)
    (hself : ∀ a : String, jaroWinkler a a = 1) {n : Nat}
    (hfree : s.db.merchants.contains (uuid s.nextUuid) = false)
    (hm : db'.merchants = db.merchants) (ha : db'.merchantAliases = db.merchantAliases) :
    db'.merchantEntity n raw = answer.filter (· ≠ "") := by
  have hselect : ∀ name, db'.selectByAlias name = db.selectByAlias name := by
    intro name
    simp only [Database.selectByAlias, hm, ha]
  have hlive : db'.liveMerchants = db.liveMerchants := by
    simp only [Database.liveMerchants, hm]
  unfold Database.merchantEntity
  cases h with
  | nothing hempty => simp [hempty]
  | known m hne halias => simp [hne, hselect, halias]
  | alike m score db hne halias hfuzzy hlearn =>
    have hlive' : db.liveMerchants = s.db.liveMerchants := by
      simp only [Database.liveMerchants, hlearn.1]
    simp only [if_neg hne, hselect, hlive, hlive', hfuzzy]
    cases halias' : db.selectByAlias (stripNoiseTokens raw) with
    | none => rfl
    | some x =>
      obtain ⟨hx, hxlive, a, hain, hid, hname⟩ := Database.selectByAlias_some halias'
      rw [hlearn.1] at hx
      have hmem := (bestFuzzyMatch_some hfuzzy).1
      rw [Database.liveMerchants, mem_scan, List.mem_filter] at hmem
      rcases hlearn.2 a hain with hold | hnew
      · exact absurd hname (Database.selectByAlias_none halias hx hxlive hold hid)
      · rw [Table.eq_of_key_eq hx hmem.1 (hid.symm.trans hnew)]
  | created m db₁ db hne halias hfuzzy hcandidate hid hname hmlive hins hlearn =>
    obtain ⟨-, T, hT, rfl⟩ := Database.insertMerchant_eq_ok.mp hins
    have hmem : ∀ x, x ∈ db.merchants ↔ x ∈ s.db.merchants ∨ x = m := by
      intro x
      rw [hlearn.1]
      exact Table.mem_of_insert? hT
    simp only [if_neg hne, hselect, hlive]
    cases halias' : db.selectByAlias (stripNoiseTokens raw) with
    | some x =>
      obtain ⟨hx, hxlive, a, hain, hidx, haname⟩ := Database.selectByAlias_some halias'
      rcases (hmem x).mp hx with hold | rfl
      · rcases hlearn.2 a hain with hold' | hnew'
        · exact absurd haname (Database.selectByAlias_none halias hold hxlive hold' hidx)
        · exact absurd (hidx.symm.trans hnew') ((Table.insert?_eq_some.mp hT).1 x hold)
      · rfl
    | none =>
      have hnew : m ∈ db.liveMerchants := by
        rw [Database.liveMerchants, mem_scan, List.mem_filter]
        exact ⟨(hmem m).mpr (.inr rfl), by rw [hmlive]; rfl⟩
      have hscore : fuzzyMatchThreshold ≤ jaroWinkler (stripNoiseTokens raw) m.normalizedName := by
        rw [hname, hself]
        exact fuzzyMatchThreshold_le_one
      cases hfuzzy' : bestFuzzyMatch (stripNoiseTokens raw) db.liveMerchants with
      | none => exact absurd hscore (not_le.mpr (bestFuzzyMatch_none hfuzzy' hnew))
      | some best =>
        obtain ⟨score, x⟩ := best
        obtain ⟨hx, hxscore⟩ := bestFuzzyMatch_some hfuzzy'
        rw [Database.liveMerchants, mem_scan, List.mem_filter] at hx
        rcases (hmem x).mp hx.1 with hold | rfl
        · have hlow := bestFuzzyMatch_none hfuzzy (m := x) (by
            rw [Database.liveMerchants, mem_scan, List.mem_filter]
            exact ⟨hold, hx.2⟩)
          exact absurd hxscore (not_le.mpr hlow)
        · rfl
  | refused hne halias hfuzzy hnot =>
    simp only [if_neg hne, hselect, hlive, halias, hfuzzy]
    rw [if_neg]
    rintro ⟨hcandidate, hnames, -⟩
    rw [hm] at hnames
    exact hnot ⟨hcandidate, hnames, hfree⟩

end Dinero
