import Dinero.Resolver
import Dinero.Undo

/-!
# Dinero.MerchantRuns

The merchants over whole runs: names are resolved, merchants deleted, cleaned
up and corrected.

Every event keeps the keys of the two tables; `resolution_lasts` adds what the
resolver does when no deleted merchant is in its way.
-/

namespace Dinero

open Sql

/-! ## merchants that go -/

/-- The columns `soft_delete` sets. -/
def softDeletePatch (now : Int) : Patch MerchantsRow where
  run m := { m with isDeleted := true, updatedAt := some now }
  key_run _ := rfl

/-- Soft-delete a merchant, preserving the transactions that reference it. -/
def softDelete (id : String) : CleanupProg Unit :=
  onDb fun now db =>
    .ok ((), { db with merchants := db.merchants.modify id (softDeletePatch now) })

/-- Removes an alias. -/
def deleteAlias (id : String) : CleanupProg Unit :=
  onDb fun _ db => .ok ((), { db with merchantAliases := db.merchantAliases.keep (·.id ≠ id) })

def deleteAliases : List MerchantAliasesRow → CleanupProg Unit
  | [] => return ()
  | a :: rest => do
    deleteAlias a.id
    deleteAliases rest

section Events

variable [Extern]

/-- The loop of `cleanup_merchants`; without `apply` it only reports. -/
def removeUnlikely (apply : Bool) : List MerchantsRow → CleanupProg (List (String × String))
  | [] => return []
  | m :: rest =>
    if m.source ≠ .system then removeUnlikely apply rest
    else if isPlausibleMerchantName m.normalizedName then removeUnlikely apply rest
    else do
      if apply then
        let aliases ← fetch fun b =>
          scan (b.db.merchantAliases.rows.filter (·.merchantEntityId = m.id))
        deleteAliases aliases
        softDelete m.id
      let removed ← removeUnlikely apply rest
      return (m.id, m.normalizedName) :: removed

/-- The command-line pass over the live merchants. -/
def cleanupMerchants (apply : Bool) : CleanupProg (List (String × String)) := do
  let all ← fetch (·.db.liveMerchants)
  removeUnlikely apply all

/-- `normalize_merchant_sync`, beside the other tables. -/
def resolveName (raw : String) : Prog Stmt Cleanup (String × String) :=
  zoom (·.db) (fun db b => { b with db := db }) (normalizeMerchantSync raw)

inductive MerchantEvent
  | normalize (raw : String)
  | softDelete (id : String)
  | cleanupMerchants (apply : Bool)
  | applyCorrection (runId : String) (c : CleanupCandidate) (r : MerchantResolution)
  | revertCorrection (correctionId : String)
  | revertRun (runId : String)

/-- No deleted merchant is in the way of a name that is resolved. -/
def MerchantEvent.Sound (s : Store Cleanup) : MerchantEvent → Prop
  | .normalize raw => s.db.db.ResolvesSoundly raw
  | _ => True

instance decidableMerchantSound (s : Store Cleanup) : (e : MerchantEvent) → Decidable (e.Sound s)
  | .normalize raw => inferInstanceAs (Decidable (s.db.db.ResolvesSoundly raw))
  | .softDelete _ | .cleanupMerchants _ | .applyCorrection .. | .revertCorrection _ |
    .revertRun _ => isTrue trivial

variable [RuleLibraries]

def MerchantEvent.run (now : Int) (s : Store Cleanup) : MerchantEvent → Store Cleanup
  | .normalize raw => (resolveName raw (.quiet now) s).2
  | .softDelete id => (Dinero.softDelete id (.quiet now) s).2
  | .cleanupMerchants apply => (Dinero.cleanupMerchants apply (.quiet now) s).2
  | .applyCorrection runId c r => (Dinero.applyCorrection runId c r (.quiet now) s).2
  | .revertCorrection correctionId => (Dinero.revertCorrection correctionId (.quiet now) s).2
  | .revertRun runId => (Dinero.revertRun runId (.quiet now) s).2

/-- Events one after the other, each at its time. -/
def runMerchants (s : Store Cleanup) (es : List (Int × MerchantEvent)) : Store Cleanup :=
  es.foldl (fun s e => e.2.run e.1 s) s

end Events

/-! ## keys -/

section Keys

variable [Extern] {ι : Type} {ids : List String}

namespace CleanupKeys

open Keeps

/-- The keys of the ledger in the cleanup's tables. -/
abbrev Kept (ids : List String) (b : Cleanup) (n : Nat) : Prop := KeysWith ids b.db n

theorem fetch (f : Cleanup → α) : Keeps (Kept ids) (Sql.fetch f : CleanupProg α) :=
  Keeps.update fun _ _ _ _ _ hI h => by
    obtain ⟨-, rfl⟩ := Prod.mk.inj (Except.ok.inj h)
    exact hI

theorem onDb {f : Int → Database → Except SqlError (α × Database)}
    (h : ∀ now n db a db', KeysWith ids db n → f now db = .ok (a, db') → db'.MerchantKeys n) :
    Keeps (Kept ids) (Dinero.onDb f) := by
  refine Keeps.update fun now n b a b' hI hf => ?_
  cases hdb : f now b.db with
  | error e =>
    rw [hdb] at hf
    cases hf
  | ok r =>
    obtain ⟨a', db'⟩ := r
    rw [hdb] at hf
    obtain ⟨-, rfl⟩ := Prod.mk.inj (Except.ok.inj hf)
    exact ⟨h now n b.db a' db' hI hdb, hI.2⟩

/-- The other tables are none of it. -/
theorem writeOr {error : SqlError} {f : Int → Cleanup → Option Cleanup}
    (h : ∀ now b b', f now b = some b' → b'.db = b.db) :
    Keeps (Kept ids) (Dinero.writeOr error f) := by
  refine Keeps.update fun now n b a b' hI hf => ?_
  cases hb : f now b with
  | none =>
    rw [hb] at hf
    cases hf
  | some b₁ =>
    rw [hb] at hf
    obtain ⟨-, rfl⟩ := Prod.mk.inj (Except.ok.inj hf)
    rw [Kept, h now b b₁ hb]
    exact hI

/-! ## deletions -/

theorem softDelete (id : String) : Keeps (Kept ids) (Dinero.softDelete id) :=
  onDb fun now n db a db' hI h => by
    obtain ⟨-, rfl⟩ := Prod.mk.inj (Except.ok.inj h)
    exact hI.1.modify (u := softDeletePatch now) (fun _ => rfl) rfl rfl

theorem deleteAliases (aliases : List MerchantAliasesRow) :
    Keeps (Kept ids) (Dinero.deleteAliases aliases) := by
  induction aliases with
  | nil => exact pure _
  | cons a rest ih =>
    refine bind (onDb fun now n db x db' hI h => ?_) fun _ => ih
    obtain ⟨-, rfl⟩ := Prod.mk.inj (Except.ok.inj h)
    exact hI.1.keep _

theorem removeUnlikely (apply : Bool) (all : List MerchantsRow) :
    Keeps (Kept ids) (Dinero.removeUnlikely apply all) := by
  induction all with
  | nil => exact pure _
  | cons m rest ih =>
    unfold Dinero.removeUnlikely
    split
    · exact ih
    split
    · exact ih
    cases apply with
    | true =>
      exact bind (fetch _) fun aliases => bind (deleteAliases aliases) fun _ =>
        bind (softDelete m.id) fun _ => bind ih fun _ => pure _
    | false => exact bind ih fun _ => pure _

theorem cleanupMerchants (apply : Bool) : Keeps (Kept ids) (Dinero.cleanupMerchants apply) :=
  bind (fetch _) fun all => removeUnlikely apply all

/-! ## corrections -/

theorem upsertAlias (merchantId raw normalized : String) (c : ℚ) :
    Keeps (Kept ids) (Dinero.upsertAlias merchantId raw normalized c) := by
  refine keysWith_newUuid_bind (p := Cleanup.db) fun aliasId => onDb fun now n db a db' hI h => ?_
  exact hI.1.upsertAlias (hI.2 aliasId List.mem_cons_self) h

theorem upsertAliases (merchantId : String) (c : ℚ) (aliases : List (String × String)) :
    Keeps (Kept ids) (Dinero.upsertAliases merchantId c aliases) := by
  induction aliases with
  | nil => exact pure _
  | cons a rest ih => exact bind (upsertAlias _ _ _ _) fun _ => ih

theorem resolveCanonicalMerchant (name : String) :
    Keeps (Kept ids) (Dinero.resolveCanonicalMerchant name) := by
  simp only [Dinero.resolveCanonicalMerchant]
  split
  · exact fail _
  · refine bind (fetch _) fun found => ?_
    cases found with
    | some merchantId =>
      refine bind (onDb fun now n db a db' hI h => ?_) fun _ => pure _
      obtain ⟨-, rfl⟩ := Prod.mk.inj (Except.ok.inj h)
      exact hI.1.modify (u := renamePatch name now) (fun _ => rfl) rfl rfl
    | none =>
      refine keysWith_newUuid_bind (p := Cleanup.db) fun entityId =>
        bind (onDb fun now n db a db' hI h => ?_) fun _ => pure _
      exact hI.1.insertMerchant (hI.2 entityId List.mem_cons_self) h

theorem updateTransaction (id : String) (u : Int → Patch TransactionsRow) :
    Keeps (Kept ids) (Dinero.onDb fun now db => .ok ((), db.updateTransaction id (u now))) :=
  onDb fun now n db a db' hI h => by
    obtain ⟨-, rfl⟩ := Prod.mk.inj (Except.ok.inj h)
    exact hI.1.of_eq rfl rfl

theorem getOrCreateParent (bankName fieldName sourceType : String) :
    Keeps (Kept ids) (Dinero.getOrCreateParent bankName fieldName sourceType) := by
  refine bind (fetch _) fun found => ?_
  cases found with
  | some parent => exact pure _
  | none =>
    refine keysWith_newUuid_bind (p := Cleanup.db) fun id => bind (writeOr ?_) fun _ => pure _
    intro _ b b' h
    obtain ⟨T, -, rfl⟩ := Option.map_eq_some_iff.mp h
    rfl

theorem insertChangeLog (variantId : Option String) (action : String)
    (old new feedbackLogId : Option String) (reason : String) :
    Keeps (Kept ids) (Dinero.insertChangeLog variantId action old new feedbackLogId reason) := by
  refine keysWith_newUuid_bind (p := Cleanup.db) fun id => writeOr fun _ b b' h => ?_
  obtain ⟨T, -, rfl⟩ := Option.map_eq_some_iff.mp h
  rfl

variable [RuleLibraries]

theorem upsertVariant (v : FieldRuleVariant) (feedbackLogId : Option String) :
    Keeps (Kept ids) (Dinero.upsertVariant v feedbackLogId) := by
  refine bind (getOrCreateParent _ _ _) fun parentId => bind (fetch _) fun found => ?_
  cases found with
  | some existing =>
    refine bind (writeOr fun _ b b' h => ?_) fun _ => bind (insertChangeLog _ _ _ _ _ _) fun _ =>
      pure _
    obtain ⟨T, -, rfl⟩ := Option.map_eq_some_iff.mp h
    rfl
  | none =>
    refine bind (writeOr fun _ b b' h => ?_) fun _ => bind (insertChangeLog _ _ _ _ _ _) fun _ =>
      pure _
    obtain ⟨T, -, rfl⟩ := Option.map_eq_some_iff.mp h
    rfl

theorem learnRule (c : CleanupCandidate) (r : MerchantResolution) :
    Keeps (Kept ids) (Dinero.learnRule c r) := by
  unfold Dinero.learnRule
  split
  · exact pure _
  · refine keysWith_newUuid_bind (p := Cleanup.db) fun id =>
      bind (attempt (upsertVariant _ _)) fun learned => ?_
    cases learned with
    | ok ruleId => exact pure _
    | error e => exact pure _

omit [RuleLibraries] in
theorem insertCorrection (k : MerchantLlmCorrectionsRow) :
    Keeps (Kept ids) (Dinero.insertCorrection k) := by
  refine Keeps.update fun _ n b a b' hI h => ?_
  split at h
  · cases h
  · split at h
    · obtain ⟨-, rfl⟩ := Prod.mk.inj (Except.ok.inj h)
      exact hI
    · cases h

theorem applyCorrection (runId : String) (c : CleanupCandidate) (r : MerchantResolution) :
    Keeps (Kept ids) (Dinero.applyCorrection runId c r) := by
  unfold Dinero.applyCorrection
  have hresolve : Keeps (Kept ids) (Dinero.resolveCanonicalMerchant r.merchantName) :=
    resolveCanonicalMerchant r.merchantName
  refine Keeps.bind hresolve fun resolved => ?_
  obtain ⟨merchantId, normalized⟩ := resolved
  dsimp only
  refine bind (upsertAliases _ _ _) fun _ => bind (fetch _) fun newCategoryId =>
    bind (learnRule c r) fun learnedRuleId => ?_
  exact keysWith_newUuid_bind (p := Cleanup.db) fun id => bind (insertCorrection _) fun _ =>
    updateTransaction _ _

theorem revertRule (id reason : String) : Keeps (Kept ids) (Dinero.revertRule id reason) := by
  refine bind (fetch _) fun found => ?_
  cases found with
  | none => exact fail _
  | some v =>
    refine bind (writeOr fun _ b b' h => ?_) fun _ => insertChangeLog _ _ _ _ _ _
    obtain ⟨T, -, rfl⟩ := Option.map_eq_some_iff.mp h
    rfl

theorem retireLearned (ruleId : Option String) :
    Keeps (Kept ids) (Dinero.retireLearned ruleId) := by
  cases ruleId with
  | none => exact pure _
  | some id => exact bind (attempt (revertRule _ _)) fun _ => pure _

theorem revertCorrection (correctionId : String) :
    Keeps (Kept ids) (Dinero.revertCorrection correctionId) := by
  refine bind (fetch _) fun found => ?_
  cases found with
  | none => exact fail _
  | some k =>
    refine bind (updateTransaction _ _) fun _ => bind (retireLearned _) fun _ =>
      Keeps.update fun _ n b a b' hI h => ?_
    obtain ⟨-, rfl⟩ := Prod.mk.inj (Except.ok.inj h)
    exact hI

theorem revertAll (corrections : List String) :
    Keeps (Kept ids) (Dinero.revertAll corrections) := by
  induction corrections with
  | nil => exact pure _
  | cons id rest ih => exact bind (revertCorrection id) fun _ => bind ih fun _ => pure _

theorem revertRun (runId : String) : Keeps (Kept ids) (Dinero.revertRun runId) :=
  bind (fetch _) fun corrections => revertAll corrections

end CleanupKeys

omit [Extern] in
theorem zoom_apply {σ τ : Type} (get : σ → τ) (set : τ → σ → σ) (x : Prog ι τ α) (ctx : Ctx ι)
    (s : Store σ) : zoom get set x ctx s = ((x ctx ⟨get s.db, s.nextUuid, s.skip⟩).1,
      ⟨set (x ctx ⟨get s.db, s.nextUuid, s.skip⟩).2.db s.db,
        (x ctx ⟨get s.db, s.nextUuid, s.skip⟩).2.nextUuid,
        (x ctx ⟨get s.db, s.nextUuid, s.skip⟩).2.skip⟩) := rfl

theorem resolveName_keys (raw : String) : Keeps (CleanupKeys.Kept ids) (resolveName raw) := by
  intro ctx s h
  have hkeys := NormalizerKeys.normalizeMerchantSync raw ctx ⟨s.db.db, s.nextUuid, s.skip⟩ h
  rw [resolveName, zoom_apply]
  generalize normalizeMerchantSync raw ctx ⟨s.db.db, s.nextUuid, s.skip⟩ = run at hkeys ⊢
  exact hkeys

end Keys

section Runs

variable [Extern] [RuleLibraries]

theorem MerchantEvent.run_keys {s : Store Cleanup} (h : s.db.db.MerchantKeys s.nextUuid)
    (now : Int) (e : MerchantEvent) : (e.run now s).db.db.MerchantKeys (e.run now s).nextUuid := by
  have hstart : CleanupKeys.Kept [] s.db s.nextUuid := ⟨h, by simp⟩
  have hdone : CleanupKeys.Kept [] (e.run now s).db (e.run now s).nextUuid := by
    cases e <;> rw [MerchantEvent.run]
    case normalize raw => exact resolveName_keys raw (.quiet now) s hstart
    case softDelete id => exact CleanupKeys.softDelete id (.quiet now) s hstart
    case cleanupMerchants apply => exact CleanupKeys.cleanupMerchants apply (.quiet now) s hstart
    case applyCorrection runId c r =>
      exact CleanupKeys.applyCorrection runId c r (.quiet now) s hstart
    case revertCorrection id => exact CleanupKeys.revertCorrection id (.quiet now) s hstart
    case revertRun runId => exact CleanupKeys.revertRun runId (.quiet now) s hstart
  exact hdone.1

theorem runMerchants_keys {s : Store Cleanup} (h : s.db.db.MerchantKeys s.nextUuid)
    (es : List (Int × MerchantEvent)) :
    (runMerchants s es).db.db.MerchantKeys (runMerchants s es).nextUuid := by
  induction es generalizing s with
  | nil => exact h
  | cons e es ih => exact ih (e.2.run_keys h e.1)

omit [RuleLibraries] in
/-- What a call of the normaliser comes to, beside the other tables. -/
theorem resolveName_step {s : Store Cleanup} (h : s.db.db.MerchantKeys s.nextUuid) (raw : String)
    (now : Int) :
    NormalizerStep raw ⟨s.db.db, s.nextUuid, s.skip⟩ (resolveName raw (.quiet now) s).1
      (resolveName raw (.quiet now) s).2.db.db := by
  have hstep := normalizerStep (s := ⟨s.db.db, s.nextUuid, s.skip⟩) h raw now
  rw [resolveName, zoom_apply]
  generalize normalizeMerchantSync raw (.quiet now) ⟨s.db.db, s.nextUuid, s.skip⟩ = run at hstep ⊢
  exact hstep

/-- Names are resolved, and nothing else. -/
def Lookups (es : List (Int × MerchantEvent)) : Prop := ∀ e ∈ es, ∃ raw, e.2 = .normalize raw

/-- Other names leave what is settled. -/
theorem Lookups.settled {s : Store Cleanup} (h : s.db.db.MerchantKeys s.nextUuid)
    {es : List (Int × MerchantEvent)} (hes : Lookups es) {cleaned : String} {m : MerchantsRow}
    (hs : s.db.db.Settles cleaned m) : (runMerchants s es).db.db.Settles cleaned m := by
  induction es generalizing s with
  | nil => exact hs
  | cons e es ih =>
    obtain ⟨raw, hraw⟩ := hes e List.mem_cons_self
    refine ih (e.2.run_keys h e.1) (fun e' he' => hes e' (List.mem_cons_of_mem _ he')) ?_
    show (e.2.run e.1 s).db.db.Settles cleaned m
    rw [hraw]
    exact hs.grow h (resolveName_step h raw e.1).grows

/-- **A name once resolved stays resolved.**  In every run in which no deleted merchant is in the
way of a name, the resolver always answers; the merchant it answers is there, and it is the answer
to the same name for as long as names are only resolved. -/
theorem resolution_lasts (laws : TextLaws) {s : Store Cleanup}
    (h : s.db.db.MerchantKeys s.nextUuid) {es : List (Int × MerchantEvent)}
    (hsound : Runs.Guarded (fun s e => e.2.run e.1 s) (fun s e => e.2.Sound s) s es) :
    ∀ pre now raw, pre ++ [(now, .normalize raw)] <+: es →
      ∃ id name, (resolveName raw (.quiet now) (runMerchants s pre)).1 = .ok (id, name) ∧
        (id ≠ "" →
          (∃ m ∈ (runMerchants s (pre ++ [(now, .normalize raw)])).db.db.merchants,
            m.id = id ∧ m.isDeleted = false) ∧
          ∀ others, Lookups others → ∀ now',
            (resolveName raw (.quiet now')
              (runMerchants s (pre ++ [(now, .normalize raw)] ++ others))).1 =
                .ok (id, name)) := by
  intro pre now raw hpre
  have hmeets := Runs.guarded_iff_prefixes.mp hsound pre _ hpre
  change (runMerchants s pre).db.db.ResolvesSoundly raw at hmeets
  have hkeys := runMerchants_keys h pre
  have hstep := resolveName_step hkeys raw now
  obtain ⟨⟨id, name⟩, hanswer⟩ := hstep.answers hmeets
  refine ⟨id, name, hanswer, fun hid => ?_⟩
  obtain ⟨m, hsettled, hmid, hmname⟩ := hstep.settles laws hkeys hmeets hanswer hid
  have hafter : runMerchants s (pre ++ [(now, .normalize raw)]) =
      (resolveName raw (.quiet now) (runMerchants s pre)).2 := by
    simp only [runMerchants, List.foldl_append, List.foldl_cons, List.foldl_nil]
    rfl
  have hkeys' := runMerchants_keys h (pre ++ [(now, .normalize raw)])
  rw [← hafter] at hsettled
  refine ⟨⟨m, hsettled.mem.1, hmid.symm, hsettled.mem.2⟩, fun others hothers now' => ?_⟩
  have hlast := hothers.settled hkeys' hsettled
  have happend : runMerchants s (pre ++ [(now, .normalize raw)] ++ others) =
      runMerchants (runMerchants s (pre ++ [(now, .normalize raw)])) others := List.foldl_append
  rw [happend]
  have hne := hstep.named hanswer hid
  rw [(resolveName_step (runMerchants_keys hkeys' others) raw now').of_settled laws
    (runMerchants_keys hkeys' others) hne hlast, hmid, hmname]

end Runs

/-! ## a merchant that went -/

/-- No merchant yet. -/
def noMerchants : Store Cleanup where
  db := {
    db := firstLedger.db
    categories := .empty
    fieldRules := ⟨.empty, by decide⟩
    variants := ⟨.empty, by decide⟩
    ruleChangeLog := .empty
    corrections := .empty }
  nextUuid := 0
  skip := none

theorem noMerchants_keys [Extern] : noMerchants.db.db.MerchantKeys noMerchants.nextUuid := by
  constructor
  · intro m hm
    exact absurd hm (by simp [noMerchants, firstLedger])
  · intro a ha
    exact absurd ha (by simp [noMerchants, firstLedger])
  · intro a ha
    exact absurd ha (by simp [noMerchants, firstLedger])
  · intro k _ hk
    exact absurd hk List.not_mem_nil
  · intro k _ hk
    exact absurd hk List.not_mem_nil

/-- Two names, and the second is deleted. -/
def acmeRun [Extern] : List (Int × MerchantEvent) :=
  [(1000, .normalize "Acme"), (1001, .normalize "Zomato"), (1002, .softDelete (uuid 2)),
    (1003, .normalize "acme*store")]

theorem acmeRun_sound :
    letI := Extern.ascii
    letI := RuleLibraries.words
    Runs.Guarded (fun s (e : Int × MerchantEvent) => e.2.run e.1 s) (fun s e => e.2.Sound s)
      noMerchants acmeRun := by
  decide +kernel

theorem resolution_lasts_acme :
    letI := Extern.ascii
    letI := RuleLibraries.words
    ∃ id name, (resolveName "acme*store" (.quiet 1003)
        (runMerchants noMerchants (acmeRun.take 3))).1 = .ok (id, name) ∧
      (id ≠ "" →
        (∃ m ∈ (runMerchants noMerchants acmeRun).db.db.merchants,
          m.id = id ∧ m.isDeleted = false) ∧
        ∀ others, Lookups others → ∀ now',
          (resolveName "acme*store" (.quiet now')
            (runMerchants noMerchants (acmeRun ++ others))).1 = .ok (id, name)) := by
  let := Extern.ascii
  let := RuleLibraries.words
  have hsound : Runs.Guarded (fun s (e : Int × MerchantEvent) => e.2.run e.1 s)
      (fun s e => e.2.Sound s) noMerchants acmeRun := acmeRun_sound
  exact resolution_lasts textLaws_ascii noMerchants_keys hsound (acmeRun.take 3) 1003 "acme*store"
    (List.prefix_refl _)

/-- A merchant is deleted, and an email names it again: its name is still taken. -/
theorem deleted_name_refused :
    letI := Extern.ascii
    letI := RuleLibraries.words
    let run := [(1000, MerchantEvent.normalize "Acme"), (1001, .softDelete (uuid 0))]
    noMerchants.db.db.MerchantKeys noMerchants.nextUuid ∧
      (resolveName "Acme" (.quiet 1000) noMerchants).1 = .ok (uuid 0, "ACME") ∧
      (resolveName "Acme" (.quiet 1002) (runMerchants noMerchants run)).1 =
        .error (uniqueFailed "merchants.normalized_name") := by
  let := Extern.ascii
  let := RuleLibraries.words
  intro run
  refine ⟨noMerchants_keys, by decide +kernel, by decide +kernel⟩

end Dinero
