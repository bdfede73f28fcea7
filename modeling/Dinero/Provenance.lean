import Dinero.Outcomes
import Mathlib.Data.Set.Insert

/-!
# Dinero.Provenance

The source mix of a canonical and the pipelines behind it.

The first section knows nothing of the ledger: it says which mixes fit which
sets of pipelines, and what a mix has to become when a pipeline joins.  The
rest connects it to the tables.  A canonical founded by a manual entry keeps
the mix `manual` for good, and a match confirmed by the user changes no mix; so
the mix fits as long as neither of these brings the second of the two sources
(`MixFollows`).
-/

namespace Dinero

open Sql

/-! ## mixes and sets of pipelines -/

def gmail : Option String := some "gmail_transaction"

def statement : Option String := some "statement_pdf"

/-- The sets of pipelines a mix stands for. -/
def SourceMix.Fits : SourceMix → Set (Option String) → Prop
  | .emailOnly, S => gmail ∈ S ∧ statement ∉ S
  | .statementOnly, S => statement ∈ S ∧ gmail ∉ S
  | .merged, S => gmail ∈ S ∧ statement ∈ S
  | .manual, S => ¬ (gmail ∈ S ∧ statement ∈ S) ∧ ∃ p ∈ S, p ≠ gmail ∧ p ≠ statement

/-- The pipeline brings the second of email and statement. -/
def Completes (p : Option String) (S : Set (Option String)) : Prop :=
  (p = gmail ∧ statement ∈ S) ∨ (p = statement ∧ gmail ∈ S)

/-- The mix a merge leaves, by the pipeline merged. -/
def SourceMix.after (m : SourceMix) (p : Option String) : SourceMix :=
  if m = .emailOnly ∧ p = statement then .merged
  else if m = .statementOnly ∧ p = gmail then .merged
  else m

theorem gmail_ne_statement : gmail ≠ statement := by decide

/-- **A fitting mix is the one the set calls for.** -/
theorem SourceMix.Fits.eq {m : SourceMix} {S : Set (Option String)} (h : m.Fits S) :
    (m = .merged ↔ gmail ∈ S ∧ statement ∈ S) ∧ (S = {gmail} → m = .emailOnly) ∧
      (S = {statement} → m = .statementOnly) := by
  cases m with
  | emailOnly => exact ⟨by simp [h.2], fun _ => rfl, fun hS => absurd (hS ▸ rfl) h.2⟩
  | statementOnly => exact ⟨by simp [h.2], fun hS => absurd (hS ▸ rfl) h.2, fun _ => rfl⟩
  | merged =>
    refine ⟨by simp [h.1, h.2], fun hS => ?_, fun hS => ?_⟩
    · have hmem : statement ∈ S := h.2
      rw [hS] at hmem
      exact absurd hmem.symm gmail_ne_statement
    · have hmem : gmail ∈ S := h.1
      rw [hS] at hmem
      exact absurd hmem gmail_ne_statement
  | manual =>
    obtain ⟨hnot, p, hp, hg, hs⟩ := h
    refine ⟨by simp [hnot], fun hS => ?_, fun hS => ?_⟩
    · exact absurd (by rwa [hS] at hp) hg
    · exact absurd (by rwa [hS] at hp) hs

/-- Without other pipelines, the set decides the mix: it does not matter in
which order they came. -/
theorem SourceMix.Fits.unique {m m' : SourceMix} {S : Set (Option String)} (h : m.Fits S)
    (h' : m'.Fits S) (hS : S ⊆ {gmail, statement}) : m = m' := by
  have hother : ∀ p ∈ S, p = gmail ∨ p = statement := fun p hp => hS hp
  cases m <;> cases m' <;> simp only [Fits] at h h' <;> grind

/-- A pipeline that completes nothing leaves the mix fitting. -/
theorem SourceMix.Fits.insert {m : SourceMix} {S : Set (Option String)} {p : Option String}
    (h : m.Fits S) (hp : m = .merged ∨ ¬ Completes p S) : m.Fits (Insert.insert p S) := by
  have hne := gmail_ne_statement
  simp only [Completes] at hp
  cases m <;> simp only [Fits, Set.mem_insert_iff] at h ⊢ <;> grind

/-- **A merge keeps the mix fitting**, unless it completes a manual one. -/
theorem SourceMix.Fits.after {m : SourceMix} {S : Set (Option String)} {p : Option String}
    (h : m.Fits S) (hp : m = .manual → ¬ Completes p S) :
    (m.after p).Fits (Insert.insert p S) := by
  have hne := gmail_ne_statement
  simp only [Completes] at hp
  cases m <;> simp only [SourceMix.after] <;> split_ifs <;>
    simp only [Fits, Set.mem_insert_iff] at h ⊢ <;> grind

/-- The mix of a canonical founded by one observation. -/
theorem fits_sourceMixForNewCanonical (p : Option String) :
    (sourceMixForNewCanonical (p.getD "")).Fits {p} := by
  have hne := gmail_ne_statement
  unfold sourceMixForNewCanonical
  cases p with
  | none => simp [SourceMix.Fits, gmail, statement]
  | some p =>
    simp only [Option.getD_some]
    split_ifs with hg hs
    · simp [SourceMix.Fits, gmail, statement, hg]
    · simp [SourceMix.Fits, gmail, statement, hs]
    · exact ⟨fun h => hg (Option.some.inj h.1).symm, some p, rfl, by simpa [gmail] using hg,
        by simpa [statement] using hs⟩

/-! ## the tables -/

/-- An observation of this pipeline is linked to the canonical. -/
def Database.Carries (db : Database) (id : String) (p : Option String) : Prop :=
  ∃ o ∈ db.observations.rows, o.canonicalTransactionId = some id ∧ o.sourcePipeline = p

instance (db : Database) (id : String) (p : Option String) : Decidable (db.Carries id p) := by
  unfold Database.Carries
  infer_instance

/-- The pipelines of the observations linked to a canonical. -/
def Database.pipelines (db : Database) (id : String) : Set (Option String) :=
  {p | db.Carries id p}

instance (db : Database) (id : String) (p : Option String) : Decidable (p ∈ db.pipelines id) :=
  inferInstanceAs (Decidable (db.Carries id p))

instance (db : Database) (id : String) (p : Option String) :
    Decidable (Completes p (db.pipelines id)) := by
  unfold Completes
  infer_instance

/-- The mix of every live canonical is the one its pipelines call for. -/
def Database.MixAgrees (db : Database) : Prop :=
  ∀ t ∈ db.transactions, t.isDeleted = false →
    (t.sourceMix = some .merged ↔
      gmail ∈ db.pipelines t.id ∧ statement ∈ db.pipelines t.id) ∧
    (db.pipelines t.id = {gmail} → t.sourceMix = some .emailOnly) ∧
    (db.pipelines t.id = {statement} → t.sourceMix = some .statementOnly)

/-- The invariant behind it: links lead to canonicals, and every canonical has a
mix that fits. -/
structure Database.WellMixed (db : Database) : Prop where
  links : ∀ o ∈ db.observations, ∀ id, o.canonicalTransactionId = some id →
    db.transactions.contains id = true
  fits : ∀ t ∈ db.transactions, ∃ m, t.sourceMix = some m ∧ m.Fits (db.pipelines t.id)

theorem Database.WellMixed.agrees {db : Database} (h : db.WellMixed) : db.MixAgrees := by
  intro t ht _
  obtain ⟨m, hm, hfits⟩ := h.fits t ht
  obtain ⟨hmerged, hemail, hstatement⟩ := hfits.eq
  rw [hm]
  exact ⟨by rw [Option.some.injEq, hmerged], fun hS => by rw [hemail hS],
    fun hS => by rw [hstatement hS]⟩

/-- Linking the observation elsewhere takes no pipeline away from where it was:
it was linked to nothing, or to the same canonical, or another observation of
its pipeline stays behind. -/
def Database.Released (db : Database) (o : TransactionObservationsRow) (id : String) : Prop :=
  o.canonicalTransactionId = none ∨ o.canonicalTransactionId = some id ∨
    ∃ o' ∈ db.observations.rows, o'.id ≠ o.id ∧
      o'.canonicalTransactionId = o.canonicalTransactionId ∧ o'.sourcePipeline = o.sourcePipeline

instance (db : Database) (o : TransactionObservationsRow) (id : String) :
    Decidable (db.Released o id) := by
  unfold Database.Released
  infer_instance

/-- **A link adds a pipeline** to the canonical it leads to, and that is all. -/
theorem carries_link {db db' : Database} {o : TransactionObservationsRow} {id : String} {now : Int}
    (ho : o ∈ db.observations) (hr : db.Released o id)
    (hdb : db'.observations = db.observations.modify o.id (linkPatch (some id) now))
    (k : String) (p : Option String) :
    db'.Carries k p ↔ db.Carries k p ∨ (k = id ∧ p = o.sourcePipeline) := by
  have hmem : ∀ x, x ∈ db'.observations.rows ↔
      x ∈ db.observations.modify o.id (linkPatch (some id) now) := by
    intro x
    rw [hdb, Table.mem_def]
  have hself : (linkPatch (some id) now).run o ∈ db'.observations.rows :=
    (hmem _).mpr (Table.mem_modify_of_mem ho rfl)
  have hother : ∀ x, x.id ≠ o.id → (x ∈ db'.observations.rows ↔ x ∈ db.observations) :=
    fun x hne => (hmem x).trans (Table.mem_modify_of_ne hne)
  constructor
  · rintro ⟨x, hx, hlink, hpipe⟩
    by_cases hid : x.id = o.id
    · -- the observation itself, linked anew
      have hx' : x = (linkPatch (some id) now).run o := by
        have hx' := (hmem x).mp hx
        exact Table.eq_of_key_eq hx' ((hmem _).mp hself) hid
      subst hx'
      exact .inr ⟨(Option.some.inj hlink).symm, hpipe.symm⟩
    · exact .inl ⟨x, (hother x hid).mp hx, hlink, hpipe⟩
  · rintro (⟨x, hx, hlink, hpipe⟩ | ⟨rfl, rfl⟩)
    · by_cases hid : x.id = o.id
      · obtain rfl : x = o := Table.eq_of_key_eq hx ho hid
        rcases hr with hnone | hsame | ⟨o', ho', hne, hlink', hpipe'⟩
        · rw [hnone] at hlink
          simp at hlink
        · obtain rfl := Option.some.inj (hsame.symm.trans hlink)
          exact ⟨_, hself, rfl, hpipe⟩
        · exact ⟨o', (hother o' hne).mpr ho', hlink'.trans hlink, hpipe'.trans hpipe⟩
      · exact ⟨x, (hother x hid).mpr hx, hlink, hpipe⟩
    · exact ⟨_, hself, rfl, rfl⟩

/-- The rows after linking: each has the id and the mix of one of `T`. -/
theorem LinkedTo.exists_mix {obsId id : String} {now : Int} {T : Table TransactionsRow}
    {db db' : Database} (h : LinkedTo obsId id now T db db') {t : TransactionsRow}
    (ht : t ∈ db'.transactions) : ∃ t₀ ∈ T, t₀.id = t.id ∧ t₀.sourceMix = t.sourceMix := by
  obtain ⟨t₀, ht₀, heq⟩ := Table.exists_of_map_eq h.settled ht
  have hid := congrArg TransactionsRow.id heq
  have hmix := congrArg TransactionsRow.sourceMix heq
  exact ⟨t₀, ht₀, hid, hmix⟩

theorem LinkedTo.contains_eq {obsId id : String} {now : Int} {T : Table TransactionsRow}
    {db db' : Database} (h : LinkedTo obsId id now T db db') (k : String) :
    db'.transactions.contains k = T.contains k :=
  Table.contains_of_map_eq (·.id) (fun _ => rfl) h.settled k

/-- Links stay valid: the new one leads to `id`, and no canonical is lost. -/
theorem links_of_link {db db' : Database} {obsId id : String} {now : Int}
    (h : ∀ o ∈ db.observations, ∀ k, o.canonicalTransactionId = some k →
      db.transactions.contains k = true)
    (hobs : db'.observations = db.observations.modify obsId (linkPatch (some id) now))
    (hid : db'.transactions.contains id = true)
    (hkeep : ∀ k, db.transactions.contains k = true → db'.transactions.contains k = true) :
    ∀ o ∈ db'.observations, ∀ k, o.canonicalTransactionId = some k →
      db'.transactions.contains k = true := by
  intro o ho k hk
  rw [hobs] at ho
  rcases Table.mem_modify_cases ho with ⟨hr, -⟩ | ⟨r, -, -, rfl⟩
  · exact hkeep k (h o hr k hk)
  · obtain rfl : id = k := Option.some.inj hk
    exact hid

/-- The mix a merge writes. -/
theorem mergePatch_sourceMix {row : TransactionObservationsRow} {i : String}
    {t : TransactionsRow} {m : SourceMix} (hm : t.sourceMix = some m) (overwrite : Bool)
    (now : Int) :
    ((mergePatch (incomingOf row i) t.sourceMix overwrite now).run t).sourceMix
      = some (m.after row.sourcePipeline) := by
  have hg : (incomingOf row i).sourcePipeline = "gmail_transaction" ↔ row.sourcePipeline = gmail := by
    cases hrow : row.sourcePipeline <;> simp [incomingOf, hrow, gmail]
  have hs : (incomingOf row i).sourcePipeline = "statement_pdf" ↔ row.sourcePipeline = statement := by
    cases hrow : row.sourcePipeline <;> simp [incomingOf, hrow, statement]
  have hne := gmail_ne_statement
  unfold mergePatch SourceMix.after
  simp only [hg, hs, hm]
  split_ifs <;> simp [statementPatch, emailFillPatch, emailOverwritePatch, Patch.idle, hm] <;> grind

/-- The sets after a link. -/
theorem pipelines_link {db db' : Database} {o : TransactionObservationsRow} {id : String}
    {now : Int} (ho : o ∈ db.observations) (hr : db.Released o id)
    (hdb : db'.observations = db.observations.modify o.id (linkPatch (some id) now)) :
    db'.pipelines id = insert o.sourcePipeline (db.pipelines id) ∧
      ∀ k, k ≠ id → db'.pipelines k = db.pipelines k := by
  constructor
  · ext p
    have h := carries_link ho hr hdb id p
    change db'.Carries id p ↔ p = o.sourcePipeline ∨ db.Carries id p
    tauto
  · intro k hk
    ext p
    have h := carries_link ho hr hdb k p
    change db'.Carries k p ↔ db.Carries k p
    tauto

/-- Where links and mixes are the same, nothing is to be shown. -/
theorem Database.WellMixed.of_eq {db db' : Database} (h : db.WellMixed)
    (hobs : db'.observations = db.observations) (htx : db'.transactions = db.transactions) :
    db'.WellMixed := by
  have hpipe : ∀ k, db'.pipelines k = db.pipelines k := by
    intro k
    unfold pipelines Carries
    rw [hobs]
  constructor
  · rw [hobs, htx]
    exact h.links
  · intro t ht
    rw [hpipe]
    exact h.fits t (htx ▸ ht)

/-! ## steps -/

variable [Extern]

/-- The canonical an ingestion of the row merges it into, if it does. -/
def Database.ingestTarget (db : Database) (row : TransactionObservationsRow) :
    Option TransactionsRow :=
  match db.insertObservation row with
  | .ok (_, db₁) => row.instrumentId.bind fun i => (db₁.verdict (incomingOf row i)).target
  | .error _ => none

/-- The mix follows the links: no merge into a manual canonical, and no
confirmed match with one that is not merged yet, brings the second of email and
statement; rows come unlinked, and a confirmed match takes no pipeline away from
where the observation was. -/
def MixFollows (s : Store Database) : Op → Prop
  | .ingest row shouldReconcile => row.canonicalTransactionId = none ∧
      (shouldReconcile = true → ∀ t ∈ s.db.ingestTarget row, t.sourceMix = some .manual →
        ¬ Completes row.sourcePipeline (s.db.pipelines t.id))
  | .resolve _ obsId action chosen => action ≠ "keep_separate" ∧
      (action = "confirm_match" → ∀ o ∈ s.db.observations.rows, o.id = obsId →
        ∀ t ∈ s.db.transactions.rows, chosen = some t.id → s.db.Released o t.id ∧
          (t.sourceMix = some .merged ∨ ¬ Completes o.sourcePipeline (s.db.pipelines t.id)))
  | .unmerge _ => True

omit [Extern] in
/-- A row stored unlinked changes no set. -/
theorem pipelines_insertObservation {row : TransactionObservationsRow} {db db' : Database}
    (hins : db.insertObservation row = .ok ((), db')) (hnone : row.canonicalTransactionId = none)
    (k : String) : db'.pipelines k = db.pipelines k := by
  obtain ⟨-, -, -, T, hT, rfl⟩ := Database.insertObservation_eq_ok.mp hins
  ext p
  constructor
  · rintro ⟨x, hx, hlink, hpipe⟩
    cases (Table.mem_of_insert? hT).mp hx with
    | inl hx => exact ⟨x, hx, hlink, hpipe⟩
    | inr heq =>
      rw [heq, hnone] at hlink
      simp at hlink
  · rintro ⟨x, hx, hlink⟩
    exact ⟨x, (Table.mem_of_insert? hT).mpr (.inl hx), hlink⟩

omit [Extern] in
theorem Database.WellMixed.insertObservation {db db' : Database} (h : db.WellMixed)
    {row : TransactionObservationsRow} (hins : db.insertObservation row = .ok ((), db'))
    (hnone : row.canonicalTransactionId = none) : db'.WellMixed := by
  have hpipe := pipelines_insertObservation hins hnone
  obtain ⟨-, -, -, T, hT, rfl⟩ := Database.insertObservation_eq_ok.mp hins
  constructor
  · intro o ho k hk
    cases (Table.mem_of_insert? hT).mp ho with
    | inl ho => exact h.links o ho k hk
    | inr heq =>
      rw [heq, hnone] at hk
      simp at hk
  · intro t ht
    rw [hpipe]
    exact h.fits t ht

/-- **Acting on a stored row** that is linked to nothing. -/
theorem Database.WellMixed.acted {db db' : Database} (h : db.WellMixed)
    {row : TransactionObservationsRow} {i : String} {dt now : Int} {d : DecisionType}
    (hrow : row ∈ db.observations) (hnone : row.canonicalTransactionId = none)
    (hact : Acted (incomingOf row i) dt now db db' d)
    (hcond : ∀ t, (db.verdict (incomingOf row i)).target = some t → t.sourceMix = some .manual →
      ¬ Completes row.sourcePipeline (db.pipelines t.id)) : db'.WellMixed := by
  cases hact with
  | merged _ t overwrite ht hverdict _ hl _ =>
    obtain ⟨hself, hothers⟩ := pipelines_link hrow (.inl hnone) hl.observations
    have hkeep : ∀ k, db.transactions.contains k = true → db'.transactions.contains k = true := by
      intro k hk
      rwa [hl.contains_eq, Table.contains_modify]
    refine ⟨links_of_link h.links hl.observations
      (hkeep _ (Table.contains_iff.mpr ⟨t, ht, rfl⟩)) hkeep, fun t' ht' => ?_⟩
    obtain ⟨t₀, ht₀, hid, hmix⟩ := hl.exists_mix ht'
    rcases Table.mem_modify_cases ht₀ with ⟨hr, hk⟩ | ⟨r, hr, hk, rfl⟩
    · obtain ⟨m, hm, hfits⟩ := h.fits t₀ hr
      have hpipe : db'.pipelines t₀.id = db.pipelines t₀.id := hothers _ hk
      exact ⟨m, hmix ▸ hm, by rw [← hid, hpipe]; exact hfits⟩
    · -- the canonical merged into
      obtain rfl : r = t := Table.eq_of_key_eq hr ht hk
      have hid' : r.id = t'.id := (Patch.key_run _ r).symm.trans hid
      obtain ⟨m, hm, hfits⟩ := h.fits r hr
      refine ⟨m.after row.sourcePipeline, ?_, ?_⟩
      · rw [← hmix, mergePatch_sourceMix hm]
      · rw [← hid', hself]
        exact hfits.after fun hman => hcond r hverdict (by rw [hm, hman])
  | created id merchant T hT hl _ =>
    have hnew : ∀ r ∈ db.transactions, r.id ≠ id := (Table.insert?_eq_some.mp hT).1
    obtain ⟨hself, hothers⟩ := pipelines_link hrow (.inl hnone) hl.observations
    -- nothing was linked to the new id
    have hempty : db.pipelines id = ∅ := by
      refine Set.eq_empty_iff_forall_notMem.mpr ?_
      rintro p ⟨x, hx, hlink, -⟩
      obtain ⟨r, hr, hrid⟩ := Table.contains_iff.mp (h.links x hx id hlink)
      exact hnew r hr hrid
    have hmem : ∀ x, x ∈ T ↔ x ∈ db.transactions ∨
        x = canonicalRow id (incomingOf row i) merchant now := fun x => Table.mem_of_insert? hT
    have hcontains : ∀ k, db'.transactions.contains k = true ↔
        db.transactions.contains k = true ∨ k = id := by
      intro k
      rw [hl.contains_eq, Table.contains_iff, Table.contains_iff]
      constructor
      · rintro ⟨x, hx, rfl⟩
        cases (hmem x).mp hx with
        | inl hx => exact .inl ⟨x, hx, rfl⟩
        | inr heq => exact .inr (by rw [heq]; rfl)
      · rintro (⟨x, hx, hxk⟩ | rfl)
        · exact ⟨x, (hmem x).mpr (.inl hx), hxk⟩
        · exact ⟨_, (hmem _).mpr (.inr rfl), rfl⟩
    refine ⟨links_of_link h.links hl.observations ((hcontains id).mpr (.inr rfl))
      fun k hk => (hcontains k).mpr (.inl hk), fun t' ht' => ?_⟩
    obtain ⟨t₀, ht₀, hid, hmix⟩ := hl.exists_mix ht'
    cases (hmem t₀).mp ht₀ with
    | inl hold =>
      obtain ⟨m, hm, hfits⟩ := h.fits t₀ hold
      refine ⟨m, hmix ▸ hm, ?_⟩
      rw [← hid, hothers _ (hnew t₀ hold)]
      exact hfits
    | inr heq =>
      rw [heq] at hid hmix
      refine ⟨sourceMixForNewCanonical (row.sourcePipeline.getD ""), hmix.symm, ?_⟩
      have hid' : id = t'.id := hid
      rw [← hid', hself, hempty, insert_empty_eq]
      exact fits_sourceMixForNewCanonical row.sourcePipeline
  | raised _ db₁ D hraised hdb _ =>
    rw [hdb]
    exact h.of_eq hraised.payments.1 hraised.payments.2.1

theorem Database.WellMixed.ingest {s : Store Database} (h : s.db.WellMixed)
    {row : TransactionObservationsRow} {shouldReconcile : Bool}
    (hcond : MixFollows s (.ingest row shouldReconcile)) (now : Int) :
    ((Op.ingest row shouldReconcile).run now s).db.WellMixed := by
  obtain ⟨hnone, hmanual⟩ := hcond
  rcases Op.ingest_cases row shouldReconcile now s with
    hdb | ⟨db, hins, -, hrun⟩ | ⟨db, i, dt, d, hins, hrec, hinst, htime, hact⟩
  · rwa [hdb]
  · rw [hrun]
    exact h.insertObservation hins hnone
  · have hrow : row ∈ db.observations := by
      obtain ⟨-, -, -, T, hT, rfl⟩ := Database.insertObservation_eq_ok.mp hins
      exact (Table.mem_of_insert? hT).mpr (.inr rfl)
    have hacted : Acted (incomingOf row i) dt now db _ d :=
      actOn_acted (s := { s with db := db }) (by simp [incomingOf, htime]) hact
    refine (h.insertObservation hins hnone).acted hrow hnone hacted fun t ht hman => ?_
    rw [pipelines_insertObservation hins hnone]
    refine hmanual hrec t ?_ hman
    simp only [ingestTarget, hins, hinst, Option.bind_some]
    exact ht

theorem Database.WellMixed.resolve {s : Store Database} (h : s.db.WellMixed)
    {clusterId obsId action : String} {chosen : Option String}
    (hcond : MixFollows s (.resolve clusterId obsId action chosen)) (now : Int) :
    ((Op.resolve clusterId obsId action chosen).run now s).db.WellMixed := by
  obtain ⟨hkeep, hconfirm⟩ := hcond
  obtain ⟨htx, hobs | ⟨id, hact, rfl, hstored, hknown, hobs⟩⟩ :=
    resolve_links clusterId obsId chosen hkeep now s
  · exact h.of_eq hobs htx
  · obtain ⟨o, ho, rfl⟩ := Table.contains_iff.mp hstored
    obtain ⟨t, ht, rfl⟩ := Table.contains_iff.mp hknown
    obtain ⟨hreleased, hcompletes⟩ := hconfirm hact o ho rfl t ht rfl
    obtain ⟨hself, hothers⟩ := pipelines_link ho hreleased hobs
    refine ⟨links_of_link h.links hobs (htx ▸ hknown) (fun k hk => htx ▸ hk), fun t' ht' => ?_⟩
    rw [htx] at ht'
    obtain ⟨m, hm, hfits⟩ := h.fits t' ht'
    refine ⟨m, hm, ?_⟩
    by_cases hk : t'.id = t.id
    · -- the canonical the user chose
      obtain rfl : t' = t := Table.eq_of_key_eq ht' ht hk
      rw [hself]
      refine hfits.insert (hcompletes.imp_left fun hmerged => ?_)
      exact Option.some.inj (hm.symm.trans hmerged)
    · rw [hothers _ hk]
      exact hfits

/-! ## runs -/

/-- **The source mix follows the links.**  In every run in which no match brings
the second source to a manual canonical, or by hand to an unmerged one, the mix
of every live canonical is the one its pipelines call for; and with no other
pipelines around it is the same for the same pipelines, whatever the order. -/
theorem source_mix_follows {s : Store Database} (h : Reachable MixFollows s) :
    s.db.MixAgrees ∧ ∀ s', Reachable MixFollows s' → ∀ t ∈ s.db.transactions,
      ∀ t' ∈ s'.db.transactions, s.db.pipelines t.id = s'.db.pipelines t'.id →
      s.db.pipelines t.id ⊆ {gmail, statement} → t.sourceMix = t'.sourceMix := by
  have hinv : ∀ {s}, Reachable MixFollows s → s.db.WellMixed := by
    intro s hs
    refine (hs.invariant (I := Database.WellMixed) ?_ ?_).2
    · intro s h₀
      constructor
      · intro o ho
        rw [h₀.empty.observations] at ho
        exact absurd ho (Table.not_mem_empty o)
      · intro t ht
        rw [h₀.empty.transactions] at ht
        exact absurd ht (Table.not_mem_empty t)
    · intro s op now _ hI hop
      cases op with
      | ingest row shouldReconcile => exact hI.ingest hop now
      | resolve clusterId obsId action chosen => exact hI.resolve hop now
      | unmerge clusterId =>
        simp only [Op.run, unmerge_quiet]
        exact hI.of_eq rfl rfl
  refine ⟨(hinv h).agrees, fun s' h' t ht t' ht' hsame honly => ?_⟩
  obtain ⟨m, hm, hfits⟩ := (hinv h).fits t ht
  obtain ⟨m', hm', hfits'⟩ := (hinv h').fits t' ht'
  rw [← hsame] at hfits'
  rw [hm, hm', hfits.unique hfits' honly]

/-- A manual entry, an email or a statement line of the same payment. -/
def samePayment (id pipeline : String) (eventTime : Int) : TransactionObservationsRow :=
  { observed id pipeline "debit" 500 eventTime with fingerprint := some "fp" }

omit [Extern] in
/-- An email and a statement line of it. -/
theorem source_mix_follows_statement :
    letI := Extern.ascii
    (runAll firstLedger [(1001, .ingest (samePayment "o1" "gmail_transaction" 1000) true),
      (1002, .ingest (samePayment "o2" "statement_pdf" 1000) true)]).db.MixAgrees := by
  let := Extern.ascii
  refine (source_mix_follows (reachable_runAll initial_firstLedger.reachable ?_)).1
  exact ⟨⟨rfl, by decide +kernel⟩, ⟨rfl, by decide +kernel⟩, trivial⟩

omit [Extern] in
/-- A manual entry first, then the email, then the statement line: all three are
linked to one canonical, whose mix stays `manual`. -/
theorem manual_first_never_merges :
    letI := Extern.ascii
    ∃ s, Reachable (fun _ op => op.IsIngest) s ∧ ¬ s.db.MixAgrees := by
  let := Extern.ascii
  let s := runAll firstLedger [(1001, .ingest (samePayment "o1" "manual" 1000) true),
    (1002, .ingest (samePayment "o2" "gmail_transaction" 1000) true),
    (1003, .ingest (samePayment "o3" "statement_pdf" 1000) true)]
  have hs : Reachable (fun _ op => op.IsIngest) s :=
    reachable_runAll initial_firstLedger.reachable ⟨trivial, trivial, trivial, trivial⟩
  refine ⟨s, hs, fun hagrees => ?_⟩
  have hmerged : ∀ t ∈ s.db.transactions.rows, t.isDeleted = false → gmail ∈ s.db.pipelines t.id →
      statement ∈ s.db.pipelines t.id → t.sourceMix = some .merged :=
    fun t ht hlive hg hst => (hagrees t ht hlive).1.mpr ⟨hg, hst⟩
  exact absurd hmerged (by decide +kernel)

end Dinero
