import Dinero.TagEdits

/-!
# Dinero.TagLinks

The tags of a transaction, replaced.

Which tag each name gets, which tags are created on the way, and which links are
left once the old ones are deleted and the new ones inserted, with a delete or an
insert that fails left out.
-/

namespace Dinero

open Sql

/-! ## one insert -/

/-- One of the inserts is refused, or fails. -/
def CannotCreate (names : List String) (ctx : Ctx EditStmt) (s : Store EditTables) : Prop :=
  ¬ names.Nodup ∨ (∃ name ∈ names, ∃ t ∈ s.db.tags, t.name = name) ∨
    ∃ n < names.length, Fails .insertTag n ctx s

/-- The first of the inserts is refused, or fails. -/
def FirstStops (names : List String) (ctx : Ctx EditStmt) (s : Store EditTables) : Prop :=
  Fails .insertTag 0 ctx s ∨ ∃ name ∈ names.head?, ∃ t ∈ s.db.tags, t.name = name

theorem firstStops_cons {name : String} {names : List String} {ctx : Ctx EditStmt}
    {s : Store EditTables} : FirstStops (name :: names) ctx s ↔
      Fails .insertTag 0 ctx s ∨ ∃ t ∈ s.db.tags, t.name = name := by
  simp only [FirstStops, List.head?_cons, Option.mem_some_iff, exists_eq_left']

theorem insertTag_stops {t : TagsRow} {ctx : Ctx EditStmt} {s : Store EditTables}
    (h : Fails .insertTag 0 ctx s ∨ ∃ x ∈ s.db.tags, x.name = t.name) :
    ∃ e, insertTag t ctx s = (.error e, { s with skip := advance .insertTag ctx s.skip }) := by
  rw [insertTag]
  by_cases hfail : Fails .insertTag 0 ctx s
  · exact ⟨_, exec_fails hfail _⟩
  · have htaken : s.db.tags.rows.any (·.name = t.name) = true := by
      obtain ⟨x, hx, hname⟩ := h.resolve_left hfail
      exact List.any_eq_true.mpr ⟨x, hx, decide_eq_true hname⟩
    refine ⟨uniqueFailed "tags.name", ?_⟩
    rw [exec_passes hfail]
    simp only [htaken, if_true]

theorem insertTag_inserts {t : TagsRow} {ctx : Ctx EditStmt} {s : Store EditTables}
    (h : ¬ (Fails .insertTag 0 ctx s ∨ ∃ x ∈ s.db.tags, x.name = t.name))
    (hkey : t.id ∉ s.db.tags.keys) :
    ∃ T, s.db.tags.insert? t = some T ∧ insertTag t ctx s = (.ok (),
      ⟨{ s.db with tags := T }, s.nextUuid, advance .insertTag ctx s.skip⟩) := by
  simp only [not_or, not_exists, not_and] at h
  obtain ⟨hpass, hfree⟩ := h
  obtain ⟨T, hT⟩ := Table.exists_insert (T := s.db.tags) (r := t)
    fun x hx hx' => hkey (Table.mem_keys.mpr ⟨x, hx, hx'⟩)
  have hnone : s.db.tags.rows.any (·.name = t.name) = false := by
    rw [List.any_eq_false]
    intro x hx
    simpa using hfree x hx
  refine ⟨T, hT, ?_⟩
  rw [insertTag]
  refine exec_ok_of_passes hpass ?_
  simp [hnone, hT]

/-- What is left to create once the first is there. -/
theorem cannotCreate_cons {name : String} {names : List String} {ctx : Ctx EditStmt}
    {s : Store EditTables} {T : Table TagsRow} {t : TagsRow} (hname : t.name = name)
    (hT : s.db.tags.insert? t = some T)
    (h : ¬ (Fails .insertTag 0 ctx s ∨ ∃ x ∈ s.db.tags, x.name = name)) (next : Nat) :
    CannotCreate names ctx ⟨{ s.db with tags := T }, next, advance .insertTag ctx s.skip⟩ ↔
      CannotCreate (name :: names) ctx s := by
  let s' : Store EditTables := ⟨{ s.db with tags := T }, next, advance .insertTag ctx s.skip⟩
  simp only [not_or] at h
  obtain ⟨hpass, hfree⟩ := h
  have hclash : (∃ n ∈ names, ∃ x ∈ T, x.name = n) ↔
      name ∈ names ∨ ∃ n ∈ names, ∃ x ∈ s.db.tags, x.name = n := by
    simp only [Table.mem_of_insert? hT]
    constructor
    · rintro ⟨n, hn, x, hx | rfl, hxn⟩
      · exact .inr ⟨n, hn, x, hx, hxn⟩
      · exact .inl (hname ▸ hxn ▸ hn)
    · rintro (hmem | ⟨n, hn, x, hx, hxn⟩)
      · exact ⟨name, hmem, t, .inr rfl, hname⟩
      · exact ⟨n, hn, x, .inl hx, hxn⟩
  have hfails : (∃ n < names.length, Fails .insertTag n ctx s') ↔
      ∃ n < (name :: names).length, Fails .insertTag n ctx s := by
    simp only [s', fails_advance hpass, List.length_cons]
    constructor
    · rintro ⟨n, hn, hfail⟩
      exact ⟨n + 1, by omega, hfail⟩
    · rintro ⟨_ | n, hn, hfail⟩
      · exact absurd hfail hpass
      · exact ⟨n, by omega, hfail⟩
  rw [CannotCreate, CannotCreate, hclash, hfails, List.nodup_cons]
  simp only [List.mem_cons, exists_eq_or_imp, hfree, false_or, not_and_or, not_not]
  grind

theorem cannotCreate_of_firstStops {names : List String} {ctx : Ctx EditStmt}
    {s : Store EditTables} (h : FirstStops names ctx s) (hnames : names ≠ []) :
    CannotCreate names ctx s := by
  cases names with
  | nil => exact absurd rfl hnames
  | cons name names =>
    obtain hfail | htaken := firstStops_cons.mp h
    · exact .inr (.inr ⟨0, by simp, hfail⟩)
    · exact .inr (.inl ⟨name, List.mem_cons_self, htaken⟩)

theorem eq_iff_of_rows {T T' : Table TagsRow} {l : List TagsRow} (h : T'.rows = T.rows ++ l) :
    T' = T ↔ l = [] := by
  constructor
  · rintro rfl
    exact List.self_eq_append_right.mp h
  · rintro rfl
    exact Table.ext (by simpa using h)

/-! ## links -/

/-- The transaction has the tag. -/
def EditTables.Linked (e : EditTables) (txId tagId : String) : Prop :=
  (txId, tagId) ∈ e.transactionTags.keys

/-- The links in `l` are gone. -/
theorem unlink_all (now : Int) (l : List TransactionTagsRow) (e : EditTables) :
    ∃ T, l.foldl (fun e r => applied (EditTables.unlink r) now e) e =
        { e with transactionTags := T } ∧
      ∀ k, k ∈ T.keys ↔ k ∈ e.transactionTags.keys ∧ ∀ r ∈ l, Keyed.key r ≠ k := by
  induction l generalizing e with
  | nil => exact ⟨e.transactionTags, rfl, by simp⟩
  | cons r l ih =>
    let T₁ := e.transactionTags.keep fun x => decide (Keyed.key x ≠ Keyed.key r)
    obtain ⟨T, hfold, hkeys⟩ := ih { e with transactionTags := T₁ }
    refine ⟨T, hfold, fun k => ?_⟩
    have hT₁ : k ∈ T₁.keys ↔ k ∈ e.transactionTags.keys ∧ Keyed.key r ≠ k := by
      simp only [Table.mem_keys, T₁, Table.mem_keep, decide_eq_true_eq]
      constructor
      · rintro ⟨x, ⟨hx, hne⟩, rfl⟩
        exact ⟨⟨x, hx, rfl⟩, Ne.symm hne⟩
      · rintro ⟨⟨x, hx, rfl⟩, hne⟩
        exact ⟨x, ⟨hx, Ne.symm hne⟩, rfl⟩
    rw [hkeys, hT₁]
    simp [and_assoc]

/-- One link more, if it was not there. -/
theorem applied_link {txId tagId : String} {e : EditTables}
    (htx : e.db.transactions.contains txId = true) (htag : e.tags.contains tagId = true)
    (now : Int) : ∃ T, applied (EditTables.link txId tagId) now e =
        { e with transactionTags := T } ∧
      ∀ k, k ∈ T.keys ↔ k ∈ e.transactionTags.keys ∨ k = (txId, tagId) := by
  rw [applied, EditTables.link]
  cases hT : e.transactionTags.insert? ⟨txId, tagId, some now⟩ with
  | some T =>
    refine ⟨T, by simp [htx, htag], fun k => ?_⟩
    exact Table.mem_keys_of_insert? hT
  | none =>
    obtain ⟨x, hx, hkey⟩ := Table.insert?_eq_none.mp hT
    refine ⟨e.transactionTags, rfl, fun k => ⟨.inl, ?_⟩⟩
    rintro (hk | rfl)
    · exact hk
    · exact Table.mem_keys.mpr ⟨x, hx, hkey⟩

/-- The tags `l` are linked. -/
theorem link_all {txId : String} (now : Int) (l : List String) {e : EditTables}
    (htx : e.db.transactions.contains txId = true) (htags : ∀ id ∈ l, e.tags.contains id = true) :
    ∃ T, l.foldl (fun e id => applied (EditTables.link txId id) now e) e =
        { e with transactionTags := T } ∧
      ∀ k, k ∈ T.keys ↔ k ∈ e.transactionTags.keys ∨ (k.1 = txId ∧ k.2 ∈ l) := by
  induction l generalizing e with
  | nil => exact ⟨e.transactionTags, rfl, by simp⟩
  | cons id l ih =>
    obtain ⟨T₁, hone, hkeys₁⟩ := applied_link htx (htags id List.mem_cons_self) now
    obtain ⟨T, hfold, hkeys⟩ := @ih { e with transactionTags := T₁ } htx
      fun x hx => htags x (List.mem_cons_of_mem _ hx)
    refine ⟨T, ?_, fun k => ?_⟩
    · rw [List.foldl_cons, hone]
      exact hfold
    · obtain ⟨a, b⟩ := k
      rw [hkeys, hkeys₁]
      simp only [Prod.mk.injEq, List.mem_cons]
      tauto

/-- A position in a list without repetitions is all a link has. -/
theorem getElem?_unique {l : List α} (hl : l.Nodup) {a : α} {m n : Nat} (hm : l[m]? = some a)
    (hn : l[n]? = some a) : m = n := by
  obtain ⟨hlt, -⟩ := List.getElem?_eq_some_iff.mp hm
  exact (List.getElem?_inj hlt hl).mp (hm.trans hn.symm)

/-! ## names -/

/-- Those no tag has yet. -/
def newNames (existing : List TagsRow) (wanted : List String) : List String :=
  wanted.filter fun name => (tagNamed existing name).isNone

theorem newNames_cons_of_some {existing : List TagsRow} {name : String} {t : TagsRow}
    (h : tagNamed existing name = some t) (wanted : List String) :
    newNames existing (name :: wanted) = newNames existing wanted := by
  simp [newNames, h]

theorem newNames_cons_of_none {existing : List TagsRow} {name : String}
    (h : tagNamed existing name = none) (wanted : List String) :
    newNames existing (name :: wanted) = name :: newNames existing wanted := by
  simp [newNames, h]

section Names

variable [Extern]

/-- The names asked for. -/
def wantedNames (names : List String) : List String :=
  (names.map trimmedName).filter (· ≠ "")

theorem wantedNames_cons (name : String) (names : List String) :
    wantedNames (name :: names) =
      if trimmedName name = "" then wantedNames names
      else trimmedName name :: wantedNames names := by
  by_cases h : trimmedName name = ""
  · simp [wantedNames, h]
  · simp [wantedNames, h]

/-- The tag a new name is created as. -/
def newTag (now : Int) (next : Nat) (name : String) : TagsRow := ⟨uuid next, name, none, some now⟩

/-- The tags created for new names, with the ids from `next` on. -/
def createdTags (now : Int) : Nat → List String → List TagsRow
  | _, [] => []
  | next, name :: rest => newTag now next name :: createdTags now (next + 1) rest

/-- The tag of each name. -/
def pickedTags (existing : List TagsRow) (now : Int) : Nat → List String → List TagsRow
  | _, [] => []
  | next, name :: rest =>
    match tagNamed existing name with
    | some t => t :: pickedTags existing now next rest
    | none => newTag now next name :: pickedTags existing now (next + 1) rest

/-- A tag that is picked was there, or is created. -/
theorem mem_pickedTags {existing : List TagsRow} {now : Int} {next : Nat} {wanted : List String}
    {t : TagsRow} (h : t ∈ pickedTags existing now next wanted) :
    t ∈ existing ∨ t ∈ createdTags now next (newNames existing wanted) := by
  induction wanted generalizing next with
  | nil => simp [pickedTags] at h
  | cons name wanted ih =>
    rw [pickedTags] at h
    cases hnamed : tagNamed existing name with
    | some x =>
      rw [hnamed] at h
      rw [newNames_cons_of_some hnamed]
      obtain rfl | h := List.mem_cons.mp h
      · exact .inl (List.mem_of_find?_eq_some hnamed)
      · exact ih h
    | none =>
      rw [hnamed] at h
      rw [newNames_cons_of_none hnamed, createdTags, List.mem_cons]
      obtain rfl | h := List.mem_cons.mp h
      · exact .inr (.inl rfl)
      · exact (ih h).imp_right .inr

theorem createdTags_eq_nil {now : Int} {next : Nat} {names : List String} :
    createdTags now next names = [] ↔ names = [] := by
  cases names with
  | nil => simp [createdTags]
  | cons name names => simp [createdTags]

/-! ## creating tags -/

theorem tagIds_cons_of_empty {existing : List TagsRow} {name : String}
    (h : trimmedName name = "") (names : List String) :
    tagIds existing (name :: names) = tagIds existing names := by
  rw [tagIds]
  simp only [if_pos h]

theorem tagIds_cons_of_some {existing : List TagsRow} {name : String} {t : TagsRow}
    (hname : trimmedName name ≠ "") (h : tagNamed existing (trimmedName name) = some t)
    (names : List String) : tagIds existing (name :: names) = (do
      let ids ← tagIds existing names
      return t.id :: ids) := by
  rw [tagIds]
  simp only [if_neg hname, h]

theorem tagIds_cons_of_none {existing : List TagsRow} {name : String}
    (hname : trimmedName name ≠ "") (h : tagNamed existing (trimmedName name) = none)
    (names : List String) (ctx : Ctx EditStmt) (s : Store EditTables) :
    tagIds existing (name :: names) ctx s = (do
      insertTag (newTag ctx.now s.nextUuid (trimmedName name))
      let ids ← tagIds existing names
      return uuid s.nextUuid :: ids : EditProg (List String))
        ctx { s with nextUuid := s.nextUuid + 1 } := by
  rw [tagIds]
  simp only [if_neg hname, h]
  rw [Eff.bind_of_ok (newUuid_apply _ _ _), Eff.bind_of_ok (utcNow_apply _ _)]
  rfl

theorem fresh_insert {e : EditTables} {T : Table TagsRow} {now : Int} {n : Nat} {name : String}
    (hfresh : ∀ k, n ≤ k → uuid k ∉ e.tags.keys)
    (hT : e.tags.insert? (newTag now n name) = some T) : ∀ k, n + 1 ≤ k → uuid k ∉ T.keys := by
  intro k hk hmem
  obtain hold | hnew := (Table.mem_keys_of_insert? hT).mp hmem
  · exact hfresh k (by omega) hold
  · have hsame := Extern.uuid_injective hnew
    omega

/-- Not all new names become tags. -/
theorem tagIds_stopped {existing : List TagsRow} {names : List String} {ctx : Ctx EditStmt}
    {s : Store EditTables} (hfresh : ∀ k, s.nextUuid ≤ k → uuid k ∉ s.db.tags.keys)
    (h : CannotCreate (newNames existing (wantedNames names)) ctx s) :
    ∃ e s' T l, tagIds existing names ctx s = (.error e, s') ∧ s'.db = { s.db with tags := T } ∧
      T.rows = s.db.tags.rows ++ l ∧
      (l = [] ↔ FirstStops (newNames existing (wantedNames names)) ctx s) := by
  induction names generalizing s with
  | nil =>
    simp [CannotCreate, wantedNames, newNames] at h
  | cons name names ih =>
    rw [wantedNames_cons] at h ⊢
    by_cases hempty : trimmedName name = ""
    · rw [if_pos hempty] at h ⊢
      rw [tagIds_cons_of_empty hempty]
      exact ih hfresh h
    · rw [if_neg hempty] at h ⊢
      cases hnamed : tagNamed existing (trimmedName name) with
      | some t =>
        rw [newNames_cons_of_some hnamed] at h ⊢
        obtain ⟨e, s', T, l, hrun, hdb, hrows, hfirst⟩ := ih hfresh h
        rw [tagIds_cons_of_some hempty hnamed, Eff.bind_of_error hrun]
        exact ⟨e, s', T, l, rfl, hdb, hrows, hfirst⟩
      | none =>
        rw [newNames_cons_of_none hnamed] at h ⊢
        rw [tagIds_cons_of_none hempty hnamed]
        by_cases hstops : Fails .insertTag 0 ctx s ∨ ∃ x ∈ s.db.tags, x.name = trimmedName name
        · obtain ⟨e, hrun⟩ := @insertTag_stops (newTag ctx.now s.nextUuid (trimmedName name)) ctx
            { s with nextUuid := s.nextUuid + 1 } hstops
          rw [Eff.bind_of_error hrun]
          exact ⟨e, _, s.db.tags, [], rfl, rfl, by simp,
            iff_of_true rfl (firstStops_cons.mpr hstops)⟩
        · obtain ⟨T, hT, hrun⟩ := @insertTag_inserts (newTag ctx.now s.nextUuid (trimmedName name))
            ctx { s with nextUuid := s.nextUuid + 1 } hstops (hfresh _ le_rfl)
          obtain ⟨e, s', T', l, hrest, hdb, hrows, -⟩ := @ih ⟨{ s.db with tags := T },
            s.nextUuid + 1, advance .insertTag ctx s.skip⟩ (fresh_insert hfresh hT)
            ((cannotCreate_cons rfl hT hstops _).mpr h)
          rw [Eff.bind_of_ok hrun, Eff.bind_of_error hrest]
          refine ⟨e, s', T', newTag ctx.now s.nextUuid (trimmedName name) :: l, rfl, hdb, ?_, ?_⟩
          · rw [hrows, (Table.insert?_eq_some.mp hT).2, List.append_assoc]
            rfl
          · exact iff_of_false (by simp) (mt firstStops_cons.mp hstops)

/-- All new names become tags. -/
theorem tagIds_created {existing : List TagsRow} {names : List String} {ctx : Ctx EditStmt}
    {s : Store EditTables} (hfresh : ∀ k, s.nextUuid ≤ k → uuid k ∉ s.db.tags.keys)
    (h : ¬ CannotCreate (newNames existing (wantedNames names)) ctx s) :
    ∃ s' T, tagIds existing names ctx s =
        (.ok ((pickedTags existing ctx.now s.nextUuid (wantedNames names)).map (·.id)), s') ∧
      s'.db = { s.db with tags := T } ∧ T.rows = s.db.tags.rows ++
        createdTags ctx.now s.nextUuid (newNames existing (wantedNames names)) := by
  induction names generalizing s with
  | nil => exact ⟨s, s.db.tags, rfl, rfl, by simp [wantedNames, newNames, createdTags]⟩
  | cons name names ih =>
    rw [wantedNames_cons] at h ⊢
    by_cases hempty : trimmedName name = ""
    · rw [if_pos hempty] at h ⊢
      rw [tagIds_cons_of_empty hempty]
      exact ih hfresh h
    · rw [if_neg hempty] at h ⊢
      cases hnamed : tagNamed existing (trimmedName name) with
      | some t =>
        rw [newNames_cons_of_some hnamed] at h ⊢
        obtain ⟨s', T, hrun, hdb, hrows⟩ := ih hfresh h
        rw [tagIds_cons_of_some hempty hnamed, Eff.bind_of_ok hrun]
        refine ⟨s', T, ?_, hdb, hrows⟩
        simp [pickedTags, hnamed]
      | none =>
        rw [newNames_cons_of_none hnamed] at h ⊢
        rw [tagIds_cons_of_none hempty hnamed]
        have hpass : ¬ (Fails .insertTag 0 ctx s ∨
            ∃ x ∈ s.db.tags, x.name = trimmedName name) := by
          intro hstops
          refine h (.inr ?_)
          obtain hfail | htaken := hstops
          · exact .inr ⟨0, by simp, hfail⟩
          · exact .inl ⟨_, List.mem_cons_self, htaken⟩
        obtain ⟨T, hT, hrun⟩ := @insertTag_inserts (newTag ctx.now s.nextUuid (trimmedName name))
          ctx { s with nextUuid := s.nextUuid + 1 } hpass (hfresh _ le_rfl)
        obtain ⟨s', T', hrest, hdb, hrows⟩ := @ih ⟨{ s.db with tags := T },
          s.nextUuid + 1, advance .insertTag ctx s.skip⟩ (fresh_insert hfresh hT)
          (mt (cannotCreate_cons rfl hT hpass _).mp h)
        rw [Eff.bind_of_ok hrun, Eff.bind_of_ok hrest]
        refine ⟨s', T', ?_, hdb, ?_⟩
        · simp [pickedTags, hnamed, newTag]
        · rw [hrows, (Table.insert?_eq_some.mp hT).2, List.append_assoc]
          rfl

theorem deaf_tagIds {i : EditStmt} (hi : i ≠ .insertTag) (existing : List TagsRow)
    (names : List String) : Deaf i (tagIds existing names) := by
  induction names with
  | nil => exact .pure _
  | cons name names ih =>
    simp only [tagIds]
    split
    · exact ih
    · split
      · exact .bind ih fun _ => .pure _
      · exact .bind (.newUuid _) fun _ => .bind .utcNow fun _ => .bind (.exec hi _) fun _ =>
          .bind ih fun _ => .pure _

/-! ## the tags replaced -/

/-- The tags are not replaced: something was to be read or created and was not. -/
def TagsStop (names : List String) (ctx : Ctx EditStmt) (s : Store EditTables) : Prop :=
  Fails .selectTags 0 ctx s ∨
    CannotCreate (newNames s.db.tagsByName (wantedNames names)) ctx s ∨
    Fails .selectTransactionTags 0 ctx s

/-- No tag is created. -/
def NothingCreated (names : List String) (ctx : Ctx EditStmt) (s : Store EditTables) : Prop :=
  Fails .selectTags 0 ctx s ∨ newNames s.db.tagsByName (wantedNames names) = [] ∨
    FirstStops (newNames s.db.tagsByName (wantedNames names)) ctx s

theorem replaceTags_stopped (txId : String) {names : List String} {ctx : Ctx EditStmt}
    {s : Store EditTables} (hfresh : ∀ k, s.nextUuid ≤ k → uuid k ∉ s.db.tags.keys)
    (h : TagsStop names ctx s) :
    ∃ e s' T, replaceTags txId names ctx s = (.error e, s') ∧ s'.db = { s.db with tags := T } ∧
      (T = s.db.tags ↔ NothingCreated names ctx s) := by
  rw [replaceTags]
  by_cases hread : Fails .selectTags 0 ctx s
  · rw [Eff.bind_of_error (query_fails hread _)]
    exact ⟨_, _, s.db.tags, rfl, rfl, iff_of_true rfl (.inl hread)⟩
  · let s₁ : Store EditTables := { s with skip := advance .selectTags ctx s.skip }
    let new := newNames s.db.tagsByName (wantedNames names)
    have hplan : ∀ i : EditStmt, i ≠ .selectTags → ∀ n, (Fails i n ctx s₁ ↔ Fails i n ctx s) :=
      fun i hi n => fails_advance_of_ne hi
    have hcreate : CannotCreate new ctx s₁ ↔ CannotCreate new ctx s := by
      simp only [CannotCreate, hplan .insertTag (by decide), s₁]
    have hfirst : FirstStops new ctx s₁ ↔ FirstStops new ctx s := by
      simp only [FirstStops, hplan .insertTag (by decide), s₁]
    rw [Eff.bind_of_ok (query_passes hread _)]
    by_cases hcannot : CannotCreate new ctx s
    · obtain ⟨e, s', T, l, hrun, hdb, hrows, hl⟩ :=
        @tagIds_stopped _ s.db.tagsByName names ctx s₁ hfresh (hcreate.mpr hcannot)
      have hsome : new ≠ [] := by
        intro hnil
        rw [hnil] at hcannot
        simp [CannotCreate] at hcannot
      rw [Eff.bind_of_error hrun]
      refine ⟨e, s', T, rfl, hdb, (eq_iff_of_rows hrows).trans (hl.trans (hfirst.trans ?_))⟩
      simp only [NothingCreated, hread, false_or]
      exact (or_iff_right hsome).symm
    · obtain ⟨s', T, hrun, hdb, hrows⟩ :=
        @tagIds_created _ s.db.tagsByName names ctx s₁ hfresh (mt hcreate.mp hcannot)
      have hlast : Fails .selectTransactionTags 0 ctx s' := by
        have hdeaf := (deaf_tagIds (i := .selectTransactionTags) (by decide) s.db.tagsByName
          names).fails_iff 0 ctx s₁
        rw [hrun] at hdeaf
        exact hdeaf.mpr ((hplan _ (by decide) 0).mpr
          ((h.resolve_left hread).resolve_left hcannot))
      rw [Eff.bind_of_ok hrun, Eff.bind_of_error (query_fails hlast _)]
      refine ⟨_, _, T, rfl, hdb, (eq_iff_of_rows hrows).trans (createdTags_eq_nil.trans ?_)⟩
      simp only [NothingCreated, hread, false_or]
      refine (or_iff_left_of_imp fun hstops => ?_).symm
      by_contra hsome
      exact hcannot (cannotCreate_of_firstStops hstops hsome)

theorem nodup_linksOf (e : EditTables) (txId : String) : (e.linksOf txId).Nodup := by
  rw [EditTables.linksOf, (Extern.scan_perm _).nodup_iff]
  exact (List.Nodup.of_map _ e.transactionTags.nodup).filter _

theorem mem_linksOf {e : EditTables} {txId : String} {r : TransactionTagsRow} :
    r ∈ e.linksOf txId ↔ r ∈ e.transactionTags ∧ r.transactionId = txId := by
  simp [EditTables.linksOf, Table.mem_def]

/-- The link that stays is the one that was not deleted. -/
theorem kept_iff {e : EditTables} {txId id : String} {ctx : Ctx EditStmt} {s : Store EditTables} :
    ((txId, id) ∈ e.transactionTags.keys ∧ ∀ r, (∃ m, (e.linksOf txId)[m]? = some r ∧
      ¬ Fails .deleteTransactionTag m ctx s) → Keyed.key r ≠ (txId, id)) ↔
    ∃ m r, (e.linksOf txId)[m]? = some r ∧ r.tagId = id ∧
      Fails .deleteTransactionTag m ctx s := by
  constructor
  · rintro ⟨hmem, hall⟩
    obtain ⟨r, hr, hkey⟩ := Table.mem_keys.mp hmem
    obtain ⟨htx, hid⟩ := Prod.mk.inj hkey
    obtain ⟨m, hm⟩ := List.mem_iff_getElem?.mp (mem_linksOf.mpr ⟨hr, htx⟩)
    refine ⟨m, r, hm, hid, ?_⟩
    by_contra hpass
    exact hall r ⟨m, hm, hpass⟩ hkey
  · rintro ⟨m, r, hm, rfl, hfail⟩
    obtain ⟨hr, rfl⟩ := mem_linksOf.mp (List.mem_of_getElem? hm)
    refine ⟨Table.mem_keys.mpr ⟨r, hr, rfl⟩, ?_⟩
    rintro r' ⟨m', hm', hpass⟩ hkey
    -- the key names the row, and the row has one place
    have hsame : r' = r :=
      Table.eq_of_key_eq (mem_linksOf.mp (List.mem_of_getElem? hm')).1 hr hkey
    rw [hsame] at hm'
    rw [getElem?_unique (nodup_linksOf e _) hm' hm] at hpass
    exact hpass hfail

theorem replaceTags_done {txId : String} {names : List String} {ctx : Ctx EditStmt}
    {s : Store EditTables} (hfresh : ∀ k, s.nextUuid ≤ k → uuid k ∉ s.db.tags.keys)
    (hpresent : s.db.db.transactions.contains txId = true) (h : ¬ TagsStop names ctx s) :
    ∃ s' T L, replaceTags txId names ctx s = (.ok (), s') ∧
      s'.db = { s.db with tags := T, transactionTags := L } ∧
      T.rows = s.db.tags.rows ++ createdTags ctx.now s.nextUuid
        (newNames s.db.tagsByName (wantedNames names)) ∧
      ∀ id, (txId, id) ∈ L.keys ↔
        (∃ m r, (s.db.linksOf txId)[m]? = some r ∧ r.tagId = id ∧
          Fails .deleteTransactionTag m ctx s) ∨
        ∃ m t, (pickedTags s.db.tagsByName ctx.now s.nextUuid (wantedNames names))[m]? = some t ∧
          t.id = id ∧ ¬ Fails .insertTransactionTag m ctx s := by
  simp only [TagsStop, not_or] at h
  obtain ⟨hread, hcan, hassocs⟩ := h
  let s₁ : Store EditTables := { s with skip := advance .selectTags ctx s.skip }
  have hplan₁ : ∀ i : EditStmt, i ≠ .selectTags → ∀ n, (Fails i n ctx s₁ ↔ Fails i n ctx s) :=
    fun i hi n => fails_advance_of_ne hi
  have hcan₁ : ¬ CannotCreate (newNames s.db.tagsByName (wantedNames names)) ctx s₁ := by
    simp only [CannotCreate, hplan₁ .insertTag (by decide)]
    exact hcan
  obtain ⟨s₂, T, htags, hdb, hrows⟩ := @tagIds_created _ s.db.tagsByName names ctx s₁ hfresh hcan₁
  have hplan₂ : ∀ i : EditStmt, i ≠ .selectTags → i ≠ .insertTag → ∀ n,
      (Fails i n ctx s₂ ↔ Fails i n ctx s) := by
    intro i hi hi' n
    have hdeaf := (deaf_tagIds hi' s.db.tagsByName names).fails_iff n ctx s₁
    rw [htags] at hdeaf
    exact hdeaf.trans (hplan₁ i hi n)
  -- the old links
  let s₃ : Store EditTables := { s₂ with skip := advance .selectTransactionTags ctx s₂.skip }
  have hold : s₂.db.linksOf txId = s.db.linksOf txId := by rw [hdb]; rfl
  have hassocs₂ : ¬ Fails .selectTransactionTags 0 ctx s₂ :=
    mt (hplan₂ _ (by decide) (by decide) 0).mp hassocs
  obtain ⟨skip₄, hdelete⟩ :=
    each_exec .deleteTransactionTag ctx EditTables.unlink (s.db.linksOf txId) s₃
  obtain ⟨L₁, hfold, hkeys₁⟩ := unlink_all ctx.now
    (issued .deleteTransactionTag ctx s₃.skip (s.db.linksOf txId)) s₃.db
  rw [hfold] at hdelete
  -- the new ones
  let s₄ : Store EditTables := ⟨{ s₃.db with transactionTags := L₁ }, s₃.nextUuid, skip₄⟩
  have hdeleted : each deleteTransactionTag (s.db.linksOf txId) ctx s₃ = (.ok (), s₄) := hdelete
  let ids := (pickedTags s.db.tagsByName ctx.now s.nextUuid (wantedNames names)).map (·.id)
  have hin : ∀ id ∈ issued .insertTransactionTag ctx s₄.skip ids, s₄.db.tags.contains id = true := by
    intro id hid
    obtain ⟨m, hm, -⟩ := mem_issued.mp hid
    obtain ⟨t, ht, rfl⟩ := List.mem_map.mp (List.mem_of_getElem? hm)
    have htags : s₄.db.tags = T := by
      dsimp only [s₄, s₃]
      rw [hdb]
    rw [htags, Table.contains_iff]
    refine ⟨t, ?_, rfl⟩
    rw [Table.mem_def, hrows, List.mem_append]
    exact (mem_pickedTags ht).imp_left mem_orderBy.mp
  have hpresent₄ : s₄.db.db.transactions.contains txId = true := by
    dsimp only [s₄, s₃]
    rw [hdb]
    exact hpresent
  obtain ⟨skip₅, hinsert⟩ :=
    each_exec .insertTransactionTag ctx (EditTables.link txId) ids s₄
  obtain ⟨L, hfold', hkeys⟩ := link_all ctx.now
    (issued .insertTransactionTag ctx s₄.skip ids) hpresent₄ hin
  rw [hfold'] at hinsert
  have hdeletes : ∀ m, Fails .deleteTransactionTag m ctx s₃ ↔
      Fails .deleteTransactionTag m ctx s :=
    fun m => (fails_advance_of_ne (by decide)).trans (hplan₂ _ (by decide) (by decide) m)
  have hinserts : ∀ m, Fails .insertTransactionTag m ctx s₄ ↔
      Fails .insertTransactionTag m ctx s := by
    intro m
    have hdeaf := (Deaf.each (i := .insertTransactionTag) (f := deleteTransactionTag)
      (fun r => Deaf.exec (by decide) _) (s.db.linksOf txId)).fails_iff m ctx s₃
    rw [hdeleted] at hdeaf
    exact hdeaf.trans
      ((fails_advance_of_ne (by decide)).trans (hplan₂ _ (by decide) (by decide) m))
  refine ⟨⟨{ s₄.db with transactionTags := L }, s₄.nextUuid, skip₅⟩, T, L, ?_, ?_, hrows,
    fun id => ?_⟩
  · rw [replaceTags, Eff.bind_of_ok (query_passes hread _), Eff.bind_of_ok htags,
      Eff.bind_of_ok (query_passes hassocs₂ _), hold, Eff.bind_of_ok hdeleted]
    exact hinsert
  · dsimp only [s₄, s₃]
    rw [hdb]
  · have hlinks : s₃.db.transactionTags = s.db.transactionTags := by
      dsimp only [s₃]
      rw [hdb]
    have hleft : (txId, id) ∈ L₁.keys ↔ ∃ m r, (s.db.linksOf txId)[m]? = some r ∧
        r.tagId = id ∧ Fails .deleteTransactionTag m ctx s := by
      rw [hkeys₁, hlinks]
      simp only [mem_issued, hdeletes]
      exact kept_iff
    have hnew : id ∈ issued .insertTransactionTag ctx s₄.skip ids ↔
        ∃ m t, (pickedTags s.db.tagsByName ctx.now s.nextUuid (wantedNames names))[m]? = some t ∧
          t.id = id ∧ ¬ Fails .insertTransactionTag m ctx s := by
      simp only [mem_issued, hinserts, ids, List.getElem?_map, Option.map_eq_some_iff]
      constructor
      · rintro ⟨m, ⟨t, ht, rfl⟩, hpass⟩
        exact ⟨m, t, ht, rfl, hpass⟩
      · rintro ⟨m, t, ht, rfl, hpass⟩
        exact ⟨m, ⟨t, ht, rfl⟩, hpass⟩
    rw [hkeys, ← hleft, ← hnew]
    simp [s₄]

end Names

end Dinero
