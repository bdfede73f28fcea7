import Dinero.TagLinks
import Dinero.FieldUpdates

/-!
# Dinero.UpdateAtomicity

When `transactions_update` is all or nothing.

A call that fails should have changed nothing; one that succeeds should have
stored every field it was given, and the tags of the transaction should be those
asked for, each name with one tag.  `update_atomic_iff` says for which tables,
requests and failing statements that is so.
-/

namespace Dinero

open Sql

/-! ## names that differ in case only -/

theorem sameName_iff {a b : String} :
    sameName a b = true ↔ a.toList.map Char.toLower = b.toList.map Char.toLower := by
  simp [sameName]

theorem sameName_refl (a : String) : sameName a a = true := sameName_iff.mpr rfl

theorem sameName_symm {a b : String} (h : sameName a b = true) : sameName b a = true :=
  sameName_iff.mpr (sameName_iff.mp h).symm

theorem sameName_trans {a b c : String} (h : sameName a b = true) (h' : sameName b c = true) :
    sameName a c = true :=
  sameName_iff.mpr ((sameName_iff.mp h).trans (sameName_iff.mp h'))

theorem tagNamed_congr (existing : List TagsRow) {a b : String} (h : sameName a b = true) :
    tagNamed existing a = tagNamed existing b := by
  have hsame : ∀ t : TagsRow, sameName t.name a = sameName t.name b := by
    intro t
    rw [Bool.eq_iff_iff]
    exact ⟨fun h' => sameName_trans h' h, fun h' => sameName_trans h' (sameName_symm h)⟩
  simp [tagNamed, hsame]

theorem sameName_of_tagNamed {existing : List TagsRow} {name : String} {t : TagsRow}
    (h : tagNamed existing name = some t) : t ∈ existing ∧ sameName t.name name = true := by
  rw [tagNamed] at h
  exact ⟨List.mem_of_find?_eq_some h, by simpa using List.find?_some h⟩

theorem not_sameName_of_tagNamed {existing : List TagsRow} {name : String}
    (h : tagNamed existing name = none) {t : TagsRow} (ht : t ∈ existing) :
    sameName t.name name ≠ true := List.find?_eq_none.mp h t ht

section Tags

variable [Extern]

/-! ## tags created -/

theorem mem_createdTags {now : Int} {next : Nat} {names : List String} {t : TagsRow}
    (h : t ∈ createdTags now next names) :
    (∃ k, next ≤ k ∧ t.id = uuid k) ∧ t.name ∈ names := by
  induction names generalizing next with
  | nil => simp [createdTags] at h
  | cons name names ih =>
    obtain rfl | h := List.mem_cons.mp h
    · exact ⟨⟨next, le_rfl, rfl⟩, List.mem_cons_self⟩
    · obtain ⟨⟨k, hk, hid⟩, hname⟩ := ih h
      exact ⟨⟨k, by omega, hid⟩, List.mem_cons_of_mem _ hname⟩

theorem exists_createdTag (now : Int) (next : Nat) {names : List String} {name : String}
    (h : name ∈ names) : ∃ t ∈ createdTags now next names, t.name = name := by
  induction names generalizing next with
  | nil => cases h
  | cons other names ih =>
    obtain rfl | h := List.mem_cons.mp h
    · exact ⟨_, List.mem_cons_self, rfl⟩
    · obtain ⟨t, ht, hname⟩ := ih (next + 1) h
      exact ⟨t, List.mem_cons_of_mem _ ht, hname⟩

/-- No two are the same but for case. -/
def Apart (names : List String) : Prop := names.Pairwise fun a b => sameName a b ≠ true

/-- Every name is created once when no two are the same. -/
theorem apart_iff (now : Int) (next : Nat) {names : List String} :
    Apart names ↔ ∀ t ∈ createdTags now next names, ∀ t' ∈ createdTags now next names,
      sameName t.name t'.name = true → t = t' := by
  induction names generalizing next with
  | nil => simp [Apart, createdTags]
  | cons name names ih =>
    rw [Apart, List.pairwise_cons, createdTags]
    constructor
    · rintro ⟨hhead, htail⟩ t ht t' ht' hsame
      obtain rfl | ht := List.mem_cons.mp ht
      · obtain rfl | ht' := List.mem_cons.mp ht'
        · rfl
        · exact absurd hsame (hhead _ (mem_createdTags ht').2)
      · obtain rfl | ht' := List.mem_cons.mp ht'
        · exact absurd (sameName_symm hsame) (hhead _ (mem_createdTags ht).2)
        · exact (ih (next + 1)).mp htail t ht t' ht' hsame
    · intro hall
      refine ⟨fun other hother hsame => ?_, (ih (next + 1)).mpr fun t ht t' ht' =>
        hall t (List.mem_cons_of_mem _ ht) t' (List.mem_cons_of_mem _ ht')⟩
      obtain ⟨t, ht, rfl⟩ := exists_createdTag now (next + 1) hother
      have heq := hall _ List.mem_cons_self t (List.mem_cons_of_mem _ ht) hsame
      obtain ⟨⟨k, hk, hid⟩, -⟩ := mem_createdTags ht
      rw [← heq] at hid
      have hnext := Extern.uuid_injective hid
      omega

/-! ## tags picked -/

theorem pickedTags_length (existing : List TagsRow) (now : Int) (next : Nat)
    (wanted : List String) : (pickedTags existing now next wanted).length = wanted.length := by
  induction wanted generalizing next with
  | nil => rfl
  | cons name wanted ih =>
    rw [pickedTags]
    cases tagNamed existing name with
    | some t => simp [ih]
    | none => simp [ih]

/-- The tag of a name is the one found, or is created for it. -/
theorem pickedTags_cases {existing : List TagsRow} {now : Int} {next m : Nat}
    {wanted : List String} {name : String} {t : TagsRow} (hname : wanted[m]? = some name)
    (ht : (pickedTags existing now next wanted)[m]? = some t) :
    tagNamed existing name = some t ∨ (tagNamed existing name = none ∧
      t ∈ createdTags now next (newNames existing wanted) ∧ t.name = name) := by
  induction wanted generalizing next m with
  | nil => simp at hname
  | cons other wanted ih =>
    rw [pickedTags] at ht
    cases hnamed : tagNamed existing other with
    | some x =>
      rw [hnamed] at ht
      rw [newNames_cons_of_some hnamed]
      cases m with
      | zero =>
        simp only [List.getElem?_cons_zero, Option.some.injEq] at hname ht
        rw [← hname, ← ht]
        exact .inl hnamed
      | succ m =>
        simp only [List.getElem?_cons_succ] at hname ht
        exact ih hname ht
    | none =>
      rw [hnamed] at ht
      rw [newNames_cons_of_none hnamed, createdTags]
      cases m with
      | zero =>
        simp only [List.getElem?_cons_zero, Option.some.injEq] at hname ht
        rw [← hname, ← ht]
        exact .inr ⟨hnamed, List.mem_cons_self, rfl⟩
      | succ m =>
        simp only [List.getElem?_cons_succ] at hname ht
        obtain hfound | ⟨hnone, hmem, hsame⟩ := ih hname ht
        · exact .inl hfound
        · exact .inr ⟨hnone, List.mem_cons_of_mem _ hmem, hsame⟩

theorem pickedTags_named {existing : List TagsRow} {now : Int} {next m : Nat}
    {wanted : List String} {name : String} {t : TagsRow} (hname : wanted[m]? = some name)
    (ht : (pickedTags existing now next wanted)[m]? = some t) : sameName t.name name = true := by
  obtain hfound | ⟨-, -, rfl⟩ := pickedTags_cases hname ht
  · exact (sameName_of_tagNamed hfound).2
  · exact sameName_refl _

/-- Two names that are the same have one tag. -/
theorem pickedTags_congr {existing : List TagsRow} {now : Int} {next m n : Nat}
    {wanted : List String} (hapart : Apart (newNames existing wanted)) {a b : String}
    {t t' : TagsRow} (ha : wanted[m]? = some a) (hb : wanted[n]? = some b)
    (ht : (pickedTags existing now next wanted)[m]? = some t)
    (ht' : (pickedTags existing now next wanted)[n]? = some t') (hsame : sameName a b = true) :
    t = t' := by
  have hcongr := tagNamed_congr existing hsame
  obtain hfound | ⟨hnone, hmem, rfl⟩ := pickedTags_cases ha ht
  · obtain hfound' | ⟨hnone', -, -⟩ := pickedTags_cases hb ht'
    · rw [hcongr, hfound'] at hfound
      exact (Option.some.inj hfound).symm
    · rw [hcongr, hnone'] at hfound
      cases hfound
  · obtain hfound' | ⟨-, hmem', rfl⟩ := pickedTags_cases hb ht'
    · rw [hcongr, hfound'] at hnone
      cases hnone
    · exact (apart_iff now next).mp hapart t hmem t' hmem' hsame

theorem exists_pickedTag (existing : List TagsRow) (now : Int) (next : Nat) {m : Nat}
    {wanted : List String} {name : String} (hname : wanted[m]? = some name) :
    ∃ t, (pickedTags existing now next wanted)[m]? = some t := by
  have hlt : m < (pickedTags existing now next wanted).length := by
    rw [pickedTags_length]
    exact (List.getElem?_eq_some_iff.mp hname).1
  exact ⟨_, List.getElem?_eq_getElem hlt⟩

theorem exists_wanted {existing : List TagsRow} {now : Int} {next m : Nat} {wanted : List String}
    {t : TagsRow} (ht : (pickedTags existing now next wanted)[m]? = some t) :
    ∃ name ∈ wanted, wanted[m]? = some name := by
  have hlt : m < wanted.length := by
    rw [← pickedTags_length existing now next wanted]
    exact (List.getElem?_eq_some_iff.mp ht).1
  exact ⟨_, List.getElem_mem hlt, List.getElem?_eq_getElem hlt⟩

end Tags

/-! ## exactly the tags -/

section Links

variable [Extern]

/-- The tags of the transaction are those asked for. -/
structure TagsExact (before after : EditTables) (txId : String) (names : List String) : Prop where
  /-- Each was asked for … -/
  known : ∀ id, after.Linked txId id → ∃ t ∈ after.tags, t.id = id ∧
    ∃ name ∈ wantedNames names, sameName t.name name = true
  /-- … and each name asked for has one … -/
  all : ∀ name ∈ wantedNames names, ∃ t ∈ after.tags, sameName t.name name = true ∧
    after.Linked txId t.id
  /-- … and one only. -/
  one : ∀ t ∈ after.tags, ∀ t' ∈ after.tags, after.Linked txId t.id → after.Linked txId t'.id →
    sameName t.name t'.name = true → t = t'
  /-- A tag that was not there is the only one of its name. -/
  reused : ∀ t ∈ after.tags, t ∈ before.tags ∨
    ∀ x ∈ after.tags, sameName x.name t.name = true → x = t

/-- What it takes for that: no name is created twice, and the delete and the insert that may
fail do not matter. -/
structure Replaceable (txId : String) (names : List String) (ctx : Ctx EditStmt)
    (s : Store EditTables) : Prop where
  apart : Apart (newNames s.db.tagsByName (wantedNames names))
  /-- A link that cannot be deleted is to a tag asked for. -/
  deleted : ∀ m r, (s.db.linksOf txId)[m]? = some r → Fails .deleteTransactionTag m ctx s →
    ∃ name ∈ wantedNames names, ∃ t ∈ tagNamed s.db.tagsByName name, t.id = r.tagId
  /-- A name whose link cannot be inserted was asked for twice. -/
  inserted : ∀ m name, (wantedNames names)[m]? = some name →
    Fails .insertTransactionTag m ctx s →
    ∃ n other, n ≠ m ∧ (wantedNames names)[n]? = some other ∧ sameName other name = true

/-- The tables once the tags are replaced. -/
structure Replaced (txId : String) (names : List String) (next : Nat) (ctx : Ctx EditStmt)
    (s : Store EditTables) (after : EditTables) : Prop where
  rows : after.tags.rows = s.db.tags.rows ++
    createdTags ctx.now next (newNames s.db.tagsByName (wantedNames names))
  linked : ∀ id, after.Linked txId id ↔
    (∃ m r, (s.db.linksOf txId)[m]? = some r ∧ r.tagId = id ∧
      Fails .deleteTransactionTag m ctx s) ∨
    ∃ m t, (pickedTags s.db.tagsByName ctx.now next (wantedNames names))[m]? = some t ∧
      t.id = id ∧ ¬ Fails .insertTransactionTag m ctx s

namespace Replaced

variable {txId : String} {names : List String} {next : Nat} {ctx : Ctx EditStmt}
  {s : Store EditTables} {after : EditTables}

theorem mem_tags (h : Replaced txId names next ctx s after) {t : TagsRow} :
    t ∈ after.tags ↔ t ∈ s.db.tagsByName ∨
      t ∈ createdTags ctx.now next (newNames s.db.tagsByName (wantedNames names)) := by
  rw [Table.mem_def, h.rows, List.mem_append, EditTables.tagsByName, mem_orderBy]

theorem picked_mem (h : Replaced txId names next ctx s after) {m : Nat} {t : TagsRow}
    (ht : (pickedTags s.db.tagsByName ctx.now next (wantedNames names))[m]? = some t) :
    t ∈ after.tags :=
  h.mem_tags.mpr (mem_pickedTags (List.mem_of_getElem? ht))

/-- Tags are created once for a name no tag has, if those names are apart. -/
theorem reused_iff (h : Replaced txId names next ctx s after)
    (hfresh : ∀ k, next ≤ k → uuid k ∉ s.db.tags.keys) :
    (∀ t ∈ after.tags, t ∈ s.db.tags ∨
      ∀ x ∈ after.tags, sameName x.name t.name = true → x = t) ↔
    Apart (newNames s.db.tagsByName (wantedNames names)) := by
  rw [apart_iff ctx.now next]
  constructor
  · intro hall t ht t' ht' hsame
    obtain ⟨⟨k, hk, hid⟩, -⟩ := mem_createdTags ht'
    obtain hold | honly := hall t' (h.mem_tags.mpr (.inr ht'))
    · exact absurd (Table.mem_keys.mpr ⟨t', hold, hid⟩) (hfresh k hk)
    · exact honly t (h.mem_tags.mpr (.inr ht)) hsame
  · intro hall t ht
    obtain hold | hnew := h.mem_tags.mp ht
    · exact .inl (mem_orderBy.mp hold)
    · refine .inr fun x hx hsame => ?_
      obtain hx | hx := h.mem_tags.mp hx
      · -- a new name is one no tag has
        have hname := (mem_createdTags hnew).2
        rw [newNames, List.mem_filter, Option.isNone_iff_eq_none] at hname
        exact absurd hsame (not_sameName_of_tagNamed hname.2 hx)
      · exact hall x hx t hnew hsame

/-- With the names apart, the tags linked are the tags picked, one for each name. -/
theorem exact_of_replaceable (h : Replaced txId names next ctx s after)
    (hfresh : ∀ k, next ≤ k → uuid k ∉ s.db.tags.keys) (hr : Replaceable txId names ctx s) :
    TagsExact s.db after txId names := by
  -- a tag that is linked was picked for some name
  have hpicked : ∀ id, after.Linked txId id → ∃ m : Nat, ∃ t : TagsRow,
      (pickedTags s.db.tagsByName ctx.now next (wantedNames names))[m]? = some t ∧ t.id = id := by
    intro id hlinked
    obtain ⟨m, r, hm, hr', hfail⟩ | ⟨m, t, ht, hid, -⟩ := (h.linked id).mp hlinked
    · obtain rfl := hr'
      obtain ⟨name, hname, t, hfound, hid⟩ := hr.deleted m r hm hfail
      obtain ⟨n, hn⟩ := List.mem_iff_getElem?.mp hname
      obtain ⟨t', ht'⟩ := exists_pickedTag s.db.tagsByName ctx.now next hn
      obtain hfound' | ⟨hnone, -⟩ := pickedTags_cases hn ht'
      · rw [Option.mem_def, hfound'] at hfound
        rw [Option.some.inj hfound] at ht'
        exact ⟨n, t, ht', hid⟩
      · rw [Option.mem_def, hnone] at hfound
        cases hfound
    · exact ⟨m, t, ht, hid⟩
  refine ⟨fun id hlinked => ?_, fun name hname => ?_, fun t ht t' ht' hl hl' hsame => ?_,
    (h.reused_iff hfresh).mpr hr.apart⟩
  · obtain ⟨m, t, ht, hid⟩ := hpicked id hlinked
    obtain ⟨name, hmem, hname⟩ := exists_wanted ht
    exact ⟨t, h.picked_mem ht, hid, name, hmem, pickedTags_named hname ht⟩
  · obtain ⟨m, hm⟩ := List.mem_iff_getElem?.mp hname
    by_cases hfail : Fails .insertTransactionTag m ctx s
    · obtain ⟨n, other, hne, hn, hsame⟩ := hr.inserted m name hm hfail
      obtain ⟨t, ht⟩ := exists_pickedTag s.db.tagsByName ctx.now next hn
      have hpass : ¬ Fails .insertTransactionTag n ctx s :=
        fun hfail' => hne (Option.some.inj (hfail'.2.symm.trans hfail.2))
      exact ⟨t, h.picked_mem ht, sameName_trans (pickedTags_named hn ht) hsame,
        (h.linked _).mpr (.inr ⟨n, t, ht, rfl, hpass⟩)⟩
    · obtain ⟨t, ht⟩ := exists_pickedTag s.db.tagsByName ctx.now next hm
      exact ⟨t, h.picked_mem ht, pickedTags_named hm ht,
        (h.linked _).mpr (.inr ⟨m, t, ht, rfl, hfail⟩)⟩
  · obtain ⟨m, x, hx, hid⟩ := hpicked t.id hl
    obtain ⟨n, y, hy, hid'⟩ := hpicked t'.id hl'
    obtain rfl := Table.eq_of_key_eq (h.picked_mem hx) ht hid
    obtain rfl := Table.eq_of_key_eq (h.picked_mem hy) ht' hid'
    obtain ⟨a, -, ha⟩ := exists_wanted hx
    obtain ⟨b, -, hb⟩ := exists_wanted hy
    have hab : sameName a b = true := sameName_trans (sameName_symm (pickedTags_named ha hx))
      (sameName_trans hsame (pickedTags_named hb hy))
    exact pickedTags_congr hr.apart ha hb hx hy hab

/-- The other way round: what is missing shows. -/
theorem replaceable_of_exact (h : Replaced txId names next ctx s after)
    (hfresh : ∀ k, next ≤ k → uuid k ∉ s.db.tags.keys)
    (hlinks : ∀ k, next ≤ k → ∀ r ∈ s.db.transactionTags, r.tagId ≠ uuid k)
    (he : TagsExact s.db after txId names) : Replaceable txId names ctx s := by
  have hother : ∀ m n, Fails .deleteTransactionTag m ctx s →
      ¬ Fails .insertTransactionTag n ctx s := by
    intro m n hfail hfail'
    have hsame := hfail.1.symm.trans hfail'.1
    simp at hsame
  refine ⟨(h.reused_iff hfresh).mp he.reused, fun m r hm hfail => ?_, fun m name hm hfail => ?_⟩
  · -- the link that stayed is to a tag asked for, and that is the one picked
    have hlinked : after.Linked txId r.tagId := (h.linked _).mpr (.inl ⟨m, r, hm, rfl, hfail⟩)
    obtain ⟨t, ht, hid, name, hname, hsame⟩ := he.known _ hlinked
    obtain ⟨n, hn⟩ := List.mem_iff_getElem?.mp hname
    obtain ⟨t', ht'⟩ := exists_pickedTag s.db.tagsByName ctx.now next hn
    have hlinked' : after.Linked txId t'.id :=
      (h.linked _).mpr (.inr ⟨n, t', ht', rfl, hother m n hfail⟩)
    have heq : t = t' := he.one t ht t' (h.picked_mem ht') (hid ▸ hlinked) hlinked'
      (sameName_trans hsame (sameName_symm (pickedTags_named hn ht')))
    obtain hfound | ⟨-, hmem, -⟩ := pickedTags_cases hn ht'
    · exact ⟨name, hname, t', hfound, heq ▸ hid⟩
    · obtain ⟨⟨k, hk, hnew⟩, -⟩ := mem_createdTags hmem
      have hold := (mem_linksOf.mp (List.mem_of_getElem? hm)).1
      rw [← heq, hid] at hnew
      exact absurd hnew (hlinks k hk r hold)
  · obtain ⟨t, ht, hsame, hlinked⟩ := he.all name (List.mem_of_getElem? hm)
    obtain ⟨m', r, -, -, hfail'⟩ | ⟨n, t', ht', hid, hpass⟩ := (h.linked _).mp hlinked
    · exact absurd hfail (hother m' m hfail')
    · obtain rfl := Table.eq_of_key_eq (h.picked_mem ht') ht hid
      obtain ⟨other, -, hn⟩ := exists_wanted ht'
      refine ⟨n, other, ?_, hn, sameName_trans (sameName_symm (pickedTags_named hn ht')) hsame⟩
      rintro rfl
      exact hpass hfail

theorem exact_iff (h : Replaced txId names next ctx s after)
    (hfresh : ∀ k, next ≤ k → uuid k ∉ s.db.tags.keys)
    (hlinks : ∀ k, next ≤ k → ∀ r ∈ s.db.transactionTags, r.tagId ≠ uuid k) :
    TagsExact s.db after txId names ↔ Replaceable txId names ctx s :=
  ⟨h.replaceable_of_exact hfresh hlinks, h.exact_of_replaceable hfresh⟩

end Replaced

end Links

/-! ## all or nothing -/

section Atomicity

variable [Extern]

/-- What a call should leave. -/
def AllOrNothing (txId : String) (q : EditRequest) (before : EditTables) :
    Except SqlError (List CorrectionContext) × Store EditTables → Prop
  | (.error _, s) => s.db = before
  | (.ok _, s) => s.db.Stores txId q ∧ ∀ names ∈ q.tags, TagsExact before s.db txId names

/-- What a call on a transaction that was found does leave depends on how far it comes. -/
structure SafeFrom (txId : String) (q : EditRequest) (old : TransactionsRow) (ctx : Ctx EditStmt)
    (s : Store EditTables) : Prop where
  /-- Not to `UPDATE transactions`: nothing was logged or learnt before. -/
  refused : UpdateRefused q ctx s → ¬ LogsCategory txId old q.fields.categoryId ctx s ∧
    ¬ LearnsFrom old q.fields.merchantDisplayName ctx s
  /-- To the end, without tags: the time can be read. -/
  untagged : ¬ UpdateRefused q ctx s → q.tags = none → q.Readable
  /-- Not to the links: the update was not needed, and no tag was created. -/
  stopped : ¬ UpdateRefused q ctx s → ∀ names ∈ q.tags, TagsStop names ctx s →
    NothingNew q old (s.db.notes txId) (s.db.location txId) ctx.now ∧ NothingCreated names ctx s
  /-- To the end: the time can be read, and the tags can be replaced. -/
  replaced : ¬ UpdateRefused q ctx s → ∀ names ∈ q.tags, ¬ TagsStop names ctx s →
    q.Readable ∧ Replaceable txId names ctx s

/-- The call is turned down before it writes, or is safe from the transaction it finds. -/
def UpdateSafe (allowed : Except SqlError Unit) (txId : String) (q : EditRequest)
    (ctx : Ctx EditStmt) (s : Store EditTables) : Prop :=
  allowed = .ok () → ¬ Fails .selectTransaction 0 ctx s →
    ∀ old ∈ s.db.db.getTransaction txId, SafeFrom txId q old ctx s

variable {txId : String} {q : EditRequest} {old : TransactionsRow} {ctx : Ctx EditStmt}
  {s s' : Store EditTables}

/-- The tags are read, created and linked as from the first state. -/
theorem Written.tagsStop (h : Written txId q old ctx s s') {names : List String} :
    TagsStop names ctx s' ↔ TagsStop names ctx s := by
  simp only [TagsStop, CannotCreate, EditTables.tagsByName, h.tags, h.plan .selectTags rfl,
    h.plan .insertTag rfl, h.plan .selectTransactionTags rfl]

theorem Written.nothingCreated (h : Written txId q old ctx s s') {names : List String} :
    NothingCreated names ctx s' ↔ NothingCreated names ctx s := by
  simp only [NothingCreated, FirstStops, EditTables.tagsByName, h.tags, h.plan .selectTags rfl,
    h.plan .insertTag rfl]

theorem Written.fresh (h : Written txId q old ctx s s') (hfresh : UndrawnIds s.db s.nextUuid) :
    ∀ k, s'.nextUuid ≤ k → uuid k ∉ s'.db.tags.keys := by
  intro k hk
  rw [h.tags]
  exact hfresh.tags k (h.drawn.trans hk)

/-- The tags are not replaced. -/
theorem Written.stopped (h : Written txId q old ctx s s') {names : List String} {T : Table TagsRow}
    (hT : T = s'.db.tags ↔ NothingCreated names ctx s') :
    { s'.db with tags := T } = s.db ↔
      NothingNew q old (s.db.notes txId) (s.db.location txId) ctx.now ∧
        NothingCreated names ctx s := by
  rw [← h.unchanged, ← h.nothingCreated, ← hT]
  constructor
  · intro heq
    have htags : T = s'.db.tags := (congrArg EditTables.tags heq).trans h.tags.symm
    subst htags
    exact ⟨heq, rfl⟩
  · rintro ⟨heq, rfl⟩
    exact heq

/-- The tags are replaced. -/
theorem Written.replaced (h : Written txId q old ctx s s') (hfresh : UndrawnIds s.db s.nextUuid)
    {names : List String} {after : EditTables}
    (hrows : after.tags.rows = s'.db.tags.rows ++ createdTags ctx.now s'.nextUuid
      (newNames s'.db.tagsByName (wantedNames names)))
    (hlinked : ∀ id, after.Linked txId id ↔
      (∃ m r, (s'.db.linksOf txId)[m]? = some r ∧ r.tagId = id ∧
        Fails .deleteTransactionTag m ctx s') ∨
      ∃ m t, (pickedTags s'.db.tagsByName ctx.now s'.nextUuid (wantedNames names))[m]? = some t ∧
        t.id = id ∧ ¬ Fails .insertTransactionTag m ctx s') :
    TagsExact s.db after txId names ↔ Replaceable txId names ctx s := by
  have hreplaced : Replaced txId names s'.nextUuid ctx s after := by
    simp only [EditTables.tagsByName, EditTables.linksOf, h.tags, h.links,
      h.plan .deleteTransactionTag rfl, h.plan .insertTransactionTag rfl] at hrows hlinked
    exact ⟨hrows, hlinked⟩
  exact hreplaced.exact_iff (fun k hk => hfresh.tags k (h.drawn.trans hk))
    fun k hk => hfresh.links k (h.drawn.trans hk)

/-- Once the row is written, the tags decide. -/
theorem Written.atomic_iff (h : Written txId q old ctx s s') (hfresh : UndrawnIds s.db s.nextUuid)
    (hpass : ¬ UpdateRefused q ctx s) (contexts : List CorrectionContext) :
    AllOrNothing txId q s.db ((do
      q.tags.elim (pure ()) (replaceTags txId)
      return contexts : EditProg (List CorrectionContext)) ctx s') ↔
    SafeFrom txId q old ctx s := by
  cases htags : q.tags with
  | none =>
    have hrun : AllOrNothing txId q s.db (.ok contexts, s') ↔ q.Readable := by
      simp [AllOrNothing, htags, h.stores]
    refine hrun.trans ⟨fun hr => ⟨fun hrefused => absurd hrefused hpass, fun _ _ => hr, ?_, ?_⟩,
      fun hsafe => hsafe.untagged hpass htags⟩
    · simp [htags]
    · simp [htags]
  | some names =>
    by_cases hstop : TagsStop names ctx s
    · obtain ⟨e, s'', T, hrun, hdb, hT⟩ :=
        replaceTags_stopped txId (h.fresh hfresh) (h.tagsStop.mpr hstop)
      have hleft : AllOrNothing txId q s.db ((do
          (some names).elim (pure ()) (replaceTags txId)
          return contexts : EditProg (List CorrectionContext)) ctx s') ↔ s''.db = s.db := by
        rw [Option.elim_some, Eff.bind_of_error hrun]
        exact Iff.rfl
      rw [hleft, hdb, h.stopped hT]
      refine ⟨fun hidle => ⟨fun hrefused => absurd hrefused hpass, ?_, fun _ other hother _ => ?_,
        fun _ other hother hdone => ?_⟩, fun hsafe => hsafe.stopped hpass names htags hstop⟩
      · simp [htags]
      · rw [htags, Option.mem_some_iff] at hother
        rw [← hother]
        exact hidle
      · rw [htags, Option.mem_some_iff] at hother
        rw [← hother] at hdone
        exact absurd hstop hdone
    · obtain ⟨s'', T, L, hrun, hdb, hrows, hlinked⟩ :=
        replaceTags_done (h.fresh hfresh) h.present (mt h.tagsStop.mp hstop)
      have hstores : s''.db.Stores txId q ↔ q.Readable := by
        rw [hdb, ← h.stores]
        rfl
      have hexact : TagsExact s.db s''.db txId names ↔ Replaceable txId names ctx s := by
        refine h.replaced hfresh ?_ ?_
        · rw [hdb]
          exact hrows
        · rw [hdb]
          exact hlinked
      have hleft : AllOrNothing txId q s.db ((do
          (some names).elim (pure ()) (replaceTags txId)
          return contexts : EditProg (List CorrectionContext)) ctx s') ↔
          s''.db.Stores txId q ∧ TagsExact s.db s''.db txId names := by
        rw [Option.elim_some, Eff.bind_of_ok hrun]
        simp [AllOrNothing, htags]
      rw [hleft, hstores, hexact]
      refine ⟨fun hdone => ⟨fun hrefused => absurd hrefused hpass, ?_, fun _ other hother h' => ?_,
        fun _ other hother _ => ?_⟩, fun hsafe => hsafe.replaced hpass names htags hstop⟩
      · simp [htags]
      · rw [htags, Option.mem_some_iff] at hother
        rw [← hother] at h'
        exact absurd h' hstop
      · rw [htags, Option.mem_some_iff] at hother
        rw [← hother]
        exact hdone

/-- **All or nothing**, and exactly when. -/
theorem update_atomic_iff (allowed : Except SqlError Unit) (txId : String) (q : EditRequest)
    (ctx : Ctx EditStmt) (s : Store EditTables) (hfresh : UndrawnIds s.db s.nextUuid) :
    AllOrNothing txId q s.db (transactionsUpdate allowed txId q ctx s) ↔
      UpdateSafe allowed txId q ctx s := by
  cases allowed with
  | error e =>
    refine iff_of_true rfl fun h => ?_
    cases h
  | ok u =>
    rw [transactionsUpdate]
    by_cases hread : Fails .selectTransaction 0 ctx s
    · have hrun : writeTransaction txId q ctx s =
          (.error ioFault, { s with skip := advance .selectTransaction ctx s.skip }) := by
        rw [writeTransaction, Eff.bind_of_error (query_fails hread _)]
      rw [Eff.bind_of_error hrun]
      exact iff_of_true rfl fun _ hpass => absurd hread hpass
    · cases hfound : s.db.db.getTransaction txId with
      | none =>
        have hrun : writeTransaction txId q ctx s = (.error (.anyhow "Transaction not found"),
            { s with skip := advance .selectTransaction ctx s.skip }) := by
          rw [writeTransaction, Eff.bind_of_ok (query_passes hread _), hfound]
          rfl
        rw [Eff.bind_of_error hrun]
        refine iff_of_true rfl fun _ _ old hold => ?_
        rw [hfound] at hold
        cases hold
      | some old =>
        have hsafe : UpdateSafe (.ok ()) txId q ctx s ↔ SafeFrom txId q old ctx s := by
          simp [UpdateSafe, hread, hfound]
        rw [hsafe]
        by_cases hrefused : UpdateRefused q ctx s
        · obtain ⟨e, s', hrun, hdb⟩ := writeTransaction_refused hread hfound hfresh hrefused
          rw [Eff.bind_of_error hrun]
          refine hdb.trans ⟨fun h => ⟨fun _ => h, ?_, ?_, ?_⟩, fun h => h.refused hrefused⟩
          · exact fun hpass => absurd hrefused hpass
          · exact fun hpass => absurd hrefused hpass
          · exact fun hpass => absurd hrefused hpass
        · obtain ⟨contexts, s', hrun, hwritten⟩ :=
            writeTransaction_written hread hfound hfresh hrefused
          rw [Eff.bind_of_ok hrun]
          exact hwritten.atomic_iff hfresh hrefused contexts

omit [Extern] in
/-- One debit, and no tags. -/
def untaggedDebit : Store EditTables where
  db := {
    db := { firstLedger.db with transactions := ⟨[debited "t1" 500 1000], by simp⟩ }
    notes := fun _ => none
    location := fun _ => none
    origins := .empty
    feedbackLog := []
    fieldRules := .empty
    variants := .empty
    tags := .empty
    transactionTags := .empty }
  nextUuid := 0
  skip := none

omit [Extern] in
/-- Another amount, and tags. -/
def tagged (tags : List String) : EditRequest where
  fields := { amountMinor := some 700 }
  notes := none
  location := none
  tags := some tags

theorem untaggedDebit_unused : UndrawnIds untaggedDebit.db untaggedDebit.nextUuid := by
  refine ⟨fun k _ hk => ?_, fun k _ hk => ?_, fun k _ hk => ?_, fun k _ r hr => ?_⟩
  · exact absurd hk List.not_mem_nil
  · exact absurd hk List.not_mem_nil
  · exact absurd hk List.not_mem_nil
  · exact absurd hr List.not_mem_nil

omit [Extern] in
/-- A new tag, asked for once. -/
theorem new_tag_stored :
    letI := Extern.ascii
    AllOrNothing "t1" (tagged ["Food "]) untaggedDebit.db
      (transactionsUpdate (.ok ()) "t1" (tagged ["Food "]) (.quiet 2000) untaggedDebit) := by
  let := Extern.ascii
  have hquiet : ∀ (i : EditStmt) n, ¬ Fails i n (.quiet 2000) untaggedDebit := by
    simp [Fails, Ctx.quiet]
  have hnew : newNames untaggedDebit.db.tagsByName (wantedNames ["Food "]) = ["Food"] := by
    decide +kernel
  have hgoes : ¬ TagsStop ["Food "] (.quiet 2000) untaggedDebit := by
    simp only [TagsStop, CannotCreate, hnew, hquiet]
    simp [untaggedDebit]
  refine (update_atomic_iff (.ok ()) "t1" (tagged ["Food "]) (.quiet 2000) untaggedDebit
    untaggedDebit_unused).mpr fun _ _ old _ => ⟨?_, ?_, ?_, ?_⟩
  · rintro (hfail | hinstrument)
    · exact absurd hfail (hquiet _ _)
    · cases hinstrument
  · simp [tagged]
  · intro _ names hnames hstop
    rw [← Option.some.inj hnames] at hstop
    exact absurd hstop hgoes
  · intro _ names hnames _
    rw [← Option.some.inj hnames]
    refine ⟨by simp [EditRequest.Readable, tagged], ?_, ?_, ?_⟩
    · rw [hnew]
      simp [Apart]
    · exact fun m r _ hfail => absurd hfail (hquiet _ _)
    · exact fun m name _ hfail => absurd hfail (hquiet _ _)

/-- A tag more, and an error. -/
theorem not_allOrNothing_of_error {before : EditTables}
    {r : Except SqlError (List CorrectionContext) × Store EditTables}
    (herror : r.1.toOption.isSome = false)
    (htags : r.2.db.tags.rows.length ≠ before.tags.rows.length) :
    ¬ AllOrNothing txId q before r := by
  obtain ⟨e | contexts, s⟩ := r
  · intro h
    have hsame : s.db = before := h
    exact htags (by rw [hsame])
  · cases herror

/-- Two tags of one name, one of them new. -/
theorem not_allOrNothing_of_two {before : EditTables}
    {r : Except SqlError (List CorrectionContext) × Store EditTables} {names : List String}
    (hok : r.1.toOption.isSome = true) (hnames : q.tags = some names) {t x : TagsRow}
    (ht : t ∈ r.2.db.tags.rows) (hx : x ∈ r.2.db.tags.rows) (hnew : t ∉ before.tags.rows)
    (hsame : sameName x.name t.name = true) (hne : x ≠ t) : ¬ AllOrNothing txId q before r := by
  obtain ⟨e | contexts, s⟩ := r
  · cases hok
  · rintro ⟨-, hexact⟩
    obtain hold | honly := (hexact names hnames).reused t ht
    · exact hnew hold
    · exact hne (honly x hx hsame)

omit [Extern] in
/-- A new tag, asked for twice.  Spelt the same, the call fails once the amount has changed and the
tag is there; spelt in another case, it creates two. -/
theorem repeated_tag_half_done :
    letI := Extern.ascii
    UndrawnIds untaggedDebit.db untaggedDebit.nextUuid ∧
      ¬ AllOrNothing "t1" (tagged ["Food", "Food"]) untaggedDebit.db
        (transactionsUpdate (.ok ()) "t1" (tagged ["Food", "Food"]) (.quiet 2000) untaggedDebit) ∧
      ¬ AllOrNothing "t1" (tagged ["Food", "food"]) untaggedDebit.db
        (transactionsUpdate (.ok ()) "t1" (tagged ["Food", "food"]) (.quiet 2000) untaggedDebit) := by
  let := Extern.ascii
  refine ⟨untaggedDebit_unused, not_allOrNothing_of_error (by decide +kernel) (by decide +kernel), ?_⟩
  have htags : (transactionsUpdate (.ok ()) "t1" (tagged ["Food", "food"]) (.quiet 2000)
      untaggedDebit).2.db.tags.rows = [newTag 2000 0 "Food", newTag 2000 1 "food"] := by decide +kernel
  refine @not_allOrNothing_of_two _ _ _ _ _ ["Food", "food"] (by decide +kernel) rfl
    (newTag 2000 0 "Food") (newTag 2000 1 "food") ?_ ?_ List.not_mem_nil (by decide +kernel)
    (by decide +kernel)
  · rw [htags]
    exact List.mem_cons_self
  · rw [htags]
    exact List.mem_cons_of_mem _ List.mem_cons_self

end Atomicity

end Dinero
