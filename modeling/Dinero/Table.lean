import Mathlib.Data.List.Nodup
import Mathlib.Tactic.Common

/-!
# Dinero.Table

Tables with a primary key.

A `Table` is the list of its rows in insertion order together with the proof
that no key occurs twice, so a table that breaks its primary key cannot be
built: `insert?` refuses a row whose key is taken, and an update is a `Patch`,
a change to a row that is known to leave the key alone.

Nothing here knows what the rows are.
-/

/-- Rows that carry their primary key. -/
class Keyed (α : Type) (κ : outParam Type) where
  key : α → κ

/-- Rows in insertion order, no two with one key. -/
structure Table (α : Type) {κ : Type} [Keyed α κ] where
  rows : List α
  nodup : (rows.map Keyed.key).Nodup

/-- A change to a row that leaves its key alone. -/
structure Patch (α : Type) {κ : Type} [Keyed α κ] where
  run : α → α
  key_run : ∀ r, Keyed.key (run r) = Keyed.key r

attribute [simp] Patch.key_run

/-- The change that changes nothing. -/
def Patch.idle {α κ : Type} [Keyed α κ] : Patch α := ⟨id, fun _ => rfl⟩

namespace Table

variable {α κ : Type} [Keyed α κ]

instance : Membership α (Table α) := ⟨fun T r => r ∈ T.rows⟩

theorem mem_def {T : Table α} {r : α} : r ∈ T ↔ r ∈ T.rows := Iff.rfl

instance (T : Table α) (p : α → Prop) [DecidablePred p] : Decidable (∃ r ∈ T, p r) :=
  inferInstanceAs (Decidable (∃ r ∈ T.rows, p r))

instance (T : Table α) (p : α → Prop) [DecidablePred p] : Decidable (∀ r ∈ T, p r) :=
  inferInstanceAs (Decidable (∀ r ∈ T.rows, p r))

/-- The table without rows. -/
def empty : Table α := ⟨[], List.nodup_nil⟩

@[simp] theorem not_mem_empty (r : α) : r ∉ (empty : Table α) := List.not_mem_nil

/-- One key names one row. -/
theorem eq_of_key_eq {T : Table α} {r r' : α} (h : r ∈ T) (h' : r' ∈ T)
    (hk : Keyed.key r = Keyed.key r') : r = r' :=
  List.inj_on_of_nodup_map T.nodup h h' hk

@[ext] theorem ext {T T' : Table α} (h : T.rows = T'.rows) : T = T' := by
  cases T
  cases T'
  cases h
  rfl

/-- The keys in use. -/
def keys (T : Table α) : List κ := T.rows.map Keyed.key

theorem mem_keys {T : Table α} {k : κ} : k ∈ T.keys ↔ ∃ r ∈ T, Keyed.key r = k := by
  simp [keys, mem_def]

/-- Equal columns: every row here has its counterpart there. -/
theorem exists_of_map_eq {β : Type} {T T' : Table α} {π : α → β}
    (h : T'.rows.map π = T.rows.map π) {x : α} (hx : x ∈ T') : ∃ r ∈ T, π r = π x := by
  have hmem : π x ∈ T.rows.map π := h ▸ List.mem_map_of_mem hx
  simpa [mem_def] using hmem

variable [DecidableEq κ]

/-- The row with key `k`. -/
def find? (T : Table α) (k : κ) : Option α := T.rows.find? fun r => Keyed.key r = k

/-- Is there a row with key `k`? -/
def contains (T : Table α) (k : κ) : Bool := (T.find? k).isSome

/-- Append a row, unless its key is taken. -/
def insert? (T : Table α) (r : α) : Option (Table α) :=
  if h : Keyed.key r ∈ T.keys then none
  else some ⟨T.rows ++ [r], by
    rw [List.map_append, List.nodup_append]
    refine ⟨T.nodup, by simp, ?_⟩
    simp only [List.map_cons, List.map_nil, List.mem_singleton]
    rintro a ha _ rfl rfl
    exact h ha⟩

/-- Change the row with key `k`, if there is one. -/
def modify (T : Table α) (k : κ) (u : Patch α) : Table α where
  rows := T.rows.map fun r => if Keyed.key r = k then u.run r else r
  nodup := by
    have h : (T.rows.map fun r => if Keyed.key r = k then u.run r else r).map Keyed.key
        = T.rows.map Keyed.key := by
      rw [List.map_map]
      refine List.map_congr_left fun r _ => ?_
      by_cases hr : Keyed.key r = k <;> simp [hr]
    rw [h]
    exact T.nodup

/-- The rows that `p` admits. -/
def keep (T : Table α) (p : α → Bool) : Table α where
  rows := T.rows.filter p
  nodup := T.nodup.sublist (List.filter_sublist.map _)

omit [DecidableEq κ] in
@[simp] theorem mem_keep {T : Table α} {p : α → Bool} {r : α} :
    r ∈ T.keep p ↔ r ∈ T ∧ p r = true := List.mem_filter

/-! ## look-ups -/

theorem find?_eq_some {T : Table α} {k : κ} {r : α} :
    T.find? k = some r ↔ r ∈ T ∧ Keyed.key r = k := by
  constructor
  · intro h
    exact ⟨List.mem_of_find?_eq_some h, by simpa using List.find?_some h⟩
  · rintro ⟨hr, hk⟩
    rcases hf : T.find? k with _ | r'
    · have := List.find?_eq_none.mp hf r hr
      simp [hk] at this
    · have h' : r' ∈ T ∧ Keyed.key r' = k :=
        ⟨List.mem_of_find?_eq_some hf, by simpa using List.find?_some hf⟩
      rw [eq_of_key_eq h'.1 hr (h'.2.trans hk.symm)]

theorem find?_eq_none {T : Table α} {k : κ} : T.find? k = none ↔ ∀ r ∈ T, Keyed.key r ≠ k := by
  simp [find?, mem_def]

theorem contains_iff {T : Table α} {k : κ} : T.contains k ↔ ∃ r ∈ T, Keyed.key r = k := by
  rw [contains, Option.isSome_iff_exists]
  simp only [find?_eq_some]

/-- Equal columns with the key among them: the same keys are in use. -/
theorem contains_of_map_eq {β : Type} {T T' : Table α} {π : α → β} (g : β → κ)
    (hg : ∀ r, g (π r) = Keyed.key r) (h : T'.rows.map π = T.rows.map π) (k : κ) :
    T'.contains k = T.contains k := by
  have hkeys : T'.keys = T.keys := by
    have := congrArg (List.map g) h
    simpa [keys, List.map_map, Function.comp_def, hg] using this
  rw [Bool.eq_iff_iff, contains_iff, contains_iff, ← mem_keys, ← mem_keys, hkeys]

/-! ## insertion -/

/-- What a successful insertion did. -/
theorem insert?_eq_some {T T' : Table α} {r : α} :
    T.insert? r = some T' ↔ (∀ x ∈ T, Keyed.key x ≠ Keyed.key r) ∧ T'.rows = T.rows ++ [r] := by
  unfold insert?
  split
  · next h =>
      obtain ⟨x, hx, hk⟩ := mem_keys.mp h
      simp only [reduceCtorEq, false_iff, not_and]
      exact fun hall => absurd hk (hall x hx)
  · next h =>
      have hall : ∀ x ∈ T, Keyed.key x ≠ Keyed.key r :=
        fun x hx hk => h (mem_keys.mpr ⟨x, hx, hk⟩)
      simp only [Option.some.injEq]
      constructor
      · rintro rfl
        exact ⟨hall, rfl⟩
      · exact fun h' => Table.ext h'.2.symm

theorem insert?_eq_none {T : Table α} {r : α} :
    T.insert? r = none ↔ ∃ x ∈ T, Keyed.key x = Keyed.key r := by
  unfold insert?
  split
  · next h => simpa using mem_keys.mp h
  · next h => simpa using fun x hx hk => h (mem_keys.mpr ⟨x, hx, hk⟩)

/-- A new key is taken. -/
theorem exists_insert {T : Table α} {r : α} (h : ∀ x ∈ T, Keyed.key x ≠ Keyed.key r) :
    ∃ T', T.insert? r = some T' := by
  rw [← Option.ne_none_iff_exists']
  intro hnone
  obtain ⟨x, hx, hkey⟩ := insert?_eq_none.mp hnone
  exact h x hx hkey

theorem mem_keys_of_insert? {T T' : Table α} {r : α} (h : T.insert? r = some T') {k : κ} :
    k ∈ T'.keys ↔ k ∈ T.keys ∨ k = Keyed.key r := by
  simp [keys, (insert?_eq_some.mp h).2]

theorem mem_of_insert? {T T' : Table α} {r x : α} (h : T.insert? r = some T') :
    x ∈ T' ↔ x ∈ T ∨ x = r := by
  rw [mem_def, (insert?_eq_some.mp h).2]
  simp [mem_def]

/-- Looking a row up after an insertion. -/
theorem find?_insert? {T T' : Table α} {r : α} (h : T.insert? r = some T') (k : κ) :
    T'.find? k = if k = Keyed.key r then some r else T.find? k := by
  obtain ⟨hnew, hrows⟩ := insert?_eq_some.mp h
  split
  · next hk => exact find?_eq_some.mpr ⟨(mem_of_insert? h).mpr (.inr rfl), hk.symm⟩
  · next hk => simp [find?, hrows, List.find?_append, Ne.symm hk]

/-! ## updates -/

theorem mem_modify {T : Table α} {k : κ} {u : Patch α} {x : α} :
    x ∈ T.modify k u ↔ ∃ r ∈ T, x = if Keyed.key r = k then u.run r else r := by
  simp [mem_def, modify, eq_comm]

/-- A row afterwards is an old one of another key, or the one that was patched. -/
theorem mem_modify_cases {T : Table α} {k : κ} {u : Patch α} {x : α} (h : x ∈ T.modify k u) :
    (x ∈ T ∧ Keyed.key x ≠ k) ∨ ∃ r ∈ T, Keyed.key r = k ∧ x = u.run r := by
  obtain ⟨r, hr, hx⟩ := mem_modify.mp h
  by_cases hk : Keyed.key r = k
  · rw [if_pos hk] at hx
    exact .inr ⟨r, hr, hk, hx⟩
  · rw [if_neg hk] at hx
    exact .inl ⟨hx ▸ hr, hx ▸ hk⟩

/-- Rows with another key are untouched. -/
theorem mem_modify_of_ne {T : Table α} {k : κ} {u : Patch α} {x : α} (h : Keyed.key x ≠ k) :
    x ∈ T.modify k u ↔ x ∈ T := by
  rw [mem_modify]
  constructor
  · rintro ⟨r, hr, rfl⟩
    by_cases hk : Keyed.key r = k
    · simp [hk] at h
    · simpa [hk] using hr
  · exact fun hx => ⟨x, hx, by simp [h]⟩

/-- The updated row is the old one, patched. -/
theorem mem_modify_of_mem {T : Table α} {k : κ} {u : Patch α} {r : α} (hr : r ∈ T)
    (hk : Keyed.key r = k) : u.run r ∈ T.modify k u :=
  mem_modify.mpr ⟨r, hr, by simp [hk]⟩

theorem find?_modify (T : Table α) (k k' : κ) (u : Patch α) :
    (T.modify k u).find? k' = if k' = k then (T.find? k').map u.run else T.find? k' := by
  rcases hf : T.find? k' with _ | r
  · have hnone : (T.modify k u).find? k' = none := by
      rw [find?_eq_none] at hf ⊢
      intro x hx
      obtain ⟨r, hr, rfl⟩ := mem_modify.mp hx
      by_cases hk : Keyed.key r = k <;> simpa [hk] using hf r hr
    simp [hnone]
  · obtain ⟨hr, hk⟩ := find?_eq_some.mp hf
    split
    · next h =>
        rw [Option.map_some, find?_eq_some]
        exact ⟨mem_modify_of_mem hr (hk.trans h), by simp [hk]⟩
    · next h =>
        rw [find?_eq_some]
        exact ⟨(mem_modify_of_ne (by rwa [hk])).mpr hr, hk⟩

/-- A column the patch leaves alone, found under any key. -/
theorem map_find?_modify {β : Type} {u : Patch α} {π : α → β} (h : ∀ r, π (u.run r) = π r)
    (T : Table α) (k k' : κ) :
    ((T.modify k u).find? k').map π = (T.find? k').map π := by
  rw [find?_modify]
  split
  · rw [Option.map_map]
    exact congrArg (Option.map · _) (funext h)
  · rfl

/-- The first row with a property the patch does not touch. -/
theorem rows_find?_modify {T : Table α} {k : κ} {u : Patch α} {p : α → Bool}
    (h : ∀ r, p (u.run r) = p r) : (T.modify k u).rows.find? p =
      (T.rows.find? p).map fun r => if Keyed.key r = k then u.run r else r := by
  have hp : (p ∘ fun r => if Keyed.key r = k then u.run r else r) = p := by
    funext r
    by_cases hr : Keyed.key r = k
    · simp [hr, h]
    · simp [hr]
  rw [modify, List.find?_map, hp]

@[simp] theorem contains_modify (T : Table α) (k k' : κ) (u : Patch α) :
    (T.modify k u).contains k' = T.contains k' := by
  unfold contains
  rw [find?_modify]
  split <;> simp

@[simp] theorem modify_idle (T : Table α) (k : κ) : T.modify k .idle = T := by
  refine Table.ext ?_
  simp [modify, Patch.idle]

/-- Without a row of that key there is nothing to change. -/
theorem modify_of_find?_none {T : Table α} {k : κ} {u : Patch α} (h : T.find? k = none) :
    T.modify k u = T := by
  have hne := find?_eq_none.mp h
  refine Table.ext ?_
  rw [modify]
  refine (List.map_congr_left fun r hr => ?_).trans (List.map_id _)
  rw [if_neg (hne r hr)]
  rfl

@[simp] theorem keys_modify (T : Table α) (k : κ) (u : Patch α) :
    (T.modify k u).keys = T.keys := by
  simp only [keys, modify, List.map_map]
  refine List.map_congr_left fun r _ => ?_
  by_cases hr : Keyed.key r = k <;> simp [hr]

/-- A column the patch leaves alone is the same column afterwards. -/
theorem map_modify {β : Type} {T : Table α} {k : κ} {u : Patch α} {π : α → β}
    (h : ∀ r ∈ T, Keyed.key r = k → π (u.run r) = π r) :
    (T.modify k u).rows.map π = T.rows.map π := by
  simp only [modify, List.map_map]
  refine List.map_congr_left fun r hr => ?_
  by_cases hk : Keyed.key r = k
  · simp [hk, h r hr hk]
  · simp [hk]

/-- A selection that admits a row neither before nor after the patch does not
see the patch. -/
theorem filter_modify {T : Table α} {k : κ} {u : Patch α} {p : α → Bool}
    (h : ∀ r ∈ T, Keyed.key r = k → p r = false ∧ p (u.run r) = false) :
    (T.modify k u).rows.filter p = T.rows.filter p := by
  have hlist : ∀ l : List α, (∀ r ∈ l, Keyed.key r = k → p r = false ∧ p (u.run r) = false) →
      (l.map fun r => if Keyed.key r = k then u.run r else r).filter p = l.filter p := by
    intro l
    induction l with
    | nil => exact fun _ => rfl
    | cons r l ih =>
      intro hl
      have hrest := ih fun x hx => hl x (List.mem_cons_of_mem _ hx)
      rw [List.map_cons, List.filter_cons, List.filter_cons, hrest]
      by_cases hk : Keyed.key r = k
      · obtain ⟨hold, hnew⟩ := hl r List.mem_cons_self hk
        simp [hk, hold, hnew]
      · simp [hk]
  exact hlist T.rows h

/-- A selection that does not admit the new row does not see the insertion. -/
theorem filter_insert? {T T' : Table α} {r : α} {p : α → Bool} (h : T.insert? r = some T')
    (hp : p r = false) : T'.rows.filter p = T.rows.filter p := by
  rw [(insert?_eq_some.mp h).2, List.filter_append]
  simp [hp]

end Table
