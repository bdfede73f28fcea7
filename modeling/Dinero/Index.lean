import Dinero.Table

/-!
# Dinero.Index

Tables with a unique index besides their primary key.

The index is a partial function of the row: a row it sends to `none` is
outside (a `NULL` in a unique column, a row a partial index leaves out), two
rows it sends to one `some i` cannot both be there.

Nothing here knows what the rows are.
-/

/-- A table in which no two rows agree on the index `ix`. -/
structure Indexed (α : Type) {κ ι : Type} [Keyed α κ] (ix : α → Option ι) extends Table α where
  unique : ∀ a ∈ rows, ∀ b ∈ rows, ∀ i, ix a = some i → ix b = some i → a = b

namespace Indexed

variable {α κ ι : Type} [Keyed α κ] {ix : α → Option ι}

instance : Membership α (Indexed α ix) := ⟨fun T r => r ∈ T.rows⟩

theorem mem_def {T : Indexed α ix} {r : α} : r ∈ T ↔ r ∈ T.rows := Iff.rfl

theorem mem_toTable {T : Indexed α ix} {r : α} : r ∈ T.toTable ↔ r ∈ T := Iff.rfl

@[ext] theorem ext {T T' : Indexed α ix} (h : T.rows = T'.rows) : T = T' := by
  obtain ⟨⟨rows, nodup⟩, unique⟩ := T
  obtain ⟨⟨rows', nodup'⟩, unique'⟩ := T'
  cases h
  rfl

/-- The table without rows. -/
def empty : Indexed α ix := ⟨.empty, fun _ h => absurd h List.not_mem_nil⟩

@[simp] theorem not_mem_empty (r : α) : r ∉ (empty : Indexed α ix) := List.not_mem_nil

/-- One index names one row. -/
theorem eq_of_index_eq {T : Indexed α ix} {a b : α} {i : ι} (ha : a ∈ T) (hb : b ∈ T)
    (hai : ix a = some i) (hbi : ix b = some i) : a = b :=
  T.unique a ha b hb i hai hbi

section Lookup

variable [DecidableEq ι]

/-- The row with index `i`. -/
def lookup (T : Indexed α ix) (i : ι) : Option α := T.rows.find? fun r => ix r = some i

theorem lookup_eq_some {T : Indexed α ix} {i : ι} {r : α} :
    T.lookup i = some r ↔ r ∈ T ∧ ix r = some i := by
  constructor
  · intro h
    exact ⟨List.mem_of_find?_eq_some h, by simpa using List.find?_some h⟩
  · rintro ⟨hr, hi⟩
    rcases hf : T.lookup i with _ | r'
    · have := List.find?_eq_none.mp hf r hr
      simp [hi] at this
    · have hr' : r' ∈ T := List.mem_of_find?_eq_some hf
      have hi' : ix r' = some i := by simpa using List.find?_some hf
      rw [eq_of_index_eq hr' hr hi' hi]

theorem lookup_eq_none {T : Indexed α ix} {i : ι} :
    T.lookup i = none ↔ ∀ r ∈ T, ix r ≠ some i := by
  simp [lookup, mem_def]

/-- Is the index of `r` taken by a row that `skip` does not excuse? -/
def clashes (T : Indexed α ix) (skip : α → Bool) (r : α) : Bool :=
  T.rows.any fun x => !skip x && (ix x).isSome && ix x = ix r

theorem clashes_eq_false {T : Indexed α ix} {skip : α → Bool} {r : α} :
    T.clashes skip r = false ↔
      ∀ x ∈ T, skip x = false → ∀ i, ix x = some i → ix r ≠ some i := by
  simp only [clashes, List.any_eq_false, Bool.and_eq_true, Bool.not_eq_true', decide_eq_true_eq,
    Option.isSome_iff_exists, not_and, and_imp, forall_exists_index]
  constructor
  · exact fun h x hx hskip i hi hr => h x hx hskip i hi (hi.trans hr.symm)
  · exact fun h x hx hskip i hi hr => h x hx hskip i hi (hr ▸ hi)

/-- A row is refused for its key or for its index. -/
theorem refused_iff {T : Indexed α ix} {r : α} :
    (Keyed.key r ∈ T.keys ∨ T.clashes (fun _ => false) r = true) ↔
      (∃ x ∈ T, Keyed.key x = Keyed.key r) ∨ ∃ x ∈ T, ∃ i, ix x = some i ∧ ix r = some i := by
  have hclash : T.clashes (fun _ => false) r = true ↔
      ∃ x ∈ T, ∃ i, ix x = some i ∧ ix r = some i := by
    rw [← Bool.not_eq_false, clashes_eq_false]
    simp
  rw [hclash, Table.mem_keys]
  rfl

end Lookup

variable [DecidableEq κ] [DecidableEq ι]

/-- Append a row, unless its key or its index is taken. -/
def insert? (T : Indexed α ix) (r : α) : Option (Indexed α ix) :=
  if h : Keyed.key r ∈ T.keys ∨ T.clashes (fun _ => false) r = true then none
  else some {
    rows := T.rows ++ [r]
    nodup := by
      rw [not_or] at h
      rw [List.map_append, List.nodup_append]
      refine ⟨T.nodup, by simp, ?_⟩
      simp only [List.map_cons, List.map_nil, List.mem_singleton]
      rintro a ha _ rfl rfl
      exact h.1 ha
    unique := by
      rw [not_or, Bool.not_eq_true, clashes_eq_false] at h
      intro a ha b hb i hai hbi
      rw [List.mem_append, List.mem_singleton] at ha hb
      rcases ha with ha | rfl
      · rcases hb with hb | rfl
        · exact T.unique a ha b hb i hai hbi
        · exact absurd hbi (h.2 a ha rfl i hai)
      · rcases hb with hb | rfl
        · exact absurd hai (h.2 b hb rfl i hbi)
        · rfl }

theorem insert?_eq_none {T : Indexed α ix} {r : α} :
    T.insert? r = none ↔ (∃ x ∈ T, Keyed.key x = Keyed.key r) ∨
      ∃ x ∈ T, ∃ i, ix x = some i ∧ ix r = some i := by
  rw [← refused_iff]
  unfold insert?
  split
  · next h => simpa using h
  · next h => simpa using h

/-- What a successful insertion did. -/
theorem insert?_eq_some {T T' : Indexed α ix} {r : α} :
    T.insert? r = some T' ↔ (∀ x ∈ T, Keyed.key x ≠ Keyed.key r) ∧
      (∀ x ∈ T, ∀ i, ix x = some i → ix r ≠ some i) ∧ T'.rows = T.rows ++ [r] := by
  unfold insert?
  split
  · next h =>
      simp only [reduceCtorEq, false_iff, not_and]
      intro hkey hix
      rcases refused_iff.mp h with ⟨x, hx, hk⟩ | ⟨x, hx, i, hi, hr⟩
      · exact absurd hk (hkey x hx)
      · exact absurd hr (hix x hx i hi)
  · next h =>
      simp only [refused_iff, not_or, not_exists, not_and] at h
      simp only [Option.some.injEq]
      constructor
      · rintro rfl
        exact ⟨h.1, h.2, rfl⟩
      · exact fun h' => Indexed.ext h'.2.2.symm

/-- To the table below it is an insertion. -/
theorem toTable_insert? {T T' : Indexed α ix} {r : α} (h : T.insert? r = some T') :
    T.toTable.insert? r = some T'.toTable := by
  obtain ⟨hnew, -, hrows⟩ := insert?_eq_some.mp h
  exact Table.insert?_eq_some.mpr ⟨hnew, hrows⟩

theorem mem_of_insert? {T T' : Indexed α ix} {r x : α} (h : T.insert? r = some T') :
    x ∈ T' ↔ x ∈ T ∨ x = r := by
  rw [mem_def, (insert?_eq_some.mp h).2.2]
  simp [mem_def]

/-- A new key under a new index is taken. -/
theorem exists_insert {T : Indexed α ix} {r : α} (hkey : ∀ x ∈ T, Keyed.key x ≠ Keyed.key r)
    (hix : ∀ x ∈ T, ∀ i, ix x = some i → ix r ≠ some i) : ∃ T', T.insert? r = some T' := by
  rw [← Option.ne_none_iff_exists']
  intro hnone
  rcases insert?_eq_none.mp hnone with ⟨x, hx, hk⟩ | ⟨x, hx, i, hi, hr⟩
  · exact hkey x hx hk
  · exact hix x hx i hi hr

theorem mem_keys_of_insert? {T T' : Indexed α ix} {r : α} (h : T.insert? r = some T') {k : κ} :
    k ∈ T'.keys ↔ k ∈ T.keys ∨ k = Keyed.key r := by
  simp [Table.keys, (insert?_eq_some.mp h).2.2]

/-- Change the row with key `k`, unless the change takes an index that another
row has. -/
def modify? (T : Indexed α ix) (k : κ) (u : Patch α) : Option (Indexed α ix) :=
  if h : (T.find? k).any (fun r => T.clashes (fun x => Keyed.key x = k) (u.run r)) = true then none
  else some {
    T.toTable.modify k u with
    unique := by
      intro a ha b hb i hai hbi
      -- a row that keeps its index cannot meet the patched one
      have hfree : ∀ r ∈ T, Keyed.key r = k → ∀ x ∈ T, Keyed.key x ≠ k →
          ix x = some i → ix (u.run r) ≠ some i := by
        intro r hr hk x hx hkx hxi
        have hfind : T.find? k = some r := Table.find?_eq_some.mpr ⟨hr, hk⟩
        rw [hfind, Option.any_some, Bool.not_eq_true, clashes_eq_false] at h
        exact h x hx (decide_eq_false hkx) i hxi
      rcases Table.mem_modify_cases ha with ⟨ha, hka⟩ | ⟨r, hr, hkr, rfl⟩
      · rcases Table.mem_modify_cases hb with ⟨hb, hkb⟩ | ⟨q, hq, hkq, rfl⟩
        · exact T.unique a ha b hb i hai hbi
        · exact absurd hbi (hfree q hq hkq a ha hka hai)
      · rcases Table.mem_modify_cases hb with ⟨hb, hkb⟩ | ⟨q, hq, hkq, rfl⟩
        · exact absurd hai (hfree r hr hkr b hb hkb hbi)
        · rw [Table.eq_of_key_eq hr hq (hkr.trans hkq.symm)] }

/-- A change is refused for the index it takes. -/
theorem modify?_eq_none {T : Indexed α ix} {k : κ} {u : Patch α} :
    T.modify? k u = none ↔
      ∃ r, T.find? k = some r ∧ T.clashes (fun x => Keyed.key x = k) (u.run r) = true := by
  unfold modify?
  split
  · next h => simpa [Option.any_eq_true] using h
  · next h => simpa [Option.any_eq_true] using h

/-- What a successful change did. -/
theorem modify?_eq_some {T T' : Indexed α ix} {k : κ} {u : Patch α} (h : T.modify? k u = some T') :
    T'.toTable = T.toTable.modify k u := by
  unfold modify? at h
  split at h
  · simp at h
  · cases h
    rfl

/-- A change that keeps the index of its row, or gives it up, is not refused. -/
theorem exists_modify {T : Indexed α ix} {k : κ} {u : Patch α}
    (h : ∀ r ∈ T, Keyed.key r = k → ix (u.run r) = ix r ∨ ix (u.run r) = none) :
    ∃ T', T.modify? k u = some T' := by
  rw [← Option.ne_none_iff_exists']
  intro hnone
  obtain ⟨r, hr, hclash⟩ := modify?_eq_none.mp hnone
  obtain ⟨hmem, hk⟩ := Table.find?_eq_some.mp hr
  have hfree : T.clashes (fun x => Keyed.key x = k) (u.run r) = false := by
    refine clashes_eq_false.mpr fun x hx hskip i hi hnew => ?_
    rcases h r hmem hk with hsame | hgone
    · have heq : x = r := T.unique x hx r hmem i hi (hsame ▸ hnew)
      exact absurd (heq ▸ hk) (of_decide_eq_false hskip)
    · rw [hgone] at hnew
      exact absurd hnew nofun
  rw [hfree] at hclash
  exact absurd hclash nofun

end Indexed
