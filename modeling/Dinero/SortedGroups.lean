import Mathlib.Algebra.Order.Ring.Nat
import Mathlib.Data.List.Sort

/-!
# Dinero.SortedGroups

Lists sorted by a key, and sorted lists cut into groups.

A sort keeps the order of what sorts alike, so a list sorted by one key and then
by another is sorted by both.  A group goes on as long as what comes shares it
with the element it started with; where sharing depends on the key alone, the
groups do not depend on the order of what has the same key.
-/

namespace SortedGroups

variable {α : Type}

/-! ## sorting -/

section Stable

variable {r : α → α → Prop} [DecidableRel r] [IsTrans α r]

/-- Sorting keeps the order of what sorts alike. -/
theorem filter_alike_insertionSort (l : List α) (a : α) :
    (l.insertionSort r).filter (fun b => r a b ∧ r b a) = l.filter fun b => r a b ∧ r b a := by
  have halike : (l.filter fun b => r a b ∧ r b a).Pairwise r := by
    rw [List.pairwise_iff_forall_sublist]
    intro b c hbc
    have hb : b ∈ l.filter fun b => r a b ∧ r b a := hbc.subset (by simp)
    have hc : c ∈ l.filter fun b => r a b ∧ r b a := hbc.subset (by simp)
    rw [List.mem_filter, decide_eq_true_eq] at hb hc
    exact trans_of r hb.2.2 hc.2.1
  have hsub := (List.sublist_insertionSort halike List.filter_sublist).filter
    fun b => decide (r a b ∧ r b a)
  rw [List.filter_filter] at hsub
  simp only [Bool.and_self] at hsub
  exact (hsub.eq_of_length
    ((List.perm_insertionSort r l).filter _).length_eq.symm).symm

variable [Std.Total r]

/-- What sorts alike is in the order it came in. -/
theorem pairwise_insertionSort_alike {s : α → α → Prop} {l : List α} (h : l.Pairwise s) :
    (l.insertionSort r).Pairwise fun a b => r a b ∧ (r b a → s a b) := by
  rw [List.pairwise_iff_forall_sublist]
  intro a b hab
  have hle : r a b :=
    List.pairwise_iff_forall_sublist.mp (List.pairwise_insertionSort r l) hab
  refine ⟨hle, fun hba => ?_⟩
  have halike := hab.filter fun c => decide (r a c ∧ r c a)
  rw [filter_alike_insertionSort] at halike
  have hself : r a a := refl_of r a
  rw [List.filter_cons_of_pos (by simpa using hself),
    List.filter_cons_of_pos (by simpa using ⟨hle, hba⟩), List.filter_nil] at halike
  exact List.pairwise_iff_forall_sublist.mp h (halike.trans List.filter_sublist)

end Stable

variable {K J : Type} [LinearOrder K] [LinearOrder J]

instance total_key (key : α → K) : Std.Total fun a b => key a ≤ key b :=
  ⟨fun a b => le_total (key a) (key b)⟩

instance trans_key (key : α → K) : IsTrans α fun a b => key a ≤ key b :=
  ⟨fun _ _ _ => le_trans⟩

/-- Sorted by one key and then by another, a list does not show the order it came in. -/
theorem insertionSort_eq_of_perm {key : α → K} {next : α → J} {l l' : List α}
    (hperm : l.Perm l') (hl : l.Pairwise fun a b => key a ≤ key b)
    (hl' : l'.Pairwise fun a b => key a ≤ key b)
    (hkeys : ∀ a ∈ l, ∀ b ∈ l, key a = key b → next a = next b → a = b) :
    l.insertionSort (fun a b => next a ≤ next b) =
      l'.insertionSort fun a b => next a ≤ next b := by
  have hsorted := pairwise_insertionSort_alike (r := fun a b => next a ≤ next b) hl
  have hsorted' := pairwise_insertionSort_alike (r := fun a b => next a ≤ next b) hl'
  have hsort := List.perm_insertionSort (fun a b => next a ≤ next b) l
  have hsort' := List.perm_insertionSort (fun a b => next a ≤ next b) l'
  refine List.Perm.eq_of_pairwise (fun a b ha hb hab hba => ?_) hsorted hsorted'
    ((hsort.trans hperm).trans hsort'.symm)
  have hal := hsort.mem_iff.mp ha
  have hbl := hperm.mem_iff.mpr (hsort'.mem_iff.mp hb)
  exact hkeys a hal b hbl (le_antisymm (hab.2 hba.1) (hba.2 hab.1)) (le_antisymm hab.1 hba.1)

/-! ## groups -/

variable (shares : α → α → Bool)

/-- The groups of a list, the first one started already. -/
def groupFrom (anchor : α) (group : List α) : List α → List (List α)
  | [] => [anchor :: group]
  | a :: l =>
    if shares anchor a then groupFrom anchor (group ++ [a]) l
    else (anchor :: group) :: groupFrom a [] l

def groups : List α → List (List α)
  | [] => []
  | a :: l => groupFrom shares a [] l

variable {shares}

theorem flatten_groupFrom (anchor : α) (group l : List α) :
    (groupFrom shares anchor group l).flatten = anchor :: group ++ l := by
  induction l generalizing anchor group with
  | nil => simp [groupFrom]
  | cons a l ih =>
    rw [groupFrom]
    split
    · simp [ih]
    · simp [ih]

@[simp] theorem flatten_groups (l : List α) : (groups shares l).flatten = l := by
  cases l with
  | nil => rfl
  | cons a l => simp [groups, flatten_groupFrom]

theorem ne_nil_of_mem_groupFrom {anchor : α} {group l g : List α}
    (h : g ∈ groupFrom shares anchor group l) : g ≠ [] := by
  induction l generalizing anchor group with
  | nil => simp [List.mem_singleton.mp h]
  | cons a l ih =>
    rw [groupFrom] at h
    split at h
    · exact ih h
    · obtain rfl | h := List.mem_cons.mp h
      · simp
      · exact ih h

theorem ne_nil_of_mem_groups {l g : List α} (h : g ∈ groups shares l) : g ≠ [] := by
  cases l with
  | nil => cases h
  | cons a l => exact ne_nil_of_mem_groupFrom h

/-- Among the elements of `P`, the key says who shares, and what has the same key does. -/
structure KeyedBy (shares : α → α → Bool) (key : α → K) (P : α → Prop) : Prop where
  same : ∀ a b, P a → P b → key a = key b → shares a b = true
  congr : ∀ a a' b b', P a → P a' → P b → P b' → key a = key a' → key b = key b' →
    shares a b = shares a' b'

variable {key : α → K} {P : α → Prop}

/-- Where a group ends, the key grows. -/
theorem split_of_not_shares {a c : α} {g L : List α} (hkeyed : KeyedBy shares key P)
    (hP : ∀ x ∈ a :: g ++ c :: L, P x)
    (hsort : (a :: g ++ c :: L).Pairwise fun x y => key x ≤ key y)
    (hgroup : ∀ x ∈ g, shares a x = true) (hc : ¬ shares a c = true) :
    (a :: g ++ c :: L).filter (fun x => key x < key c) = a :: g ∧
      (a :: g ++ c :: L).filter (fun x => ¬ key x < key c) = c :: L := by
  have hcP : P c := hP c (by simp)
  have haP : P a := hP a (by simp)
  obtain ⟨-, hrest, hacross⟩ := List.pairwise_append.mp hsort
  have hfront : ∀ x ∈ a :: g, key x < key c := by
    intro x hx
    refine lt_of_le_of_ne (hacross x hx c (by simp)) fun hkey => hc ?_
    have hxP : P x := hP x (List.mem_append_left _ hx)
    have hax : shares a x = true := by
      obtain rfl | hx := List.mem_cons.mp hx
      · exact hkeyed.same _ _ hxP hxP rfl
      · exact hgroup x hx
    rw [← hkeyed.congr a a x c haP haP hxP hcP rfl hkey, hax]
  have hback : ∀ x ∈ c :: L, ¬ key x < key c := by
    intro x hx
    obtain rfl | hx := List.mem_cons.mp hx
    · exact lt_irrefl _
    · exact not_lt.mpr ((List.pairwise_cons.mp hrest).1 x hx)
  rw [List.filter_append, List.filter_append]
  constructor
  · rw [List.filter_eq_self.mpr (by simpa using hfront), List.filter_eq_nil_iff.mpr
      (by simpa using hback), List.append_nil]
  · rw [List.filter_eq_nil_iff.mpr (by simpa using hfront), List.filter_eq_self.mpr
      (by simpa using hback), List.nil_append]

theorem groupFrom_perm {a a' : α} {g g' L L' : List α} (hkeyed : KeyedBy shares key P)
    (hP : ∀ x ∈ a :: g ++ L, P x) (hperm : (a :: g ++ L).Perm (a' :: g' ++ L'))
    (hsort : (a :: g ++ L).Pairwise fun x y => key x ≤ key y)
    (hsort' : (a' :: g' ++ L').Pairwise fun x y => key x ≤ key y) (ha : key a = key a')
    (hkeys : List.Forall₂ (fun x y => key x = key y) L L')
    (hgroup : ∀ x ∈ g, shares a x = true) (hgroup' : ∀ x ∈ g', shares a' x = true) :
    List.Forall₂ List.Perm (groupFrom shares a g L) (groupFrom shares a' g' L') := by
  induction hkeys generalizing a a' g g' with
  | nil =>
    rw [List.append_nil, List.append_nil] at hperm
    exact .cons hperm .nil
  | @cons c c' L L' hc hkeys ih =>
    have hP' : ∀ x ∈ a' :: g' ++ c' :: L', P x := fun x hx => hP x (hperm.mem_iff.mpr hx)
    have hshares : shares a c = shares a' c' :=
      hkeyed.congr a a' c c' (hP a (by simp)) (hP' a' (by simp)) (hP c (by simp))
        (hP' c' (by simp)) ha hc
    rw [groupFrom, groupFrom, ← hshares]
    split
    · next hshare =>
      have hassoc : ∀ (x y : α) (u v : List α), x :: u ++ y :: v = x :: (u ++ [y]) ++ v := by
        simp
      rw [hassoc] at hP hperm hsort hsort'
      rw [hassoc a'] at hperm
      refine ih hP hperm hsort hsort' ha ?_ ?_
      · simpa [or_imp, forall_and, hshare] using hgroup
      · simpa [or_imp, forall_and, hshare, ← hshares] using hgroup'
    · next hshare =>
      obtain ⟨hfront, hback⟩ := split_of_not_shares hkeyed hP hsort hgroup hshare
      obtain ⟨hfront', hback'⟩ :=
        split_of_not_shares hkeyed hP' hsort' hgroup' (hshares ▸ hshare)
      rw [← hc] at hfront' hback'
      have hheads := hperm.filter fun x => decide (key x < key c)
      have htails := hperm.filter fun x => decide (¬ key x < key c)
      rw [hfront, hfront'] at hheads
      rw [hback, hback'] at htails
      refine .cons hheads (ih (fun x hx => hP x (List.mem_append_right _ hx)) htails
        (List.pairwise_append.mp hsort).2.1 (List.pairwise_append.mp hsort').2.1 hc
        (by simp) (by simp))

/-- The same elements sorted by the key fall into the same groups. -/
theorem groups_perm {L L' : List α} (hkeyed : KeyedBy shares key P) (hP : ∀ x ∈ L, P x)
    (hperm : L.Perm L') (hsort : L.Pairwise fun x y => key x ≤ key y)
    (hsort' : L'.Pairwise fun x y => key x ≤ key y) :
    List.Forall₂ List.Perm (groups shares L) (groups shares L') := by
  have hmap : L.map key = L'.map key :=
    List.Perm.eq_of_pairwise (fun _ _ _ _ hab hba => le_antisymm hab hba)
      (List.pairwise_map.mpr hsort) (List.pairwise_map.mpr hsort') (hperm.map key)
  cases L with
  | nil =>
    rw [List.map_nil, eq_comm, List.map_eq_nil_iff] at hmap
    subst hmap
    exact .nil
  | cons a L =>
    cases L' with
    | nil => simp at hmap
    | cons a' L' =>
      rw [List.map_cons, List.map_cons, List.cons.injEq] at hmap
      have hkeys : List.Forall₂ (fun x y => key x = key y) L L' := by
        rw [← List.forall₂_eq_eq_eq, List.forall₂_map_left_iff,
          List.forall₂_map_right_iff] at hmap
        exact hmap.2
      exact groupFrom_perm hkeyed hP hperm hsort hsort' hmap.1 hkeys (by simp) (by simp)

end SortedGroups
