import Mathlib.Data.List.Basic
import Mathlib.Tactic.Common

/-!
# Dinero.Window

A list whose items are taken up in order and finished in any order.

The cursor says how far the list has been taken up; the items behind it are
done or still being worked on (`Covers`).  How many have been finished says less:
the first `n` items need not be the `n` that were finished (`Covers.counted`).

Nothing here knows what the items are or what is done with them.
-/

/-- A list taken up as far as `cursor`, with the items being worked on. -/
structure Window (α : Type) where
  items : List α
  cursor : Nat
  inFlight : List α
deriving DecidableEq, Repr

namespace Window

variable {α : Type}

/-- Start behind the first `n` items. -/
def skip (items : List α) (n : Nat) : Window α := ⟨items, n, []⟩

/-- The item under the cursor. -/
def next? (w : Window α) : Option α := w.items[w.cursor]?

/-- Take up the next item, if there is one. -/
def launch (w : Window α) : Window α :=
  match w.next? with
  | some x => { w with cursor := w.cursor + 1, inFlight := w.inFlight ++ [x] }
  | none => w

/-- An item comes back. -/
def land [DecidableEq α] (w : Window α) (x : α) : Window α :=
  { w with inFlight := w.inFlight.erase x }

@[simp] theorem items_skip (items : List α) (n : Nat) : (skip items n).items = items := rfl

@[simp] theorem inFlight_skip (items : List α) (n : Nat) : (skip items n).inFlight = [] := rfl

@[simp] theorem items_launch (w : Window α) : w.launch.items = w.items := by
  unfold launch
  split <;> rfl

theorem launch_of_none {w : Window α} (h : w.next? = none) : w.launch = w := by
  rw [launch, h]

theorem launch_of_some {w : Window α} {x : α} (h : w.next? = some x) :
    w.launch = { w with cursor := w.cursor + 1, inFlight := w.inFlight ++ [x] } := by
  rw [launch, h]

/-! ## how many have come back -/

/-- `n` items have been finished or skipped. -/
def Balanced (w : Window α) (n : Nat) : Prop := w.cursor = n + w.inFlight.length

theorem balanced_skip (items : List α) (n : Nat) : (skip items n).Balanced n := rfl

theorem Balanced.launch {w : Window α} {n : Nat} (h : w.Balanced n) : w.launch.Balanced n := by
  unfold Balanced at h ⊢
  cases hx : w.next? with
  | none => rw [launch_of_none hx, h]
  | some x =>
    rw [launch_of_some hx]
    simp only [List.length_append, List.length_singleton]
    omega

theorem Balanced.land [DecidableEq α] {w : Window α} {n : Nat} {x : α} (h : w.Balanced n)
    (hx : x ∈ w.inFlight) : (w.land x).Balanced (n + 1) := by
  unfold Balanced at h ⊢
  have hlen := List.length_erase_of_mem hx
  have hpos := List.length_pos_of_mem hx
  simp only [Window.land, hlen]
  omega

/-! ## what has become of the items -/

/-- Every item behind the cursor satisfies `P` or is being worked on. -/
def Covers (w : Window α) (P : α → Prop) : Prop :=
  ∀ x ∈ w.items.take w.cursor, P x ∨ x ∈ w.inFlight

variable {w : Window α} {P Q : α → Prop}

theorem covers_skip {items : List α} {n : Nat} (h : ∀ x ∈ items.take n, P x) :
    (skip items n).Covers P := fun x hx => .inl (h x hx)

theorem Covers.mono (h : w.Covers P) (hPQ : ∀ x, P x → Q x) : w.Covers Q := by
  intro x hx
  exact (h x hx).imp_left (hPQ x)

theorem Covers.launch (h : w.Covers P) : w.launch.Covers P := by
  cases hnext : w.next? with
  | none => rwa [launch_of_none hnext]
  | some y =>
    rw [launch_of_some hnext]
    intro x hx
    have hy : w.items[w.cursor]? = some y := hnext
    simp only [List.take_add_one, hy, Option.toList_some, List.mem_append,
      List.mem_singleton] at hx ⊢
    rcases hx with hx | hx
    · exact (h x hx).imp_right .inl
    · exact .inr (.inr hx)

theorem Covers.land [DecidableEq α] {y : α} (h : w.Covers P) (hPQ : ∀ x, P x → Q x) (hy : Q y) :
    (w.land y).Covers Q := by
  intro x hx
  by_cases hxy : x = y
  · exact .inl (hxy ▸ hy)
  · have hx' := h x hx
    exact hx'.imp (hPQ x) (List.mem_erase_of_ne hxy).mpr

/-- The first `n` items, once those of them still in the air are accounted for. -/
theorem Covers.counted {n : Nat} (h : w.Covers P) (hn : n ≤ w.cursor)
    (hair : ∀ x ∈ w.items.take n, x ∈ w.inFlight → P x) : ∀ x ∈ w.items.take n, P x := by
  intro x hx
  have hmem : x ∈ w.items.take w.cursor := List.take_subset_take_left w.items hn hx
  rcases h x hmem with hP | hfly
  · exact hP
  · exact hair x hx hfly

/-- With nothing in the air and the rest accounted for, everything is. -/
theorem Covers.all (h : w.Covers P) (hair : w.inFlight = [])
    (hrest : ∀ x ∈ w.items.drop w.cursor, P x) : ∀ x ∈ w.items, P x := by
  intro x hx
  rw [← List.take_append_drop w.cursor w.items, List.mem_append] at hx
  rcases hx with hx | hx
  · rcases h x hx with hP | hfly
    · exact hP
    · rw [hair] at hfly
      exact absurd hfly List.not_mem_nil
  · exact hrest x hx

theorem drop_eq_nil_of_next? (h : w.next? = none) : w.items.drop w.cursor = [] :=
  List.drop_eq_nil_of_le (List.getElem?_eq_none_iff.mp h)

/-- What has just been launched is in the air. -/
theorem inFlight_launch_ne_nil {x : α} (h : w.next? = some x) : w.launch.inFlight ≠ [] := by
  rw [launch_of_some h]
  simp

end Window
