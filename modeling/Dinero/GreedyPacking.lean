import Mathlib.Algebra.Order.Ring.Nat

/-!
# Dinero.GreedyPacking

Items packed in their order, into one bin after another.

A bin is closed when it holds something and the next item would take it over the
budget.  An item that is over the budget by itself gets a bin of its own.
-/

namespace GreedyPacking

variable {α : Type} (cost : α → Nat) (budget : Nat)

/-- The bins that are closed, and the open one with what it costs so far. -/
structure Bins (α : Type) where
  closed : List (List α)
  bin : List α
  load : Nat

def Bins.empty : Bins α := ⟨[], [], 0⟩

def Bins.push (s : Bins α) (a : α) : Bins α :=
  if s.bin ≠ [] ∧ s.load + cost a > budget then ⟨s.closed ++ [s.bin], [a], cost a⟩
  else ⟨s.closed, s.bin ++ [a], s.load + cost a⟩

/-- Every bin, the open one too when it holds something. -/
def Bins.all (s : Bins α) : List (List α) :=
  if s.bin = [] then s.closed else s.closed ++ [s.bin]

def pack (items : List α) : List (List α) := (items.foldl (Bins.push cost budget) .empty).all

/-- A bin that holds one item, or as much as the budget allows. -/
structure Fits (bin : List α) : Prop where
  ne_nil : bin ≠ []
  load : bin.length = 1 ∨ (bin.map cost).sum ≤ budget

structure Packed (items : List α) (s : Bins α) : Prop where
  items : s.closed.flatten ++ s.bin = items
  load : s.load = (s.bin.map cost).sum
  closed : ∀ bin ∈ s.closed, Fits cost budget bin
  bin : s.bin ≠ [] → Fits cost budget s.bin

variable {cost budget}

theorem Packed.empty : Packed cost budget [] (Bins.empty : Bins α) :=
  ⟨rfl, rfl, by simp [Bins.empty], by simp [Bins.empty]⟩

theorem Packed.push {items : List α} {s : Bins α} (h : Packed cost budget items s) (a : α) :
    Packed cost budget (items ++ [a]) (s.push cost budget a) := by
  rw [Bins.push]
  split
  · next hover =>
    refine ⟨?_, by simp, ?_, fun _ => ⟨by simp, .inl rfl⟩⟩
    · simp [← h.items]
    · intro bin hbin
      obtain hbin | hbin := List.mem_append.mp hbin
      · exact h.closed bin hbin
      · rw [List.mem_singleton.mp hbin]
        exact h.bin hover.1
  · next hroom =>
    refine ⟨?_, ?_, h.closed, fun _ => ⟨by simp, ?_⟩⟩
    · simp [← h.items]
    · simp [h.load]
    · by_cases hbin : s.bin = []
      · simp [hbin]
      · have hload : s.load + cost a ≤ budget := by
          by_contra hlt
          exact hroom ⟨hbin, by omega⟩
        simpa [← h.load] using .inr hload

theorem packed_foldl {items : List α} {s : Bins α} (h : Packed cost budget items s)
    (more : List α) :
    Packed cost budget (items ++ more) (more.foldl (Bins.push cost budget) s) := by
  induction more generalizing items s with
  | nil => simpa using h
  | cons a more ih => simpa using ih (h.push a)

theorem packed (items : List α) :
    Packed cost budget items (items.foldl (Bins.push cost budget) .empty) := by
  simpa using packed_foldl Packed.empty items

/-- Nothing is lost, nothing twice, and the order is kept. -/
theorem flatten_pack (items : List α) : (pack cost budget items).flatten = items := by
  have hpacked := (@packed _ cost budget items).items
  rw [pack, Bins.all]
  split
  · next hbin => simpa [hbin] using hpacked
  · simpa using hpacked

theorem fits_of_mem_pack {items bin : List α} (h : bin ∈ pack cost budget items) :
    Fits cost budget bin := by
  have hpacked := @packed _ cost budget items
  rw [pack, Bins.all] at h
  split at h
  · exact hpacked.closed bin h
  · next hne =>
    obtain h | h := List.mem_append.mp h
    · exact hpacked.closed bin h
    · rw [List.mem_singleton.mp h]
      exact hpacked.bin hne

end GreedyPacking
