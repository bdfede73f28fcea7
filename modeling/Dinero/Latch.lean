import Mathlib.Data.List.Induction
import Mathlib.Data.List.Infix
import Mathlib.Data.List.Nodup
import Mathlib.Tactic.Common

/-!
# Dinero.Latch

A latch that holds back whatever something let through earlier holds back.

What one wants of a latch is another thing: every item is to be accounted for,
and once only, where `f x` is the account an item goes on.  The two agree
exactly when the items come in such an order that the first ones of each
account hold back the later ones of it and nothing else
(`once_and_announced_iff`).

Nothing here knows what the items are.
-/

namespace Latch

variable {α β : Type}

/-- Let `x` pass unless something in the log holds it back. -/
def enter (r : α → α → Prop) [DecidableRel r] (log : List α) (x : α) : List α :=
  if ∃ y ∈ log, r y x then log else log ++ [x]

/-- The items that pass, one after the other. -/
def passed (r : α → α → Prop) [DecidableRel r] (xs : List α) : List α := xs.foldl (enter r) []

/-- The first item of each account. -/
def firsts [DecidableEq β] (f : α → β) (xs : List α) : List α := passed (fun y x => f y = f x) xs

section Passed

variable (r : α → α → Prop) [DecidableRel r]

@[simp] theorem passed_nil : passed r [] = [] := rfl

theorem passed_snoc (xs : List α) (x : α) : passed r (xs ++ [x]) = enter r (passed r xs) x := by
  simp only [passed, List.foldl_append, List.foldl_cons, List.foldl_nil]

theorem enter_eq_self {log : List α} {x : α} : enter r log x = log ↔ ∃ y ∈ log, r y x := by
  unfold enter
  split
  · next h => simpa using h
  · next h => simpa using h

theorem mem_enter {log : List α} {x y : α} (h : y ∈ enter r log x) : y ∈ log ∨ y = x := by
  unfold enter at h
  split at h
  · exact .inl h
  · simpa using h

theorem append_enter (log : List α) (x : α) : log <+: enter r log x := by
  unfold enter
  split
  · exact List.prefix_rfl
  · exact List.prefix_append log [x]

theorem mem_of_mem_passed {xs : List α} {y : α} (h : y ∈ passed r xs) : y ∈ xs := by
  induction xs using List.reverseRecOn with
  | nil => exact h
  | append_singleton xs x ih =>
    rw [passed_snoc] at h
    rcases mem_enter r h with hold | rfl
    · exact List.mem_append_left _ (ih hold)
    · simp

/-- What has passed stays passed. -/
theorem passed_append (pre post : List α) : passed r pre <+: passed r (pre ++ post) := by
  induction post using List.reverseRecOn with
  | nil => simp
  | append_singleton post x ih =>
    rw [← List.append_assoc, passed_snoc]
    exact ih.trans (append_enter r _ x)

end Passed

/-! ## what is wanted -/

section Accounts

variable [DecidableEq β] (r : α → α → Prop) [DecidableRel r] (f : α → β)

/-- No account is used twice. -/
def Once (xs : List α) : Prop := ((passed r xs).map f).Nodup

/-- When an item has been dealt with, its account has been used. -/
def Announced (xs : List α) : Prop :=
  ∀ pre x post, xs = pre ++ x :: post → f x ∈ (passed r (pre ++ [x])).map f

/-- An item is held back by a first one of some account just when its own
account has been asked for before. -/
def Timely (xs : List α) : Prop :=
  ∀ pre x post, xs = pre ++ x :: post →
    ((∃ y ∈ firsts f pre, r y x) ↔ ∃ y ∈ pre, f y = f x)

theorem firsts_snoc (xs : List α) (x : α) :
    firsts f (xs ++ [x]) = enter (fun y x => f y = f x) (firsts f xs) x := passed_snoc _ xs x

theorem map_firsts (xs : List α) (b : β) : b ∈ (firsts f xs).map f ↔ b ∈ xs.map f := by
  induction xs using List.reverseRecOn with
  | nil => simp [firsts]
  | append_singleton xs x ih =>
    rw [firsts_snoc, enter]
    split
    · next h =>
        obtain ⟨y, hy, hyx⟩ := h
        have hx : f x ∈ xs.map f := by
          rw [← hyx]
          exact List.mem_map_of_mem (mem_of_mem_passed _ hy)
        rw [ih, List.map_append, List.mem_append]
        constructor
        · exact .inl
        · intro hb
          rcases hb with hb | hb
          · exact hb
          · rw [List.mem_singleton.mp hb]
            exact hx
    · rw [List.map_append, List.mem_append, ih, List.map_append, List.mem_append]

theorem nodup_firsts (xs : List α) : ((firsts f xs).map f).Nodup := by
  induction xs using List.reverseRecOn with
  | nil => simp [firsts]
  | append_singleton xs x ih =>
    rw [firsts_snoc, enter]
    split
    · exact ih
    · next h =>
        rw [List.map_append, List.map_singleton, List.nodup_append]
        refine ⟨ih, List.nodup_singleton _, ?_⟩
        intro a ha b hb hab
        obtain ⟨y, hy, rfl⟩ := List.mem_map.mp ha
        rw [List.mem_singleton] at hb
        exact h ⟨y, hy, hab.trans hb⟩

variable {r f} {xs ys : List α}

omit [DecidableEq β] in
theorem Once.of_append (h : Once r f (xs ++ ys)) : Once r f xs :=
  h.sublist ((passed_append r xs ys).sublist.map f)

omit [DecidableEq β] in
theorem Announced.of_append (h : Announced r f (xs ++ ys)) : Announced r f xs := by
  intro pre x post heq
  exact h pre x (post ++ ys) (by simp [heq])

omit [DecidableRel r] in
theorem Timely.of_append (h : Timely r f (xs ++ ys)) : Timely r f xs := by
  intro pre x post heq
  exact h pre x (post ++ ys) (by simp [heq])

/-- Seen by the account, an item that has been asked for is among the firsts. -/
theorem exists_firsts_iff {x : α} : (∃ y ∈ firsts f xs, f y = f x) ↔ ∃ y ∈ xs, f y = f x := by
  have h := map_firsts f xs (f x)
  simpa [List.mem_map] using h

/-- Where the order is right, the latch lets through the firsts. -/
theorem Timely.passed_eq (h : Timely r f xs) : passed r xs = firsts f xs := by
  induction xs using List.reverseRecOn with
  | nil => rfl
  | append_singleton xs x ih =>
    have hx := h xs x [] rfl
    rw [passed_snoc, ih h.of_append, firsts_snoc, enter, enter]
    simp only [hx, exists_firsts_iff]

/-- A latch that does what is wanted lets through the firsts. -/
theorem passed_eq_of_once (honce : Once r f xs) (hannounced : Announced r f xs) :
    passed r xs = firsts f xs := by
  induction xs using List.reverseRecOn with
  | nil => rfl
  | append_singleton xs x ih =>
    have hprev := ih honce.of_append hannounced.of_append
    have hx := hannounced xs x [] rfl
    rw [Once, passed_snoc, hprev] at honce
    rw [passed_snoc, hprev] at hx
    rw [passed_snoc, hprev, firsts_snoc]
    by_cases hseen : ∃ y ∈ firsts f xs, f y = f x
    · -- the account is used: `x` must be held back
      have hheld : ∃ y ∈ firsts f xs, r y x := by
        by_contra hopen
        obtain ⟨y, hy, hyx⟩ := hseen
        rw [enter, if_neg hopen, List.map_append, List.nodup_append] at honce
        exact honce.2.2 (f y) (List.mem_map_of_mem hy) (f x) (by simp) hyx
      rw [enter, if_pos hheld, enter, if_pos hseen]
    · have hopen : ¬ ∃ y ∈ firsts f xs, r y x := by
        intro hheld
        rw [enter, if_pos hheld] at hx
        obtain ⟨y, hy, hyx⟩ := List.mem_map.mp hx
        exact hseen ⟨y, hy, hyx⟩
      rw [enter, if_neg hopen, enter, if_neg hseen]

/-- **Once and only once**: a matter of the order alone. -/
theorem once_and_announced_iff : Once r f xs ∧ Announced r f xs ↔ Timely r f xs := by
  constructor
  · rintro ⟨honce, hannounced⟩ pre x post heq
    have hsplit : xs = (pre ++ [x]) ++ post := by simp [heq]
    have honce' : Once r f (pre ++ [x]) := (hsplit ▸ honce).of_append
    have hannounced' : Announced r f (pre ++ [x]) := (hsplit ▸ hannounced).of_append
    have hpre := passed_eq_of_once honce'.of_append hannounced'.of_append
    have hall := passed_eq_of_once honce' hannounced'
    rw [passed_snoc, hpre, firsts_snoc] at hall
    rw [← exists_firsts_iff, ← enter_eq_self r, hall, enter_eq_self]
  · intro h
    refine ⟨?_, ?_⟩
    · rw [Once, h.passed_eq]
      exact nodup_firsts f xs
    · intro pre x post heq
      have hsplit : xs = (pre ++ [x]) ++ post := by simp [heq]
      have hpre : Timely r f (pre ++ [x]) := (hsplit ▸ h).of_append
      rw [hpre.passed_eq, map_firsts]
      simp

end Accounts

end Latch
