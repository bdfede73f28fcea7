import Mathlib.Data.List.Infix
import Mathlib.Tactic.Common

/-!
# Dinero.Runs

A run is a fold: a state, and one event after another.

`Guarded` says that every event of a run meets its condition in the state it
comes to.  `prefixes_iff` is for conditions that are exact: a property holds in
every state of a run just if every event of the run meets its condition.
-/

namespace Runs

variable {σ ε : Type} {f : σ → ε → σ} {G : σ → ε → Prop}

/-- Every event meets its condition in the state it comes to. -/
def Guarded (f : σ → ε → σ) (G : σ → ε → Prop) : σ → List ε → Prop
  | _, [] => True
  | s, e :: es => G s e ∧ Guarded f G (f s e) es

instance decidableGuarded [∀ s e, Decidable (G s e)] :
    (es : List ε) → (s : σ) → Decidable (Guarded f G s es)
  | [], _ => isTrue trivial
  | e :: es, s =>
    have := decidableGuarded es (f s e)
    inferInstanceAs (Decidable (G s e ∧ Guarded f G (f s e) es))

theorem guarded_append {s : σ} {es es' : List ε} :
    Guarded f G s (es ++ es') ↔ Guarded f G s es ∧ Guarded f G (es.foldl f s) es' := by
  induction es generalizing s with
  | nil => simp [Guarded]
  | cons e es ih => simp [Guarded, ih, and_assoc]

/-- What the events that meet their condition keep, a guarded run keeps. -/
theorem Guarded.invariant {I : σ → Prop} (hstep : ∀ s e, I s → G s e → I (f s e)) {s : σ}
    {es : List ε} (h : Guarded f G s es) (hI : I s) : I (es.foldl f s) := by
  induction es generalizing s with
  | nil => exact hI
  | cons e es ih => exact ih h.2 (hstep s e hI h.1)

/-- Two conditions that come to the same beside an invariant that they keep. -/
theorem guarded_congr {G' : σ → ε → Prop} {I : σ → Prop} (hiff : ∀ s e, I s → (G s e ↔ G' s e))
    (hstep : ∀ s e, I s → G' s e → I (f s e)) {s : σ} {es : List ε} (hI : I s) :
    Guarded f G s es ↔ Guarded f G' s es := by
  induction es generalizing s with
  | nil => exact Iff.rfl
  | cons e es ih =>
    unfold Guarded
    rw [hiff s e hI]
    exact and_congr_right fun hG => ih (hstep s e hI hG)

/-- Guarded event by event: what comes after any part of the run meets its condition there. -/
theorem guarded_iff_prefixes {s : σ} {es : List ε} :
    Guarded f G s es ↔ ∀ pre e, pre ++ [e] <+: es → G (pre.foldl f s) e := by
  constructor
  · rintro h pre e ⟨rest, rfl⟩
    rw [List.append_assoc, guarded_append] at h
    exact h.2.1
  · intro h
    induction es generalizing s with
    | nil => trivial
    | cons e es ih =>
      refine ⟨h [] e (by simp), ih fun pre e' hpre => ?_⟩
      exact h (e :: pre) e' (List.cons_prefix_cons.mpr ⟨rfl, hpre⟩)

/-- **Exact conditions.**  Beside an invariant `I`, an event keeps `P` just if it meets its
condition. -/
theorem prefixes_iff {I P : σ → Prop}
    (hstep : ∀ s e, I s → P s → I (f s e) ∧ (P (f s e) ↔ G s e)) {s : σ} (hI : I s) (hP : P s)
    (es : List ε) :
    (∀ pre, pre <+: es → P (pre.foldl f s)) ↔
      ∀ pre e, pre ++ [e] <+: es → G (pre.foldl f s) e := by
  induction es generalizing s with
  | nil =>
    constructor
    · intro _ pre e hpre
      exact absurd (List.prefix_nil.mp hpre) (by simp)
    · intro _ pre hpre
      rw [List.prefix_nil.mp hpre]
      exact hP
  | cons e es ih =>
    obtain ⟨hI', hiff⟩ := hstep s e hI hP
    constructor
    · intro hall
      have hP' : P (f s e) := hall [e] (by simp)
      have hrest := (ih hI' hP').mp fun pre hpre => hall (e :: pre)
        (List.cons_prefix_cons.mpr ⟨rfl, hpre⟩)
      intro pre e' hpre
      cases pre with
      | nil =>
        have heq : e' = e := (List.cons_prefix_cons.mp hpre).1
        rw [heq]
        exact hiff.mp hP'
      | cons first pre =>
        obtain ⟨rfl, htail⟩ := List.cons_prefix_cons.mp hpre
        exact hrest pre e' htail
    · intro hall
      have hP' : P (f s e) := hiff.mpr (hall [] e (by simp))
      have hrest := (ih hI' hP').mpr fun pre e' hpre => hall (e :: pre) e'
        (List.cons_prefix_cons.mpr ⟨rfl, hpre⟩)
      intro pre hpre
      cases pre with
      | nil => exact hP
      | cons first pre =>
        obtain ⟨rfl, htail⟩ := List.cons_prefix_cons.mp hpre
        exact hrest pre htail

/-- **Exact conditions, at the end.**  The invariant may speak of the events to come; an event
keeps what holds, and restores nothing. -/
theorem foldl_iff {I : σ → List ε → Prop} {P : σ → Prop}
    (hstep : ∀ s e es, I s (e :: es) → I (f s e) es ∧ (P (f s e) ↔ P s ∧ G s e)) {s : σ}
    {es : List ε} (hI : I s es) : P (es.foldl f s) ↔ P s ∧ Guarded f G s es := by
  induction es generalizing s with
  | nil => simp [Guarded]
  | cons e es ih =>
    obtain ⟨hI', hiff⟩ := hstep s e es hI
    rw [List.foldl_cons, ih hI', hiff, Guarded, and_assoc]

end Runs
