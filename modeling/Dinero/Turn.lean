import Mathlib.Logic.Relation
import Mathlib.Tactic.Common

/-!
# Dinero.Turn

Something that is taken once.

It is free at first.  Whoever takes it holds it until it is closed, and nobody
else moves it meanwhile; while it is free anybody may close it.  Of those who
ever took it there is then at most one (`Reach.taken_unique`), and none that
came after it was closed (`Reach.taken_closed`).

`Mirrors` is the turn as a list of callers sees it: each may take it, and is
inside until it comes to close it.  Nothing here knows what is taken, or by whom.
-/

namespace Turn

variable {ι : Type}

inductive Phase (ι : Type)
  | free
  | held (holder : ι)
  | closed
deriving DecidableEq

/-- The phase, and who took it so far. -/
structure State (ι : Type) where
  phase : Phase ι
  taken : List ι

inductive Step : State ι → State ι → Prop
  /-- Nobody does anything about it. -/
  | idle (s) : Step s s
  | take (i) {taken} : Step ⟨.free, taken⟩ ⟨.held i, i :: taken⟩
  /-- The holder closes it. -/
  | release {i taken} : Step ⟨.held i, taken⟩ ⟨.closed, taken⟩
  /-- Nobody holds it, and it is closed. -/
  | shut {taken} : Step ⟨.free, taken⟩ ⟨.closed, taken⟩

/-- Some steps after each other. -/
abbrev Reach : State ι → State ι → Prop := Relation.ReflTransGen Step

/-- Who took it, by the phase. -/
def State.Orderly (s : State ι) : Prop :=
  match s.phase with
  | .free => s.taken = []
  | .held i => s.taken = [i]
  | .closed => s.taken.length ≤ 1

theorem Step.orderly {s s' : State ι} (hstep : Step s s') (h : s.Orderly) : s'.Orderly := by
  cases hstep with
  | idle => exact h
  | take i =>
    simp only [State.Orderly] at h ⊢
    rw [h]
  | release =>
    simp only [State.Orderly] at h ⊢
    simp [h]
  | shut =>
    simp only [State.Orderly] at h ⊢
    simp [h]

theorem Reach.orderly {s s' : State ι} (hreach : Reach s s') (h : s.Orderly) : s'.Orderly := by
  induction hreach with
  | refl => exact h
  | tail _ hstep ih => exact hstep.orderly ih

/-- Nobody took it yet. -/
theorem State.orderly_start (isOpen : Prop) [Decidable isOpen] :
    State.Orderly (ι := ι) ⟨if isOpen then .free else .closed, []⟩ := by
  by_cases h : isOpen
  · simp [Orderly, h]
  · simp [Orderly, h]

/-- It is taken by one. -/
theorem State.Orderly.unique {s : State ι} (h : s.Orderly) {i j : ι} (hi : i ∈ s.taken)
    (hj : j ∈ s.taken) : i = j := by
  have hlen : s.taken.length ≤ 1 := by
    unfold State.Orderly at h
    split at h
    · simp [h]
    · simp [h]
    · exact h
  obtain ⟨k, hk⟩ : ∃ k, s.taken = [k] := by
    have hpos : 0 < s.taken.length := List.length_pos_of_mem hi
    have hone : s.taken.length = 1 := by omega
    exact List.length_eq_one_iff.mp hone
  rw [hk, List.mem_singleton] at hi hj
  rw [hi, hj]

theorem Reach.taken_unique {s s' : State ι} (hreach : Reach s s') (h : s.Orderly) {i j : ι}
    (hi : i ∈ s'.taken) (hj : j ∈ s'.taken) : i = j :=
  (hreach.orderly h).unique hi hj

/-- Once closed it is not taken any more. -/
theorem Reach.taken_closed {s s' : State ι} (hreach : Reach s s') (h : s.phase = .closed) :
    s' = s := by
  induction hreach with
  | refl => rfl
  | tail _ hstep ih =>
    subst ih
    cases hstep with
    | idle => rfl
    | take i => cases h
    | release => cases h
    | shut => cases h

/-! ## callers -/

variable {α : Type} {calls : List α}

/-- A property of the `j`th caller, after the `i`th was replaced. -/
theorem exists_set {i : Nat} {a a' : α} (h : calls[i]? = some a) (P : α → Prop) (j : Nat) :
    (∃ b, (calls.set i a')[j]? = some b ∧ P b) ↔
      if j = i then P a' else ∃ b, calls[j]? = some b ∧ P b := by
  have hlt : i < calls.length := (List.getElem?_eq_some_iff.mp h).1
  rw [List.getElem?_set]
  by_cases hj : i = j
  · simp [hj ▸ hlt, hj]
  · simp [hj, Ne.symm hj]

/-- A caller that is new changes nothing for a property it does not have. -/
theorem exists_append {a : α} {P : α → Prop} (hP : ¬ P a) (j : Nat) :
    (∃ b, (calls ++ [a])[j]? = some b ∧ P b) ↔ ∃ b, calls[j]? = some b ∧ P b := by
  constructor
  · rintro ⟨b, hb, hPb⟩
    rw [List.getElem?_append] at hb
    split at hb
    · exact ⟨b, hb, hPb⟩
    · rw [List.mem_singleton.mp (List.mem_of_getElem? hb)] at hPb
      exact absurd hPb hP
  · rintro ⟨b, hb, hPb⟩
    refine ⟨b, ?_, hPb⟩
    rw [List.getElem?_append_left (List.getElem?_eq_some_iff.mp hb).1]
    exact hb

theorem forall_set {P : α → Prop} (h : ∀ (j : Nat) b, calls[j]? = some b → P b) {i : Nat} {a' : α}
    (ha' : P a') (j : Nat) (b : α) (hb : (calls.set i a')[j]? = some b) : P b := by
  rw [List.getElem?_set] at hb
  split at hb
  · split at hb
    · exact Option.some.inj hb ▸ ha'
    · cases hb
  · exact h j b hb

theorem forall_append {P : α → Prop} (h : ∀ (j : Nat) b, calls[j]? = some b → P b) {a : α}
    (ha : P a) (j : Nat) (b : α) (hb : (calls ++ [a])[j]? = some b) : P b := by
  rw [List.getElem?_append] at hb
  split at hb
  · exact h j b hb
  · exact List.mem_singleton.mp (List.mem_of_getElem? hb) ▸ ha

/-- Who took it, who is inside, and whether it is open still. -/
structure Mirrors (took inside : α → Prop) (isOpen : Prop) (calls : List α) (t : State Nat) :
    Prop where
  taken : ∀ i, (∃ a, calls[i]? = some a ∧ took a) ↔ i ∈ t.taken
  inside : ∀ i, (∃ a, calls[i]? = some a ∧ inside a) ↔ t.phase = .held i
  isOpen : isOpen ↔ t.phase ≠ .closed

namespace Mirrors

variable {took inside : α → Prop} {isOpen isOpen' : Prop} {t : State Nat} {i : Nat} {a a' : α}

/-- Before the first caller. -/
theorem start (took inside : α → Prop) (isOpen : Prop) [Decidable isOpen] :
    Mirrors took inside isOpen [] ⟨if isOpen then .free else .closed, []⟩ := by
  refine ⟨by simp, fun i => ?_, ?_⟩
  · dsimp only
    split <;> simp
  · dsimp only
    split
    · next h => simp [h]
    · next h => simp [h]

theorem spawn (h : Mirrors took inside isOpen calls t) (htook : ¬ took a) (hinside : ¬ inside a) :
    Mirrors took inside isOpen (calls ++ [a]) t :=
  ⟨fun j => (exists_append htook j).trans (h.taken j),
    fun j => (exists_append hinside j).trans (h.inside j), h.isOpen⟩

/-- A caller that does nothing about it. -/
theorem nothing (h : Mirrors took inside isOpen calls t) (hi : calls[i]? = some a)
    (htook : took a' ↔ took a) (hinside : inside a' ↔ inside a) (hopen : isOpen' ↔ isOpen) :
    Mirrors took inside isOpen' (calls.set i a') t := by
  refine ⟨fun j => ?_, fun j => ?_, hopen.trans h.isOpen⟩
  · rw [exists_set hi, ← h.taken]
    by_cases hj : j = i
    · simp [hj, hi, htook]
    · simp [hj]
  · rw [exists_set hi, ← h.inside]
    by_cases hj : j = i
    · simp [hj, hi, hinside]
    · simp [hj]

/-- Nobody but the `i`th caller is inside. -/
theorem holder (h : Mirrors took inside isOpen calls t)
    (hnone : ∀ j b, calls[j]? = some b → inside b → j = i) {j : Nat}
    (hphase : t.phase = .held j) : j = i := by
  obtain ⟨b, hb, hin⟩ := (h.inside j).mpr hphase
  exact hnone j b hb hin

/-- A caller takes it while it is open, with nobody inside. -/
theorem takes (h : Mirrors took inside isOpen calls t) (hi : calls[i]? = some a)
    (hnot : ¬ inside a) (htook : took a') (hinside : inside a') (hfree : isOpen)
    (hnone : ∀ j b, calls[j]? = some b → inside b → j = i) (hopen : isOpen' ↔ isOpen) :
    ∃ t', Step t t' ∧ Mirrors took inside isOpen' (calls.set i a') t' := by
  have hphase : t.phase = .free := by
    cases hp : t.phase with
    | free => rfl
    | closed => exact absurd hp (h.isOpen.mp hfree)
    | held j =>
      obtain rfl := h.holder hnone hp
      obtain ⟨b, hb, hin⟩ := (h.inside j).mpr hp
      rw [Option.some.inj (hi.symm.trans hb)] at hnot
      exact absurd hin hnot
  obtain ⟨phase, taken⟩ := t
  dsimp only at hphase
  subst hphase
  refine ⟨_, .take i, fun j => ?_, fun j => ?_, ?_⟩
  · rw [exists_set hi, h.taken]
    by_cases hj : j = i
    · simp [hj, htook]
    · simp [hj]
  · rw [exists_set hi, h.inside]
    by_cases hj : j = i
    · simp [hj, hinside]
    · simp [hj, Ne.symm hj]
  · simp [hopen, hfree]

/-- It is closed, by the caller inside or with nobody inside. -/
theorem closes (h : Mirrors took inside isOpen calls t) (hi : calls[i]? = some a)
    (htook : took a' ↔ took a) (hinside : ¬ inside a') (hshut : ¬ isOpen')
    (hnone : ∀ j b, calls[j]? = some b → inside b → j = i) :
    ∃ t', Step t t' ∧ Mirrors took inside isOpen' (calls.set i a') t' := by
  have hstep : Step t ⟨.closed, t.taken⟩ := by
    obtain ⟨phase, taken⟩ := t
    cases phase with
    | free => exact .shut
    | held j => exact .release
    | closed => exact .idle _
  refine ⟨_, hstep, fun j => ?_, fun j => ?_, ?_⟩
  · rw [exists_set hi, ← h.taken]
    by_cases hj : j = i
    · simp [hj, hi, htook]
    · simp [hj]
  · rw [exists_set hi, h.inside]
    by_cases hj : j = i
    · simp [hj, hinside]
    · refine iff_of_false ?_ nofun
      rw [if_neg hj]
      exact fun hp => hj (h.holder hnone hp)
  · simp [hshut]

end Mirrors

end Turn
