import Mathlib.Algebra.Order.Field.Basic
import Mathlib.Algebra.BigOperators.Group.List.Basic
import Mathlib.Tactic.Linarith
import Mathlib.Tactic.Ring

/-!
# Dinero.RateMeter

Rates, metered.

A meter holds tokens up to a ceiling.  From one event to the next it gains at
most what the rate allows for the time between them, and what an event is granted
is taken out.  However the events are spread, no stretch of time is granted more
than the ceiling and the rate for that stretch.

Nothing here knows who asks, or for what.
-/

namespace RateMeter

variable {K : Type} [Field K] [LinearOrder K]

/-- What a meter holds, and when it was last looked at. -/
structure Level (K : Type) where
  tokens : K
  last : K

/-- An event at `now` that is granted `cost`, nothing being a cost of zero. -/
structure Meters (ceiling rate : K) (s : Level K) (now cost : K) (s' : Level K) : Prop where
  later : s.last ≤ now
  last : s'.last = now
  held : 0 ≤ s'.tokens
  capped : s'.tokens + cost ≤ ceiling
  gained : s'.tokens + cost ≤ s.tokens + rate * (now - s.last)

/-- The events of a run, the first one first: when, and what was granted. -/
inductive Run (ceiling rate : K) (s : Level K) : List (K × K) → Level K → Prop
  | start : Run ceiling rate s [] s
  | event {log : List (K × K)} {s₁ s₂ : Level K} {now cost : K} :
    Run ceiling rate s log s₁ → Meters ceiling rate s₁ now cost s₂ →
      Run ceiling rate s (log ++ [(now, cost)]) s₂

/-- What is granted from `a` to `b`, both ends included. -/
def granted (log : List (K × K)) (a b : K) : K :=
  ((log.filter fun e => a ≤ e.1 ∧ e.1 ≤ b).map (·.2)).sum

@[simp] theorem granted_nil (a b : K) : granted ([] : List (K × K)) a b = 0 := rfl

theorem granted_snoc (log : List (K × K)) (now cost a b : K) :
    granted (log ++ [(now, cost)]) a b =
      granted log a b + if a ≤ now ∧ now ≤ b then cost else 0 := by
  by_cases h : a ≤ now ∧ now ≤ b
  · simp [granted, h]
  · simp [granted, h]

/-- Nothing is granted where there is no event. -/
theorem granted_eq_zero {log : List (K × K)} {a b : K} (h : ∀ e ∈ log, e.1 < a) :
    granted log a b = 0 := by
  have hnone : (log.filter fun e => a ≤ e.1 ∧ e.1 ≤ b) = [] := by
    rw [List.filter_eq_nil_iff]
    intro e he
    simpa using fun ha => absurd ha (not_le.mpr (h e he))
  rw [granted, hnone]
  rfl

variable {ceiling rate : K} {s s' : Level K} {log : List (K × K)}

/-- Time does not go back. -/
theorem Run.last_le (h : Run ceiling rate s log s') :
    s.last ≤ s'.last ∧ ∀ e ∈ log, e.1 ≤ s'.last := by
  induction h with
  | start => simp
  | event _ hstep ih =>
    rw [hstep.last]
    refine ⟨ih.1.trans hstep.later, fun e he => ?_⟩
    rcases List.mem_append.mp he with he | he
    · exact (ih.2 e he).trans hstep.later
    · rw [List.mem_singleton.mp he]

/-- The tokens stay between nothing and the ceiling. -/
theorem Run.within (h : Run ceiling rate s log s') (hs : 0 ≤ s.tokens ∧ s.tokens ≤ ceiling)
    (hcost : ∀ e ∈ log, 0 ≤ e.2) [IsStrictOrderedRing K] :
    0 ≤ s'.tokens ∧ s'.tokens ≤ ceiling := by
  induction h with
  | start => exact hs
  | event _ hstep ih =>
    have hnow := hcost _ (List.mem_append_right _ (List.mem_singleton.mpr rfl))
    have hcapped := hstep.capped
    exact ⟨hstep.held, by linarith⟩

variable [IsStrictOrderedRing K]

/-- What was granted since `a`, with what is left, is what there could be. -/
theorem Run.since (h : Run ceiling rate s log s') (hs : 0 ≤ s.tokens ∧ s.tokens ≤ ceiling)
    (hrate : 0 ≤ rate) (hcost : ∀ e ∈ log, 0 ≤ e.2) {a b : K} (ha : a ≤ s'.last)
    (hb : s'.last ≤ b) :
    granted log a b + s'.tokens ≤ ceiling + rate * (s'.last - a) := by
  induction h generalizing a b with
  | start =>
    have hgain := mul_nonneg hrate (sub_nonneg.mpr ha)
    simp only [granted_nil]
    linarith [hs.2]
  | @event log s₁ s₂ now cost hrun hstep ih =>
    obtain ⟨-, hlog⟩ := hrun.last_le
    rw [hstep.last] at ha hb ⊢
    have hcapped := hstep.capped
    have hgained := hstep.gained
    have hlater := hstep.later
    rw [granted_snoc, if_pos ⟨ha, hb⟩]
    by_cases hbefore : a ≤ s₁.last
    · have hsince := ih (fun e he => hcost e (List.mem_append_left _ he)) hbefore
        (hlater.trans hb)
      have hsplit : rate * (s₁.last - a) + rate * (now - s₁.last) = rate * (now - a) := by ring
      linarith
    · -- the first event since `a`
      rw [granted_eq_zero fun e he => (hlog e he).trans_lt (not_le.mp hbefore)]
      have hgain := mul_nonneg hrate (sub_nonneg.mpr ha)
      linarith

/-- **The rate, over any stretch of time.** -/
theorem Run.granted_le (h : Run ceiling rate s log s')
    (hs : 0 ≤ s.tokens ∧ s.tokens ≤ ceiling) (hrate : 0 ≤ rate) (hcost : ∀ e ∈ log, 0 ≤ e.2)
    {a b : K} (hab : a ≤ b) : granted log a b ≤ ceiling + rate * (b - a) := by
  induction h generalizing a b with
  | start =>
    have hgain := mul_nonneg hrate (sub_nonneg.mpr hab)
    simp only [granted_nil]
    linarith [hs.1, hs.2]
  | @event log s₁ s₂ now cost hrun hstep ih =>
    by_cases hin : a ≤ now ∧ now ≤ b
    · have hsince := (hrun.event hstep).since hs hrate hcost (hstep.last ▸ hin.1)
        (hstep.last ▸ hin.2)
      have hlast := hstep.last
      have hgain := mul_nonneg hrate (sub_nonneg.mpr hin.2)
      have hsplit : rate * (now - a) + rate * (b - now) = rate * (b - a) := by ring
      rw [hlast] at hsince
      linarith [hstep.held]
    · rw [granted_snoc, if_neg hin, add_zero]
      exact ih (fun e he => hcost e (List.mem_append_left _ he)) hab

end RateMeter
