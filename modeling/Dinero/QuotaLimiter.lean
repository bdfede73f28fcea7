import Dinero.RateMeter
import Mathlib.Algebra.Order.Ring.Rat
import Mathlib.Logic.Function.Basic

/-!
# Dinero.QuotaLimiter

The quota of the Gmail client.

All calls share one bucket of tokens, refilled from the time that has passed.  A
caller that finds too few sleeps for as long as the missing ones take and tries
again; the tokens it waited for may be gone by then.  Numbers are exact, and so is
the time of the clock; a sleep may last longer than it was asked to.
-/

namespace Dinero

open RateMeter

/-! ## the limiter -/

structure QuotaLimiter where
  burstCeiling : ℚ
  refillPerSec : ℚ
deriving DecidableEq, Repr

structure QuotaState where
  tokens : ℚ
  lastRefill : ℚ
deriving DecidableEq, Repr

namespace QuotaLimiter

def maxBurstUnits : ℚ := 30

def new (unitsPerSec : ℚ) : QuotaLimiter := ⟨min unitsPerSec maxBurstUnits, unitsPerSec⟩

/-- The state of a limiter made at `now`. -/
def full (l : QuotaLimiter) (now : ℚ) : QuotaState := ⟨l.burstCeiling, now⟩

/-- One turn of the loop of `acquire`: how long to wait, if at all. -/
def turn (l : QuotaLimiter) (cost now : ℚ) (s : QuotaState) : Option ℚ × QuotaState :=
  let elapsed := max 0 (now - s.lastRefill)
  let tokens := min (s.tokens + elapsed * l.refillPerSec) l.burstCeiling
  if cost ≤ tokens then (none, ⟨tokens - cost, now⟩)
  else (some ((cost - tokens) / l.refillPerSec), ⟨tokens, now⟩)

/-- `acquire` with nobody else about, for at most so many turns: when it returns, and the state it
leaves.  The `n`th sleep from the last lasts `late n` longer than asked. -/
def acquire (l : QuotaLimiter) (cost : ℚ) (late : ℕ → ℚ) : ℕ → ℚ → QuotaState →
    Option (ℚ × QuotaState)
  | 0, _, _ => none
  | n + 1, now, s =>
    let r := l.turn cost now s
    match r.1 with
    | none => some (now, r.2)
    | some d => l.acquire cost late n (now + d + late n) r.2

end QuotaLimiter

/-! ## many callers -/

variable {ι : Type} [DecidableEq ι]

/-- The shared state, and the callers that sleep: what for, and until when. -/
structure QuotaWorld (ι : Type) where
  state : QuotaState
  asleep : ι → Option (ℚ × ℚ)

/-- A caller takes its turn. -/
def QuotaWorld.attempt (l : QuotaLimiter) (c : ι) (cost now : ℚ) (w : QuotaWorld ι) :
    QuotaWorld ι :=
  let r := l.turn cost now w.state
  ⟨r.2, Function.update w.asleep c (r.1.map fun d => (cost, now + d))⟩

/-- What the turn is granted. -/
def QuotaWorld.grant (l : QuotaLimiter) (cost now : ℚ) (w : QuotaWorld ι) : ℚ :=
  if (l.turn cost now w.state).1 = none then cost else 0

/-- Callers call and wake in any order, the clock going forward: the turns taken so far, each with
what it was granted. -/
inductive QuotaRun (l : QuotaLimiter) (w : QuotaWorld ι) : List (ℚ × ℚ) → QuotaWorld ι → Prop
  | start : QuotaRun l w [] w
  | call {log : List (ℚ × ℚ)} {w₁ : QuotaWorld ι} {c : ι} {cost now : ℚ} :
    QuotaRun l w log w₁ → w₁.asleep c = none → 0 ≤ cost → w₁.state.lastRefill ≤ now →
      QuotaRun l w (log ++ [(now, w₁.grant l cost now)]) (w₁.attempt l c cost now)
  | wake {log : List (ℚ × ℚ)} {w₁ : QuotaWorld ι} {c : ι} {cost until_ now : ℚ} :
    QuotaRun l w log w₁ → w₁.asleep c = some (cost, until_) → until_ ≤ now →
      w₁.state.lastRefill ≤ now →
      QuotaRun l w (log ++ [(now, w₁.grant l cost now)]) (w₁.attempt l c cost now)

/-- A new limiter, and nobody asleep. -/
def QuotaWorld.fresh (l : QuotaLimiter) (now : ℚ) : QuotaWorld ι := ⟨l.full now, fun _ => none⟩

/-! ## the limiter is a meter -/

/-- The state as a meter reads it. -/
def QuotaState.level (s : QuotaState) : Level ℚ := ⟨s.tokens, s.lastRefill⟩

namespace QuotaLimiter

variable {l : QuotaLimiter} {s : QuotaState} {cost now : ℚ}

/-- A turn grants the cost, or says how long the missing tokens take. -/
theorem turn_cases (l : QuotaLimiter) (cost : ℚ) (hnow : s.lastRefill ≤ now) :
    ∃ tokens, tokens = min (s.tokens + (now - s.lastRefill) * l.refillPerSec) l.burstCeiling ∧
      ((cost ≤ tokens ∧ l.turn cost now s = (none, ⟨tokens - cost, now⟩)) ∨
        (tokens < cost ∧ l.turn cost now s =
          (some ((cost - tokens) / l.refillPerSec), ⟨tokens, now⟩))) := by
  refine ⟨_, rfl, ?_⟩
  rw [turn, max_eq_right (sub_nonneg.mpr hnow)]
  split
  · next hle => exact .inl ⟨hle, rfl⟩
  · next hlt => exact .inr ⟨not_le.mp hlt, rfl⟩

/-- Each turn is metered. -/
theorem turn_meters (hrate : 0 ≤ l.refillPerSec) (hceiling : 0 ≤ l.burstCeiling)
    (htokens : 0 ≤ s.tokens) (hnow : s.lastRefill ≤ now) :
    Meters l.burstCeiling l.refillPerSec s.level now
      (if (l.turn cost now s).1 = none then cost else 0) (l.turn cost now s).2.level := by
  obtain ⟨tokens, htokens', hcases⟩ := turn_cases l cost hnow
  have hgain : 0 ≤ (now - s.lastRefill) * l.refillPerSec :=
    mul_nonneg (sub_nonneg.mpr hnow) hrate
  have hheld : 0 ≤ tokens := by
    rw [htokens']
    exact le_min (add_nonneg htokens hgain) hceiling
  have hcapped : tokens ≤ l.burstCeiling := htokens' ▸ min_le_right _ _
  have hgained : tokens ≤ s.tokens + l.refillPerSec * (now - s.lastRefill) := by
    rw [htokens', mul_comm l.refillPerSec]
    exact min_le_left _ _
  obtain ⟨hle, hturn⟩ | ⟨hlt, hturn⟩ := hcases
  · rw [hturn]
    refine ⟨hnow, rfl, sub_nonneg.mpr hle, ?_, ?_⟩
    · simpa [QuotaState.level] using hcapped
    · simpa [QuotaState.level] using hgained
  · rw [hturn]
    refine ⟨hnow, rfl, hheld, ?_, ?_⟩
    · simpa [QuotaState.level] using hcapped
    · simpa [QuotaState.level] using hgained

/-- A caller that has slept as long as it was told finds its tokens. -/
theorem turn_after_wait {d late : ℚ} {s' : QuotaState} (hrate : 0 < l.refillPerSec)
    (hcost : cost ≤ l.burstCeiling) (hnow : s.lastRefill ≤ now)
    (hwait : l.turn cost now s = (some d, s')) (hlate : 0 ≤ late) :
    ∃ s'', l.turn cost (now + d + late) s' = (none, s'') := by
  obtain ⟨tokens, -, hcases⟩ := turn_cases l cost hnow
  obtain ⟨-, hturn⟩ | ⟨hlt, hturn⟩ := hcases
  · rw [hturn] at hwait
    cases hwait
  · rw [hturn] at hwait
    obtain ⟨hd, rfl⟩ := Prod.mk.inj hwait
    have hd' : d = (cost - tokens) / l.refillPerSec := (Option.some.inj hd).symm
    have hpos : 0 ≤ d := by
      rw [hd']
      exact div_nonneg (sub_nonneg.mpr hlt.le) hrate.le
    obtain ⟨tokens', htokens', hcases'⟩ := @turn_cases ⟨tokens, now⟩ (now + d + late) l cost
      (show now ≤ now + d + late by linarith)
    have hmissing : d * l.refillPerSec = cost - tokens := by
      rw [hd', div_mul_cancel₀ _ hrate.ne']
    have henough : cost ≤ tokens' := by
      rw [htokens']
      refine le_min ?_ hcost
      have hextra := mul_nonneg hlate hrate.le
      have hsum : (now + d + late - now) * l.refillPerSec =
          d * l.refillPerSec + late * l.refillPerSec := by ring
      dsimp only
      rw [hsum]
      linarith
    obtain ⟨-, hturn'⟩ | ⟨hlt', -⟩ := hcases'
    · exact ⟨_, hturn'⟩
    · exact absurd henough (not_le.mpr hlt')

theorem acquire_succ (late : ℕ → ℚ) (n : ℕ) :
    l.acquire cost late (n + 1) now s = match (l.turn cost now s).1 with
      | none => some (now, (l.turn cost now s).2)
      | some d => l.acquire cost late n (now + d + late n) (l.turn cost now s).2 := rfl

/-- Alone, a caller waits once at most. -/
theorem acquire_returns {late : ℕ → ℚ} (hrate : 0 < l.refillPerSec) (hcost : cost ≤ l.burstCeiling)
    (hnow : s.lastRefill ≤ now) (hlate : ∀ n, 0 ≤ late n) :
    ∃ time s', l.acquire cost late 2 now s = some (time, s') := by
  rcases hturn : l.turn cost now s with ⟨_ | d, s'⟩
  · exact ⟨now, s', by rw [acquire_succ, hturn]⟩
  · obtain ⟨s'', hturn'⟩ := turn_after_wait hrate hcost hnow hturn (hlate 1)
    refine ⟨now + d + late 1, s'', ?_⟩
    rw [acquire_succ, hturn]
    simp only [acquire_succ late 0, hturn']

/-- A limiter at a rate that is not negative has a ceiling that is not. -/
theorem new_burstCeiling_nonneg {unitsPerSec : ℚ} (hrate : 0 ≤ unitsPerSec) :
    0 ≤ (new unitsPerSec).burstCeiling :=
  le_min hrate (by decide)

end QuotaLimiter

/-! ## the runs -/

variable {l : QuotaLimiter} {w w' : QuotaWorld ι} {log : List (ℚ × ℚ)}

/-- Nobody waits for less than nothing. -/
theorem QuotaRun.asleep_nonneg (h : QuotaRun l w log w')
    (hw : ∀ c cost until_, w.asleep c = some (cost, until_) → 0 ≤ cost) :
    ∀ c cost until_, w'.asleep c = some (cost, until_) → 0 ≤ cost := by
  have hattempt : ∀ (w₁ : QuotaWorld ι) (c : ι) (cost now : ℚ), 0 ≤ cost →
      (∀ c cost until_, w₁.asleep c = some (cost, until_) → 0 ≤ cost) →
      ∀ c' cost' until', (w₁.attempt l c cost now).asleep c' = some (cost', until') →
        0 ≤ cost' := by
    intro w₁ c cost now hcost hw₁ c' cost' until' hc'
    by_cases hc : c' = c
    · subst hc
      simp only [QuotaWorld.attempt, Function.update_self, Option.map_eq_some_iff,
        Prod.mk.injEq] at hc'
      obtain ⟨_, -, rfl, -⟩ := hc'
      exact hcost
    · simp only [QuotaWorld.attempt, Function.update_of_ne hc] at hc'
      exact hw₁ c' cost' until' hc'
  induction h with
  | start => exact hw
  | call _ _ hcost _ ih => exact hattempt _ _ _ _ hcost ih
  | wake _ hasleep _ _ ih => exact hattempt _ _ _ _ (ih _ _ _ hasleep) ih

/-- A run of the limiter is a run of the meter, and grants nothing negative. -/
theorem QuotaRun.metered (h : QuotaRun l w log w') (hrate : 0 ≤ l.refillPerSec)
    (hceiling : 0 ≤ l.burstCeiling)
    (htokens : 0 ≤ w.state.tokens ∧ w.state.tokens ≤ l.burstCeiling)
    (hw : ∀ c cost until_, w.asleep c = some (cost, until_) → 0 ≤ cost) :
    Run l.burstCeiling l.refillPerSec w.state.level log w'.state.level ∧ ∀ e ∈ log, 0 ≤ e.2 := by
  have hturn : ∀ {log : List (ℚ × ℚ)} {w₁ : QuotaWorld ι} (c : ι) {cost now : ℚ}, 0 ≤ cost →
      w₁.state.lastRefill ≤ now →
      Run l.burstCeiling l.refillPerSec w.state.level log w₁.state.level ∧
        (∀ e ∈ log, 0 ≤ e.2) →
      Run l.burstCeiling l.refillPerSec w.state.level (log ++ [(now, w₁.grant l cost now)])
          (w₁.attempt l c cost now).state.level ∧
        ∀ e ∈ log ++ [(now, w₁.grant l cost now)], 0 ≤ e.2 := by
    intro log w₁ c cost now hcost hnow hrun
    obtain ⟨hrun, hlog⟩ := hrun
    have hheld := (hrun.within htokens hlog).1
    refine ⟨hrun.event (QuotaLimiter.turn_meters hrate hceiling hheld hnow), ?_⟩
    have hgrant : 0 ≤ w₁.grant l cost now := by
      rw [QuotaWorld.grant]
      split
      · exact hcost
      · exact le_rfl
    simpa [or_imp, forall_and, hgrant] using hlog
  induction h with
  | start => exact ⟨.start, by simp⟩
  | call _ _ hcost hnow ih => exact hturn _ hcost hnow ih
  | wake hrun hasleep _ hnow ih => exact hturn _ (hrun.asleep_nonneg hw _ _ _ hasleep) hnow ih

end Dinero
