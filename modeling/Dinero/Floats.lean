import Mathlib.Algebra.Order.Round
import Mathlib.Data.Int.Log
import Mathlib.Data.Rat.Floor
import Mathlib.Tactic.FieldSimp
import Mathlib.Tactic.Linarith
import Mathlib.Tactic.NormNum
import Mathlib.Tactic.Ring

/-!
# Dinero.Floats

Numbers as `f64`: 53 significant bits, ties to even.

No number here is so small or so large that the exponent runs out.  The last
section is about hundredths: what a number of them is rounded to, and whether
the product with 100 gives it back.
-/

namespace Dinero

/-! ## rounding -/

/-- The nearest integer, ties to even. -/
def roundHalfEven (x : ℚ) : ℤ :=
  if x - ⌊x⌋ < 1 / 2 then ⌊x⌋
  else if 1 / 2 < x - ⌊x⌋ then ⌊x⌋ + 1
  else if ⌊x⌋ % 2 = 0 then ⌊x⌋ else ⌊x⌋ + 1

/-- The `f64` nearest to a number that is not negative: 53 significant bits, ties to even. -/
def nearestF64 (q : ℚ) : ℚ :=
  roundHalfEven (q / 2 ^ (Int.log 2 q - 52)) * 2 ^ (Int.log 2 q - 52)

/-- The `f64` nearest to a number. -/
def nearestSigned (x : ℚ) : ℚ := if 0 ≤ x then nearestF64 x else -nearestF64 (-x)

theorem roundHalfEven_near {x : ℚ} {n : ℤ} (hlow : n - 1 / 2 < x) (hhigh : x < n + 1 / 2) :
    roundHalfEven x = n := by
  obtain hle | hgt := le_or_gt (n : ℚ) x
  · have hfloor : ⌊x⌋ = n := Int.floor_eq_iff.mpr ⟨hle, by linarith⟩
    rw [roundHalfEven, hfloor, if_pos (by linarith)]
  · have hfloor : ⌊x⌋ = n - 1 := by
      rw [Int.floor_eq_iff]
      push_cast
      constructor <;> linarith
    rw [roundHalfEven, hfloor, if_neg (by push_cast; linarith), if_pos (by push_cast; linarith)]
    omega

/-- Ties go to the even one. -/
theorem roundHalfEven_even {x : ℚ} {n : ℤ} (hn : n % 2 = 0) (hlow : n - 1 / 2 ≤ x)
    (hhigh : x ≤ n + 1 / 2) : roundHalfEven x = n := by
  obtain hlt | heq := lt_or_eq_of_le hlow
  · obtain hlt' | heq' := lt_or_eq_of_le hhigh
    · exact roundHalfEven_near hlt hlt'
    · have hfloor : ⌊x⌋ = n := Int.floor_eq_iff.mpr ⟨by linarith, by linarith⟩
      rw [roundHalfEven, hfloor, if_neg (by linarith), if_neg (by linarith), if_pos hn]
  · have hfloor : ⌊x⌋ = n - 1 := by
      rw [Int.floor_eq_iff]
      push_cast
      constructor <;> linarith
    rw [roundHalfEven, hfloor, if_neg (by push_cast; linarith), if_neg (by push_cast; linarith),
      if_neg (by omega)]
    omega

/-- No integer is nearer. -/
theorem roundHalfEven_bounds (x : ℚ) :
    x - 1 / 2 ≤ roundHalfEven x ∧ (roundHalfEven x : ℚ) ≤ x + 1 / 2 := by
  have hfloor := Int.floor_le x
  have hnext := Int.lt_floor_add_one x
  rw [roundHalfEven]
  split_ifs <;> push_cast <;> constructor <;> linarith

theorem roundHalfEven_nonneg {x : ℚ} (h : 0 ≤ x) : 0 ≤ roundHalfEven x := by
  have hbound := (roundHalfEven_bounds x).1
  have hcast : ((-1 : ℤ) : ℚ) < roundHalfEven x := by
    push_cast
    linarith
  have hlt := Int.cast_lt.mp hcast
  omega

@[simp] theorem roundHalfEven_intCast (n : ℤ) : roundHalfEven n = n :=
  roundHalfEven_near (by linarith) (by linarith)

/-! ## floats -/

theorem log_eq {q : ℚ} {e : ℤ} (hlow : 2 ^ e ≤ q) (hhigh : q < 2 ^ (e + 1)) :
    Int.log 2 q = e := by
  have hpos : 0 < q := lt_of_lt_of_le (zpow_pos (by norm_num) e) hlow
  have hle : e ≤ Int.log 2 q :=
    (Int.zpow_le_iff_le_log (by decide) hpos).mp (by exact_mod_cast hlow)
  have hlt : Int.log 2 q < e + 1 :=
    (Int.lt_zpow_iff_log_lt (by decide) hpos).mp (by exact_mod_cast hhigh)
  omega

/-- The float of a number between two powers of two. -/
theorem nearestF64_eq {q : ℚ} {e : ℤ} (hlow : 2 ^ e ≤ q) (hhigh : q < 2 ^ (e + 1)) :
    nearestF64 q = roundHalfEven (q * 2 ^ (52 - e)) * 2 ^ (e - 52) := by
  have hneg : -(e - 52) = 52 - e := by omega
  rw [nearestF64, log_eq hlow hhigh, div_eq_mul_inv, ← zpow_neg, hneg]

@[simp] theorem nearestF64_zero : nearestF64 0 = 0 := by
  rw [nearestF64, zero_div]
  have hround := roundHalfEven_intCast 0
  rw [Int.cast_zero] at hround
  rw [hround, Int.cast_zero, zero_mul]

theorem nearestF64_nonneg {x : ℚ} (h : 0 ≤ x) : 0 ≤ nearestF64 x := by
  have hround := roundHalfEven_nonneg (div_nonneg h (zpow_nonneg (by norm_num : (0 : ℚ) ≤ 2)
    (Int.log 2 x - 52)))
  exact mul_nonneg (by exact_mod_cast hround) (zpow_nonneg (by norm_num) _)

/-- Rounding does not double a number. -/
theorem nearestF64_le {x : ℚ} (h : 0 < x) : nearestF64 x ≤ 2 * x := by
  have hlog : (2 : ℚ) ^ Int.log 2 x ≤ x := by exact_mod_cast Int.zpow_log_le_self (by decide) h
  have hpos : (0 : ℚ) < 2 ^ (Int.log 2 x - 52) := zpow_pos (by norm_num) _
  have hone : 1 ≤ x / 2 ^ (Int.log 2 x - 52) := by
    rw [one_le_div hpos]
    exact le_trans (zpow_le_zpow_right₀ (by norm_num) (by omega)) hlog
  have hround := (roundHalfEven_bounds (x / 2 ^ (Int.log 2 x - 52))).2
  have hvalue : x / 2 ^ (Int.log 2 x - 52) * 2 ^ (Int.log 2 x - 52) = x :=
    div_mul_cancel₀ x hpos.ne'
  rw [nearestF64]
  nlinarith

@[simp] theorem nearestSigned_neg (x : ℚ) : nearestSigned (-x) = -nearestSigned x := by
  obtain hneg | rfl | hpos := lt_trichotomy x 0
  · rw [nearestSigned, nearestSigned, if_pos (by linarith), if_neg (by linarith), neg_neg]
  · simp [nearestSigned]
  · rw [nearestSigned, nearestSigned, if_neg (by linarith), if_pos hpos.le, neg_neg]

theorem nearestSigned_of_nonneg {x : ℚ} (h : 0 ≤ x) : nearestSigned x = nearestF64 x := if_pos h

theorem zpow_log2_le {n : Nat} (h : n ≠ 0) : (2 : ℚ) ^ (n.log2 : ℤ) ≤ n := by
  have hle := Nat.log2_self_le h
  rw [zpow_natCast]
  exact_mod_cast hle

theorem lt_zpow_log2 (n : Nat) : (n : ℚ) < 2 ^ ((n.log2 : ℤ) + 1) := by
  have hlt := @Nat.lt_log2_self n
  have hcast : ((n.log2 : ℤ) + 1) = ((n.log2 + 1 : Nat) : ℤ) := by push_cast; rfl
  rw [hcast, zpow_natCast]
  exact_mod_cast hlt

/-- Integers of so many bits are floats. -/
theorem nearestF64_natCast {n : Nat} (h : n < 2 ^ 53) : nearestF64 n = n := by
  by_cases hzero : n = 0
  · simp [hzero]
  · have hbits : n.log2 < 53 := (Nat.log2_lt hzero).mpr h
    obtain ⟨j, hj⟩ : ∃ j : Nat, (52 : ℤ) - n.log2 = j := ⟨52 - n.log2, by omega⟩
    have hint : (n : ℚ) * 2 ^ (52 - (n.log2 : ℤ)) = ((n * 2 ^ j : ℤ) : ℚ) := by
      rw [hj, zpow_natCast]
      push_cast
      rfl
    rw [nearestF64_eq (zpow_log2_le hzero) (lt_zpow_log2 n), hint, roundHalfEven_intCast, ← hint,
      mul_assoc, ← zpow_add₀ (by norm_num)]
    have hcancel : (52 : ℤ) - n.log2 + (n.log2 - 52) = 0 := by omega
    rw [hcancel, zpow_zero, mul_one]

theorem nearestSigned_intCast {n : ℤ} (h : |n| < 2 ^ 53) : nearestSigned n = n := by
  obtain ⟨m, rfl | rfl⟩ := Int.eq_nat_or_neg n
  · rw [Int.cast_natCast, nearestSigned_of_nonneg (Nat.cast_nonneg m),
      nearestF64_natCast (by simpa using h)]
  · rw [Int.cast_neg, Int.cast_natCast, nearestSigned_neg,
      nearestSigned_of_nonneg (Nat.cast_nonneg m), nearestF64_natCast (by simpa using h)]

/-! ## hundredths -/

/-- The product of the rounded hundredths with 100 falls short of `k`.

The leading bits of `k` say that it is at least 1.5625 times a power of two, and its hundredth
part was rounded down by more than the product is rounded up. -/
def Slips (k : Nat) : Prop :=
  25 * 2 ^ k.log2 ≤ 16 * k ∧ 32 < k * 2 ^ (58 - k.log2) % 100 ∧ k * 2 ^ (58 - k.log2) % 100 < 50

instance (k : Nat) : Decidable (Slips k) := inferInstanceAs (Decidable (_ ∧ _ ∧ _))

example : (List.range 200).filter (fun k => Slips k) = [29, 57, 58, 113, 114, 115, 116] := by
  decide +kernel

section Hundredths

variable {k L w : Nat}

/-- The product with 100 of rounded hundredths: what it misses `k` by. -/
theorem exists_remainder (hL : L ≤ 46) (hlow : (2 : ℚ) ^ ((L : ℤ) - w) ≤ k / 100)
    (hhigh : (k : ℚ) / 100 < 2 ^ ((L : ℤ) - w + 1)) :
    ∃ r : ℤ, -48 ≤ r ∧ r ≤ 48 ∧ (k * 2 ^ (52 + w - L) - r) % 100 = 0 ∧
      nearestF64 (k / 100) * 100 = k - r / 2 ^ (52 + w - L) := by
  obtain ⟨j, hj⟩ : ∃ j, 52 + w - L = j + 2 := ⟨50 + w - L, by omega⟩
  have hexp : (52 : ℤ) - ((L : ℤ) - w) = ((j + 2 : Nat) : ℤ) := by omega
  have hexp' : (L : ℤ) - w - 52 = -((j + 2 : Nat) : ℤ) := by omega
  have hfloat := nearestF64_eq hlow hhigh
  rw [hexp, hexp', zpow_natCast, zpow_neg, zpow_natCast] at hfloat
  obtain ⟨hbelow, habove⟩ := roundHalfEven_bounds ((k : ℚ) / 100 * 2 ^ (j + 2))
  generalize roundHalfEven ((k : ℚ) / 100 * 2 ^ (j + 2)) = q at hfloat hbelow habove
  -- both are multiples of four, so that ties do not arise
  obtain ⟨d, hd⟩ : ∃ d : ℤ, d = k * 2 ^ j - 25 * q := ⟨_, rfl⟩
  have hrat : (d : ℚ) = k * 2 ^ j - 25 * q := by
    rw [hd]
    push_cast
    rfl
  have hfour : (k : ℚ) / 100 * 2 ^ (j + 2) = k * 2 ^ j / 25 := by ring
  rw [hfour] at hbelow habove
  have hhigh : (d : ℚ) < (13 : ℤ) := by
    push_cast
    linarith
  have hlow : ((-13 : ℤ) : ℚ) < d := by
    push_cast
    linarith
  have hhigh := Int.cast_lt.mp hhigh
  have hlow := Int.cast_lt.mp hlow
  have hr : (k : ℤ) * 2 ^ (j + 2) - 100 * q = 4 * d := by
    rw [hd]
    ring
  refine ⟨k * 2 ^ (j + 2) - 100 * q, ?_, ?_, ?_, ?_⟩
  · omega
  · omega
  · rw [hj]
    omega
  · rw [hfloat, hj]
    push_cast
    field_simp
    ring

/-- The float of the product. -/
theorem nearestF64_product (hL : L ≤ 46) (hlow : 2 ^ L ≤ k) (hhigh : k < 2 ^ (L + 1)) {r : ℤ}
    (hr : -48 ≤ r) (hr' : r ≤ 48) (hpower : r ≤ 0 ∨ 2 ^ L < k) :
    nearestF64 (k - r / 2 ^ (52 + w - L)) =
      roundHalfEven (k * 2 ^ (52 - L) - r / 2 ^ w) * 2 ^ ((L : ℤ) - 52) := by
  have hP : (64 : ℚ) ≤ 2 ^ (52 + w - L) := by
    have hpow : (2 : ℚ) ^ 6 ≤ 2 ^ (52 + w - L) := pow_le_pow_right₀ (by norm_num) (by omega)
    linarith
  have hsmall : |(r : ℚ) / 2 ^ (52 + w - L)| < 1 := by
    rw [abs_div, abs_of_pos (show (0 : ℚ) < 2 ^ (52 + w - L) by positivity),
      div_lt_one (by positivity)]
    have hcast : |(r : ℚ)| ≤ 48 := by
      rw [abs_le]
      exact ⟨by exact_mod_cast hr, by exact_mod_cast hr'⟩
    linarith
  obtain ⟨hsmall, hsmall'⟩ := abs_lt.mp hsmall
  have hbelow : (2 : ℚ) ^ (L : ℤ) ≤ k - r / 2 ^ (52 + w - L) := by
    rw [zpow_natCast]
    obtain hneg | hgt := hpower
    · have hle : (r : ℚ) / 2 ^ (52 + w - L) ≤ 0 :=
        div_nonpos_of_nonpos_of_nonneg (by exact_mod_cast hneg) (by positivity)
      have hcast : (2 : ℚ) ^ L ≤ k := by exact_mod_cast hlow
      linarith
    · have hcast : (2 : ℚ) ^ L + 1 ≤ k := by exact_mod_cast hgt
      linarith
  have habove : (k : ℚ) - r / 2 ^ (52 + w - L) < 2 ^ ((L : ℤ) + 1) := by
    have hexp : (L : ℤ) + 1 = ((L + 1 : Nat) : ℤ) := by push_cast; rfl
    rw [hexp, zpow_natCast]
    have hcast : (k : ℚ) + 1 ≤ 2 ^ (L + 1) := by exact_mod_cast hhigh
    linarith
  have hexp : (52 : ℤ) - L = ((52 - L : Nat) : ℤ) := by omega
  have hsplit : (2 : ℚ) ^ (52 + w - L) = 2 ^ w * 2 ^ (52 - L) := by
    rw [← pow_add]
    congr 1
    omega
  have harg : ((k : ℚ) - r / 2 ^ (52 + w - L)) * 2 ^ (52 - L) = k * 2 ^ (52 - L) - r / 2 ^ w := by
    rw [hsplit]
    field_simp
  rw [nearestF64_eq hbelow habove, hexp, zpow_natCast, harg]

/-- A few units in the last place of a float are less than one. -/
theorem floor_product (hL : L ≤ 46) {j : ℤ} (hj : -1 ≤ j) (hj' : j ≤ 1) :
    ⌊((k * 2 ^ (52 - L) + j : ℤ) : ℚ) * 2 ^ ((L : ℤ) - 52)⌋ = if j < 0 then (k : ℤ) - 1 else k := by
  obtain ⟨m, hm⟩ : ∃ m, 52 - L = m + 6 := ⟨46 - L, by omega⟩
  have hexp : (L : ℤ) - 52 = -((m + 6 : Nat) : ℤ) := by omega
  have hone : (1 : ℚ) ≤ 2 ^ m := one_le_pow₀ (by norm_num)
  have hvalue : ((k * 2 ^ (52 - L) + j : ℤ) : ℚ) * 2 ^ ((L : ℤ) - 52) = k + j / (2 ^ m * 64) := by
    rw [hexp, hm, zpow_neg, zpow_natCast]
    push_cast
    field_simp
    ring
  rw [hvalue, Int.floor_eq_iff]
  have hpos : (0 : ℚ) < 2 ^ m * 64 := by positivity
  have hcases : j = -1 ∨ j = 0 ∨ j = 1 := by omega
  have hinv : (1 : ℚ) / (2 ^ m * 64) < 1 := by
    rw [div_lt_one hpos]
    linarith
  have hinvpos : (0 : ℚ) < 1 / (2 ^ m * 64) := by positivity
  obtain rfl | rfl | rfl := hcases
  · rw [if_pos (by decide)]
    push_cast
    rw [neg_div]
    constructor <;> linarith
  · rw [if_neg (by decide)]
    push_cast
    rw [zero_div]
    constructor <;> linarith
  · rw [if_neg (by decide)]
    push_cast
    constructor <;> linarith

/-- In units of the last place the product is an even number and a little. -/
theorem roundHalfEven_product (hL : L ≤ 46) {r : ℤ} {x : ℚ} (hx : (r : ℚ) / 2 ^ w = x) :
    (x ≤ 1 / 2 → -1 / 2 ≤ x →
      roundHalfEven (k * 2 ^ (52 - L) - r / 2 ^ w) = k * 2 ^ (52 - L) + 0) ∧
    (1 / 2 < x → x < 1 →
      roundHalfEven (k * 2 ^ (52 - L) - r / 2 ^ w) = k * 2 ^ (52 - L) + -1) ∧
    (x < -1 / 2 → -1 < x →
      roundHalfEven (k * 2 ^ (52 - L) - r / 2 ^ w) = k * 2 ^ (52 - L) + 1) := by
  obtain ⟨m, hm⟩ : ∃ m, 52 - L = m + 1 := ⟨51 - L, by omega⟩
  rw [hx, hm]
  refine ⟨fun h h' => ?_, fun h h' => ?_, fun h h' => ?_⟩
  · refine roundHalfEven_even ?_ ?_ ?_
    · have hdouble : (k : ℤ) * 2 ^ (m + 1) + 0 = 2 * (k * 2 ^ m) := by ring
      omega
    · push_cast
      linarith
    · push_cast
      linarith
  · refine roundHalfEven_near ?_ ?_
    · push_cast
      linarith
    · push_cast
      linarith
  · refine roundHalfEven_near ?_ ?_
    · push_cast
      linarith
    · push_cast
      linarith

end Hundredths

/-- **Hundredths through floats**: the whole part of the product is `k`, or one less. -/
theorem floor_hundredths {k : Nat} (hk : k < 10 ^ 14) :
    ⌊nearestF64 (nearestF64 ((k : ℚ) / 100) * 100)⌋ = if Slips k then (k : ℤ) - 1 else k := by
  by_cases hzero : k = 0
  · subst hzero
    have hnot : ¬ Slips 0 := by decide
    simp [if_neg hnot]
  obtain ⟨L, hlog⟩ : ∃ L, k.log2 = L := ⟨_, rfl⟩
  have hL : L ≤ 46 := by
    have hlt := (Nat.log2_lt hzero).mpr (show k < 2 ^ 47 by omega)
    omega
  have hlow : 2 ^ L ≤ k := hlog ▸ Nat.log2_self_le hzero
  have hhigh : k < 2 ^ (L + 1) := hlog ▸ Nat.lt_log2_self
  have hcastlow : (2 : ℚ) ^ L ≤ k := by exact_mod_cast hlow
  have hcasthigh : (k : ℚ) < 2 * 2 ^ L := by
    rw [pow_succ] at hhigh
    exact_mod_cast (by omega : k < 2 * 2 ^ L)
  have hscale : ∀ w : Nat, (2 : ℚ) ^ ((L : ℤ) - w) = 2 ^ L / 2 ^ w := by
    intro w
    rw [zpow_sub₀ (by norm_num), zpow_natCast, zpow_natCast]
  have hdouble : ∀ w : Nat, (2 : ℚ) ^ ((L : ℤ) - w + 1) = 2 * (2 ^ L / 2 ^ w) := by
    intro w
    rw [zpow_add₀ (by norm_num), hscale, zpow_one, mul_comm]
  have hslips : Slips k ↔ 25 * 2 ^ L ≤ 16 * k ∧ 32 < k * 2 ^ (58 - L) % 100 ∧
      k * 2 ^ (58 - L) % 100 < 50 := by
    rw [Slips, hlog]
  by_cases hlead : 25 * 2 ^ L ≤ 16 * k
  · -- the product has the scale of `k`, and the hundredth part six places less
    have hcast : (25 : ℚ) * 2 ^ L ≤ 16 * k := by exact_mod_cast hlead
    obtain ⟨r, hr, hr', hmod, hproduct⟩ := @exists_remainder k L 6 hL
      (by rw [hscale]; linarith) (by rw [hdouble]; linarith)
    rw [hproduct, nearestF64_product hL hlow hhigh hr hr' (.inr (by omega))]
    obtain ⟨hmid, hdown, hup⟩ := @roundHalfEven_product k L 6 hL r _ rfl
    obtain ⟨n, hn⟩ : ∃ n, k * 2 ^ (58 - L) = n := ⟨_, rfl⟩
    have hint : (k : ℤ) * 2 ^ (52 + 6 - L) = n := by
      rw [← hn]
      push_cast
      rfl
    rw [hint] at hmod
    rw [hn] at hslips
    have hcastr : (-48 : ℚ) ≤ r ∧ (r : ℚ) ≤ 48 := ⟨by exact_mod_cast hr, by exact_mod_cast hr'⟩
    by_cases hbig : 32 < r
    · have hcastbig : (32 : ℚ) < r := by exact_mod_cast hbig
      rw [if_pos (hslips.mpr (by omega)), hdown (by linarith) (by linarith),
        floor_product hL (by decide) (by decide), if_pos (by decide)]
    · rw [if_neg (mt hslips.mp (by omega))]
      have hcastbig : (r : ℚ) ≤ 32 := by exact_mod_cast not_lt.mp hbig
      by_cases hneg : r < -32
      · have hcastneg : (r : ℚ) < -32 := by exact_mod_cast hneg
        rw [hup (by linarith) (by linarith), floor_product hL (by decide) (by decide),
          if_neg (by decide)]
      · have hcastneg : (-32 : ℚ) ≤ r := by exact_mod_cast not_lt.mp hneg
        rw [hmid (by linarith) (by linarith), floor_product hL (by decide) (by decide),
          if_neg (by decide)]
  · -- seven places less: the product is rounded back to `k`
    have hcast : (16 : ℚ) * k < 25 * 2 ^ L := by exact_mod_cast not_le.mp hlead
    obtain ⟨r, hr, hr', hmod, hproduct⟩ := @exists_remainder k L 7 hL
      (by rw [hscale]; linarith) (by rw [hdouble]; linarith)
    have hpower : r ≤ 0 ∨ 2 ^ L < k := by
      by_cases heq : k = 2 ^ L
      · have hint : (k : ℤ) * 2 ^ (52 + 7 - L) = 2 ^ 59 := by
          have hsum : L + (52 + 7 - L) = 59 := by omega
          rw [heq, Nat.cast_pow, Nat.cast_two, ← pow_add, hsum]
        rw [hint] at hmod
        omega
      · exact .inr (by omega)
    have hcastr : (-48 : ℚ) ≤ r ∧ (r : ℚ) ≤ 48 := ⟨by exact_mod_cast hr, by exact_mod_cast hr'⟩
    rw [hproduct, nearestF64_product hL hlow hhigh hr hr' hpower,
      (@roundHalfEven_product k L 7 hL r _ rfl).1 (by linarith) (by linarith),
      floor_product hL (by decide) (by decide), if_neg (by decide),
      if_neg (mt hslips.mp fun h => hlead h.1)]

end Dinero
