import Mathlib.Algebra.Order.Field.Rat
import Mathlib.Algebra.Order.Floor.Ring
import Mathlib.Data.Rat.Floor
import Mathlib.Tactic.Ring
import Mathlib.Tactic.FieldSimp
import Mathlib.Tactic.Positivity

/-!
# Dinero.Numerals

Printed decimal numbers: digits with commas between them, a decimal point,
decimals.  What their digits stand for, and how the parts add up.  In front of
it, the ranges of ASCII digits and letters.
-/

namespace Dinero

theorem isDigit_range {c : Char} (h : c.isDigit = true) : 48 ≤ c.toNat ∧ c.toNat ≤ 57 := by
  simp only [Char.isDigit, Bool.and_eq_true, decide_eq_true_eq] at h
  exact h

theorem isAlpha_range {c : Char} (h : c.isAlpha = true) :
    65 ≤ c.toNat ∧ c.toNat ≤ 90 ∨ 97 ≤ c.toNat ∧ c.toNat ≤ 122 := by
  have hcases : (c.isUpper || c.isLower) = true := h
  rw [Bool.or_eq_true] at hcases
  cases hcases with
  | inl hupper =>
    have hbounds : decide (c.val ≥ 'A'.val ∧ c.val ≤ 'Z'.val) = true := hupper
    exact .inl (of_decide_eq_true hbounds)
  | inr hlower =>
    have hbounds : (decide (c.val ≥ 'a'.val) && decide (c.val ≤ 'z'.val)) = true := hlower
    rw [Bool.and_eq_true] at hbounds
    exact .inr ⟨of_decide_eq_true hbounds.1, of_decide_eq_true hbounds.2⟩

theorem not_isAlpha_of_digit {c : Char} (h : c.isDigit = true) : c.isAlpha = false := by
  rw [Bool.eq_false_iff]
  intro hletter
  have hdigit := isDigit_range h
  have hrange := isAlpha_range hletter
  omega

theorem isWhitespace_eq (c : Char) :
    c.isWhitespace =
      (decide (c = ' ') || decide (c = '\t') || decide (c = '\r') || decide (c = '\n')) := rfl

theorem isWhitespace_of_lt {c : Char} (h : 32 < c.toNat) : c.isWhitespace = false := by
  have hne : ∀ d : Char, d.toNat ≤ 32 → decide (c = d) = false := by
    intro d hd
    refine decide_eq_false fun heq => ?_
    rw [heq] at h
    omega
  rw [isWhitespace_eq, hne _ (by decide), hne _ (by decide), hne _ (by decide), hne _ (by decide)]
  rfl

theorem toLower_cases (c : Char) :
    c.toLower = c ∨ (c.isAlpha = true ∧ c.toLower.isAlpha = true) := by
  by_cases hupper : 65 ≤ c.toNat ∧ c.toNat ≤ 90
  · have hc : c = Char.ofNat c.toNat := (Char.ofNat_toNat c).symm
    have hall : ∀ n < 91, 65 ≤ n → (Char.ofNat n).isAlpha = true ∧
        (Char.ofNat n).toLower.isAlpha = true := by decide
    rw [hc]
    exact .inr (hall c.toNat (by omega) hupper.1)
  · refine .inl ?_
    unfold Char.toLower
    rw [dif_neg]
    intro h
    have hlow : ('A' : Char).val.toNat ≤ c.val.toNat := UInt32.le_iff_toNat_le.mp h.1
    have hhigh : c.val.toNat ≤ ('Z' : Char).val.toNat := UInt32.le_iff_toNat_le.mp h.2
    exact hupper ⟨hlow, hhigh⟩

theorem toLower_toLower (c : Char) : c.toLower.toLower = c.toLower := by
  obtain hlower | ⟨halpha, -⟩ := toLower_cases c
  · rw [hlower, hlower]
  · have hc : c = Char.ofNat c.toNat := (Char.ofNat_toNat c).symm
    have hall : ∀ n < 123, (Char.ofNat n).toLower.toLower = (Char.ofNat n).toLower := by decide
    rw [hc]
    have hrange := isAlpha_range halpha
    exact hall c.toNat (by omega)

namespace Numerals

/-- The number that digits stand for. -/
def number (ds : List Char) : Nat := Nat.ofDigitChars 10 ds 0

theorem number_eq_foldl (ds : List Char) :
    number ds = ds.foldl (fun n c => 10 * n + (c.toNat - 48)) 0 := rfl

@[simp] theorem number_nil : number [] = 0 := rfl

theorem number_append (xs ys : List Char) :
    number (xs ++ ys) = number xs * 10 ^ ys.length + number ys := by
  rw [number, Nat.ofDigitChars_append, Nat.ofDigitChars_eq_ofDigitChars_zero, Nat.mul_comm]
  rfl

theorem number_cons (d : Char) (ds : List Char) :
    number (d :: ds) = (d.toNat - 48) * 10 ^ ds.length + number ds := by
  have hcons := number_append [d] ds
  rw [List.singleton_append] at hcons
  rw [hcons, number_eq_foldl]
  simp

theorem number_concat (ds : List Char) (d : Char) :
    number (ds ++ [d]) = 10 * number ds + (d.toNat - 48) := by
  rw [number_append, number_cons]
  simp [Nat.mul_comm]

@[simp] theorem number_toDigits (n : Nat) : number (Nat.toDigits 10 n) = n :=
  Nat.ofDigitChars_ten_toDigits

/-- Leading zeros count for nothing. -/
theorem number_zeros_append (i : Nat) (ds : List Char) :
    number (List.replicate i '0' ++ ds) = number ds := by
  have hzero : number (List.replicate i '0') = 0 := by simp [number]
  rw [number_append, hzero, Nat.zero_mul, Nat.zero_add]

/-- Trailing zeros multiply. -/
theorem number_append_zeros (ds : List Char) (j : Nat) :
    number (ds ++ List.replicate j '0') = number ds * 10 ^ j := by
  have hzero : number (List.replicate j '0') = 0 := by simp [number]
  rw [number_append, hzero, List.length_replicate, Nat.add_zero]

theorem digitChar_of_isDigit {d : Char} (hd : d.isDigit = true) :
    d = Nat.digitChar (d.toNat - 48) ∧ d.toNat - 48 < 10 := by
  have hrange := isDigit_range hd
  have hlt : d.toNat - 48 < 10 := by omega
  have hval : d.toNat = (Nat.digitChar (d.toNat - 48)).toNat := by
    rw [Nat.toNat_digitChar_of_lt_ten hlt]
    omega
  exact ⟨Char.toNat_inj.mp hval, hlt⟩

theorem number_lt {ds : List Char} (hds : ∀ c ∈ ds, c.isDigit = true) :
    number ds < 10 ^ ds.length := by
  induction ds with
  | nil => simp
  | cons d ds ih =>
    have hrest := ih fun c hc => hds c (.tail d hc)
    have hd := (digitChar_of_isDigit (hds d (.head ds))).2
    have hmul : (d.toNat - 48) * 10 ^ ds.length ≤ 9 * 10 ^ ds.length :=
      Nat.mul_le_mul_right _ (by omega)
    rw [number_cons, List.length_cons, Nat.pow_succ]
    omega

/-- Digits are those of the number they stand for, behind some zeros. -/
theorem eq_zeros_append_toDigits {ds : List Char} (hds : ∀ c ∈ ds, c.isDigit = true)
    (hne : ds ≠ []) : ∃ i, ds = List.replicate i '0' ++ Nat.toDigits 10 (number ds) := by
  induction ds using List.reverseRecOn with
  | nil => exact absurd rfl hne
  | append_singleton ds d ih =>
    obtain ⟨hd, hlt⟩ := digitChar_of_isDigit (hds d (by simp))
    have hfront : ∀ c ∈ ds, c.isDigit = true := fun c hc => hds c (List.mem_append_left _ hc)
    by_cases hnil : ds = []
    · have hone : number (ds ++ [d]) = d.toNat - 48 := by simp [hnil, number_cons]
      rw [hone, Nat.toDigits_of_lt_base hlt, ← hd, hnil]
      exact ⟨0, rfl⟩
    · obtain ⟨i, hi⟩ := ih hfront hnil
      rw [number_concat]
      by_cases hzero : number ds = 0
      · rw [hzero, Nat.mul_zero, Nat.zero_add, Nat.toDigits_of_lt_base hlt, ← hd]
        rw [hzero, Nat.toDigits_zero] at hi
        exact ⟨i + 1, by rw [hi, List.replicate_succ', List.append_assoc]⟩
      · rw [← Nat.toDigits_append_toDigits (by decide) (Nat.pos_of_ne_zero hzero) hlt,
          Nat.toDigits_of_lt_base hlt, ← hd]
        exact ⟨i, by rw [← List.append_assoc, ← hi]⟩

/-- Only zeros come to nothing. -/
theorem number_eq_zero_iff {ds : List Char} (hds : ∀ c ∈ ds, c.isDigit = true) :
    number ds = 0 ↔ ∀ c ∈ ds, c = '0' := by
  induction ds with
  | nil => simp
  | cons d ds ih =>
    have hrest := ih fun c hc => hds c (.tail d hc)
    have hdigit := hds d (.head ds)
    have hlow := (isDigit_range hdigit).1
    have hzero : d.toNat - 48 = 0 ↔ d = '0' := by
      constructor
      · intro h
        have hval : d.toNat = '0'.toNat := by
          have : '0'.toNat = 48 := rfl
          omega
        exact Char.toNat_inj.mp hval
      · intro h
        rw [h]
        rfl
    rw [number_cons, Nat.add_eq_zero_iff, Nat.mul_eq_zero, hrest, hzero, List.forall_mem_cons]
    simp

/-- Hundredths as decimals, without the zero at the end. -/
def hundredths (f : Nat) : List Char :=
  if f = 0 then []
  else if f % 10 = 0 then [Nat.digitChar (f / 10)]
  else [Nat.digitChar (f / 10), Nat.digitChar (f % 10)]

theorem number_digitChar {n : Nat} (h : n < 10) : number [Nat.digitChar n] = n := by
  rw [number_cons, Nat.toNat_digitChar_of_lt_ten h]
  simp

theorem digitChar_isDigit {n : Nat} (h : n < 10) : (Nat.digitChar n).isDigit = true := by
  have hmem : Nat.digitChar n ∈ Nat.toDigits 10 n := by
    rw [Nat.toDigits_of_lt_base h]
    exact .head _
  exact Nat.isDigit_of_mem_toDigits (by decide) (by decide) hmem

theorem number_two {f : Nat} (hf : f < 100) :
    number [Nat.digitChar (f / 10), Nat.digitChar (f % 10)] = f := by
  have hfirst : number [Nat.digitChar (f / 10)] = f / 10 := number_digitChar (by omega)
  have hcat := number_concat [Nat.digitChar (f / 10)] (Nat.digitChar (f % 10))
  rw [hfirst, Nat.toNat_digitChar_of_lt_ten (by omega)] at hcat
  have hsum : 10 * (f / 10) + (48 + f % 10 - 48) = f := by omega
  exact hcat.trans hsum

theorem number_hundredths {f : Nat} (hf : f < 100) :
    number (hundredths f) * 100 = f * 10 ^ (hundredths f).length := by
  rw [hundredths]
  split
  · rename_i hzero
    simp [hzero]
  · split
    · have hnum : number [Nat.digitChar (f / 10)] = f / 10 := number_digitChar (by omega)
      rw [hnum, List.length_singleton]
      omega
    · rw [number_two hf]
      rfl

theorem eq_of_mul_add {x y p r : Nat} (hr : r < p) (h : x * p + r = y * p) : x = y ∧ r = 0 := by
  have hpos : 0 < p := by omega
  have hmod : r = 0 := by
    have hleft : (x * p + r) % p = r := by
      rw [Nat.mul_comm, Nat.mul_add_mod, Nat.mod_eq_of_lt hr]
    rw [h, Nat.mul_mod_left] at hleft
    exact hleft.symm
  rw [hmod, Nat.add_zero] at h
  exact ⟨Nat.eq_of_mul_eq_mul_right hpos h, hmod⟩

theorem eq_zeros {ds : List Char} (hds : ∀ c ∈ ds, c.isDigit = true) (h : number ds = 0) :
    ds = List.replicate ds.length '0' :=
  List.eq_replicate_iff.mpr ⟨rfl, (number_eq_zero_iff hds).mp h⟩

/-- Decimals that come to some hundredths are printed as those, with zeros behind. -/
theorem decimals_iff {ds : List Char} (hds : ∀ c ∈ ds, c.isDigit = true) {f : Nat} (hf : f < 100) :
    number ds * 100 = f * 10 ^ ds.length ↔ ∃ j, ds = hundredths f ++ List.replicate j '0' := by
  constructor
  · intro h
    cases ds with
    | nil =>
      have hzero : f = 0 := by simpa using h.symm
      exact ⟨0, by rw [hzero]; rfl⟩
    | cons d rest =>
      obtain ⟨hd, hdlt⟩ := digitChar_of_isDigit (hds d (.head rest))
      have hrest : ∀ c ∈ rest, c.isDigit = true := fun c hc => hds c (.tail d hc)
      by_cases hten : f % 10 = 0
      · have hsum : (d.toNat - 48) * 10 ^ rest.length + number rest =
            f / 10 * 10 ^ rest.length := by
          have hf10 : f = 10 * (f / 10) := by omega
          rw [number_cons, List.length_cons, Nat.pow_succ, hf10] at h
          linarith
        obtain ⟨hfirst, hzeros⟩ := eq_of_mul_add (number_lt hrest) hsum
        have hzeros := eq_zeros hrest hzeros
        by_cases hzero : f = 0
        · have hd0 : d = '0' := by
            rw [hd, hfirst, hzero]
            rfl
          refine ⟨rest.length + 1, ?_⟩
          rw [hundredths, if_pos hzero, List.nil_append, List.replicate_succ, ← hzeros, hd0]
        · refine ⟨rest.length, ?_⟩
          rw [hundredths, if_neg hzero, if_pos hten, ← hzeros, ← hfirst, ← hd]
          rfl
      · cases rest with
        | nil =>
          rw [number_cons] at h
          have hfirst : (d.toNat - 48) * 10 = f := by
            simp at h
            omega
          omega
        | cons e rest =>
          obtain ⟨he, helt⟩ := digitChar_of_isDigit (hrest e (.head rest))
          have hrest' : ∀ c ∈ rest, c.isDigit = true := fun c hc => hrest c (.tail e hc)
          have hsum : (10 * (d.toNat - 48) + (e.toNat - 48)) * 10 ^ rest.length + number rest =
              f * 10 ^ rest.length := by
            rw [number_cons, number_cons] at h
            simp only [List.length_cons, Nat.pow_succ] at h
            linarith
          obtain ⟨hfirst, hzeros⟩ := eq_of_mul_add (number_lt hrest') hsum
          have hzeros := eq_zeros hrest' hzeros
          have hzero : f ≠ 0 := by omega
          have htens : f / 10 = d.toNat - 48 := by omega
          have hunits : f % 10 = e.toNat - 48 := by omega
          refine ⟨rest.length, ?_⟩
          rw [hundredths, if_neg hzero, if_neg hten, ← hzeros, htens, hunits, ← hd, ← he]
          rfl
  · rintro ⟨j, rfl⟩
    rw [number_append_zeros, List.length_append, List.length_replicate, Nat.pow_add,
      ← Nat.mul_assoc, ← number_hundredths hf]
    ring

/-- Digits with single commas between them. -/
inductive Grouped : List Char → Prop
  | digit {d : Char} : d.isDigit = true → Grouped [d]
  | cons {d : Char} {w : List Char} : d.isDigit = true → Grouped w → Grouped (d :: w)
  | comma {d : Char} {w : List Char} : d.isDigit = true → Grouped w → Grouped (d :: ',' :: w)

namespace Grouped

variable {w : List Char}

theorem head (h : Grouped w) : ∃ d rest, w = d :: rest ∧ d.isDigit = true := by
  cases h with
  | digit hd => exact ⟨_, _, rfl, hd⟩
  | cons hd => exact ⟨_, _, rfl, hd⟩
  | comma hd => exact ⟨_, _, rfl, hd⟩

theorem ne_nil (h : Grouped w) : w ≠ [] := by
  obtain ⟨d, rest, rfl, -⟩ := h.head
  simp

theorem mem (h : Grouped w) : ∀ c ∈ w, c.isDigit = true ∨ c = ',' := by
  induction h with grind

theorem last (h : Grouped w) : ∃ d, w.getLast? = some d ∧ d.isDigit = true := by
  induction h with
  | digit hd => exact ⟨_, rfl, hd⟩
  | cons hd hw ih =>
    obtain ⟨d, hlast, hdigit⟩ := ih
    exact ⟨d, by rw [List.getLast?_cons, hlast]; rfl, hdigit⟩
  | comma hd hw ih =>
    obtain ⟨d, hlast, hdigit⟩ := ih
    exact ⟨d, by rw [List.getLast?_cons, List.getLast?_cons, hlast]; rfl, hdigit⟩

end Grouped

/-- A printed number: digits with commas between them, a decimal point and decimals.  Either part
may be missing. -/
structure Numeral where
  whole : List Char
  decimals : List Char
  grouped : whole = [] ∨ Grouped whole
  digits : ∀ c ∈ decimals, c.isDigit = true
  nonempty : whole = [] → decimals ≠ []

namespace Numeral

variable (t : Numeral)

/-- The number as it is printed. -/
def text : List Char :=
  t.whole ++ if t.decimals = [] then [] else '.' :: t.decimals

/-- The digits ahead of the decimal point. -/
def wholeDigits : List Char := t.whole.filter Char.isDigit

def value : ℚ := number t.wholeDigits + number t.decimals / 10 ^ t.decimals.length

/-- All digits together, moved behind the decimal point as far as the decimals go. -/
theorem value_eq : t.value = number (t.wholeDigits ++ t.decimals) / 10 ^ t.decimals.length := by
  have hpow : (10 : ℚ) ^ t.decimals.length ≠ 0 := by positivity
  rw [value, number_append]
  push_cast
  field_simp

theorem filter_text : t.text.filter Char.isDigit = t.wholeDigits ++ t.decimals := by
  have hdecimals : t.decimals.filter Char.isDigit = t.decimals :=
    List.filter_eq_self.mpr t.digits
  rw [text, List.filter_append]
  split
  · rename_i hnone
    rw [hnone]
    rfl
  · rw [List.filter_cons_of_neg (by decide), hdecimals]
    rfl

/-- A number has no second point. -/
theorem count_text : t.text.count '.' ≤ 1 := by
  have hwhole : t.whole.count '.' = 0 := by
    rw [List.count_eq_zero]
    intro hmem
    obtain hnil | hgrouped := t.grouped
    · rw [hnil] at hmem
      exact absurd hmem List.not_mem_nil
    · exact absurd (hgrouped.mem _ hmem) (by decide)
  have hdecimals : t.decimals.count '.' = 0 := by
    rw [List.count_eq_zero]
    intro hmem
    exact absurd (t.digits _ hmem) (by decide)
  rw [text, List.count_append, hwhole]
  split
  · simp
  · rw [List.count_cons_self, hdecimals]

theorem wholeDigits_ne_nil (h : t.whole ≠ []) : t.wholeDigits ≠ [] := by
  obtain ⟨d, rest, hwhole, hd⟩ := (t.grouped.resolve_left h).head
  rw [wholeDigits, hwhole, List.filter_cons_of_pos hd]
  simp

theorem any_digit : t.text.any Char.isDigit = true := by
  have hfilter := t.filter_text
  by_cases hwhole : t.whole = []
  · obtain ⟨d, hd⟩ := List.exists_mem_of_ne_nil _ (t.nonempty hwhole)
    have hmem : d ∈ t.text.filter Char.isDigit := by
      rw [hfilter]
      exact List.mem_append_right _ hd
    exact List.any_eq_true.mpr ⟨d, (List.mem_filter.mp hmem).1, t.digits d hd⟩
  · obtain ⟨d, rest, hw, hd⟩ := (t.grouped.resolve_left hwhole).head
    exact List.any_eq_true.mpr ⟨d, by rw [text, hw]; simp, hd⟩

/-- A number begins with a digit, or with a decimal point and a digit. -/
theorem text_cases (post : List Char) :
    (∃ d rest, t.text ++ post = d :: rest ∧ d.isDigit = true) ∨
      (t.whole = [] ∧ ∃ d rest, t.text ++ post = '.' :: d :: rest ∧ d.isDigit = true) := by
  by_cases hwhole : t.whole = []
  · have hsome := t.nonempty hwhole
    obtain ⟨d, ds, hds⟩ := List.exists_cons_of_ne_nil hsome
    have hd : d.isDigit = true := t.digits d (by rw [hds]; exact .head ds)
    have htext : t.text ++ post = '.' :: d :: (ds ++ post) := by
      rw [text, hwhole, if_neg hsome, hds]
      rfl
    exact .inr ⟨hwhole, d, _, htext, hd⟩
  · obtain ⟨d, w, hw, hd⟩ := (t.grouped.resolve_left hwhole).head
    exact .inl ⟨d, _, by rw [text, hw]; rfl, hd⟩

theorem wholeDigits_isDigit : ∀ c ∈ t.wholeDigits, c.isDigit = true :=
  fun _ hc => (List.mem_filter.mp hc).2

/-- A number of hundredths is printed by its own digits: zeros may stand in front, and behind the
decimals. -/
theorem value_mul_iff (ht : t.whole ≠ []) (a : Nat) :
    t.value * 100 = a ↔
      (∃ i, t.wholeDigits = List.replicate i '0' ++ Nat.toDigits 10 (a / 100)) ∧
        ∃ j, t.decimals = hundredths (a % 100) ++ List.replicate j '0' := by
  have hpow : (10 : ℚ) ^ t.decimals.length ≠ 0 := by positivity
  have hlt := number_lt t.digits
  have hsplit : t.value * 100 = a ↔ number t.wholeDigits = a / 100 ∧
      number t.decimals * 100 = a % 100 * 10 ^ t.decimals.length := by
    have hnat : t.value * 100 = a ↔ number t.wholeDigits * 100 * 10 ^ t.decimals.length +
        number t.decimals * 100 = a * 10 ^ t.decimals.length := by
      rw [← @Nat.cast_inj ℚ, value]
      push_cast
      rw [← mul_right_inj' hpow]
      field_simp
    rw [hnat]
    constructor
    · intro h
      have hle : number t.wholeDigits * 100 ≤ a := by
        by_contra hnot
        have hmul : (a + 1) * 10 ^ t.decimals.length ≤
            number t.wholeDigits * 100 * 10 ^ t.decimals.length :=
          Nat.mul_le_mul_right _ (by omega)
        have hpos : 0 < 10 ^ t.decimals.length := by positivity
        rw [Nat.add_mul, Nat.one_mul] at hmul
        omega
      obtain ⟨r, hr⟩ := Nat.exists_eq_add_of_le hle
      have hrest : number t.decimals * 100 = r * 10 ^ t.decimals.length := by
        rw [hr, Nat.add_mul] at h
        omega
      have hr100 : r < 100 := by
        by_contra hnot
        have hmul : 100 * 10 ^ t.decimals.length ≤ r * 10 ^ t.decimals.length :=
          Nat.mul_le_mul_right _ (by omega)
        omega
      have hdiv : a / 100 = number t.wholeDigits := by omega
      have hmod : a % 100 = r := by omega
      rw [hdiv, hmod]
      exact ⟨rfl, hrest⟩
    · rintro ⟨hwhole, hdecimals⟩
      have ha : a = a / 100 * 100 + a % 100 := by omega
      rw [hwhole, hdecimals, ← Nat.add_mul, ← ha]
  rw [hsplit, decimals_iff t.digits (Nat.mod_lt a (by decide))]
  refine and_congr_left fun _ => ?_
  constructor
  · intro h
    rw [← h]
    exact eq_zeros_append_toDigits t.wholeDigits_isDigit (t.wholeDigits_ne_nil ht)
  · rintro ⟨i, hi⟩
    rw [hi, number_zeros_append, number_toDigits]

end Numeral

end Numerals

end Dinero
