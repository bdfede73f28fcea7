import Dinero.Numerals
import Dinero.Resolver
import Mathlib.Data.List.DropRight
import Mathlib.Data.List.TakeWhile

/-!
# Dinero.Descriptors

A merchant descriptor stripped once more.  One number at its end is taken off,
so the next stripping takes off the number in front of it, if one stands there.
-/

namespace Dinero

open Sql

variable [Extern]

/-! ## words -/

/-- What stripping needs of the Unicode tables. -/
class WordTables [Extern] : Prop where
  blank : isWhitespace ' ' = true
  digit : ∀ c, isDigit c = true → isWhitespace c = false

theorem splitWhitespace_append_white {c : Char} (hc : isWhitespace c = true) (x y : List Char) :
    splitWhitespace (x ++ c :: y) = splitWhitespace x ++ splitWhitespace y := by
  rw [splitWhitespace, List.splitOnP_append_cons x y hc, List.filter_append]
  rfl

theorem splitWhitespace_white {s : List Char} (h : ∀ c ∈ s, isWhitespace c = true) :
    splitWhitespace s = [] := by
  induction s with
  | nil => simp [splitWhitespace]
  | cons c s ih =>
    have hsplit : splitWhitespace (c :: s) = splitWhitespace [] ++ splitWhitespace s :=
      splitWhitespace_append_white (h c (.head s)) [] s
    have hnil : splitWhitespace [] = [] := by simp [splitWhitespace]
    rw [hsplit, hnil, ih fun d hd => h d (.tail c hd), List.append_nil]

theorem splitWhitespace_word {t : List Char} (hne : t ≠ [])
    (h : ∀ c ∈ t, isWhitespace c = false) : splitWhitespace t = [t] := by
  rw [splitWhitespace, List.splitOnP_eq_singleton h]
  simp [hne]

/-- White space around a text belongs to no word. -/
theorem splitWhitespace_around {w s v : List Char} (hw : ∀ c ∈ w, isWhitespace c = true)
    (hv : ∀ c ∈ v, isWhitespace c = true) :
    splitWhitespace (w ++ s ++ v) = splitWhitespace s := by
  have hfront : ∀ x, splitWhitespace (w ++ x) = splitWhitespace x := by
    intro x
    induction w with
    | nil => rfl
    | cons c w ih =>
      have hsplit : splitWhitespace (c :: (w ++ x)) = splitWhitespace [] ++
          splitWhitespace (w ++ x) := splitWhitespace_append_white (hw c (.head w)) [] (w ++ x)
      have hnil : splitWhitespace [] = [] := splitWhitespace_white (by simp)
      rw [List.cons_append, hsplit, hnil, List.nil_append]
      exact ih fun d hd => hw d (.tail c hd)
  rw [List.append_assoc, hfront]
  cases v with
  | nil => rw [List.append_nil]
  | cons c v =>
    rw [splitWhitespace_append_white (hv c (.head v)),
      splitWhitespace_white fun d hd => hv d (.tail c hd), List.append_nil]

/-- What trimming cuts off is white space. -/
theorem exists_trim (s : List Char) : ∃ w v, s = w ++ trim s ++ v ∧
    (∀ c ∈ w, isWhitespace c = true) ∧ ∀ c ∈ v, isWhitespace c = true := by
  have hfront := List.takeWhile_append_dropWhile (p := isWhitespace) (l := s)
  have hback := List.takeWhile_append_dropWhile (p := isWhitespace)
    (l := (s.dropWhile isWhitespace).reverse)
  refine ⟨s.takeWhile isWhitespace,
    ((s.dropWhile isWhitespace).reverse.takeWhile isWhitespace).reverse, ?_,
    fun c hc => List.mem_takeWhile_imp hc,
    fun c hc => List.mem_takeWhile_imp (List.mem_reverse.mp hc)⟩
  rw [trim, trimMatches, List.append_assoc, ← List.reverse_append, hback, List.reverse_reverse,
    hfront]

section Filters

variable {p : Char → Bool} (hp : ∀ c, isWhitespace c = true → p c = false)
include hp

theorem filter_white {s : List Char} (h : ∀ c ∈ s, isWhitespace c = true) : s.filter p = [] := by
  rw [List.filter_eq_nil_iff]
  intro c hc
  simp [hp c (h c hc)]

theorem filter_trim (s : List Char) : (trim s).filter p = s.filter p := by
  obtain ⟨w, v, hs, hw, hv⟩ := exists_trim s
  conv_rhs => rw [hs]
  rw [List.filter_append, List.filter_append, filter_white hp hw, filter_white hp hv,
    List.nil_append, List.append_nil]

theorem filter_rdropWhile (s : List Char) : (s.rdropWhile isWhitespace).filter p = s.filter p := by
  have hsplit := List.takeWhile_append_dropWhile (p := isWhitespace) (l := s.reverse)
  have hs : s = s.rdropWhile isWhitespace ++ (s.reverse.takeWhile isWhitespace).reverse := by
    rw [List.rdropWhile, ← List.reverse_append, hsplit, List.reverse_reverse]
  conv_rhs => rw [hs]
  rw [List.filter_append, filter_white hp fun c hc =>
    List.mem_takeWhile_imp (List.mem_reverse.mp hc), List.append_nil]

end Filters

theorem splitWhitespace_trim (s : List Char) : splitWhitespace (trim s) = splitWhitespace s := by
  obtain ⟨w, v, hsplit, hw, hv⟩ := exists_trim s
  conv_rhs => rw [hsplit]
  rw [splitWhitespace_around hw hv]

/-- Words are not empty and have no white space. -/
theorem mem_splitWhitespace {s t : List Char} (h : t ∈ splitWhitespace s) :
    t ≠ [] ∧ ∀ c ∈ t, isWhitespace c = false := by
  obtain ⟨hmem, hne⟩ := List.mem_filter.mp h
  exact ⟨by simpa using hne, fun c hc => (TextLines.mem_of_mem_splitOnP hmem c hc).2⟩

/-- The words of a text with one blank between them. -/
def spaced (s : List Char) : List Char := [' '].intercalate (splitWhitespace s)

theorem splitWhitespace_intercalate [WordTables] {words : List (List Char)}
    (h : ∀ t ∈ words, t ≠ [] ∧ ∀ c ∈ t, isWhitespace c = false) :
    splitWhitespace ([' '].intercalate words) = words := by
  induction words with
  | nil => exact splitWhitespace_white (by simp)
  | cons t rest ih =>
    have hword := splitWhitespace_word (h t (.head rest)).1 (h t (.head rest)).2
    have hrest := ih fun u hu => h u (.tail t hu)
    cases rest with
    | nil => rw [List.intercalate_singleton, hword]
    | cons u rest =>
      rw [List.intercalate_cons_cons, List.append_assoc, List.singleton_append,
        splitWhitespace_append_white WordTables.blank, hword, hrest]
      rfl

theorem splitWhitespace_spaced [WordTables] (s : List Char) :
    splitWhitespace (spaced s) = splitWhitespace s :=
  splitWhitespace_intercalate fun _ ht => mem_splitWhitespace ht

theorem spaced_spaced [WordTables] (s : List Char) : spaced (spaced s) = spaced s := by
  rw [spaced, splitWhitespace_spaced, spaced]

omit [Extern] in
theorem flatten_splitOnP (p : Char → Bool) (s : List Char) :
    (s.splitOnP p).flatten = s.filter fun c => !p c := by
  induction s with
  | nil => simp
  | cons c s ih =>
    rw [List.splitOnP_cons_eq_if_modifyHead]
    split
    · rename_i hc
      rw [List.flatten_cons, List.nil_append, ih, List.filter_cons_of_neg (by simp [hc])]
    · rename_i hc
      obtain ⟨first, others, hsplit⟩ := List.exists_cons_of_ne_nil (List.splitOnP_ne_nil p s)
      rw [List.filter_cons_of_pos (by simp [hc]), ← ih, hsplit]
      simp

/-- Putting one blank between the words loses white space only. -/
theorem filter_spaced [WordTables] (s : List Char) :
    ((spaced s).filter fun c => !isWhitespace c) = s.filter fun c => !isWhitespace c := by
  have hwords : ∀ x, (splitWhitespace x).flatten = x.filter fun c => !isWhitespace c := by
    intro x
    rw [splitWhitespace, List.flatten_filter_ne_nil, flatten_splitOnP]
  rw [← hwords, ← hwords, splitWhitespace_spaced]

/-- Nothing but white space, or a last word with nothing but white space behind it. -/
theorem exists_lastWord (s : List Char) : (∀ c ∈ s, isWhitespace c = true) ∨
    ∃ front t v, s = front ++ (t ++ v) ∧ t ≠ [] ∧ (∀ c ∈ t, isWhitespace c = false) ∧
      (∀ c ∈ v, isWhitespace c = true) ∧
      (front = [] ∨ ∃ x c, front = x ++ [c] ∧ isWhitespace c = true) := by
  induction s with
  | nil => simp
  | cons c s ih =>
    cases ih with
    | inl hwhite =>
      by_cases hc : isWhitespace c = true
      · exact .inl (by simpa [hc] using hwhite)
      · exact .inr ⟨[], [c], s, by simp, by simp, by simpa using hc, hwhite, .inl rfl⟩
    | inr hword =>
      obtain ⟨front, t, v, rfl, hne, ht, hv, hfront⟩ := hword
      right
      obtain rfl | ⟨x, d, rfl, hd⟩ := hfront
      · by_cases hc : isWhitespace c = true
        · exact ⟨[c], t, v, by simp, hne, ht, hv, .inr ⟨[], c, by simp, hc⟩⟩
        · exact ⟨[], c :: t, v, by simp, by simp, by simpa [hc] using ht, hv, .inl rfl⟩
      · exact ⟨c :: (x ++ [d]), t, v, by simp, hne, ht, hv, .inr ⟨c :: x, d, by simp, hd⟩⟩

/-! ## the number at the end -/

/-- How many digits the last word ends with. -/
def endDigits (s : List Char) : Nat :=
  ((s.reverse.dropWhile isWhitespace).takeWhile isDigit).length

theorem endDigits_white {s : List Char} (h : ∀ c ∈ s, isWhitespace c = true) :
    endDigits s = 0 := by
  rw [endDigits, List.dropWhile_eq_nil_iff.mpr fun c hc => h c (List.mem_reverse.mp hc)]
  rfl

omit [Extern] in
theorem takeWhile_append_head {p : Char → Bool} {l r : List Char}
    (h : ∀ c ∈ r.head?, p c = false) : (l ++ r).takeWhile p = l.takeWhile p := by
  induction l with
  | nil =>
    cases r with
    | nil => rfl
    | cons c r => simpa using h c rfl
  | cons c l ih =>
    rw [List.cons_append, List.takeWhile_cons, List.takeWhile_cons, ih]

theorem endDigits_lastWord [WordTables] {front t v : List Char} (hne : t ≠ [])
    (ht : ∀ c ∈ t, isWhitespace c = false) (hv : ∀ c ∈ v, isWhitespace c = true)
    (hfront : front = [] ∨ ∃ x c, front = x ++ [c] ∧ isWhitespace c = true) :
    endDigits (front ++ (t ++ v)) = (t.reverse.takeWhile isDigit).length := by
  have hback : ∀ c ∈ v.reverse, isWhitespace c = true := fun c hc => hv c (List.mem_reverse.mp hc)
  obtain ⟨d, r, hr⟩ := List.exists_cons_of_ne_nil (List.reverse_ne_nil_iff.mpr hne)
  have hd : ¬ isWhitespace d = true := by
    have hmem : d ∈ t := List.mem_reverse.mp (by rw [hr]; exact .head r)
    simp [ht d hmem]
  have hstop : ∀ c ∈ front.reverse.head?, isDigit c = false := by
    intro c hc
    obtain rfl | ⟨x, b, rfl, hb⟩ := hfront
    · simp at hc
    · obtain rfl : b = c := by simpa using hc
      by_contra hdigit
      rw [WordTables.digit b (by simpa using hdigit)] at hb
      cases hb
  rw [endDigits, List.reverse_append, List.reverse_append, List.append_assoc,
    List.dropWhile_append_of_pos hback, hr, List.cons_append,
    List.dropWhile_cons_of_neg hd, ← List.cons_append, ← hr, takeWhile_append_head hstop]

/-- The number at the end is one of the last word, so the blanks do not matter. -/
theorem endDigits_spaced [WordTables] (s : List Char) : endDigits (spaced s) = endDigits s := by
  have hwords := splitWhitespace_spaced s
  have hend : ∀ x, endDigits x =
      (((splitWhitespace x).getLast?.getD []).reverse.takeWhile isDigit).length := by
    intro x
    obtain hwhite | ⟨front, t, v, rfl, hne, ht, hv, hfront⟩ := exists_lastWord x
    · rw [endDigits_white hwhite, splitWhitespace_white hwhite]
      rfl
    · rw [endDigits_lastWord hne ht hv hfront]
      have hlast : splitWhitespace (t ++ v) = [t] := by
        rw [← List.nil_append (t ++ v), ← List.append_assoc,
          splitWhitespace_around (by simp) hv, splitWhitespace_word hne ht]
      obtain rfl | ⟨x, c, rfl, hc⟩ := hfront
      · rw [List.nil_append, hlast]
        rfl
      · rw [List.append_assoc, List.singleton_append, splitWhitespace_append_white hc, hlast,
          List.getLast?_append]
        rfl
  rw [hend, hend s, hwords]

/-! ## two numbers -/

/-- Two numbers of four digits or more with white space between them, at the end of the text. -/
def TwoNumbers (s : List Char) : Prop :=
  ∃ front n w m v, s = front ++ (n ++ (w ++ (m ++ v))) ∧ 4 ≤ n.length ∧ 4 ≤ m.length ∧
    (∀ c ∈ n, isDigit c = true) ∧ (∀ c ∈ m, isDigit c = true) ∧ w ≠ [] ∧
    (∀ c ∈ w, isWhitespace c = true) ∧ ∀ c ∈ v, isWhitespace c = true

theorem dropWhile_digits [WordTables] {n : List Char} (h : ∀ c ∈ n, isDigit c = true)
    (hne : n ≠ []) (rest : List Char) :
    (n ++ rest).dropWhile isWhitespace = n ++ rest := by
  obtain ⟨d, r, rfl⟩ := List.exists_cons_of_ne_nil hne
  rw [List.cons_append, List.dropWhile_cons_of_neg]
  simp [WordTables.digit d (h d (.head r))]

theorem stripTrailingDigits_of_lt {s : List Char} (h : endDigits s < 4) :
    stripTrailingDigits s = s := by
  rw [stripTrailingDigits, if_neg (by rw [endDigits] at h; omega)]

omit [Extern] in
theorem head_dropWhile {p : Char → Bool} {s : List Char} :
    ∀ c ∈ (s.dropWhile p).head?, p c = false := by
  intro c hc
  have h := List.head?_dropWhile_not p s
  rw [Option.mem_def.mp hc] at h
  simpa using h

/-- A number at the end is cut with the white space around it. -/
theorem stripTrailingDigits_of_le {s : List Char} (h : 4 ≤ endDigits s) :
    ∃ w m v, s = stripTrailingDigits s ++ (w ++ (m ++ v)) ∧ 4 ≤ m.length ∧
      (∀ c ∈ m, isDigit c = true) ∧ (∀ c ∈ w, isWhitespace c = true) ∧
      (∀ c ∈ v, isWhitespace c = true) ∧
      (w = [] → ∀ c ∈ (stripTrailingDigits s).getLast?, isDigit c = false) ∧
      ∀ c ∈ (stripTrailingDigits s).getLast?, isWhitespace c = false := by
  have hstrip : stripTrailingDigits s =
      (((s.reverse.dropWhile isWhitespace).dropWhile isDigit).dropWhile isWhitespace).reverse :=
    if_pos h
  have hback := List.takeWhile_append_dropWhile (p := isWhitespace) (l := s.reverse)
  rw [endDigits] at h
  generalize s.reverse.dropWhile isWhitespace = body at *
  have hnumber := List.takeWhile_append_dropWhile (p := isDigit) (l := body)
  have hfront : ∀ c ∈ (body.dropWhile isDigit).head?, isDigit c = false := head_dropWhile
  generalize body.dropWhile isDigit = rest at *
  have hgap := List.takeWhile_append_dropWhile (p := isWhitespace) (l := rest)
  have hlast : ∀ c ∈ (rest.dropWhile isWhitespace).head?, isWhitespace c = false := head_dropWhile
  refine ⟨(rest.takeWhile isWhitespace).reverse, (body.takeWhile isDigit).reverse,
    (s.reverse.takeWhile isWhitespace).reverse, ?_, by simpa using h, ?_, ?_, ?_, ?_, ?_⟩
  · rw [hstrip, ← List.reverse_append, ← List.reverse_append, ← List.reverse_append,
      List.append_assoc, List.append_assoc, hgap, hnumber, hback, List.reverse_reverse]
  · exact fun c hc => List.mem_takeWhile_imp (List.mem_reverse.mp hc)
  · exact fun c hc => List.mem_takeWhile_imp (List.mem_reverse.mp hc)
  · exact fun c hc => List.mem_takeWhile_imp (List.mem_reverse.mp hc)
  · intro hnone
    rw [List.reverse_eq_nil_iff] at hnone
    rw [hnone, List.nil_append] at hgap
    rw [hstrip, List.getLast?_reverse, hgap]
    exact hfront
  · rw [hstrip, List.getLast?_reverse]
    exact hlast

theorem endDigits_number [WordTables] {front n : List Char} (hn : ∀ c ∈ n, isDigit c = true)
    (hne : n ≠ []) : n.length ≤ endDigits (front ++ n) := by
  have hback : ∀ c ∈ n.reverse, isDigit c = true := fun c hc => hn c (List.mem_reverse.mp hc)
  rw [endDigits, List.reverse_append, dropWhile_digits hback (by simpa using hne),
    List.takeWhile_append_of_pos hback, List.length_append, List.length_reverse]
  omega

/-- The last of two numbers is the one that is cut. -/
theorem stripTrailingDigits_number [WordTables] {front n w m v : List Char} (hm : 4 ≤ m.length)
    (hn : ∀ c ∈ n, isDigit c = true) (hndigits : n ≠ []) (hmdigit : ∀ c ∈ m, isDigit c = true)
    (hne : w ≠ []) (hw : ∀ c ∈ w, isWhitespace c = true) (hv : ∀ c ∈ v, isWhitespace c = true) :
    stripTrailingDigits (front ++ (n ++ (w ++ (m ++ v)))) = front ++ n := by
  have hrev : ∀ {p : Char → Bool} {l : List Char}, (∀ c ∈ l, p c = true) →
      ∀ c ∈ l.reverse, p c = true := fun h c hc => h c (List.mem_reverse.mp hc)
  have hmne : m.reverse ≠ [] := by
    rintro hnil
    simp [List.reverse_eq_nil_iff.mp hnil] at hm
  have hgap : ∀ c ∈ (w.reverse ++ (n.reverse ++ front.reverse)).head?, isDigit c = false := by
    intro c hc
    obtain ⟨d, r, hr⟩ := List.exists_cons_of_ne_nil (List.reverse_ne_nil_iff.mpr hne)
    obtain rfl : d = c := by simpa [hr] using hc
    by_contra hdigit
    have hd := hrev hw d (by rw [hr]; exact .head r)
    rw [WordTables.digit d (by simpa using hdigit)] at hd
    cases hd
  have hbody : (front ++ (n ++ (w ++ (m ++ v)))).reverse.dropWhile isWhitespace =
      m.reverse ++ (w.reverse ++ (n.reverse ++ front.reverse)) := by
    simp only [List.reverse_append, List.append_assoc]
    rw [List.dropWhile_append_of_pos (hrev hv), dropWhile_digits (hrev hmdigit) hmne]
  have hnumber : (m.reverse ++ (w.reverse ++ (n.reverse ++ front.reverse))).takeWhile isDigit =
      m.reverse := by
    rw [takeWhile_append_head hgap, List.takeWhile_eq_self_iff.mpr (hrev hmdigit)]
  have hrest : (w.reverse ++ (n.reverse ++ front.reverse)).dropWhile isDigit =
      w.reverse ++ (n.reverse ++ front.reverse) := by
    rw [List.dropWhile_eq_self_iff]
    intro hlength
    have hhead := hgap _ (List.head?_eq_some_head (List.ne_nil_of_length_pos hlength))
    simpa [List.head_eq_getElem] using hhead
  rw [stripTrailingDigits, hbody, hnumber, if_pos (by simpa using hm),
    List.dropWhile_append_of_pos (hrev hmdigit), hrest, List.dropWhile_append_of_pos (hrev hw),
    dropWhile_digits (hrev hn) (by simpa using hndigits), List.reverse_append,
    List.reverse_reverse, List.reverse_reverse]

theorem endDigits_stripTrailingDigits [WordTables] {s : List Char} :
    4 ≤ endDigits (stripTrailingDigits s) ↔ TwoNumbers s := by
  constructor
  · intro hleft
    have hs : 4 ≤ endDigits s := by
      by_contra hlt
      rw [stripTrailingDigits_of_lt (by omega)] at hleft
      exact hlt hleft
    obtain ⟨w, m, v, hsplit, hm, hmdigit, hw, hv, hgap, hlast⟩ := stripTrailingDigits_of_le hs
    generalize stripTrailingDigits s = kept at *
    -- the number left stands at the very end of what is left
    obtain ⟨w', n, v', hkept, hn, hndigit, -, hv', -⟩ := stripTrailingDigits_of_le hleft
    have hv'nil : v' = [] := by
      by_contra hne
      obtain ⟨x, c, rfl⟩ := List.eq_nil_or_concat v' |>.resolve_left hne
      have hc := hlast c (by rw [hkept]; simp)
      rw [hv' c (by simp)] at hc
      cases hc
    subst hv'nil
    refine ⟨stripTrailingDigits kept ++ w', n, w, m, v, ?_, hn, hm, hndigit, hmdigit, ?_, hw, hv⟩
    · conv_lhs => rw [hsplit, hkept]
      simp
    · intro hnone
      obtain ⟨x, c, rfl⟩ := List.eq_nil_or_concat n |>.resolve_left (by rintro rfl; simp at hn)
      have hc := hgap hnone c (by rw [hkept]; simp)
      rw [hndigit c (by simp)] at hc
      cases hc
  · rintro ⟨front, n, w, m, v, rfl, hn, hm, hndigit, hmdigit, hne, hw, hv⟩
    have hnne : n ≠ [] := by
      rintro rfl
      simp at hn
    rw [stripTrailingDigits_number hm hndigit hnne hmdigit hne hw hv]
    exact hn.trans (endDigits_number hndigit hnne)

/-- Cutting a number leaves fewer characters that are not white space. -/
theorem filter_stripTrailingDigits [WordTables] {s : List Char} (h : 4 ≤ endDigits s) :
    ((stripTrailingDigits s).filter fun c => !isWhitespace c) ≠
      s.filter fun c => !isWhitespace c := by
  obtain ⟨w, m, v, hsplit, hm, hmdigit, -⟩ := stripTrailingDigits_of_le h
  have hkept : (m.filter fun c => !isWhitespace c) = m :=
    List.filter_eq_self.mpr fun c hc => by simp [WordTables.digit c (hmdigit c hc)]
  intro hsame
  have hlength := congrArg List.length hsame
  conv_rhs at hlength => rw [hsplit]
  simp only [List.filter_append, hkept, List.length_append] at hlength
  omega

/-! ## stripping again -/

theorem star_not_mem (s : List Char) : '*' ∉ splitOnAggregatorStar s := by
  have hstop : ∀ l : List Char, '*' ∉ l.takeWhile (· ≠ '*') := by
    intro l hstar
    have hne := List.mem_takeWhile_imp hstar
    simp at hne
  intro hstar
  unfold splitOnAggregatorStar at hstar
  dsimp only at hstar
  split at hstar
  · split at hstar
    · exact hstop _ hstar
    · exact hstop _ (mem_of_mem_trimMatches hstar)
  · exact absurd hstar ‹_›

theorem stripNoiseTokens_eq (raw : String) :
    stripNoiseTokens raw = String.ofList
      (spaced (stripTrailingDigits (splitOnAggregatorStar (toUppercase raw).toList))) := by
  rw [stripNoiseTokens, spaced, ← splitWhitespace_trim (stripTrailingDigits _)]

/-- The descriptor past its aggregator ends in one number at most, or the next stripping takes
off another. -/
theorem stripNoiseTokens_again [WordTables] (laws : TextLaws) (raw : String) :
    stripNoiseTokens (stripNoiseTokens raw) = stripNoiseTokens raw ↔
      ¬ TwoNumbers (splitOnAggregatorStar (toUppercase raw).toList) := by
  have hstar : '*' ∉ (stripNoiseTokens raw).toList := by
    intro hmem
    cases mem_body_of_mem_stripNoiseTokens hmem with
    | inl hbody => exact star_not_mem _ hbody
    | inr hblank => exact absurd hblank (by decide)
  have hagain : stripNoiseTokens (stripNoiseTokens raw) =
      String.ofList (spaced (stripTrailingDigits (stripNoiseTokens raw).toList)) := by
    rw [stripNoiseTokens_eq (stripNoiseTokens raw), stripNoiseTokens_upper laws,
      splitOnAggregatorStar, if_neg hstar]
  rw [hagain, stripNoiseTokens_eq raw, String.toList_ofList, String.ofList_inj,
    ← endDigits_stripTrailingDigits]
  generalize stripTrailingDigits (splitOnAggregatorStar (toUppercase raw).toList) = kept
  rw [← endDigits_spaced kept]
  constructor
  · intro hsame hfour
    apply filter_stripTrailingDigits hfour
    rw [← filter_spaced, hsame]
  · intro hlt
    rw [stripTrailingDigits_of_lt (by omega), spaced_spaced]

/-- The normaliser sees the stripped text only. -/
theorem Database.normalize_of_stripped_eq {a b : String}
    (h : stripNoiseTokens a = stripNoiseTokens b) (db : Database) (n : Nat) : db.normalize n a = db.normalize n b := by
  rw [Database.normalize, Database.normalize, h]

theorem strip_twice_iff [WordTables] (laws : TextLaws) (raw : String) :
    (stripNoiseTokens (stripNoiseTokens raw) = stripNoiseTokens raw ∧
      ∀ (now : Int) (s : Store Database),
        answered (normalizeMerchantSync (stripNoiseTokens raw) (.quiet now) s).1 =
          answered (normalizeMerchantSync raw (.quiet now) s).1) ↔
      ¬ TwoNumbers (splitOnAggregatorStar (toUppercase raw).toList) := by
  rw [← stripNoiseTokens_again laws]
  constructor
  · exact fun h => h.1
  · intro hsame
    refine ⟨hsame, fun now s => ?_⟩
    rw [normalizeMerchantSync_answered, normalizeMerchantSync_answered,
      Database.normalize_of_stripped_eq hsame]

omit [Extern] in
theorem wordTables_ascii : @WordTables Extern.ascii := by
  let := Extern.ascii
  refine ⟨by decide, fun c hc => ?_⟩
  obtain ⟨hlow, hhigh⟩ := isDigit_range hc
  exact isWhitespace_of_lt (by omega)

omit [Extern] in
theorem razorpay_strips_once : letI := Extern.ascii
    stripNoiseTokens "Razorpay*Acme  Store 1234" = "ACME STORE" ∧
      stripNoiseTokens (stripNoiseTokens "Razorpay*Acme  Store 1234") =
        stripNoiseTokens "Razorpay*Acme  Store 1234" := by
  let := Extern.ascii
  have := wordTables_ascii
  have hone : ¬ TwoNumbers
      (splitOnAggregatorStar (toUppercase "Razorpay*Acme  Store 1234").toList) :=
    endDigits_stripTrailingDigits.not.mp (by decide +kernel)
  exact ⟨by decide +kernel, ((strip_twice_iff textLaws_ascii _).mpr hone).1⟩

omit [Extern] in
theorem store_strips_again : letI := Extern.ascii
    stripNoiseTokens "STORE 1234 5678" = "STORE 1234" ∧
      stripNoiseTokens (stripNoiseTokens "STORE 1234 5678") = "STORE" ∧
      stripNoiseTokens (stripNoiseTokens "STORE 1234 5678") ≠
        stripNoiseTokens "STORE 1234 5678" := by
  let := Extern.ascii
  decide +kernel

end Dinero
