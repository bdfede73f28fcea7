import Mathlib.Algebra.Order.Ring.Nat
import Mathlib.Data.List.Basic

/-!
# Dinero.TextLines

Texts and their lines.

A line ends at a line feed, or at a carriage return and a line feed; the last one
may end with the text.  Joining puts line feeds between the lines only, so a text
that is read as lines and joined again may come out shorter.
-/

namespace TextLines

/-- A line without the carriage return that belongs to its line feed. -/
def stripReturn (line : List Char) : List Char :=
  if line.getLast? = some '\r' then line.dropLast else line

/-- The lines, given what stands between the line feeds. -/
def linesOf : List (List Char) → List (List Char)
  | [] => []
  | [last] => if last = [] then [] else [last]
  | piece :: next :: rest => stripReturn piece :: linesOf (next :: rest)

/-- `str::lines`. -/
def lines (text : List Char) : List (List Char) := linesOf (text.splitOn '\n')

/-- `lines.join("\n")`. -/
def joinLines (ls : List (List Char)) : List Char := ['\n'].intercalate ls

/-! ## sizes -/

/-- The length of the text, with a line feed at its end. -/
def size (ls : List (List Char)) : Nat := (ls.map fun l => l.length + 1).sum

@[simp] theorem size_nil : size [] = 0 := rfl

@[simp] theorem size_cons (l : List Char) (ls : List (List Char)) :
    size (l :: ls) = l.length + 1 + size ls := by
  simp [size]

@[simp] theorem joinLines_nil : joinLines [] = [] := rfl

@[simp] theorem joinLines_singleton (l : List Char) : joinLines [l] = l := by
  simp [joinLines]

theorem joinLines_cons_cons (l m : List Char) (ls : List (List Char)) :
    joinLines (l :: m :: ls) = l ++ '\n' :: joinLines (m :: ls) := by
  simp [joinLines, List.intercalate_cons_cons]

theorem filter_joinLines {p : Char → Bool} (hp : p '\n' = false) (ls : List (List Char)) :
    (joinLines ls).filter p = ls.flatMap (List.filter p) := by
  induction ls with
  | nil => rfl
  | cons l ls ih =>
    cases ls with
    | nil => simp
    | cons m ls =>
      rw [joinLines_cons_cons, List.filter_append, List.filter_cons_of_neg (by simp [hp]), ih]
      simp only [List.flatMap_cons]

theorem length_joinLines (ls : List (List Char)) : (joinLines ls).length = size ls - 1 := by
  induction ls with
  | nil => rfl
  | cons l ls ih =>
    cases ls with
    | nil => simp
    | cons m ls =>
      rw [joinLines_cons_cons, List.length_append, List.length_cons, ih]
      simp only [size_cons]
      omega

theorem length_stripReturn_le (l : List Char) : (stripReturn l).length ≤ l.length := by
  rw [stripReturn]
  split
  · simp
  · exact le_rfl

theorem stripReturn_of_getLast {l : List Char} (h : l.getLast? ≠ some '\r') :
    stripReturn l = l := by
  rw [stripReturn, if_neg h]

theorem length_stripReturn_lt {l : List Char} (h : l.getLast? = some '\r') :
    (stripReturn l).length < l.length := by
  have hne : l ≠ [] := by
    intro hnil
    simp [hnil] at h
  have hpos := List.length_pos_of_ne_nil hne
  rw [stripReturn, if_pos h, List.length_dropLast]
  omega

/-! ## lines that are read back -/

/-- Joined and read, the lines come back. -/
structure Clean (ls : List (List Char)) : Prop where
  /-- No carriage return stands before a line feed. -/
  returns : ∀ l ∈ ls.dropLast, l.getLast? ≠ some '\r'
  /-- The text does not end with a line feed. -/
  last : 2 ≤ ls.length → ls.getLast? ≠ some []

instance (ls : List (List Char)) : Decidable (Clean ls) :=
  decidable_of_iff ((∀ l ∈ ls.dropLast, l.getLast? ≠ some '\r') ∧
    (2 ≤ ls.length → ls.getLast? ≠ some [])) ⟨fun h => ⟨h.1, h.2⟩, fun h => ⟨h.1, h.2⟩⟩

theorem clean_cons_cons (l m : List Char) (ls : List (List Char)) :
    Clean (l :: m :: ls) ↔ l.getLast? ≠ some '\r' ∧ (m :: ls ≠ [[]]) ∧ Clean (m :: ls) := by
  constructor
  · intro h
    obtain ⟨hreturns, hlast⟩ := h
    rw [List.dropLast_cons_cons, List.forall_mem_cons] at hreturns
    refine ⟨hreturns.1, ?_, hreturns.2, fun _ => ?_⟩
    · intro hempty
      simp [hempty] at hlast
    · simpa using hlast
  · intro h
    obtain ⟨hl, hne, hreturns, hlast⟩ := h
    refine ⟨?_, fun _ => ?_⟩
    · rw [List.dropLast_cons_cons, List.forall_mem_cons]
      exact ⟨hl, hreturns⟩
    · rw [List.getLast?_cons_cons]
      cases ls with
      | nil => simpa using hne
      | cons n ls => exact hlast (by simp)

theorem linesOf_of_clean {ls : List (List Char)} (h : Clean ls) (hne : ls ≠ [[]]) :
    linesOf ls = ls := by
  induction ls with
  | nil => rfl
  | cons l ls ih =>
    cases ls with
    | nil => simp [linesOf, show l ≠ [] by simpa using hne]
    | cons m ls =>
      obtain ⟨hl, hrest, hclean⟩ := (clean_cons_cons l m ls).mp h
      rw [linesOf, stripReturn_of_getLast hl, ih hclean hrest]

/-- Reading never makes a text longer. -/
theorem size_linesOf_le (ls : List (List Char)) : size (linesOf ls) ≤ size ls := by
  induction ls with
  | nil => simp [linesOf]
  | cons l ls ih =>
    cases ls with
    | nil =>
      rw [linesOf]
      split
      · simp
      · rfl
    | cons m ls =>
      have hstrip := length_stripReturn_le l
      rw [linesOf, size_cons, size_cons]
      omega

/-- It makes those shorter that do not come back. -/
theorem size_linesOf_lt {ls : List (List Char)} (h : ¬ Clean ls) :
    size (linesOf ls) < size ls := by
  induction ls with
  | nil => exact absurd ⟨by simp, by simp⟩ h
  | cons l ls ih =>
    cases ls with
    | nil => exact absurd ⟨by simp, by simp⟩ h
    | cons m ls =>
      have hstrip := length_stripReturn_le l
      have hrest := size_linesOf_le (m :: ls)
      rw [linesOf, size_cons, size_cons]
      by_cases hl : l.getLast? = some '\r'
      · have hshort := length_stripReturn_lt hl
        omega
      · by_cases hempty : m :: ls = [[]]
        · rw [hempty]
          simp [linesOf]
          omega
        · have hrest := ih fun hclean => h ((clean_cons_cons l m ls).mpr ⟨hl, hempty, hclean⟩)
          omega

theorem lines_joinLines {ls : List (List Char)} (hne : ls ≠ []) (h : ∀ l ∈ ls, '\n' ∉ l) :
    lines (joinLines ls) = linesOf ls := by
  rw [lines, joinLines, List.splitOn_intercalate _ h hne]

theorem mem_linesOf {ls : List (List Char)} {l : List Char} (h : l ∈ linesOf ls) :
    ∃ piece ∈ ls, l <+: piece := by
  induction ls with
  | nil => simp [linesOf] at h
  | cons m ls ih =>
    cases ls with
    | nil =>
      rw [linesOf] at h
      split at h
      · simp at h
      · exact ⟨m, by simp, List.mem_singleton.mp h ▸ List.prefix_rfl⟩
    | cons n ls =>
      rw [linesOf] at h
      obtain rfl | h := List.mem_cons.mp h
      · refine ⟨m, by simp, ?_⟩
        rw [stripReturn]
        split
        · exact List.dropLast_prefix m
        · exact List.prefix_rfl
      · obtain ⟨piece, hpiece, hprefix⟩ := ih h
        exact ⟨piece, .tail m hpiece, hprefix⟩

/-- A piece is made of what the list has and was not split at. -/
theorem mem_of_mem_splitOnP {α : Type} {p : α → Bool} {s piece : List α}
    (h : piece ∈ s.splitOnP p) : ∀ a ∈ piece, a ∈ s ∧ p a = false := by
  induction s generalizing piece with
  | nil =>
    rw [List.splitOnP_nil, List.mem_singleton] at h
    simp [h]
  | cons x rest ih =>
    have hrest : ∀ piece ∈ rest.splitOnP p, ∀ a ∈ piece, a ∈ x :: rest ∧ p a = false :=
      fun piece hpiece a ha => (ih hpiece a ha).imp_left (List.mem_cons_of_mem x)
    rw [List.splitOnP_cons_eq_if_modifyHead] at h
    split at h
    · obtain rfl | h := List.mem_cons.mp h
      · simp
      · exact hrest piece h
    · next hx =>
      obtain ⟨first, others, hsplit⟩ := List.exists_cons_of_ne_nil (List.splitOnP_ne_nil p rest)
      rw [hsplit, List.modifyHead_cons] at h
      rw [hsplit] at hrest
      obtain rfl | h := List.mem_cons.mp h
      · rw [List.forall_mem_cons]
        exact ⟨by simpa using hx, hrest first (.head others)⟩
      · exact hrest piece (.tail first h)

/-- No line has a line feed. -/
theorem newline_not_mem_lines {text l : List Char} (h : l ∈ lines text) : '\n' ∉ l := by
  obtain ⟨piece, hpiece, hstart⟩ := mem_linesOf h
  rw [List.splitOn_eq_splitOnP] at hpiece
  intro hmem
  simpa using (mem_of_mem_splitOnP hpiece _ (hstart.subset hmem)).2

end TextLines
