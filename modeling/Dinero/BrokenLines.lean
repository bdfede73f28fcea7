import Dinero.Descriptors

/-!
# Dinero.BrokenLines

Statement rows that the layout of a PDF has broken in two.

A line that is a date and nothing else is joined with the line after it, unless
that one is blank or starts with a date itself.
-/

namespace Dinero

open TextLines

variable [Extern]

/-! ## dates at the start of a line -/

/-- `[/\-]`. -/
def isDateSeparator (c : Char) : Bool := c = '/' ∨ c = '-'

/-- `\d{2}[/\-]\d{2}[/\-]\d{4}` and `\d{2}-[A-Za-z]{3}-\d{4}`, character by character. -/
def dateShapes : List (List (Char → Bool)) :=
  [[isDigit, isDigit, isDateSeparator, isDigit, isDigit, isDateSeparator,
      isDigit, isDigit, isDigit, isDigit],
    [isDigit, isDigit, (· = '-'), Char.isAlpha, Char.isAlpha, Char.isAlpha, (· = '-'),
      isDigit, isDigit, isDigit, isDigit]]

/-- What follows a text of the shape at the start. -/
def afterShape : List (Char → Bool) → List Char → Option (List Char)
  | [], s => some s
  | _ :: _, [] => none
  | p :: shape, c :: s => if p c then afterShape shape s else none

/-- What follows a date at the start, for each shape that fits.  A date starts with a digit, so
the white space before it is all there is. -/
def afterDate (line : List Char) : List (List Char) :=
  dateShapes.filterMap fun shape => afterShape shape (line.dropWhile isWhitespace)

/-- `date_only_re`. -/
def dateOnly (line : List Char) : Bool := (afterDate line).any fun rest => rest.all isWhitespace

/-- `starts_with_date_re`. -/
def startsWithDate (line : List Char) : Bool := afterDate line ≠ []

/-! ## merging -/

/-- The line after a date that belongs to it. -/
def continues (next : List Char) : Bool := trim next ≠ [] ∧ startsWithDate next = false

def mergeLines : List (List Char) → List (List Char)
  | [] => []
  | [line] => [line]
  | line :: next :: rest =>
    if dateOnly line ∧ continues next then (trim line ++ ' ' :: trim next) :: mergeLines rest
    else line :: mergeLines (next :: rest)

def mergeBrokenLineBoundaries (text : List Char) : List Char := joinLines (mergeLines (lines text))

/-- What `mergeLines` makes one line of: a line, or a date and the line after it. -/
inductive MergedRow where
  | single (line : List Char)
  | joined (line next : List Char)

def MergedRow.lines : MergedRow → List (List Char)
  | single line => [line]
  | joined line next => [line, next]

def MergedRow.text : MergedRow → List Char
  | single line => line
  | joined line next => trim line ++ ' ' :: trim next

/-- The line a row joins is no date and has none in front. -/
def MergedRow.Sound : MergedRow → Prop
  | single _ => True
  | joined line next => dateOnly line ∧ continues next

/-- The lines fall into rows. -/
theorem mergeLines_rows (ls : List (List Char)) :
    ∃ rows : List MergedRow, rows.flatMap MergedRow.lines = ls ∧
      mergeLines ls = rows.map MergedRow.text ∧ ∀ row ∈ rows, row.Sound := by
  induction ls using mergeLines.induct with
  | case1 => exact ⟨[], rfl, rfl, by simp⟩
  | case2 line => exact ⟨[.single line], rfl, rfl, by simp [MergedRow.Sound]⟩
  | case3 line next rest hjoin ih =>
    obtain ⟨rows, hlines, htext, hsound⟩ := ih
    refine ⟨.joined line next :: rows, by simp [MergedRow.lines, hlines], ?_, ?_⟩
    · rw [mergeLines, if_pos hjoin, htext]
      rfl
    · rw [List.forall_mem_cons]
      exact ⟨hjoin, hsound⟩
  | case4 line next rest hjoin ih =>
    obtain ⟨rows, hlines, htext, hsound⟩ := ih
    refine ⟨.single line :: rows, by simp [MergedRow.lines, hlines], ?_, ?_⟩
    · rw [mergeLines, if_neg hjoin, htext]
      rfl
    · rw [List.forall_mem_cons]
      exact ⟨trivial, hsound⟩

/-! ## what a date is -/

/-- A text of one of the shapes. -/
def IsDate (d : List Char) : Prop :=
  ∃ shape ∈ dateShapes, List.Forall₂ (fun p c => p c = true) shape d

omit [Extern] in
theorem afterShape_eq_some {shape : List (Char → Bool)} {s rest : List Char} :
    afterShape shape s = some rest ↔
      ∃ d, s = d ++ rest ∧ List.Forall₂ (fun p c => p c = true) shape d := by
  induction shape generalizing s with
  | nil => simp [afterShape]
  | cons p shape ih =>
    cases s with
    | nil => simp [afterShape, List.forall₂_cons_left_iff]
    | cons c s =>
      rw [afterShape]
      constructor
      · intro h
        split at h
        · next hc =>
          obtain ⟨d, rfl, hd⟩ := ih.mp h
          exact ⟨c :: d, rfl, .cons hc hd⟩
        · cases h
      · intro h
        obtain ⟨d, hs, hd⟩ := h
        cases hd with
        | cons hc hd =>
          obtain ⟨rfl, rfl⟩ := List.cons.inj hs
          rw [if_pos hc]
          exact ih.mpr ⟨_, rfl, hd⟩

theorem mem_afterDate {line rest : List Char} :
    rest ∈ afterDate line ↔ ∃ d, line.dropWhile isWhitespace = d ++ rest ∧ IsDate d := by
  simp only [afterDate, List.mem_filterMap, afterShape_eq_some, IsDate]
  constructor
  · intro h
    obtain ⟨shape, hshape, d, hline, hd⟩ := h
    exact ⟨d, hline, shape, hshape, hd⟩
  · intro h
    obtain ⟨d, hline, shape, hshape, hd⟩ := h
    exact ⟨shape, hshape, d, hline, hd⟩

theorem startsWithDate_iff {line : List Char} : startsWithDate line = true ↔
    ∃ d rest, line.dropWhile isWhitespace = d ++ rest ∧ IsDate d := by
  rw [startsWithDate, decide_eq_true_iff]
  constructor
  · intro h
    obtain ⟨rest, others, hafter⟩ := List.exists_cons_of_ne_nil h
    obtain ⟨d, hd⟩ := mem_afterDate.mp (hafter ▸ List.mem_cons_self : rest ∈ afterDate line)
    exact ⟨d, rest, hd⟩
  · intro h
    obtain ⟨d, rest, hd⟩ := h
    exact List.ne_nil_of_mem (mem_afterDate.mpr ⟨d, hd⟩)

theorem IsDate.length {d : List Char} (h : IsDate d) : 10 ≤ d.length ∧ d.length ≤ 11 := by
  obtain ⟨shape, hshape, hd⟩ := h
  rw [← hd.length_eq]
  simp only [dateShapes, List.mem_cons, List.not_mem_nil, or_false] at hshape
  obtain rfl | rfl := hshape
  · simp
  · simp

/-- A date starts with a digit and ends with one. -/
theorem IsDate.ends {d : List Char} (h : IsDate d) :
    (∃ c d', d = c :: d' ∧ isDigit c = true) ∧ ∃ c d', d.reverse = c :: d' ∧ isDigit c = true := by
  obtain ⟨shape, hshape, hd⟩ := h
  have hends : (∃ shape', shape = isDigit :: shape') ∧
      ∃ shape', shape.reverse = isDigit :: shape' := by
    simp only [dateShapes, List.mem_cons, List.not_mem_nil, or_false] at hshape
    obtain rfl | rfl := hshape
    · exact ⟨⟨_, rfl⟩, _, rfl⟩
    · exact ⟨⟨_, rfl⟩, _, rfl⟩
  obtain ⟨⟨front, hfront⟩, back, hback⟩ := hends
  have hreverse := List.forall₂_reverse_iff.mpr hd
  rw [hback] at hreverse
  rw [hfront] at hd
  obtain ⟨c, d', hc, -, rfl⟩ := List.forall₂_cons_left_iff.mp hd
  obtain ⟨e, d'', he, -, hlast⟩ := List.forall₂_cons_left_iff.mp hreverse
  exact ⟨⟨c, d', rfl, hc⟩, e, d'', hlast, he⟩

variable [WordTables]

/-- A line that is a date and nothing else, trimmed. -/
theorem isDate_trim {line : List Char} (h : dateOnly line = true) : IsDate (trim line) := by
  rw [dateOnly, List.any_eq_true] at h
  obtain ⟨rest, hrest, hwhite⟩ := h
  obtain ⟨d, hline, hd⟩ := mem_afterDate.mp hrest
  obtain ⟨-, c, d', hlast, hc⟩ := hd.ends
  have hnot := WordTables.digit c hc
  have htrim : trim line = d := by
    rw [trim, trimMatches, hline, List.reverse_append, List.dropWhile_append_of_pos, hlast,
      List.dropWhile_cons_of_neg (by simp [hnot]), ← hlast, List.reverse_reverse]
    simpa using hwhite
  rwa [htrim]

theorem dropWhile_date {d rest : List Char} (h : IsDate d) :
    (d ++ rest).dropWhile isWhitespace = d ++ rest := by
  obtain ⟨⟨c, d', rfl, hc⟩, -⟩ := h.ends
  rw [List.cons_append, List.dropWhile_cons_of_neg]
  simp [WordTables.digit c hc]

/-- What is joined starts with its date. -/
theorem startsWithDate_joined {line : List Char} (h : dateOnly line = true) (s : List Char) :
    startsWithDate (trim line ++ s) = true :=
  startsWithDate_iff.mpr ⟨trim line, s, dropWhile_date (isDate_trim h), isDate_trim h⟩

omit [WordTables] in
/-- A text that is trimmed ends with no white space. -/
theorem exists_last_trim {s : List Char} (h : trim s ≠ []) :
    ∃ front c, trim s = front ++ [c] ∧ isWhitespace c = false := by
  rw [trim, trimMatches] at h ⊢
  obtain ⟨c, front, hcut⟩ := List.exists_cons_of_ne_nil (List.reverse_eq_nil_iff.not.mp h)
  have hc : isWhitespace c = false := head_dropWhile c (by rw [hcut]; rfl)
  exact ⟨front.reverse, c, by rw [hcut, List.reverse_cons], hc⟩

/-- What is joined is more than a date. -/
theorem dateOnly_joined {line next : List Char} (h : dateOnly line = true)
    (hnext : trim next ≠ []) : dateOnly (trim line ++ ' ' :: trim next) = false := by
  have hdate := isDate_trim h
  by_contra honly
  rw [Bool.not_eq_false, dateOnly, List.any_eq_true] at honly
  obtain ⟨rest, hrest, hwhite⟩ := honly
  obtain ⟨d, hline, hd⟩ := mem_afterDate.mp hrest
  rw [dropWhile_date hdate] at hline
  obtain ⟨front, c, hcut, hc⟩ := exists_last_trim hnext
  -- the last character is beyond any date
  have hlength := congrArg List.length hline
  have hle := hd.length.2
  have hge := hdate.length.1
  simp only [hcut, List.length_append, List.length_cons, List.length_nil] at hlength
  have hne : rest ≠ [] := by
    intro hnil
    rw [hnil, List.length_nil] at hlength
    omega
  have hlast : (d ++ rest).getLast? = some c := by
    rw [← hline, hcut, ← List.cons_append, ← List.append_assoc, List.getLast?_concat]
  rw [List.getLast?_append_of_ne_nil d hne] at hlast
  simp [List.all_eq_true.mp hwhite c (List.mem_of_getLast? hlast)] at hc

/-! ## once is enough -/

/-- Nothing is left to join. -/
def NothingToJoin (ls : List (List Char)) : Prop :=
  ls.IsChain fun line next => ¬ (dateOnly line ∧ continues next)

omit [WordTables] in
theorem mergeLines_of_nothingToJoin {ls : List (List Char)} (h : NothingToJoin ls) : mergeLines ls = ls := by
  induction ls using mergeLines.induct with
  | case1 => rfl
  | case2 line => rfl
  | case3 line next rest hjoin ih =>
    exact absurd hjoin ((List.isChain_cons.mp h).1 next rfl)
  | case4 line next rest hjoin ih =>
    rw [mergeLines, if_neg hjoin, ih (List.isChain_cons.mp h).2]

/-- The first line is kept, or starts with a date. -/
theorem head_mergeLines {line l : List Char} {rest : List (List Char)}
    (h : l ∈ (mergeLines (line :: rest)).head?) : l = line ∨ startsWithDate l = true := by
  cases rest with
  | nil =>
    rw [mergeLines, List.head?_cons, Option.mem_some_iff] at h
    exact .inl h.symm
  | cons next rest =>
    rw [mergeLines] at h
    split at h
    · next hjoin =>
      rw [List.head?_cons, Option.mem_some_iff] at h
      exact .inr (h ▸ startsWithDate_joined hjoin.1 _)
    · rw [List.head?_cons, Option.mem_some_iff] at h
      exact .inl h.symm

theorem nothingToJoin_mergeLines (ls : List (List Char)) : NothingToJoin (mergeLines ls) := by
  induction ls using mergeLines.induct with
  | case1 => exact .nil
  | case2 line => exact .singleton line
  | case3 line next rest hjoin ih =>
    rw [mergeLines, if_pos hjoin, NothingToJoin, List.isChain_cons]
    refine ⟨fun l _ => ?_, ih⟩
    have hcontinues : trim next ≠ [] := by
      exact (of_decide_eq_true hjoin.2).1
    simp [dateOnly_joined hjoin.1 hcontinues]
  | case4 line next rest hjoin ih =>
    rw [mergeLines, if_neg hjoin, NothingToJoin, List.isChain_cons]
    refine ⟨fun l hl => ?_, ih⟩
    obtain rfl | hdate := head_mergeLines hl
    · exact hjoin
    · simp [continues, hdate]

/-- The pass over the lines does nothing the second time. -/
theorem mergeLines_mergeLines (ls : List (List Char)) :
    mergeLines (mergeLines ls) = mergeLines ls :=
  mergeLines_of_nothingToJoin (nothingToJoin_mergeLines ls)

omit [WordTables] in
theorem length_trim_le (s : List Char) : (trim s).length ≤ s.length := by
  rw [trim, trimMatches, List.length_reverse]
  have hback := List.length_dropWhile_le isWhitespace (s.dropWhile isWhitespace).reverse
  have hfront := List.length_dropWhile_le isWhitespace s
  rw [List.length_reverse] at hback
  omega

omit [WordTables] in
theorem size_mergeLines_le (ls : List (List Char)) : size (mergeLines ls) ≤ size ls := by
  induction ls using mergeLines.induct with
  | case1 => rfl
  | case2 line => rfl
  | case3 line next rest hjoin ih =>
    have hline := length_trim_le line
    have hnext := length_trim_le next
    rw [mergeLines, if_pos hjoin]
    simp only [size_cons, List.length_append, List.length_cons]
    omega
  | case4 line next rest hjoin ih =>
    rw [mergeLines, if_neg hjoin, size_cons, size_cons]
    omega

omit [WordTables] in
theorem newline_not_mem_mergeLines {ls : List (List Char)} (h : ∀ l ∈ ls, '\n' ∉ l) :
    ∀ l ∈ mergeLines ls, '\n' ∉ l := by
  induction ls using mergeLines.induct with
  | case1 => exact h
  | case2 line => exact h
  | case3 line next rest hjoin ih =>
    rw [mergeLines, if_pos hjoin, List.forall_mem_cons]
    rw [List.forall_mem_cons, List.forall_mem_cons] at h
    refine ⟨?_, ih h.2.2⟩
    have hline : '\n' ∉ trim line := fun hmem => h.1 (mem_of_mem_trimMatches hmem)
    have hnext : '\n' ∉ trim next := fun hmem => h.2.1 (mem_of_mem_trimMatches hmem)
    simp [hline, hnext]
  | case4 line next rest hjoin ih =>
    rw [mergeLines, if_neg hjoin, List.forall_mem_cons]
    rw [List.forall_mem_cons] at h
    exact ⟨h.1, ih h.2⟩

/-- **The whole pass does nothing the second time exactly where its lines can be read back.** -/
theorem merge_again_iff (text : List Char) :
    mergeBrokenLineBoundaries (mergeBrokenLineBoundaries text) = mergeBrokenLineBoundaries text ↔
      Clean (mergeLines (lines text)) := by
  have hnewline := newline_not_mem_mergeLines fun l hl => @newline_not_mem_lines text l hl
  have hagain := mergeLines_mergeLines (lines text)
  generalize hls : mergeLines (lines text) = ls at *
  rw [mergeBrokenLineBoundaries, mergeBrokenLineBoundaries, hls]
  by_cases hne : ls = []
  · simp [hne, lines, linesOf, mergeLines, List.splitOn_nil]
    exact ⟨by simp, by simp⟩
  rw [lines_joinLines hne hnewline]
  constructor
  · intro hagain
    by_contra hclean
    have hread := size_linesOf_lt hclean
    have hmerge := size_mergeLines_le (linesOf ls)
    have hlength := congrArg List.length hagain
    have htwo : 2 ≤ size ls := by
      obtain ⟨l, rest, rfl⟩ := List.exists_cons_of_ne_nil hne
      cases rest with
      | nil => exact absurd ⟨by simp, by simp⟩ hclean
      | cons m rest =>
        simp only [size_cons]
        omega
    rw [length_joinLines, length_joinLines] at hlength
    omega
  · intro hclean
    by_cases hempty : ls = [[]]
    · simp [hempty, linesOf, mergeLines]
    · rw [linesOf_of_clean hclean hempty, hagain]

/-! ## the words -/

/-- Line breaks are white space. -/
class BreakTables [Extern] : Prop where
  newline : isWhitespace '\n' = true
  carriageReturn : isWhitespace '\r' = true

omit [WordTables] in
theorem splitWhitespace_joinLines [BreakTables] (ls : List (List Char)) :
    splitWhitespace (joinLines ls) = ls.flatMap splitWhitespace := by
  induction ls with
  | nil => exact splitWhitespace_white (by simp)
  | cons l ls ih =>
    cases ls with
    | nil => simp
    | cons m ls =>
      rw [joinLines_cons_cons, splitWhitespace_append_white BreakTables.newline, ih]
      simp only [List.flatMap_cons]

omit [WordTables] in
theorem splitWhitespace_stripReturn [BreakTables] (l : List Char) :
    splitWhitespace (stripReturn l) = splitWhitespace l := by
  rw [stripReturn]
  split
  · next hreturn =>
    obtain ⟨front, rfl⟩ := List.getLast?_eq_some_iff.mp hreturn
    rw [List.dropLast_concat, splitWhitespace_append_white BreakTables.carriageReturn,
      @splitWhitespace_white _ [] (by simp), List.append_nil]
  · rfl

omit [WordTables] in
theorem flatMap_linesOf [BreakTables] (ls : List (List Char)) :
    (linesOf ls).flatMap splitWhitespace = ls.flatMap splitWhitespace := by
  induction ls with
  | nil => rfl
  | cons l ls ih =>
    cases ls with
    | nil =>
      rw [linesOf]
      split
      · next hnil => simp [hnil, splitWhitespace_white]
      · rfl
    | cons m ls =>
      rw [linesOf, List.flatMap_cons, List.flatMap_cons, ih, splitWhitespace_stripReturn]

theorem flatMap_mergeLines (ls : List (List Char)) :
    (mergeLines ls).flatMap splitWhitespace = ls.flatMap splitWhitespace := by
  induction ls using mergeLines.induct with
  | case1 => rfl
  | case2 line => rfl
  | case3 line next rest hjoin ih =>
    rw [mergeLines, if_pos hjoin, List.flatMap_cons, ih,
      splitWhitespace_append_white WordTables.blank, splitWhitespace_trim, splitWhitespace_trim]
    simp
  | case4 line next rest hjoin ih =>
    rw [mergeLines, if_neg hjoin, List.flatMap_cons, ih]
    simp only [List.flatMap_cons]

/-- The words of a text are those of its merged lines. -/
theorem splitWhitespace_merge [BreakTables] (text : List Char) :
    splitWhitespace (mergeBrokenLineBoundaries text) = splitWhitespace text := by
  rw [mergeBrokenLineBoundaries, splitWhitespace_joinLines, flatMap_mergeLines, lines,
    flatMap_linesOf, ← splitWhitespace_joinLines, joinLines, List.intercalate_splitOn]

omit [Extern] [WordTables] in
theorem breakTables_ascii : @BreakTables Extern.ascii := by
  let := Extern.ascii
  exact ⟨by decide, by decide⟩

end Dinero
