import Dinero.BrokenLines
import Dinero.SortedGroups
import Mathlib.Algebra.Order.Round

/-!
# Dinero.Layout

A page of a PDF read from where its characters stand.

The characters are sorted from top to bottom and cut into lines, each line is
sorted from left to right, and gaps become blanks.  Coordinates are exact.
-/

namespace Dinero

open TextLines SortedGroups

variable [Extern]

structure PositionedChar where
  text : List Char
  x0 : ℚ
  x1 : ℚ
  y0 : ℚ
  y1 : ℚ
deriving DecidableEq, Repr

def maxCharsPerPage : Nat := 200000

def lineOverlapRatio : ℚ := 1 / 2

def spaceGapRatio : ℚ := 15 / 100

def maxGapSpaces : Nat := 24

/-! ## lines -/

/-- Vertical centre of a character's bounding box. -/
def midY (c : PositionedChar) : ℚ := (c.y0 + c.y1) / 2

/-- Whether two characters belong to the same visual line. -/
def sharesLine (anchor candidate : PositionedChar) : Bool :=
  let overlap := max (min anchor.y1 candidate.y1 - max anchor.y0 candidate.y0) 0
  let shorter := min (anchor.y1 - anchor.y0) (candidate.y1 - candidate.y0)
  if shorter ≤ 0 then |midY anchor - midY candidate| < 2
  else overlap / shorter ≥ lineOverlapRatio

/-- One turn of the loop: a character goes to the last line, or starts one. -/
def placeChar (lines : List (List PositionedChar)) (ch : PositionedChar) :
    List (List PositionedChar) :=
  match lines.getLast? with
  | some line =>
    if line.head?.any fun anchor => sharesLine anchor ch then lines.dropLast ++ [line ++ [ch]]
    else lines ++ [[ch]]
  | none => lines ++ [[ch]]

/-! ## one line as text -/

/-- Median glyph width on a line, used as the spacing unit. -/
def medianWidth (line : List PositionedChar) : ℚ :=
  let widths := (line.map fun c => c.x1 - c.x0).filter fun w => w > 0
  if widths = [] then 1
  else (widths.insertionSort (· ≤ ·)).getD (widths.length / 2) 1

/-- The blanks for a gap, if it is wide enough for any. -/
def gapSpaces (unit gap : ℚ) : List Char :=
  if gap > unit * spaceGapRatio then
    List.replicate (min (max (round (gap / unit)).toNat 1) maxGapSpaces) ' '
  else []

/-- The loop over a line, behind a character that ends at `prevX1`. -/
def renderChars (unit : ℚ) : Option ℚ → List PositionedChar → List Char
  | _, [] => []
  | prevX1, ch :: line =>
    (prevX1.elim [] fun prev => gapSpaces unit (ch.x0 - prev)) ++ ch.text ++
      renderChars unit (some ch.x1) line

def renderLine (line : List PositionedChar) : List Char :=
  (renderChars (medianWidth line) none line).rdropWhile isWhitespace

/-! ## a page -/

def visibleChars (chars : List PositionedChar) : List PositionedChar :=
  (chars.take maxCharsPerPage).filter fun c => trim c.text ≠ []

/-- The lines of a page, each from left to right. -/
def pageLines (chars : List PositionedChar) : List (List PositionedChar) :=
  (((visibleChars chars).insertionSort fun a b => midY a ≤ midY b).foldl placeChar []).map
    fun line => line.insertionSort fun a b => a.x0 ≤ b.x0

def reconstructPage (chars : List PositionedChar) : List Char :=
  if visibleChars chars = [] then []
  else joinLines (((pageLines chars).map renderLine).filter fun line => trim line ≠ [])

/-! ## the loop makes groups -/

omit [Extern] in
theorem foldl_placeChar (done : List (List PositionedChar)) (anchor : PositionedChar)
    (group l : List PositionedChar) :
    l.foldl placeChar (done ++ [anchor :: group]) =
      done ++ groupFrom sharesLine anchor group l := by
  induction l generalizing done anchor group with
  | nil => rfl
  | cons c l ih =>
    rw [List.foldl_cons, groupFrom]
    split
    · next hshare =>
      have hplace : placeChar (done ++ [anchor :: group]) c =
          done ++ [anchor :: (group ++ [c])] := by
        simp [placeChar, hshare]
      rw [hplace, ih]
    · next hshare =>
      have hplace : placeChar (done ++ [anchor :: group]) c =
          (done ++ [anchor :: group]) ++ [[c]] := by
        simp [placeChar, hshare]
      rw [hplace, ih, List.append_assoc]
      rfl

omit [Extern] in
theorem foldl_placeChar_nil (l : List PositionedChar) :
    l.foldl placeChar [] = groups sharesLine l := by
  cases l with
  | nil => rfl
  | cons a l => exact foldl_placeChar [] a [] l

/-! ## characters -/

def nonWhitespace (s : List Char) : List Char := s.filter fun c => !isWhitespace c

theorem nonWhitespace_append (s t : List Char) :
    nonWhitespace (s ++ t) = nonWhitespace s ++ nonWhitespace t :=
  List.filter_append s t

theorem nonWhitespace_white {s : List Char} (h : ∀ c ∈ s, isWhitespace c = true) :
    nonWhitespace s = [] := filter_white (by simp) h

theorem trim_ne_nil_iff {s : List Char} : trim s ≠ [] ↔ nonWhitespace s ≠ [] := by
  have hfilter : nonWhitespace (trim s) = nonWhitespace s := filter_trim (by simp) s
  constructor
  · intro h
    obtain ⟨front, c, htrim, hc⟩ := exists_last_trim h
    rw [← hfilter, htrim, nonWhitespace_append]
    simp [nonWhitespace, hc]
  · intro h htrim
    rw [← hfilter, htrim] at h
    exact h rfl

variable [WordTables]

theorem nonWhitespace_renderChars (unit : ℚ) (prevX1 : Option ℚ) (line : List PositionedChar) :
    nonWhitespace (renderChars unit prevX1 line) =
      nonWhitespace (line.flatMap PositionedChar.text) := by
  have hspaces : ∀ gap, nonWhitespace (gapSpaces unit gap) = [] := by
    intro gap
    apply nonWhitespace_white
    intro c hc
    rw [gapSpaces] at hc
    split at hc
    · rw [List.eq_of_mem_replicate hc, WordTables.blank]
    · cases hc
  induction line generalizing prevX1 with
  | nil => rfl
  | cons ch line ih =>
    rw [renderChars, List.flatMap_cons, nonWhitespace_append, nonWhitespace_append,
      nonWhitespace_append, ih]
    cases prevX1 with
    | none => rfl
    | some prev => rw [Option.elim_some, hspaces, List.nil_append]

/-- The characters of a line, from left to right. -/
theorem nonWhitespace_renderLine (line : List PositionedChar) :
    nonWhitespace (renderLine line) = nonWhitespace (line.flatMap PositionedChar.text) := by
  rw [renderLine, nonWhitespace, filter_rdropWhile (by simp)]
  exact nonWhitespace_renderChars _ _ line

omit [WordTables] in
theorem nonWhitespace_joinLines [BreakTables] (ls : List (List Char)) :
    nonWhitespace (joinLines ls) = ls.flatMap nonWhitespace :=
  filter_joinLines (by simp [BreakTables.newline]) ls

/-! ## the lines of a page -/

omit [WordTables]

omit [Extern] in
theorem flatten_map_perm {sort : List PositionedChar → List PositionedChar}
    (h : ∀ l, (sort l).Perm l) (ls : List (List PositionedChar)) :
    (ls.map sort).flatten.Perm ls.flatten := by
  induction ls with
  | nil => exact .refl _
  | cons l ls ih => simpa using (h l).append ih

theorem flatten_pageLines_perm (chars : List PositionedChar) :
    (pageLines chars).flatten.Perm (visibleChars chars) := by
  rw [pageLines, foldl_placeChar_nil]
  refine (flatten_map_perm (fun l => List.perm_insertionSort _ l) _).trans ?_
  rw [flatten_groups]
  exact List.perm_insertionSort _ _

theorem mem_pageLines {chars line : List PositionedChar} (h : line ∈ pageLines chars) :
    (∃ ch ∈ line, ch ∈ visibleChars chars) ∧ line.Pairwise fun a b => a.x0 ≤ b.x0 := by
  have hchars := flatten_pageLines_perm chars
  constructor
  · have hne : line ≠ [] := by
      rw [pageLines, foldl_placeChar_nil] at h
      obtain ⟨group, hgroup, rfl⟩ := List.mem_map.mp h
      intro hnil
      have hlength := (List.perm_insertionSort (fun a b => a.x0 ≤ b.x0) group).length_eq
      rw [hnil] at hlength
      exact ne_nil_of_mem_groups hgroup (List.length_eq_zero_iff.mp hlength.symm)
    obtain ⟨ch, rest, rfl⟩ := List.exists_cons_of_ne_nil hne
    exact ⟨ch, by simp, hchars.mem_iff.mp (List.mem_flatten_of_mem h (by simp))⟩
  · obtain ⟨group, -, rfl⟩ := List.mem_map.mp h
    exact List.pairwise_insertionSort _ _

/-- What stands on a line is not below what stands on a later one. -/
theorem pairwise_pageLines (chars : List PositionedChar) :
    (pageLines chars).Pairwise fun upper lower => ∀ a ∈ upper, ∀ b ∈ lower, midY a ≤ midY b := by
  have hsort := List.pairwise_insertionSort (fun a b => midY a ≤ midY b) (visibleChars chars)
  rw [← @flatten_groups _ sharesLine (List.insertionSort _ _), List.pairwise_flatten] at hsort
  rw [pageLines, foldl_placeChar_nil, List.pairwise_map]
  refine hsort.2.imp fun hle a ha b hb => ?_
  exact hle a ((List.perm_insertionSort _ _).mem_iff.mp ha) b
    ((List.perm_insertionSort _ _).mem_iff.mp hb)

/-- No line is blank. -/
theorem reconstructPage_eq [WordTables] (chars : List PositionedChar) :
    reconstructPage chars = joinLines ((pageLines chars).map renderLine) := by
  have hlines : ∀ line ∈ (pageLines chars).map renderLine, trim line ≠ [] := by
    intro text htext
    obtain ⟨line, hline, rfl⟩ := List.mem_map.mp htext
    obtain ⟨⟨ch, hch, hvisible⟩, -⟩ := mem_pageLines hline
    have htrim : trim ch.text ≠ [] := by
      simpa using (List.mem_filter.mp hvisible).2
    obtain ⟨c, rest, hc⟩ := List.exists_cons_of_ne_nil (trim_ne_nil_iff.mp htrim)
    have hmem := List.mem_filter.mp (hc ▸ List.mem_cons_self : c ∈ nonWhitespace ch.text)
    rw [trim_ne_nil_iff, nonWhitespace_renderLine]
    exact List.ne_nil_of_mem
      (List.mem_filter.mpr ⟨List.mem_flatMap.mpr ⟨ch, hch, hmem.1⟩, hmem.2⟩)
  rw [reconstructPage]
  split
  · next hempty => simp [pageLines, hempty]
  · rw [List.filter_eq_self.mpr]
    simpa using hlines

theorem flatMap_visible (chars : List PositionedChar) :
    (chars.filter fun c => trim c.text ≠ []).flatMap (fun c => nonWhitespace c.text) =
      chars.flatMap fun c => nonWhitespace c.text := by
  induction chars with
  | nil => rfl
  | cons c chars ih =>
    by_cases hc : trim c.text ≠ []
    · rw [List.filter_cons_of_pos (by simpa using hc), List.flatMap_cons, ih, List.flatMap_cons]
    · have hblank : nonWhitespace c.text = [] := by
        by_contra hne
        exact hc (trim_ne_nil_iff.mpr hne)
      rw [List.filter_cons_of_neg (by simpa using hc), ih, List.flatMap_cons, hblank,
        List.nil_append]

/-- The characters of a page are those of its visible characters. -/
theorem nonWhitespace_reconstructPage [WordTables] [BreakTables] {chars : List PositionedChar}
    (hlength : chars.length ≤ maxCharsPerPage) :
    (nonWhitespace (reconstructPage chars)).Perm
      (nonWhitespace (chars.flatMap PositionedChar.text)) := by
  have hflat : ∀ l : List PositionedChar, nonWhitespace (l.flatMap PositionedChar.text) =
      l.flatMap fun c => nonWhitespace c.text := by
    intro l
    simp [nonWhitespace, List.filter_flatMap]
  have hlines : ((pageLines chars).map renderLine).flatMap nonWhitespace =
      (pageLines chars).flatten.flatMap fun c => nonWhitespace c.text := by
    simp only [List.flatMap_map, nonWhitespace_renderLine, hflat]
    induction pageLines chars with
    | nil => rfl
    | cons line lines ih => simp [ih]
  have hvisible : (visibleChars chars).flatMap (fun c => nonWhitespace c.text) =
      chars.flatMap fun c => nonWhitespace c.text := by
    rw [visibleChars, List.take_of_length_le hlength, flatMap_visible]
  rw [reconstructPage_eq, nonWhitespace_joinLines, hlines, hflat, ← hvisible]
  exact (flatten_pageLines_perm chars).flatMap_right _

/-! ## the order of the input -/

/-- No two characters stand at one place. -/
def PositionsDistinct (chars : List PositionedChar) : Prop :=
  ∀ a ∈ chars, ∀ b ∈ chars, a.x0 = b.x0 → a.y0 = b.y0 → a = b

/-- Characters with one vertical centre have one height. -/
def HeightsAgree (chars : List PositionedChar) : Prop :=
  ∀ a ∈ chars, ∀ b ∈ chars, midY a = midY b → a.y0 = b.y0

instance (chars : List PositionedChar) : Decidable (PositionsDistinct chars) :=
  inferInstanceAs (Decidable (∀ a ∈ chars, ∀ b ∈ chars, a.x0 = b.x0 → a.y0 = b.y0 → a = b))

instance (chars : List PositionedChar) : Decidable (HeightsAgree chars) :=
  inferInstanceAs (Decidable (∀ a ∈ chars, ∀ b ∈ chars, midY a = midY b → a.y0 = b.y0))

section Order

omit [Extern]

variable {chars : List PositionedChar}

theorem HeightsAgree.y1 (h : HeightsAgree chars) {a b : PositionedChar} (ha : a ∈ chars)
    (hb : b ∈ chars) (hmid : midY a = midY b) : a.y1 = b.y1 := by
  have hy0 := h a ha b hb hmid
  rw [midY, midY] at hmid
  linarith

/-- A line is shared with what has the same height. -/
theorem sharesLine_self {a b : PositionedChar} (hy0 : a.y0 = b.y0) (hy1 : a.y1 = b.y1) :
    sharesLine a b = true := by
  simp only [sharesLine, midY, hy0, hy1, min_self, max_self, sub_self, abs_zero]
  split
  · simp
  · next hpos =>
    rw [max_eq_left (not_le.mp hpos).le, div_self (not_le.mp hpos).ne', decide_eq_true_eq,
      lineOverlapRatio]
    norm_num

theorem HeightsAgree.keyedBy (h : HeightsAgree chars) :
    KeyedBy sharesLine midY (· ∈ chars) where
  same a b ha hb hmid := sharesLine_self (h a ha b hb hmid) (h.y1 ha hb hmid)
  congr a a' b b' ha ha' hb hb' hmid hmid' := by
    simp only [sharesLine, hmid, hmid', h a ha a' ha' hmid, h b hb b' hb' hmid',
      h.y1 ha ha' hmid, h.y1 hb hb' hmid']

theorem map_sort_eq {G G' : List (List PositionedChar)} (h : List.Forall₂ List.Perm G G')
    (hG : ∀ g ∈ G, g.Pairwise fun a b => midY a ≤ midY b)
    (hG' : ∀ g ∈ G', g.Pairwise fun a b => midY a ≤ midY b)
    (hkeys : ∀ g ∈ G, ∀ a ∈ g, ∀ b ∈ g, midY a = midY b → a.x0 = b.x0 → a = b) :
    G.map (fun line => line.insertionSort fun a b => a.x0 ≤ b.x0) =
      G'.map fun line => line.insertionSort fun a b => a.x0 ≤ b.x0 := by
  induction h with
  | nil => rfl
  | cons hperm _ ih =>
    rw [List.forall_mem_cons] at hG hG' hkeys
    rw [List.map_cons, List.map_cons, ih hG.2 hG'.2 hkeys.2,
      insertionSort_eq_of_perm hperm hG.1 hG'.1 hkeys.1]

end Order

/-- The lines do not show the order the characters came in. -/
theorem pageLines_eq_of_perm {chars chars' : List PositionedChar}
    (hperm : (visibleChars chars').Perm (visibleChars chars))
    (hpositions : PositionsDistinct (visibleChars chars))
    (hheights : HeightsAgree (visibleChars chars)) : pageLines chars' = pageLines chars := by
  have hsort := List.perm_insertionSort (fun a b => midY a ≤ midY b) (visibleChars chars)
  have hsort' := List.perm_insertionSort (fun a b => midY a ≤ midY b) (visibleChars chars')
  have hpair := List.pairwise_insertionSort (fun a b => midY a ≤ midY b) (visibleChars chars)
  have hpair' := List.pairwise_insertionSort (fun a b => midY a ≤ midY b) (visibleChars chars')
  rw [pageLines, pageLines, foldl_placeChar_nil, foldl_placeChar_nil]
  generalize (visibleChars chars).insertionSort (fun a b => midY a ≤ midY b) = L at *
  generalize (visibleChars chars').insertionSort (fun a b => midY a ≤ midY b) = L' at *
  have hgroups := groups_perm hheights.keyedBy (fun x hx => hsort.mem_iff.mp hx)
    (hsort.trans (hperm.symm.trans hsort'.symm)) hpair hpair'
  have hinside : ∀ {l : List PositionedChar}, (l.Pairwise fun a b => midY a ≤ midY b) →
      ∀ g ∈ groups sharesLine l, g.Pairwise fun a b => midY a ≤ midY b := by
    intro l hl
    rw [← @flatten_groups _ sharesLine l, List.pairwise_flatten] at hl
    exact hl.1
  refine (map_sort_eq hgroups (hinside hpair) (hinside hpair') ?_).symm
  intro g hg a ha b hb hmid hx0
  have hvisible : ∀ c ∈ g, c ∈ visibleChars chars := by
    intro c hc
    rw [← hsort.mem_iff, ← @flatten_groups _ sharesLine L]
    exact List.mem_flatten_of_mem hg hc
  exact hpositions a (hvisible a ha) b (hvisible b hb) hx0
    (hheights a (hvisible a ha) b (hvisible b hb) hmid)

/-- **A page is read as it stands**: no character is lost or doubled, the lines go from top to
bottom and each from left to right.  The order the characters come in does not show where no two
stand at one place and those with one vertical centre have one height. -/
theorem page_reconstructed [WordTables] [BreakTables] {chars : List PositionedChar}
    (hlength : chars.length ≤ maxCharsPerPage) :
    (nonWhitespace (reconstructPage chars)).Perm
      (nonWhitespace (chars.flatMap PositionedChar.text)) ∧
    (reconstructPage chars = joinLines ((pageLines chars).map renderLine) ∧
      (pageLines chars).flatten.Perm (visibleChars chars) ∧
      ((pageLines chars).Pairwise fun upper lower =>
        ∀ a ∈ upper, ∀ b ∈ lower, midY a ≤ midY b) ∧
      ∀ line ∈ pageLines chars, (line.Pairwise fun a b => a.x0 ≤ b.x0) ∧
        nonWhitespace (renderLine line) = nonWhitespace (line.flatMap PositionedChar.text)) ∧
    ∀ chars' : List PositionedChar, chars'.Perm chars →
      PositionsDistinct (visibleChars chars) → HeightsAgree (visibleChars chars) →
      reconstructPage chars' = reconstructPage chars := by
  refine ⟨nonWhitespace_reconstructPage hlength, ⟨reconstructPage_eq chars,
    flatten_pageLines_perm chars, pairwise_pageLines chars, fun line hline =>
      ⟨(mem_pageLines hline).2, nonWhitespace_renderLine line⟩⟩, ?_⟩
  intro chars' hperm hpositions hheights
  have hvisible : (visibleChars chars').Perm (visibleChars chars) := by
    rw [visibleChars, visibleChars, List.take_of_length_le hlength,
      List.take_of_length_le (hperm.length_eq.trans_le hlength)]
    exact hperm.filter _
  rw [reconstructPage_eq, reconstructPage_eq, pageLines_eq_of_perm hvisible hpositions hheights]

omit [Extern] in
/-- Two words of one line, handed over in the wrong order. -/
theorem row_reconstructed : letI := Extern.ascii
    reconstructPage [⟨"120.00".toList, 50, 80, 4, 14⟩, ⟨"SWIGGY".toList, 0, 30, 5, 15⟩] =
      reconstructPage [⟨"SWIGGY".toList, 0, 30, 5, 15⟩, ⟨"120.00".toList, 50, 80, 4, 14⟩] := by
  let := Extern.ascii
  let := wordTables_ascii
  let := breakTables_ascii
  have hpage := @page_reconstructed _ _ _ [⟨"SWIGGY".toList, 0, 30, 5, 15⟩,
    ⟨"120.00".toList, 50, 80, 4, 14⟩] (by decide)
  exact hpage.2.2 _ (.swap _ _ []) (by decide +kernel) (by decide +kernel)

omit [Extern] in
/-- A tall character and a short one with one vertical centre: which of them comes first decides
whether the third is on their line. -/
theorem tall_first_or_short_first : letI := Extern.ascii
    ∃ chars chars' : List PositionedChar, PositionsDistinct chars ∧ chars'.Perm chars ∧
      reconstructPage chars' ≠ reconstructPage chars := by
  let := Extern.ascii
  exact ⟨[⟨"A".toList, 0, 5, 0, 10⟩, ⟨"b".toList, 20, 25, 4, 6⟩, ⟨"c".toList, 40, 45, 8, 10⟩],
    [⟨"b".toList, 20, 25, 4, 6⟩, ⟨"A".toList, 0, 5, 0, 10⟩, ⟨"c".toList, 40, 45, 8, 10⟩],
    by decide +kernel, .swap _ _ _, by decide +kernel⟩

end Dinero
