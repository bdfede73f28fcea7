import Dinero.Cleanup
import Dinero.Descriptors

/-!
# Dinero.Snippets

The excerpt of an email that the reconciliation queue shows.

White space is collapsed only as far as the excerpt goes: no word is copied
beyond what fits, and the words after that are not looked at.  What comes out is
what collapsing the whole body would have given.
-/

namespace Dinero

variable [Extern]

def bodySnippetMaxChars : Nat := 240

/-! ## the loop -/

/-- A word after what was collected so far. -/
def pushWord (collapsed word : List Char) : List Char :=
  (if collapsed = [] then [] else collapsed ++ [' ']) ++ word

/-- The loop over the words. -/
def collapseWords (collapsed : List Char) : List (List Char) → List Char
  | [] => collapsed
  | word :: words =>
    let collapsed' := pushWord collapsed (word.take (bodySnippetMaxChars + 1))
    if utf8Len collapsed' > bodySnippetMaxChars * 4 then collapsed'
    else collapseWords collapsed' words

/-- The first characters and an ellipsis, of a text that has more. -/
def cutSnippet (s : List Char) : List Char :=
  if s.length > bodySnippetMaxChars then s.take bodySnippetMaxChars ++ ['…'] else s

/-- `bodyOf` reads the field `body` of the payload, where that is a text. -/
def extractBodySnippet (bodyOf : String → Option String) (rawPayloadJson : String) :
    Option String :=
  (bodyOf rawPayloadJson).bind fun body =>
    let collapsed := collapseWords [] (splitWhitespace body.toList)
    if collapsed = [] then none else some (String.ofList (cutSnippet collapsed))

/-! ## the whole body collapsed -/

/-- Every run of white space as one blank, and none at the ends. -/
def collapseWhitespace : List Char → List Char
  | [] => []
  | c :: rest =>
    if isWhitespace c then collapseWhitespace rest
    else if rest.head?.any isWhitespace ∧ collapseWhitespace rest ≠ [] then
      c :: ' ' :: collapseWhitespace rest
    else c :: collapseWhitespace rest

theorem splitWhitespace_cons_white {c : Char} (hc : isWhitespace c = true) (s : List Char) :
    splitWhitespace (c :: s) = splitWhitespace s := by
  have hsplit := splitWhitespace_append_white hc [] s
  have hnil : splitWhitespace [] = [] := splitWhitespace_white (by simp)
  rwa [hnil, List.nil_append, List.nil_append] at hsplit

/-- A character that is not white space goes to the word behind it. -/
theorem splitWhitespace_cons_cons {c d : Char} (hc : isWhitespace c = false)
    (hd : isWhitespace d = false) (s : List Char) :
    ∃ word words, splitWhitespace (d :: s) = word :: words ∧
      splitWhitespace (c :: d :: s) = (c :: word) :: words := by
  obtain ⟨first, others, hsplit⟩ := List.exists_cons_of_ne_nil (List.splitOnP_ne_nil isWhitespace s)
  refine ⟨d :: first, others.filter (· ≠ []), ?_, ?_⟩
  · simp [splitWhitespace, List.splitOnP_cons_eq_if_modifyHead, hd, hsplit]
  · simp [splitWhitespace, List.splitOnP_cons_eq_if_modifyHead, hc, hd, hsplit]

omit [Extern] in
theorem intercalate_cons_head (c : Char) (word : List Char) (words : List (List Char)) :
    [' '].intercalate ((c :: word) :: words) = c :: [' '].intercalate (word :: words) := by
  cases words with
  | nil => simp
  | cons w words => simp [List.intercalate_cons_cons]

theorem spaced_eq_nil {s : List Char} : spaced s = [] ↔ splitWhitespace s = [] := by
  rw [spaced]
  cases hwords : splitWhitespace s with
  | nil => simp
  | cons word words =>
    have hne := (mem_splitWhitespace (hwords ▸ List.mem_cons_self)).1
    cases words with
    | nil => simpa using hne
    | cons w words => simp [List.intercalate_cons_cons]

/-- The words with one blank between them. -/
theorem collapseWhitespace_eq (s : List Char) : collapseWhitespace s = spaced s := by
  induction s with
  | nil => simp [collapseWhitespace, spaced, splitWhitespace]
  | cons c s ih =>
    rw [collapseWhitespace, ih]
    split
    · next hc => rw [spaced, spaced, splitWhitespace_cons_white hc]
    · next hc =>
      have hword : splitWhitespace [c] = [[c]] := splitWhitespace_word (by simp) (by simpa using hc)
      cases s with
      | nil =>
        have hnil : splitWhitespace [] = [] := splitWhitespace_white (by simp)
        simp [spaced, hword, hnil]
      | cons d s =>
        by_cases hd : isWhitespace d = true
        · -- a word of one character, and then a run
          have hcut : splitWhitespace (c :: d :: s) = [c] :: splitWhitespace s := by
            have hsplit := splitWhitespace_append_white hd [c] s
            rwa [hword] at hsplit
          simp only [ne_eq, spaced_eq_nil, List.head?_cons, Option.any_some, hd, true_and]
          rw [spaced, spaced, hcut, splitWhitespace_cons_white hd]
          cases splitWhitespace s with
          | nil => simp
          | cons word words => simp [List.intercalate_cons_cons]
        · obtain ⟨word, words, hwords, hcons⟩ :=
            splitWhitespace_cons_cons (by simpa using hc) (by simpa using hd) s
          rw [spaced, spaced, hcons, hwords, intercalate_cons_head]
          simp [hd]

/-! ## what the loop leaves out -/

section Prefixes

omit [Extern]

theorem take_append_congr {n : Nat} {a a' b b' : List Char} (ha : a.take n = a'.take n)
    (hb : b.take n = b'.take n) : (a ++ b).take n = (a' ++ b').take n := by
  have hlength := congrArg List.length ha
  simp only [List.length_take] at hlength
  by_cases hshort : a.length < n
  · rw [List.take_of_length_le hshort.le, List.take_of_length_le (by omega)] at ha
    subst ha
    have htail := congrArg (List.take (n - a.length)) hb
    rw [List.take_take, List.take_take, Nat.min_eq_left (Nat.sub_le _ _)] at htail
    rw [List.take_append, List.take_append, htail]
  · rw [List.take_append_of_le_length (by omega), List.take_append_of_le_length (by omega), ha]

theorem utf8Len_le (s : List Char) : utf8Len s ≤ 4 * s.length := by
  induction s with
  | nil => simp [utf8Len]
  | cons c s ih =>
    have hc := Char.utf8Size_le_four c
    simp only [utf8Len, List.map_cons, List.sum_cons, List.length_cons] at ih ⊢
    omega

theorem pushWord_take {n : Nat} (hn : 0 < n) {a a' w w' : List Char}
    (ha : a.take n = a'.take n) (hw : w.take n = w'.take n) :
    (pushWord a w).take n = (pushWord a' w').take n := by
  have hnil : a = [] ↔ a' = [] := by
    have htake : ∀ x : List Char, x = [] ↔ x.take n = [] := by
      simp [List.take_eq_nil_iff, hn.ne']
    rw [htake a, ha, ← htake]
  by_cases h : a = []
  · simp [pushWord, h, hnil.mp h, hw]
  · rw [pushWord, pushWord, if_neg h, if_neg (fun h' => h (hnil.mpr h'))]
    exact take_append_congr (take_append_congr ha rfl) hw

theorem prefix_pushWord (a w : List Char) : a <+: pushWord a w := by
  by_cases h : a = []
  · simp [h]
  · rw [pushWord, if_neg h, List.append_assoc]
    exact List.prefix_append _ _

theorem prefix_foldl_pushWord (a : List Char) (words : List (List Char)) :
    a <+: words.foldl pushWord a := by
  induction words generalizing a with
  | nil => exact List.prefix_rfl
  | cons w words ih => exact (prefix_pushWord a w).trans (ih _)

/-- Pushed one by one or all at once. -/
theorem foldl_pushWord {words : List (List Char)} (hne : ∀ w ∈ words, w ≠ []) (hwords : words ≠ [])
    (a : List Char) : words.foldl pushWord a = pushWord a ([' '].intercalate words) := by
  induction words generalizing a with
  | nil => exact absurd rfl hwords
  | cons w words ih =>
    cases words with
    | nil => simp
    | cons u words =>
      have hpushed : pushWord a w ≠ [] := by
        simp [pushWord, hne w List.mem_cons_self]
      rw [List.foldl_cons, ih (fun v hv => hne v (.tail w hv)) (by simp),
        List.intercalate_cons_cons, pushWord, if_neg hpushed, pushWord, pushWord]
      simp

/-- The loop agrees with pushing every word whole, as far as the excerpt and one more. -/
theorem collapseWords_take {a full : List Char} {words : List (List Char)}
    (h : a.take (bodySnippetMaxChars + 1) = full.take (bodySnippetMaxChars + 1)) :
    (collapseWords a words).take (bodySnippetMaxChars + 1) =
      (words.foldl pushWord full).take (bodySnippetMaxChars + 1) := by
  induction words generalizing a full with
  | nil => exact h
  | cons w words ih =>
    have hpush : (pushWord a (w.take (bodySnippetMaxChars + 1))).take (bodySnippetMaxChars + 1) =
        (pushWord full w).take (bodySnippetMaxChars + 1) :=
      pushWord_take (Nat.succ_pos _) h (by rw [List.take_take, Nat.min_self])
    rw [collapseWords, List.foldl_cons]
    split
    · next hlong =>
      -- four bytes a character at most, so the excerpt is full
      have hbytes := utf8Len_le (pushWord a (w.take (bodySnippetMaxChars + 1)))
      have hlength := congrArg List.length hpush
      obtain ⟨rest, hrest⟩ := prefix_foldl_pushWord (pushWord full w) words
      simp only [List.length_take] at hlength
      rw [← hrest, hpush, List.take_append_of_le_length (by omega)]
    · exact ih hpush

theorem cutSnippet_congr {s t : List Char}
    (h : s.take (bodySnippetMaxChars + 1) = t.take (bodySnippetMaxChars + 1)) :
    cutSnippet s = cutSnippet t := by
  have hlength := congrArg List.length h
  have hcut := congrArg (List.take bodySnippetMaxChars) h
  simp only [List.length_take] at hlength
  rw [List.take_take, List.take_take, Nat.min_eq_left (Nat.le_succ _)] at hcut
  by_cases hs : s.length > bodySnippetMaxChars
  · rw [cutSnippet, cutSnippet, if_pos hs, if_pos (by omega), hcut]
  · rw [List.take_of_length_le (by omega), List.take_of_length_le (by omega)] at h
    rw [h]

end Prefixes

/-- **The excerpt is that of the whole body collapsed**, and there is none of a blank body. -/
theorem extractBodySnippet_eq (bodyOf : String → Option String) (rawPayloadJson : String) :
    extractBodySnippet bodyOf rawPayloadJson =
      (bodyOf rawPayloadJson).bind fun body =>
        if collapseWhitespace body.toList = [] then none
        else some (String.ofList (cutSnippet (collapseWhitespace body.toList))) := by
  rw [extractBodySnippet]
  congr 1
  funext body
  have htake : (collapseWords [] (splitWhitespace body.toList)).take (bodySnippetMaxChars + 1) =
      (collapseWhitespace body.toList).take (bodySnippetMaxChars + 1) := by
    rw [collapseWords_take rfl, collapseWhitespace_eq, spaced]
    by_cases hwords : splitWhitespace body.toList = []
    · simp [hwords]
    · rw [foldl_pushWord (fun w hw => (mem_splitWhitespace hw).1) hwords]
      simp [pushWord]
  have hnil : ∀ x : List Char, x = [] ↔ x.take (bodySnippetMaxChars + 1) = [] := by
    simp [List.take_eq_nil_iff]
  have hempty : collapseWords [] (splitWhitespace body.toList) = [] ↔
      collapseWhitespace body.toList = [] := by
    rw [hnil, htake, ← hnil]
  simp only [hempty, cutSnippet_congr htake]

omit [Extern] in
/-- A blank body has no excerpt, not an empty one. -/
theorem blank_body_no_snippet : letI := Extern.ascii
    extractBodySnippet some "  " ≠
      some (String.ofList (cutSnippet (collapseWhitespace "  ".toList))) := by
  let := Extern.ascii
  decide +kernel

end Dinero
