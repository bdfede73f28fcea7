import Dinero.Cleanup
import Dinero.TemplateHash

/-!
# Dinero.SpanRanges

Where a value stands in a message, whatever its case.

The search is made in a lowercased copy, and the bytes it finds there are cut out
of the message.  A copy of another length is not searched; one of the same length
may still have its characters at other bytes.
-/

namespace Dinero

variable [Extern]

/-- `find_ignore_case`: the first byte and the number of bytes. -/
def findRange (haystack needle : String) : Option (Nat × Nat) :=
  if needle = "" then none
  else
    let hay := haystack.toList
    let hayLower := (toLowercase haystack).toList
    let needleLower := (toLowercase needle).toList
    if utf8Len hayLower ≠ utf8Len hay ∨ utf8Len needleLower ≠ utf8Len needle.toList then
      (beforeFirst needle.toList hay).map fun before => (utf8Len before, utf8Len needle.toList)
    else
      (beforeFirst needleLower hayLower).map fun before => (utf8Len before, utf8Len needleLower)

/-- The range cuts `span` out of the text, between characters. -/
structure Cuts (text : List Char) (range : Nat × Nat) (before span after : List Char) : Prop where
  text : text = before ++ span ++ after
  start : utf8Len before = range.1
  length : utf8Len span = range.2

section Beginnings

omit [Extern]

/-- Two beginnings of one list are one if they weigh the same. -/
theorem eq_of_sum_eq {α : Type} {w : α → Nat} (hw : ∀ a, 0 < w a) {s t s' t' : List α}
    (h : s ++ s' = t ++ t') (hsum : (s.map w).sum = (t.map w).sum) : s = t := by
  induction s generalizing t with
  | nil =>
    cases t with
    | nil => rfl
    | cons b t =>
      have := hw b
      rw [List.map_nil, List.sum_nil, List.map_cons, List.sum_cons] at hsum
      omega
  | cons a s ih =>
    cases t with
    | nil =>
      have := hw a
      rw [List.map_nil, List.sum_nil, List.map_cons, List.sum_cons] at hsum
      omega
    | cons b t =>
      rw [List.cons_append, List.cons_append, List.cons.injEq] at h
      obtain ⟨rfl, h⟩ := h
      rw [List.map_cons, List.map_cons, List.sum_cons, List.sum_cons] at hsum
      rw [ih h (by omega)]

theorem eq_of_utf8Len_eq {s t s' t' : List Char} (h : s ++ s' = t ++ t')
    (hlength : utf8Len s = utf8Len t) : s = t :=
  eq_of_sum_eq Char.utf8Size_pos h hlength

/-- A property holds of all if it passes from those before to the next. -/
theorem forall_of_before {α : Type} {P : α → Prop} {l : List α}
    (h : ∀ s a t, l = s ++ a :: t → (∀ x ∈ s, P x) → P a) : ∀ a ∈ l, P a := by
  have hstart : ∀ t s, l = s ++ t → ∀ x ∈ s, P x := by
    intro t s
    induction s using List.reverseRecOn generalizing t with
    | nil => simp
    | append_singleton s a ih =>
      intro hs
      rw [List.append_assoc, List.singleton_append] at hs
      have hbefore := ih (a :: t) hs
      simpa [or_imp, forall_and] using ⟨hbefore, h s a t hs hbefore⟩
  exact hstart [] l (List.append_nil l).symm

end Beginnings

/-! ## lower case -/

/-- The Unicode tables, as far as ranges depend on them. -/
class LowercaseTables [Extern] where
  cases : CaseTables
  toLowercase_eq : ∀ s : String, toLowercase s = String.ofList (cases.lower [] s.toList)
  /-- One character has a lower case of more than one. -/
  single : ∀ c, c ≠ 'İ' → ∃ d, cases.lowercase c = [d]
  dotted : cases.lowercase 'İ' = ['i', '\u0307']
  fixed : ∀ c, ∀ d ∈ cases.lowercase c, cases.lowercase d = [d]
  sigma : cases.lowercase 'Σ' = ['σ']
  finalSigma : cases.lowercase 'ς' = ['ς']

section Lower

omit [Extern]

namespace CaseTables

/-- The lower case of a part of a text, between what stands before it, backwards, and what
stands behind it. -/
def lowerWithin (T : CaseTables) : List Char → List Char → List Char → List Char
  | _, [], _ => []
  | before, c :: s, after =>
    (if c = 'Σ' then [T.sigma before (s ++ after)] else T.lowercase c) ++
      T.lowerWithin (c :: before) s after

variable (T : CaseTables)

theorem lower_append (before s t : List Char) :
    T.lower before (s ++ t) = T.lowerWithin before s t ++ T.lower (s.reverse ++ before) t := by
  induction s generalizing before with
  | nil => rfl
  | cons c s ih =>
    rw [List.cons_append, lower, lowerWithin, ih, List.reverse_cons, List.append_assoc,
      List.append_assoc, List.singleton_append]

theorem lowerWithin_append (before s t after : List Char) :
    T.lowerWithin before (s ++ t) after =
      T.lowerWithin before s (t ++ after) ++ T.lowerWithin (s.reverse ++ before) t after := by
  induction s generalizing before with
  | nil => rfl
  | cons c s ih =>
    rw [List.cons_append, lowerWithin, lowerWithin, ih, List.reverse_cons, List.append_assoc,
      List.append_assoc, List.append_assoc, List.singleton_append]

theorem lowerWithin_nil (before s : List Char) : T.lowerWithin before s [] = T.lower before s := by
  induction s generalizing before with
  | nil => rfl
  | cons c s ih => rw [lowerWithin, lower, ih, List.append_nil]

/-- Lowercasing keeps the number of bytes. -/
def Keeps (c : Char) : Prop :=
  utf8Len (T.lowercase c) = c.utf8Size

instance (c : Char) : Decidable (T.Keeps c) :=
  inferInstanceAs (Decidable (utf8Len (T.lowercase c) = c.utf8Size))

end CaseTables

end Lower

/-! ### sigmas -/

section Sigma

omit [Extern]

namespace CaseTables

variable {T : CaseTables}

/-- `s` ends with a letter. -/
def EndsCased (T : CaseTables) (s : List Char) : Prop :=
  ∃ c ∈ s.getLast?, T.isCased c = true ∧ T.isCaseIgnorable c = false

/-- What a capital sigma makes of a text: it stands behind no letter, or it ends a word, and
then the lowercased text behind that letter occurs earlier too. -/
def SigmasStand (T : CaseTables) (text : List Char) : Prop :=
  ∀ word ignored after, text = word ++ ignored ++ 'Σ' :: after → T.EndsCased word →
    (∀ c ∈ ignored, T.isCaseIgnorable c = true) →
    T.caseIgnorableThenCased after = false ∧
      ∃ earlier behind, behind ≠ [] ∧
        T.lower [] text = earlier ++ (T.lower [] text).drop word.length ++ behind

theorem cased_append_of_ignorable {s : List Char} (h : ∀ c ∈ s, T.isCaseIgnorable c = true)
    (t : List Char) : T.caseIgnorableThenCased (s ++ t) = T.caseIgnorableThenCased t := by
  induction s with
  | nil => rfl
  | cons c s ih =>
    rw [List.forall_mem_cons] at h
    rw [List.cons_append, cased_cons, h.1, if_pos rfl, ih h.2]

theorem cased_of_ignorable {s : List Char} (h : ∀ c ∈ s, T.isCaseIgnorable c = true) :
    T.caseIgnorableThenCased s = false := by
  have := cased_append_of_ignorable h []
  rwa [List.append_nil] at this

theorem cased_append_cons {s : List Char} (h : ∀ c ∈ s, T.isCaseIgnorable c = true) {c : Char}
    (hc : T.isCaseIgnorable c = false) (t : List Char) :
    T.caseIgnorableThenCased (s ++ c :: t) = T.isCased c := by
  rw [cased_append_of_ignorable h, cased_cons, hc]
  rfl

/-- The first character that is not ignored decides. -/
theorem ignorable_or_decided (T : CaseTables) (s : List Char) :
    (∀ c ∈ s, T.isCaseIgnorable c = true) ∨
      ∃ p c t, s = p ++ c :: t ∧ (∀ x ∈ p, T.isCaseIgnorable x = true) ∧
        T.isCaseIgnorable c = false := by
  induction s with
  | nil => exact .inl (by simp)
  | cons c s ih =>
    cases hc : T.isCaseIgnorable c with
    | false => exact .inr ⟨[], c, s, rfl, by simp, hc⟩
    | true =>
      obtain h | ⟨p, d, t, rfl, hp, hd⟩ := ih
      · exact .inl (List.forall_mem_cons.mpr ⟨hc, h⟩)
      · exact .inr ⟨c :: p, d, t, rfl, List.forall_mem_cons.mpr ⟨hc, hp⟩, hd⟩

/-- A longer text is decided the same way, unless all of the shorter is ignored. -/
theorem cased_append (T : CaseTables) (s t : List Char) :
    (∀ c ∈ s, T.isCaseIgnorable c = true) ∨
      T.caseIgnorableThenCased (s ++ t) = T.caseIgnorableThenCased s := by
  obtain h | ⟨p, c, r, rfl, hp, hc⟩ := ignorable_or_decided T s
  · exact .inl h
  · refine .inr ?_
    rw [List.append_assoc, List.cons_append, cased_append_cons hp hc, cased_append_cons hp hc]

theorem cased_of_append_false {s t : List Char} (h : T.caseIgnorableThenCased (s ++ t) = false) :
    T.caseIgnorableThenCased s = false := by
  obtain hs | hs := cased_append T s t
  · exact cased_of_ignorable hs
  · rw [← hs, h]

theorem EndsCased.cased {word : List Char} (h : T.EndsCased word) :
    T.caseIgnorableThenCased word.reverse = true := by
  obtain ⟨c, hc, hcased, hignorable⟩ := h
  obtain ⟨s, rfl⟩ := List.getLast?_eq_some_iff.mp hc
  rw [List.reverse_append, List.reverse_singleton, List.singleton_append, cased_cons, hignorable,
    hcased]
  rfl

/-- The letter a text read backwards finds ends a word. -/
theorem exists_word {before : List Char} (h : T.caseIgnorableThenCased before.reverse = true) :
    ∃ word ignored, before = word ++ ignored ∧ T.EndsCased word ∧
      ∀ c ∈ ignored, T.isCaseIgnorable c = true := by
  obtain hall | ⟨p, c, t, hsplit, hp, hc⟩ := ignorable_or_decided T before.reverse
  · rw [cased_of_ignorable hall] at h
    cases h
  · rw [hsplit, cased_append_cons hp hc] at h
    refine ⟨t.reverse ++ [c], p.reverse, ?_, ⟨c, by simp, h, hc⟩, fun x hx =>
      hp x (List.mem_reverse.mp hx)⟩
    rw [← List.reverse_reverse before, hsplit]
    simp

end CaseTables

end Sigma

section Tables

variable [LowercaseTables]

open LowercaseTables (cases)

/-- Wherever it stands, a character has the lower case it has by itself, or is a sigma. -/
theorem block_cases (c : Char) (before after : List Char) :
    (if c = 'Σ' then [cases.sigma before after] else cases.lowercase c) = cases.lowercase c ∨
      c = 'Σ' ∧ (if c = 'Σ' then [cases.sigma before after] else cases.lowercase c) = ['ς'] := by
  by_cases hc : c = 'Σ'
  · subst hc
    rw [if_pos rfl, CaseTables.sigma, LowercaseTables.sigma]
    split
    · exact .inr ⟨rfl, rfl⟩
    · exact .inl rfl
  · exact .inl (if_neg hc)

theorem lowercase_of_mem_lowerWithin {d : Char} {s : List Char} (before after : List Char)
    (h : d ∈ cases.lowerWithin before s after) : cases.lowercase d = [d] := by
  induction s generalizing before with
  | nil => simp [CaseTables.lowerWithin] at h
  | cons c s ih =>
    rw [CaseTables.lowerWithin, List.mem_append] at h
    obtain h | h := h
    · obtain hb | ⟨-, hb⟩ := block_cases c before (s ++ after)
      · exact LowercaseTables.fixed c d (hb ▸ h)
      · rw [hb, List.mem_singleton] at h
        rw [h, LowercaseTables.finalSigma]
    · exact ih _ h

/-- A text that is lower case already is its own lower case. -/
theorem lower_of_fixed {s : List Char} (h : ∀ c ∈ s, cases.lowercase c = [c])
    (before : List Char) : cases.lower before s = s := by
  induction s generalizing before with
  | nil => rfl
  | cons c s ih =>
    rw [List.forall_mem_cons] at h
    have hc : c ≠ 'Σ' := by
      rintro rfl
      simp [LowercaseTables.sigma] at h
    rw [CaseTables.lower, if_neg hc, h.1, ih h.2, List.singleton_append]

theorem toLowercase_toList (s : String) : (toLowercase s).toList = cases.lower [] s.toList := by
  rw [LowercaseTables.toLowercase_eq, String.toList_ofList]

theorem toLowercase_lowerWithin (before s after : List Char) :
    toLowercase (String.ofList (cases.lowerWithin before s after)) =
      String.ofList (cases.lowerWithin before s after) := by
  rw [LowercaseTables.toLowercase_eq, String.toList_ofList,
    lower_of_fixed fun _ => lowercase_of_mem_lowerWithin before after]

theorem length_lowerWithin (before s after : List Char) :
    (cases.lowerWithin before s after).length = (s.flatMap cases.lowercase).length := by
  induction s generalizing before with
  | nil => rfl
  | cons c s ih =>
    rw [CaseTables.lowerWithin, List.flatMap_cons, List.length_append, List.length_append, ih]
    obtain hb | ⟨rfl, hb⟩ := block_cases c before (s ++ after)
    · rw [hb]
    · rw [hb, LowercaseTables.sigma]
      rfl

/-- The two small sigmas take as many bytes. -/
theorem utf8Len_lowerWithin (before s after : List Char) :
    utf8Len (cases.lowerWithin before s after) = utf8Len (s.flatMap cases.lowercase) := by
  induction s generalizing before with
  | nil => rfl
  | cons c s ih =>
    rw [CaseTables.lowerWithin, List.flatMap_cons, utf8Len_append, utf8Len_append, ih]
    obtain hb | ⟨rfl, hb⟩ := block_cases c before (s ++ after)
    · rw [hb]
    · rw [hb, LowercaseTables.sigma]
      rfl

theorem length_lowercase_pos (c : Char) : 0 < (cases.lowercase c).length := by
  by_cases hc : c = 'İ'
  · simp [hc, LowercaseTables.dotted]
  · obtain ⟨d, hd⟩ := LowercaseTables.single c hc
    simp [hd]

/-- Two beginnings of one text with lower cases of one length are one. -/
theorem eq_of_lowercase_length_eq {s t s' t' : List Char} (h : s ++ s' = t ++ t')
    (hlength : (s.flatMap cases.lowercase).length = (t.flatMap cases.lowercase).length) :
    s = t := by
  rw [List.length_flatMap, List.length_flatMap] at hlength
  exact eq_of_sum_eq length_lowercase_pos h hlength

/-! ### characters that keep their bytes -/

theorem Keeps.lowercase_eq {c : Char} (h : cases.Keeps c) : ∃ d, cases.lowercase c = [d] := by
  refine LowercaseTables.single c ?_
  rintro rfl
  rw [CaseTables.Keeps, LowercaseTables.dotted] at h
  exact absurd h (by decide)

theorem length_flatMap_of_keeps {s : List Char} (h : ∀ c ∈ s, cases.Keeps c) :
    (s.flatMap cases.lowercase).length = s.length := by
  induction s with
  | nil => rfl
  | cons c s ih =>
    rw [List.forall_mem_cons] at h
    obtain ⟨d, hd⟩ := Keeps.lowercase_eq h.1
    rw [List.flatMap_cons, List.length_append, ih h.2, hd, List.length_cons, List.length_cons,
      List.length_nil]
    omega

theorem utf8Len_flatMap_of_keeps {s : List Char} (h : ∀ c ∈ s, cases.Keeps c) :
    utf8Len (s.flatMap cases.lowercase) = utf8Len s := by
  induction s with
  | nil => rfl
  | cons c s ih =>
    rw [List.forall_mem_cons] at h
    rw [List.flatMap_cons, utf8Len_append, ih h.2, h.1, utf8Len_cons]

/-- A part between characters that keep their bytes takes as many. -/
theorem utf8Len_lowerWithin_of_keeps {s : List Char} (h : ∀ c ∈ s, cases.Keeps c)
    (before after : List Char) : utf8Len (cases.lowerWithin before s after) = utf8Len s := by
  rw [utf8Len_lowerWithin, utf8Len_flatMap_of_keeps h]

theorem length_lowerWithin_of_keeps {s : List Char} (h : ∀ c ∈ s, cases.Keeps c)
    (before after : List Char) : (cases.lowerWithin before s after).length = s.length := by
  rw [length_lowerWithin, length_flatMap_of_keeps h]

theorem lower_parts (a s b : List Char) :
    cases.lower [] (a ++ s ++ b) = cases.lowerWithin [] a (s ++ b) ++
      cases.lowerWithin a.reverse s b ++ cases.lower (s.reverse ++ a.reverse) b := by
  rw [CaseTables.lower_append, CaseTables.lowerWithin_append, List.append_nil, List.reverse_append,
    List.append_nil]

/-- What stands around a part matters to its sigmas only. -/
theorem lowerWithin_eq_lower {p before s after : List Char}
    (h : ∀ t r, s = t ++ 'Σ' :: r → cases.sigma (t.reverse ++ (p ++ before)) (r ++ after) =
      cases.sigma (t.reverse ++ p) r) :
    cases.lowerWithin (p ++ before) s after = cases.lower p s := by
  induction s generalizing p with
  | nil => rfl
  | cons c s ih =>
    have hnext := ih (p := c :: p) fun t r hs => by
      have := h (c :: t) r (by rw [hs, List.cons_append])
      simpa using this
    rw [List.cons_append] at hnext
    rw [CaseTables.lowerWithin, CaseTables.lower, hnext]
    split
    · next hc =>
      have hsigma : cases.sigma (p ++ before) (s ++ after) = cases.sigma p s := by
        simpa using h [] s (by rw [hc, List.nil_append])
      rw [hsigma]
    · rfl

/-- A word that ends before a part, or reaches into it no further than letters do. -/
theorem exists_append_of_endsCased {a t word ignored : List Char}
    (h : a ++ t = word ++ ignored) (hword : cases.EndsCased word)
    (ht : ∀ c ∈ t, cases.isCaseIgnorable c = true) : ∃ more, a = word ++ more := by
  obtain ⟨more, rfl, hsplit⟩ | ⟨more, rfl, -⟩ := List.append_eq_append_iff.mp h
  · obtain ⟨c, hc, -, hignorable⟩ := hword
    rcases List.eq_nil_or_concat more with rfl | ⟨more, d, rfl⟩
    · exact ⟨[], by simp⟩
    · have hd : d ∈ t := by simp [hsplit]
      obtain rfl : d = c := by simpa using hc
      rw [ht d hd] at hignorable
      cases hignorable
  · exact ⟨more, rfl⟩

/-- The part found first is in lower case what it is by itself. -/
theorem lowerWithin_of_sigmasStand {a s b : List Char} (hkeep : ∀ c ∈ a, cases.Keeps c)
    (hstand : cases.SigmasStand (a ++ s ++ b))
    (hfirst : ∀ earlier behind, cases.lower [] (a ++ s ++ b) =
      earlier ++ cases.lowerWithin a.reverse s b ++ behind → a.length ≤ earlier.length) :
    cases.lowerWithin a.reverse s b = cases.lower [] s := by
  rw [← List.nil_append a.reverse]
  refine lowerWithin_eq_lower fun t r hs => ?_
  rw [List.nil_append, List.append_nil, CaseTables.sigma, CaseTables.sigma]
  cases hcased : cases.caseIgnorableThenCased (t.reverse ++ a.reverse) with
  | false => rw [CaseTables.cased_of_append_false hcased, Bool.false_and, Bool.false_and]
  | true =>
    have hbefore : cases.caseIgnorableThenCased (a ++ t).reverse = true := by
      rw [List.reverse_append, hcased]
    obtain ⟨word, ignored, hsplit, hword, hignored⟩ := CaseTables.exists_word hbefore
    have htext : a ++ s ++ b = word ++ ignored ++ 'Σ' :: (r ++ b) := by
      rw [← hsplit, hs]
      simp
    obtain ⟨hafter, earlier, behind, hne, htwice⟩ :=
      hstand word ignored (r ++ b) htext hword hignored
    have hshort : cases.caseIgnorableThenCased t.reverse = true := by
      obtain ht | ht := CaseTables.cased_append cases t.reverse a.reverse
      · -- then the word ends before the part, which is found earlier
        exfalso
        obtain ⟨more, hmore⟩ := exists_append_of_endsCased hsplit hword fun c hc =>
          ht c (List.mem_reverse.mpr hc)
        have hdrop : (cases.lower [] (a ++ s ++ b)).drop word.length =
            (cases.lowerWithin [] a (s ++ b)).drop word.length ++
              cases.lowerWithin a.reverse s b ++ cases.lower (s.reverse ++ a.reverse) b := by
          rw [lower_parts, List.append_assoc, List.drop_append_of_le_length, List.append_assoc]
          rw [length_lowerWithin_of_keeps hkeep, hmore]
          simp
        have hlength := congrArg List.length htwice
        have hearlier := hfirst (earlier ++ (cases.lowerWithin [] a (s ++ b)).drop word.length)
          (cases.lower (s.reverse ++ a.reverse) b ++ behind) (by
            rw [htwice, hdrop]
            simp only [List.append_assoc])
        have hbehind := List.length_pos_iff.mpr hne
        have hinside : word.length ≤ (cases.lower [] (a ++ s ++ b)).length := by
          rw [lower_parts, List.append_assoc, List.length_append, length_lowerWithin_of_keeps hkeep,
            hmore, List.length_append]
          omega
        have ha : a.length = word.length + more.length := by rw [hmore, List.length_append]
        rw [List.length_append, List.length_append, List.length_drop] at hlength
        rw [List.length_append, List.length_drop, length_lowerWithin_of_keeps hkeep] at hearlier
        omega
      · rw [← ht, hcased]
    rw [hshort, hafter, CaseTables.cased_of_append_false hafter]

end Tables

/-! ## searching -/

section Search

omit [Extern]

theorem beforeFirst_eq_some {needle s before : List Char}
    (h : beforeFirst needle s = some before) : ∃ after, s = before ++ needle ++ after := by
  induction s generalizing before with
  | nil =>
    rw [beforeFirst] at h
    split at h
    · next hnil =>
      obtain rfl := Option.some.inj h
      exact ⟨[], by simp [hnil]⟩
    · cases h
  | cons c s ih =>
    rw [beforeFirst] at h
    split at h
    · next hstart =>
      obtain rfl := Option.some.inj h
      obtain ⟨after, hafter⟩ := hstart
      exact ⟨after, by simp [hafter]⟩
    · obtain ⟨rest, hrest, rfl⟩ := Option.map_eq_some_iff.mp h
      obtain ⟨after, hafter⟩ := ih hrest
      exact ⟨after, by simp [hafter]⟩

theorem beforeFirst_append (needle rest : List Char) :
    beforeFirst needle (needle ++ rest) = some [] := by
  cases hs : needle ++ rest with
  | nil => simp [beforeFirst, (List.append_eq_nil_iff.mp hs).1]
  | cons c s => rw [beforeFirst, if_pos (hs ▸ List.prefix_append needle rest)]

/-- What stands somewhere is found there or earlier. -/
theorem exists_beforeFirst (needle earlier behind : List Char) :
    ∃ before, beforeFirst needle (earlier ++ needle ++ behind) = some before ∧
      before.length ≤ earlier.length := by
  induction earlier with
  | nil => exact ⟨[], by rw [List.nil_append, beforeFirst_append], le_rfl⟩
  | cons c earlier ih =>
    obtain ⟨before, hbefore, hlength⟩ := ih
    rw [List.cons_append, List.cons_append, beforeFirst, hbefore]
    split
    · exact ⟨[], rfl, Nat.zero_le _⟩
    · exact ⟨c :: before, rfl, by simpa using hlength⟩

theorem splitAtByte_append (s t : List Char) : splitAtByte (utf8Len s) (s ++ t) = (s, t) := by
  induction s with
  | nil => cases t <;> simp [splitAtByte]
  | cons c s ih =>
    have hpos := c.utf8Size_pos
    rw [List.cons_append, splitAtByte, if_neg (by rw [utf8Len_cons]; omega), utf8Len_cons,
      Nat.add_sub_cancel_left, ih]

/-- `str::is_char_boundary`. -/
def isCharBoundary : Nat → List Char → Bool
  | n, [] => n = 0
  | n, c :: s => n = 0 || (c.utf8Size ≤ n && isCharBoundary (n - c.utf8Size) s)

theorem isCharBoundary_utf8Len (s t : List Char) : isCharBoundary (utf8Len s) (s ++ t) = true := by
  induction s with
  | nil => cases t <;> simp [isCharBoundary]
  | cons c s ih =>
    rw [List.cons_append, isCharBoundary, utf8Len_cons, Nat.add_sub_cancel_left, ih]
    simp

end Search

/-- The spans a range cuts out are those the search hands on. -/
theorem findIgnoreCase_of_cuts {haystack needle : String} {range : Nat × Nat}
    {before span after : List Char} (h : findRange haystack needle = some range)
    (hcuts : Cuts haystack.toList range before span after) :
    findIgnoreCase haystack needle = some (before, span, after) := by
  have hsplit : findIgnoreCase haystack needle = (findRange haystack needle).map fun range =>
      let r := splitAtByte range.1 haystack.toList
      let t := splitAtByte range.2 r.2
      (r.1, t.1, t.2) := by
    rw [findIgnoreCase, findRange]
    split
    · rfl
    · rfl
  rw [hsplit, h, Option.map_some, hcuts.text, ← hcuts.start, ← hcuts.length, List.append_assoc,
    splitAtByte_append]
  dsimp only
  rw [splitAtByte_append]

/-- `synthesize_span_regex` cuts the message where the search says, and panics inside a
character. -/
def spanPanics (source needle : String) : Bool :=
  (findRange source needle).any fun range =>
    !(isCharBoundary range.1 source.toList && isCharBoundary (range.1 + range.2) source.toList)

/-- What is found is cut out between characters, and is the needle in lower case. -/
def SoundSearch (haystack needle : String) : Prop :=
  ∀ range, findRange haystack needle = some range → ∃ before span after,
    Cuts haystack.toList range before span after ∧
      toLowercase (String.ofList span) = toLowercase needle

section Soundness

variable [LowercaseTables]

open LowercaseTables (cases)

/-- What one part of a message is in lower case is searched for as it is. -/
theorem findRange_part {haystack : String} {a s b before : List Char}
    (htext : haystack.toList = a ++ s ++ b)
    (hlength : utf8Len (toLowercase haystack).toList = utf8Len haystack.toList)
    (hne : cases.lowerWithin a.reverse s b ≠ [])
    (hfound : beforeFirst (cases.lowerWithin a.reverse s b) (cases.lower [] (a ++ s ++ b)) =
      some before) :
    findRange haystack (String.ofList (cases.lowerWithin a.reverse s b)) =
      some (utf8Len before, utf8Len (cases.lowerWithin a.reverse s b)) := by
  have hneedle : String.ofList (cases.lowerWithin a.reverse s b) ≠ "" := fun h =>
    hne (String.ofList_inj.mp h)
  have hcases : ¬ (utf8Len (toLowercase haystack).toList ≠ utf8Len haystack.toList ∨
      utf8Len (toLowercase (String.ofList (cases.lowerWithin a.reverse s b))).toList ≠
        utf8Len (String.ofList (cases.lowerWithin a.reverse s b)).toList) := by
    rw [toLowercase_lowerWithin]
    simp [hlength]
  rw [findRange, if_neg hneedle]
  dsimp only
  rw [if_neg hcases, toLowercase_lowerWithin, String.toList_ofList, toLowercase_toList, htext,
    hfound]
  rfl

/-- A part whose search is sound is its needle in lower case, cut out of the message. -/
theorem SoundSearch.part {haystack : String} {a s b before : List Char}
    (htext : haystack.toList = a ++ s ++ b)
    (hlength : utf8Len (toLowercase haystack).toList = utf8Len haystack.toList)
    (hs : s ≠ [])
    (hfound : beforeFirst (cases.lowerWithin a.reverse s b) (cases.lower [] (a ++ s ++ b)) =
      some before)
    (h : ∀ needle, needle ≠ "" → SoundSearch haystack needle) :
    ∃ start span after, Cuts haystack.toList
        (utf8Len before, utf8Len (cases.lowerWithin a.reverse s b)) start span after ∧
      cases.lower [] span = cases.lowerWithin a.reverse s b := by
  have hne : cases.lowerWithin a.reverse s b ≠ [] := by
    rw [← List.length_pos_iff, length_lowerWithin, List.length_flatMap]
    cases s with
    | nil => exact absurd rfl hs
    | cons c s =>
      have := length_lowercase_pos c
      rw [List.map_cons, List.sum_cons]
      omega
  obtain ⟨start, span, after, hcuts, hlower⟩ := h _ (fun h => hne (String.ofList_inj.mp h)) _
    (findRange_part htext hlength hne hfound)
  refine ⟨start, span, after, hcuts, ?_⟩
  rwa [toLowercase_lowerWithin, LowercaseTables.toLowercase_eq, String.toList_ofList,
    String.ofList_inj] at hlower

/-- A beginning of a message whose searches are sound is found at the start. -/
theorem SoundSearch.beginning {haystack : String} {s b : List Char}
    (htext : haystack.toList = s ++ b)
    (hlength : utf8Len (toLowercase haystack).toList = utf8Len haystack.toList)
    (hs : s ≠ []) (h : ∀ needle, needle ≠ "" → SoundSearch haystack needle) :
    cases.lower [] s = cases.lowerWithin [] s b ∧
      utf8Len s = utf8Len (cases.lowerWithin [] s b) := by
  have hparts : haystack.toList = [] ++ s ++ b := by simp [htext]
  have hfound : beforeFirst (cases.lowerWithin [].reverse s b)
      (cases.lower [] ([] ++ s ++ b)) = some [] := by
    rw [lower_parts, CaseTables.lowerWithin, List.nil_append]
    exact beforeFirst_append _ _
  obtain ⟨start, span, after, hcuts, hlower⟩ := SoundSearch.part hparts hlength hs hfound h
  rw [List.reverse_nil] at hcuts hlower
  have htext' : start ++ (span ++ after) = [] ++ (s ++ b) := by
    rw [← List.append_assoc, ← hcuts.text, htext, List.nil_append]
  obtain rfl := eq_of_utf8Len_eq htext' hcuts.start
  obtain rfl : span = s := by
    refine eq_of_lowercase_length_eq (List.append_cancel_left htext') ?_
    rw [← length_lowerWithin [] span [], CaseTables.lowerWithin_nil, hlower, length_lowerWithin]
  exact ⟨hlower, hcuts.length⟩

/-- An ending that stands nowhere else in lower case is found where it stands. -/
theorem SoundSearch.ending {haystack : String} {a s : List Char}
    (htext : haystack.toList = a ++ s)
    (hlength : utf8Len (toLowercase haystack).toList = utf8Len haystack.toList)
    (hkeep : ∀ c ∈ haystack.toList, cases.Keeps c) (hs : s ≠ [])
    (honce : ∀ earlier behind, cases.lower [] haystack.toList =
      earlier ++ cases.lowerWithin a.reverse s [] ++ behind → behind = [])
    (h : ∀ needle, needle ≠ "" → SoundSearch haystack needle) :
    cases.lower [] s = cases.lowerWithin a.reverse s [] := by
  have hparts : haystack.toList = a ++ s ++ [] := by rw [htext, List.append_nil]
  have hlower := lower_parts a s []
  rw [CaseTables.lower, List.append_nil, List.append_nil, List.append_nil] at hlower
  have hfound : beforeFirst (cases.lowerWithin a.reverse s [])
      (cases.lower [] (a ++ s ++ [])) = some (cases.lowerWithin [] a s) := by
    obtain ⟨earlier, hfirst, -⟩ :=
      exists_beforeFirst (cases.lowerWithin a.reverse s []) (cases.lowerWithin [] a s) []
    rw [List.append_nil, ← hlower] at hfirst
    obtain ⟨behind, hbehind⟩ := beforeFirst_eq_some hfirst
    have hnil := honce earlier behind (by rw [htext, hbehind])
    rw [hnil, List.append_nil, hlower] at hbehind
    rw [List.append_nil, hfirst, List.append_cancel_right hbehind]
  have hkeepA : ∀ c ∈ a, cases.Keeps c := fun c hc => hkeep c (by simp [htext, hc])
  have hkeepS : ∀ c ∈ s, cases.Keeps c := fun c hc => hkeep c (by simp [htext, hc])
  obtain ⟨start, span, after, hcuts, hspan⟩ := SoundSearch.part hparts hlength hs hfound h
  have htext' : start ++ (span ++ after) = a ++ s := by
    rw [← List.append_assoc, ← hcuts.text, htext]
  obtain rfl : start = a := by
    refine eq_of_utf8Len_eq htext' ?_
    rw [hcuts.start, utf8Len_lowerWithin_of_keeps hkeepA]
  have hrest : span ++ after = s ++ [] := by
    rw [List.append_cancel_left htext', List.append_nil]
  obtain rfl : span = s := by
    refine eq_of_utf8Len_eq hrest ?_
    rw [hcuts.length, utf8Len_lowerWithin_of_keeps hkeepS]
  exact hspan

/-- A first character that takes other bytes in lower case is found cut. -/
theorem keeps_of_sound {haystack : String}
    (hlength : utf8Len (toLowercase haystack).toList = utf8Len haystack.toList)
    (h : ∀ needle, needle ≠ "" → SoundSearch haystack needle) :
    ∀ c ∈ haystack.toList, cases.Keeps c := by
  refine forall_of_before fun s c t htext hs => ?_
  have hparts : haystack.toList = (s ++ [c]) ++ t := by simp [htext]
  have hbytes := (SoundSearch.beginning hparts hlength (by simp) h).2
  rw [utf8Len_lowerWithin, List.flatMap_append, utf8Len_append, utf8Len_append,
    utf8Len_flatMap_of_keeps hs, List.flatMap_cons, List.flatMap_nil, List.append_nil,
    utf8Len_cons, utf8Len_nil] at hbytes
  rw [CaseTables.Keeps]
  omega

/-- The lower case of a part with a sigma in it, up to the sigma. -/
theorem lowerWithin_sigma (before s after rest : List Char) :
    cases.lowerWithin before (s ++ 'Σ' :: after) rest =
      cases.lowerWithin before s ('Σ' :: after ++ rest) ++
        cases.sigma (s.reverse ++ before) (after ++ rest) ::
          cases.lowerWithin ('Σ' :: (s.reverse ++ before)) after rest := by
  rw [CaseTables.lowerWithin_append, CaseTables.lowerWithin, if_pos rfl, List.singleton_append]

/-- Two parts with a sigma in the same place lower it alike. -/
theorem sigma_eq_of_lowerWithin_eq {s before before' after after' rest rest' : List Char}
    (h : cases.lowerWithin before (s ++ 'Σ' :: after) rest =
      cases.lowerWithin before' (s ++ 'Σ' :: after') rest') :
    cases.sigma (s.reverse ++ before) (after ++ rest) =
      cases.sigma (s.reverse ++ before') (after' ++ rest') := by
  rw [lowerWithin_sigma, lowerWithin_sigma] at h
  have hlength : (cases.lowerWithin before s ('Σ' :: after ++ rest)).length =
      (cases.lowerWithin before' s ('Σ' :: after' ++ rest')).length := by
    rw [length_lowerWithin, length_lowerWithin]
  exact (List.cons.inj (List.append_inj h hlength).2).1

/-- The sigmas of a message whose every search is sound. -/
theorem sigmasStand_of_sound {haystack : String}
    (hlength : utf8Len (toLowercase haystack).toList = utf8Len haystack.toList)
    (hkeep : ∀ c ∈ haystack.toList, cases.Keeps c)
    (h : ∀ needle, needle ≠ "" → SoundSearch haystack needle) :
    cases.SigmasStand haystack.toList := by
  intro word ignored after htext hword hignored
  have hcased : cases.caseIgnorableThenCased (ignored.reverse ++ word.reverse) = true := by
    rw [CaseTables.cased_append_of_ignorable fun c hc => hignored c (List.mem_reverse.mp hc),
      hword.cased]
  have hafter : cases.caseIgnorableThenCased after = false := by
    -- the text up to the sigma is searched for, and by itself ends in a final sigma
    have hparts : haystack.toList = (word ++ ignored ++ ['Σ']) ++ after := by simp [htext]
    have hlower := (SoundSearch.beginning hparts hlength (by simp) h).1
    rw [← CaseTables.lowerWithin_nil] at hlower
    have hsigma := sigma_eq_of_lowerWithin_eq hlower
    rw [List.reverse_append, List.append_nil, CaseTables.sigma, CaseTables.sigma, hcased] at hsigma
    cases hafter : cases.caseIgnorableThenCased after with
    | false => rfl
    | true =>
      rw [List.append_nil, List.nil_append, hafter,
        CaseTables.cased_of_ignorable (by simp)] at hsigma
      exact absurd hsigma (by decide)
  refine ⟨hafter, ?_⟩
  by_contra honce
  -- the text behind the word is searched for, and by itself has no final sigma
  have hparts : haystack.toList = word ++ (ignored ++ 'Σ' :: after) := by simp [htext]
  have hdrop : (cases.lower [] haystack.toList).drop word.length =
      cases.lowerWithin word.reverse (ignored ++ 'Σ' :: after) [] := by
    rw [hparts, CaseTables.lower_append, ← CaseTables.lowerWithin_nil, List.append_nil]
    refine List.drop_left' ?_
    rw [length_lowerWithin_of_keeps fun c hc => hkeep c (by simp [htext, hc])]
  rw [hdrop] at honce
  have hlower := SoundSearch.ending hparts hlength hkeep (by simp) (fun earlier behind htwice => by
    by_contra hne
    exact honce ⟨earlier, behind, hne, htwice⟩) h
  rw [← CaseTables.lowerWithin_nil] at hlower
  have hsigma := sigma_eq_of_lowerWithin_eq hlower
  rw [CaseTables.sigma, CaseTables.sigma, List.append_nil, List.append_nil, hcased, hafter,
    CaseTables.cased_of_ignorable fun c hc => hignored c (List.mem_reverse.mp hc)] at hsigma
  exact absurd hsigma (by decide)

/-- A lowercased text's parts are those of the text. -/
theorem exists_parts {text before found behind : List Char}
    (hkeep : ∀ c ∈ text, cases.Keeps c)
    (h : cases.lower [] text = before ++ found ++ behind) :
    ∃ a s b, text = a ++ s ++ b ∧ before = cases.lowerWithin [] a (s ++ b) ∧
      found = cases.lowerWithin a.reverse s b := by
  have hlength : (cases.lower [] text).length = text.length := by
    rw [← CaseTables.lowerWithin_nil, length_lowerWithin_of_keeps hkeep]
  rw [h, List.length_append, List.length_append] at hlength
  have htext : text = text.take before.length ++ (text.drop before.length).take found.length ++
      (text.drop before.length).drop found.length := by
    rw [List.append_assoc, List.take_append_drop, List.take_append_drop]
  have hkeepA : ∀ c ∈ text.take before.length, cases.Keeps c := fun c hc =>
    hkeep c (List.mem_of_mem_take hc)
  have hkeepS : ∀ c ∈ (text.drop before.length).take found.length, cases.Keeps c := fun c hc =>
    hkeep c (List.mem_of_mem_drop (List.mem_of_mem_take hc))
  refine ⟨_, _, _, htext, ?_⟩
  rw [htext, lower_parts, List.append_assoc, List.append_assoc] at h
  obtain ⟨hbefore, hrest⟩ := List.append_inj h (by
    rw [length_lowerWithin_of_keeps hkeepA, List.length_take]
    omega)
  obtain ⟨hfound, -⟩ := List.append_inj hrest (by
    rw [length_lowerWithin_of_keeps hkeepS, List.length_take, List.length_drop]
    omega)
  exact ⟨hbefore.symm, hfound.symm⟩

omit [LowercaseTables] in
/-- What is found as it is, is cut out as it is. -/
theorem exists_cuts_exact {haystack needle : String} {before : List Char}
    (h : beforeFirst needle.toList haystack.toList = some before) :
    ∃ start span after,
      Cuts haystack.toList (utf8Len before, utf8Len needle.toList) start span after ∧
        toLowercase (String.ofList span) = toLowercase needle := by
  obtain ⟨after, hafter⟩ := beforeFirst_eq_some h
  exact ⟨before, needle.toList, after, ⟨hafter, rfl, rfl⟩, by rw [String.ofList_toList]⟩

omit [LowercaseTables] in
theorem soundSearch_of_length_ne {haystack : String}
    (hlength : utf8Len (toLowercase haystack).toList ≠ utf8Len haystack.toList)
    (needle : String) : SoundSearch haystack needle := by
  intro range hrange
  rw [findRange] at hrange
  split at hrange
  · cases hrange
  rw [if_pos (.inl hlength)] at hrange
  obtain ⟨before, hbefore, rfl⟩ := Option.map_eq_some_iff.mp hrange
  exact exists_cuts_exact hbefore

/-- Where every character keeps its bytes and the sigmas stand apart, searches are sound. -/
theorem soundSearch_of_keeps {haystack : String} (hkeep : ∀ c ∈ haystack.toList, cases.Keeps c)
    (hstand : cases.SigmasStand haystack.toList) (needle : String) :
    SoundSearch haystack needle := by
  intro range hrange
  rw [findRange] at hrange
  split at hrange
  · cases hrange
  dsimp only at hrange
  split at hrange
  · obtain ⟨before, hbefore, rfl⟩ := Option.map_eq_some_iff.mp hrange
    exact exists_cuts_exact hbefore
  obtain ⟨before, hbefore, rfl⟩ := Option.map_eq_some_iff.mp hrange
  obtain ⟨behind, hbehind⟩ := beforeFirst_eq_some hbefore
  rw [toLowercase_toList haystack] at hbehind hbefore
  obtain ⟨a, s, b, htext, ha, hs⟩ := exists_parts hkeep hbehind
  have hkeepA : ∀ c ∈ a, cases.Keeps c := fun c hc => hkeep c (by simp [htext, hc])
  have hkeepS : ∀ c ∈ s, cases.Keeps c := fun c hc => hkeep c (by simp [htext, hc])
  have hfirst : ∀ earlier behind, cases.lower [] (a ++ s ++ b) =
      earlier ++ cases.lowerWithin a.reverse s b ++ behind → a.length ≤ earlier.length := by
    intro earlier behind htwice
    obtain ⟨found, hfound, hlength⟩ :=
      exists_beforeFirst (toLowercase needle).toList earlier behind
    rw [htext, htwice, ← hs, hfound] at hbefore
    obtain rfl := Option.some.inj hbefore
    rwa [ha, length_lowerWithin_of_keeps hkeepA] at hlength
  have hlower := lowerWithin_of_sigmasStand hkeepA (htext ▸ hstand) hfirst
  refine ⟨a, s, b, ⟨htext, ?_, ?_⟩, ?_⟩
  · rw [ha, utf8Len_lowerWithin_of_keeps hkeepA]
  · rw [hs, utf8Len_lowerWithin_of_keeps hkeepS]
  · rw [LowercaseTables.toLowercase_eq, String.toList_ofList, ← hlower, ← hs, String.ofList_toList]

omit [LowercaseTables] in
/-- A sound search cuts between characters. -/
theorem SoundSearch.not_panics {source needle : String} (h : SoundSearch source needle) :
    spanPanics source needle = false := by
  rw [spanPanics, Option.any_eq_false]
  intro range hrange
  obtain ⟨before, span, after, hcuts, -⟩ := h range hrange
  rw [hcuts.text, ← hcuts.start, ← hcuts.length, ← utf8Len_append, isCharBoundary_utf8Len,
    List.append_assoc, isCharBoundary_utf8Len]
  rfl

/-- Every search in a message is sound just when lowercasing changes its length, and is not
made, or keeps every character's bytes and its sigmas stand apart. -/
theorem ranges_sound_iff (haystack : String) :
    (∀ needle, needle ≠ "" → SoundSearch haystack needle ∧ spanPanics haystack needle = false) ↔
      utf8Len (toLowercase haystack).toList ≠ utf8Len haystack.toList ∨
        (∀ c ∈ haystack.toList, cases.Keeps c) ∧ cases.SigmasStand haystack.toList := by
  constructor
  · intro h
    by_cases hlength : utf8Len (toLowercase haystack).toList = utf8Len haystack.toList
    · have hsound : ∀ needle, needle ≠ "" → SoundSearch haystack needle := fun needle hne =>
        (h needle hne).1
      have hkeep := keeps_of_sound hlength hsound
      exact .inr ⟨hkeep, sigmasStand_of_sound hlength hkeep hsound⟩
    · exact .inl hlength
  · intro h needle _
    have hsound : SoundSearch haystack needle := by
      obtain hlength | ⟨hkeep, hstand⟩ := h
      · exact soundSearch_of_length_ne hlength needle
      · exact soundSearch_of_keeps hkeep hstand needle
    exact ⟨hsound, hsound.not_panics⟩

end Soundness

/-! ## letters with strokes, and a Kelvin sign -/

/-- The case tables of ASCII and of a few characters more. -/
def strokedCase : CaseTables where
  isCased c := c.isAlpha || ['Σ', 'σ', 'ς', 'Ⱥ', 'ⱥ', '\u212a', 'İ'].contains c
  isCaseIgnorable c := c = '.' || c = ':' || c = '^' || c = '\u0307'
  lowercase c :=
    if c = 'İ' then ['i', '\u0307'] else if c = 'Ⱥ' then ['ⱥ'] else if c = '\u212a' then ['k']
    else if c = 'Σ' then ['σ'] else [c.toLower]

@[reducible] def Extern.stroked : Extern :=
  { Extern.ascii with toLowercase := fun s => String.ofList (strokedCase.lower [] s.toList) }

omit [Extern] in
theorem strokedCase_single (c : Char) (hc : c ≠ 'İ') : ∃ d, strokedCase.lowercase c = [d] := by
  simp only [strokedCase, if_neg hc]
  split
  · exact ⟨_, rfl⟩
  split
  · exact ⟨_, rfl⟩
  split <;> exact ⟨_, rfl⟩

omit [Extern] in
theorem strokedCase_fixed (c d : Char) (h : d ∈ strokedCase.lowercase c) :
    strokedCase.lowercase d = [d] := by
  by_cases hspecial : c = 'İ' ∨ c = 'Ⱥ' ∨ c = '\u212a' ∨ c = 'Σ'
  · have hall : (['İ', 'Ⱥ', '\u212a', 'Σ'].all fun c =>
        (strokedCase.lowercase c).all fun d => strokedCase.lowercase d == [d]) = true := by decide
    have hc := List.all_eq_true.mp hall c (by simpa using hspecial)
    exact beq_iff_eq.mp (List.all_eq_true.mp hc d h)
  · have hplain : ∀ c, ¬ (c = 'İ' ∨ c = 'Ⱥ' ∨ c = '\u212a' ∨ c = 'Σ') →
        strokedCase.lowercase c = [c.toLower] := by
      intro c hc
      simp only [not_or] at hc
      simp [strokedCase, hc]
    rw [hplain c hspecial, List.mem_singleton] at h
    subst h
    obtain hlower | ⟨-, halpha⟩ := toLower_cases c
    · rw [hlower, hplain c hspecial, hlower]
    · rw [hplain, toLower_toLower]
      rintro (hc | hc | hc | hc) <;> rw [hc] at halpha <;> exact absurd halpha (by decide)

@[reducible] def strokedTables : @LowercaseTables Extern.stroked :=
  letI := Extern.stroked
  { cases := strokedCase
    toLowercase_eq := fun _ => rfl
    single := strokedCase_single
    dotted := rfl
    fixed := strokedCase_fixed
    sigma := rfl
    finalSigma := rfl }

omit [Extern] in
/-- Two letters grow where the Kelvin sign shrinks, and the sign is found inside itself. -/
theorem kelvin_cut :
    letI := Extern.stroked
    ¬ SoundSearch "ȺȺ\u212a" "k" ∧ spanPanics "ȺȺ\u212a" "k" = true := by
  let := Extern.stroked
  have hpanics : spanPanics "ȺȺ\u212a" "k" = true := by decide +kernel
  exact ⟨fun h => by simp [h.not_panics] at hpanics, hpanics⟩

omit [Extern] in
/-- Capital letters of ASCII keep their bytes. -/
theorem shouting_sound :
    letI := Extern.stroked
    ∀ needle, needle ≠ "" →
      SoundSearch "PAID TO Cafe" needle ∧ spanPanics "PAID TO Cafe" needle = false := by
  let := Extern.stroked
  let := strokedTables
  have hkeep : ("PAID TO Cafe".toList.all fun c => strokedCase.Keeps c) = true := by
    decide +kernel
  have hsigma : 'Σ' ∉ "PAID TO Cafe".toList := by decide
  exact (ranges_sound_iff "PAID TO Cafe").mpr
    (.inr ⟨fun c hc => of_decide_eq_true (List.all_eq_true.mp hkeep c hc),
      fun word ignored after htext => absurd (htext ▸ by simp) hsigma⟩)

end Dinero
