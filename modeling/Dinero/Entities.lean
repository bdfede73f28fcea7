import Mathlib.Data.List.Basic

/-!
# Dinero.Entities

Characters written as entities, and read back one entity after the other.

An entity is an ampersand and a name, and stands for one character.  Replacing
the entities of a list one after the other reads each of them once, as long as
none stands for an ampersand: what one replacement puts in is no part of what the
next one looks for.
-/

namespace Entities

/-- `str::replace`; `skip` counts what is left of the occurrence being replaced. -/
def replaceFrom (pat by_ : List Char) (skip : Nat) : List Char → List Char
  | [] => []
  | c :: s => match skip with
    | n + 1 => replaceFrom pat by_ n s
    | 0 =>
      if pat <+: c :: s then by_ ++ replaceFrom pat by_ (pat.length - 1) s
      else c :: replaceFrom pat by_ 0 s

def replace (pat by_ s : List Char) : List Char := replaceFrom pat by_ 0 s

theorem replaceFrom_skip (pat by_ x s : List Char) :
    replaceFrom pat by_ x.length (x ++ s) = replace pat by_ s := by
  induction x with
  | nil => rfl
  | cons c x ih => simpa [replaceFrom] using ih

@[simp] theorem replace_nil (pat by_ : List Char) : replace pat by_ [] = [] := rfl

theorem replace_append {pat : List Char} (hpat : pat ≠ []) (by_ s : List Char) :
    replace pat by_ (pat ++ s) = by_ ++ replace pat by_ s := by
  obtain ⟨c, pat, rfl⟩ := List.exists_cons_of_ne_nil hpat
  rw [List.cons_append, replace, replaceFrom, if_pos (by simp), List.length_cons,
    Nat.add_sub_cancel, replaceFrom_skip]

theorem replace_cons {pat : List Char} {c : Char} {s : List Char} (h : ¬ pat <+: c :: s)
    (by_ : List Char) : replace pat by_ (c :: s) = c :: replace pat by_ s := by
  rw [replace, replaceFrom, if_neg h]
  rfl

/-! ## entities -/

structure Entity where
  char : Char
  /-- What follows the ampersand. -/
  name : List Char
deriving DecidableEq, Repr

def Entity.text (e : Entity) : List Char := '&' :: e.name

/-- No name has an ampersand or a character that an entity stands for, and no name is the start of
another. -/
structure WellFormed (es : List Entity) : Prop where
  char : ∀ e ∈ es, e.char ≠ '&'
  amp : ∀ e ∈ es, '&' ∉ e.name
  plain : ∀ e ∈ es, ∀ d ∈ es, d.char ∉ e.name
  apart : ∀ e ∈ es, ∀ d ∈ es, e.name <+: d.name → e = d

/-- Every entity of the list read, in one pass. -/
def decodeFrom (es : List Entity) (skip : Nat) : List Char → List Char
  | [] => []
  | c :: s => match skip with
    | n + 1 => decodeFrom es n s
    | 0 => match es.find? fun e => e.text <+: c :: s with
      | some e => e.char :: decodeFrom es e.name.length s
      | none => c :: decodeFrom es 0 s

def decode (es : List Entity) (s : List Char) : List Char := decodeFrom es 0 s

variable {es : List Entity}

theorem decodeFrom_skip (es : List Entity) (x s : List Char) :
    decodeFrom es x.length (x ++ s) = decode es s := by
  induction x with
  | nil => rfl
  | cons c x ih => simpa [decodeFrom] using ih

@[simp] theorem decode_nil (es : List Entity) : decode es [] = [] := rfl

theorem decode_cons {c : Char} {s : List Char} (h : ∀ e ∈ es, ¬ e.text <+: c :: s) :
    decode es (c :: s) = c :: decode es s := by
  have hfind : (es.find? fun e => e.text <+: c :: s) = none := by
    simpa [List.find?_eq_none] using h
  rw [decode, decodeFrom, hfind]
  rfl

theorem decode_cons_of_ne {c : Char} (hc : c ≠ '&') (s : List Char) :
    decode es (c :: s) = c :: decode es s := by
  apply decode_cons
  intro e _ hprefix
  exact hc (List.cons_prefix_cons.mp hprefix).1.symm

theorem decode_text (hes : WellFormed es) {e : Entity} (he : e ∈ es) (s : List Char) :
    decode es (e.text ++ s) = e.char :: decode es s := by
  have hfind : (es.find? fun d => d.text <+: e.text ++ s) = some e := by
    cases hfound : es.find? fun d => d.text <+: e.text ++ s with
    | none =>
      have hnone := List.find?_eq_none.mp hfound e he
      simp at hnone
    | some d =>
      have hd := List.mem_of_find?_eq_some hfound
      have hprefix : d.text <+: e.text ++ s := by simpa using List.find?_some hfound
      have hprefix' : e.text <+: e.text ++ s := List.prefix_append _ _
      obtain h | h := List.prefix_or_prefix_of_prefix hprefix hprefix'
      · rw [hes.apart d hd e he (List.cons_prefix_cons.mp h).2]
      · rw [hes.apart e he d hd (List.cons_prefix_cons.mp h).2]
  rw [Entity.text, List.cons_append] at hfind ⊢
  rw [decode, decodeFrom, hfind]
  dsimp only
  rw [decodeFrom_skip]

/-- What every text is made of. -/
theorem decode_induction {motive : List Char → Prop} (es : List Entity) (nil : motive [])
    (entity : ∀ e ∈ es, ∀ s, motive s → motive (e.text ++ s))
    (other : ∀ c s, (∀ e ∈ es, ¬ e.text <+: c :: s) → motive s → motive (c :: s))
    (s : List Char) : motive s := by
  induction hn : s.length using Nat.strongRecOn generalizing s with
  | _ n ih =>
    cases s with
    | nil => exact nil
    | cons c s =>
      by_cases h : ∃ e ∈ es, e.text <+: c :: s
      · obtain ⟨e, he, rest, hrest⟩ := h
        rw [← hrest]
        refine entity e he rest (ih rest.length ?_ rest rfl)
        rw [← hn, ← hrest, List.length_append, Entity.text, List.length_cons]
        omega
      · refine other c s (fun e he hprefix => h ⟨e, he, hprefix⟩) (ih s.length ?_ s rfl)
        rw [← hn, List.length_cons]
        omega

/-- A plain text in front of what is decoded stood there before. -/
theorem prefix_of_prefix_decode (hes : WellFormed es) {x : List Char} (hamp : '&' ∉ x)
    (hplain : ∀ e ∈ es, e.char ∉ x) {s : List Char} (h : x <+: decode es s) : x <+: s := by
  induction s using decode_induction es generalizing x with
  | nil => exact h
  | entity e he s _ =>
    cases x with
    | nil => exact List.nil_prefix
    | cons a x =>
      rw [decode_text hes he, List.cons_prefix_cons] at h
      exact absurd (h.1 ▸ List.mem_cons_self) (hplain e he)
  | other c s hnone ih =>
    cases x with
    | nil => exact List.nil_prefix
    | cons a x =>
      rw [decode_cons hnone, List.cons_prefix_cons] at h
      rw [List.mem_cons, not_or] at hamp
      rw [List.cons_prefix_cons]
      exact ⟨h.1, ih hamp.2 (fun e he hx => hplain e he (.tail a hx)) h.2⟩

theorem decode_append_plain {x : List Char} (hx : '&' ∉ x) (s : List Char) :
    decode es (x ++ s) = x ++ decode es s := by
  induction x with
  | nil => rfl
  | cons c x ih =>
    rw [List.mem_cons, not_or] at hx
    rw [List.cons_append, decode_cons_of_ne (Ne.symm hx.1), ih hx.2, List.cons_append]

/-! ## one after the other -/

theorem WellFormed.tail {e : Entity} (hes : WellFormed (e :: es)) : WellFormed es where
  char d hd := hes.char d (.tail e hd)
  amp d hd := hes.amp d (.tail e hd)
  plain d hd d' hd' := hes.plain d (.tail e hd) d' (.tail e hd')
  apart d hd d' hd' := hes.apart d (.tail e hd) d' (.tail e hd')

/-- Names that are apart are apart in every text. -/
theorem not_prefix_text {n m : List Char} (h : ¬ n <+: m) (h' : ¬ m <+: n) (s : List Char) :
    ¬ '&' :: n <+: '&' :: m ++ s := by
  intro hprefix
  obtain hle | hle := List.prefix_or_prefix_of_prefix hprefix (List.prefix_append ('&' :: m) s)
  · exact h (List.cons_prefix_cons.mp hle).2
  · exact h' (List.cons_prefix_cons.mp hle).2

/-- Replacing one more entity reads it as well. -/
theorem replace_decode {e : Entity} (hes : WellFormed (e :: es)) (he : e ∉ es) (s : List Char) :
    replace e.text [e.char] (decode es s) = decode (e :: es) s := by
  have hself : e ∈ e :: es := List.mem_cons_self
  induction s using decode_induction (e :: es) with
  | nil => rfl
  | entity d hd s ih =>
    obtain rfl | hd' := List.mem_cons.mp hd
    · have happart : ∀ d' ∈ es, ¬ d'.text <+: d.text ++ s := by
        intro d' hd'
        refine not_prefix_text (fun h => he ?_) (fun h => he ?_) s
        · exact hes.apart d' (.tail d hd') d hself h ▸ hd'
        · exact hes.apart d hself d' (.tail d hd') h ▸ hd'
      have hkept : decode es (d.text ++ s) = d.text ++ decode es s := by
        rw [Entity.text, List.cons_append] at happart ⊢
        rw [decode_cons happart, decode_append_plain (hes.amp d hself), List.cons_append]
      rw [decode_text hes hd, hkept, replace_append (by simp [Entity.text]), ih]
      rfl
    · rw [decode_text hes.tail hd', decode_text hes hd, replace_cons, ih]
      intro hprefix
      exact hes.char d hd (List.cons_prefix_cons.mp hprefix).1.symm
  | other c s hnone ih =>
    have hnone' : ∀ d ∈ es, ¬ d.text <+: c :: s := fun d hd => hnone d (.tail e hd)
    rw [decode_cons hnone', decode_cons hnone, replace_cons, ih]
    intro hprefix
    obtain ⟨hc, hname⟩ := List.cons_prefix_cons.mp hprefix
    have hbefore := prefix_of_prefix_decode hes.tail (hes.amp e hself)
      (fun d hd => hes.plain e hself d (.tail e hd)) hname
    exact hnone e hself (List.cons_prefix_cons.mpr ⟨hc, hbefore⟩)

/-! ## escaping -/

def escapeChar (es : List Entity) (c : Char) : List Char :=
  match es.find? fun e => e.char = c with
  | some e => e.text
  | none => [c]

def escape (es : List Entity) (s : List Char) : List Char := s.flatMap (escapeChar es)

theorem escapeChar_cases (es : List Entity) (c : Char) :
    (∃ e ∈ es, e.char = c ∧ escapeChar es c = e.text) ∨
      (∀ e ∈ es, e.char ≠ c) ∧ escapeChar es c = [c] := by
  rw [escapeChar]
  cases hfind : es.find? fun e => e.char = c with
  | none =>
    rw [List.find?_eq_none] at hfind
    exact .inr ⟨by simpa using hfind, rfl⟩
  | some e =>
    exact .inl ⟨e, List.mem_of_find?_eq_some hfind, by simpa using List.find?_some hfind, rfl⟩

theorem escape_cons (es : List Entity) (c : Char) (s : List Char) :
    escape es (c :: s) = escapeChar es c ++ escape es s := rfl

theorem escape_append_plain {x : List Char} (hx : ∀ e ∈ es, e.char ∉ x) (s : List Char) :
    escape es (x ++ s) = x ++ escape es s := by
  induction x with
  | nil => rfl
  | cons c x ih =>
    obtain ⟨e, he, rfl, -⟩ | ⟨-, hc⟩ := escapeChar_cases es c
    · exact absurd List.mem_cons_self (hx e he)
    · rw [List.cons_append, escape_cons, hc, ih fun e he hmem => hx e he (.tail c hmem)]
      rfl

theorem prefix_of_prefix_escape {x : List Char} (hamp : '&' ∉ x) {s : List Char}
    (h : x <+: escape es s) : x <+: s := by
  induction s generalizing x with
  | nil => exact h
  | cons c s ih =>
    cases x with
    | nil => exact List.nil_prefix
    | cons a x =>
      rw [List.mem_cons, not_or] at hamp
      rw [escape_cons] at h
      obtain ⟨e, -, -, hc⟩ | ⟨-, hc⟩ := escapeChar_cases es c
      · rw [hc, Entity.text, List.cons_append, List.cons_prefix_cons] at h
        exact absurd h.1.symm hamp.1
      · rw [hc, List.singleton_append, List.cons_prefix_cons] at h
        rw [List.cons_prefix_cons]
        exact ⟨h.1, ih hamp.2 h.2⟩

/-- What is escaped is read as if it had not been. -/
theorem decode_escape (hes : WellFormed es) (s : List Char) :
    decode es (escape es s) = decode es s := by
  induction s using decode_induction es with
  | nil => rfl
  | entity e he s ih =>
    have hplain : ∀ d ∈ es, d.char ∉ e.text := by
      intro d hd
      rw [Entity.text, List.mem_cons, not_or]
      exact ⟨hes.char d hd, hes.plain e he d hd⟩
    rw [escape_append_plain hplain, decode_text hes he, decode_text hes he, ih]
  | other c s hnone ih =>
    rw [escape_cons, decode_cons hnone]
    obtain ⟨e, he, rfl, hc⟩ | ⟨-, hc⟩ := escapeChar_cases es c
    · rw [hc, decode_text hes he, ih]
    · rw [hc, List.singleton_append, decode_cons, ih]
      intro e he hprefix
      obtain ⟨hamp, hname⟩ := List.cons_prefix_cons.mp hprefix
      exact hnone e he (List.cons_prefix_cons.mpr
        ⟨hamp, prefix_of_prefix_escape (hes.amp e he) hname⟩)

theorem replace_append_plain {x : List Char} (hx : '&' ∉ x) (n : Entity) (by_ s : List Char) :
    replace n.text by_ (x ++ s) = x ++ replace n.text by_ s := by
  induction x with
  | nil => rfl
  | cons c x ih =>
    rw [List.mem_cons, not_or] at hx
    rw [List.cons_append, replace_cons, ih hx.2, List.cons_append]
    intro hprefix
    exact hx.1 (List.cons_prefix_cons.mp hprefix).1

/-- Replacing passes over an entity with another name. -/
theorem replace_text {n e : Entity} (hamp : '&' ∉ e.name) (h : ¬ n.name <+: e.name)
    (h' : ¬ e.name <+: n.name) (by_ s : List Char) :
    replace n.text by_ (e.text ++ s) = e.text ++ replace n.text by_ s := by
  have hnot : ¬ n.text <+: '&' :: (e.name ++ s) := not_prefix_text h h' s
  have htext : ∀ t, e.text ++ t = '&' :: (e.name ++ t) := fun _ => rfl
  rw [htext, htext, replace_cons hnot, replace_append_plain hamp]

/-- In an escaped text there is no entity that was not put there. -/
theorem replace_escape_of_apart {n : Entity} {by_ : List Char} (hamp : ∀ e ∈ es, '&' ∉ e.name)
    (hescaped : ∃ e ∈ es, e.char = '&') (h : ∀ e ∈ es, ¬ n.name <+: e.name)
    (h' : ∀ e ∈ es, ¬ e.name <+: n.name) (s : List Char) :
    replace n.text by_ (escape es s) = escape es s := by
  induction s with
  | nil => rfl
  | cons c s ih =>
    rw [escape_cons]
    obtain ⟨e, he, -, hc⟩ | ⟨hnone, hc⟩ := escapeChar_cases es c
    · rw [hc, replace_text (hamp e he) (h e he) (h' e he), ih]
    · rw [hc, List.singleton_append, replace_cons, ih]
      intro hprefix
      obtain ⟨e, he, hchar⟩ := hescaped
      exact hnone e he (hchar.trans (List.cons_prefix_cons.mp hprefix).1)

/-- Reading the ampersands of an escaped text leaves the rest escaped. -/
theorem replace_escape_amp {amp : Entity} (hchar : amp.char = '&') (hes : WellFormed es)
    (h : ∀ e ∈ es, ¬ amp.name <+: e.name) (h' : ∀ e ∈ es, ¬ e.name <+: amp.name) (s : List Char) :
    replace amp.text ['&'] (escape (amp :: es) s) = escape es s := by
  induction s with
  | nil => rfl
  | cons c s ih =>
    rw [escape_cons, escape_cons]
    obtain ⟨e, he, rfl, hc⟩ | ⟨hnone, hc⟩ := escapeChar_cases es c
    · have hne : amp.char ≠ e.char := by
        rw [hchar]
        exact (hes.char e he).symm
      have hall : escapeChar (amp :: es) e.char = e.text := by
        rw [← hc, escapeChar, escapeChar, List.find?_cons_of_neg (by simpa using hne)]
      rw [hall, hc, replace_text (hes.amp e he) (h e he) (h' e he), ih]
    · by_cases hamp : c = '&'
      · have hall : escapeChar (amp :: es) c = amp.text := by
          rw [escapeChar, List.find?_cons_of_pos (by simp [hchar, hamp])]
        rw [hall, hc, replace_append (by simp [Entity.text]), ih, hamp]
      · have hall : escapeChar (amp :: es) c = [c] := by
          rw [← hc, escapeChar, escapeChar, List.find?_cons_of_neg]
          simpa [hchar] using Ne.symm hamp
        rw [hall, hc, List.singleton_append, replace_cons, ih]
        · rfl
        · intro hprefix
          exact hamp (List.cons_prefix_cons.mp hprefix).1.symm

/-! ## what decoding changes -/

/-- An entity stands somewhere in the text. -/
def HasEntity (es : List Entity) (s : List Char) : Prop := ∃ e ∈ es, e.text <:+: s

instance (es : List Entity) (s : List Char) : Decidable (HasEntity es s) :=
  inferInstanceAs (Decidable (∃ e ∈ es, e.text <:+: s))

theorem decode_of_not_hasEntity {s : List Char} (h : ¬ HasEntity es s) : decode es s = s := by
  induction s with
  | nil => rfl
  | cons c s ih =>
    rw [decode_cons fun e he hprefix => h ⟨e, he, hprefix.isInfix⟩, ih]
    intro hs
    obtain ⟨e, he, hinfix⟩ := hs
    exact h ⟨e, he, hinfix.trans (List.suffix_cons c s).isInfix⟩

theorem count_entity (hes : WellFormed es) {e : Entity} (he : e ∈ es) (s : List Char) :
    (e.text ++ s).count '&' = s.count '&' + 1 ∧
      (e.char :: decode es s).count '&' = (decode es s).count '&' := by
  constructor
  · rw [List.count_append, Entity.text, List.count_cons_self, List.count_eq_zero.mpr (hes.amp e he)]
    omega
  · rw [List.count_cons_of_ne (hes.char e he)]

theorem count_decode_le (hes : WellFormed es) (s : List Char) :
    (decode es s).count '&' ≤ s.count '&' := by
  induction s using decode_induction es with
  | nil => exact Nat.le_refl _
  | entity e he s ih =>
    obtain ⟨htext, hchar⟩ := count_entity hes he s
    rw [decode_text hes he, htext, hchar]
    omega
  | other c s hnone ih =>
    rw [decode_cons hnone, List.count_cons, List.count_cons]
    omega

/-- Every entity costs an ampersand. -/
theorem count_decode_lt (hes : WellFormed es) {s : List Char} (h : HasEntity es s) :
    (decode es s).count '&' < s.count '&' := by
  induction s using decode_induction es with
  | nil =>
    obtain ⟨e, -, hinfix⟩ := h
    cases List.infix_nil.mp hinfix
  | entity e he s _ =>
    have hle := count_decode_le hes s
    obtain ⟨htext, hchar⟩ := count_entity hes he s
    rw [decode_text hes he, htext, hchar]
    omega
  | other c s hnone ih =>
    have hrest : HasEntity es s := by
      obtain ⟨e, he, hinfix⟩ := h
      obtain hprefix | hinfix := List.infix_cons_iff.mp hinfix
      · exact absurd hprefix (hnone e he)
      · exact ⟨e, he, hinfix⟩
    have hlt := ih hrest
    rw [decode_cons hnone, List.count_cons, List.count_cons]
    omega

/-- A character of no entity, nor one that any stands for. -/
structure Outside (es : List Entity) (c : Char) : Prop where
  text : ∀ e ∈ es, c ∉ e.text
  char : ∀ e ∈ es, e.char ≠ c

theorem prefix_of_prefix_append_cons {l u v : List Char} {c : Char} (hc : c ∉ l)
    (h : l <+: u ++ c :: v) : l <+: u := by
  obtain hle | hle := List.prefix_or_prefix_of_prefix h (List.prefix_append u (c :: v))
  · exact hle
  · obtain ⟨t, rfl⟩ := hle
    cases t with
    | nil => simp
    | cons d t =>
      rw [List.prefix_append_right_inj, List.cons_prefix_cons] at h
      exact absurd (by simp [h.1]) hc

/-- No entity reaches over a character outside. -/
theorem decode_append_outside (hes : WellFormed es) {c : Char} (hc : Outside es c)
    (hamp : c ≠ '&') (x y : List Char) :
    decode es (x ++ c :: y) = decode es x ++ c :: decode es y := by
  induction x using decode_induction es with
  | nil => exact decode_cons_of_ne hamp y
  | entity e he x ih => rw [List.append_assoc, decode_text hes he, ih, decode_text hes he]; rfl
  | other a x hnone ih =>
    rw [List.cons_append, decode_cons, ih, decode_cons hnone, List.cons_append]
    intro e he hprefix
    exact hnone e he (prefix_of_prefix_append_cons (u := a :: x) (hc.text e he) hprefix)

theorem mem_of_mem_decode (hes : WellFormed es) {c : Char} (hc : Outside es c) {s : List Char}
    (h : c ∈ decode es s) : c ∈ s := by
  induction s using decode_induction es with
  | nil => exact h
  | entity e he s ih =>
    rw [decode_text hes he] at h
    obtain h | h := List.mem_cons.mp h
    · exact absurd h.symm (hc.char e he)
    · exact List.mem_append_right _ (ih h)
  | other a s hnone ih =>
    rw [decode_cons hnone] at h
    obtain h | h := List.mem_cons.mp h
    · exact h ▸ List.mem_cons_self
    · exact .tail a (ih h)

theorem decode_eq_nil (hes : WellFormed es) {s : List Char} : decode es s = [] ↔ s = [] := by
  induction s using decode_induction es with
  | nil => simp
  | entity e he s _ =>
    rw [decode_text hes he]
    simp [Entity.text]
  | other c s hnone _ => simp [decode_cons hnone]

theorem getLast_decode (hes : WellFormed es) {c : Char} (hc : Outside es c) {s : List Char}
    (h : (decode es s).getLast? = some c) : s.getLast? = some c := by
  induction s using decode_induction es with
  | nil => exact h
  | entity e he s ih =>
    rw [decode_text hes he] at h
    by_cases hs : s = []
    · subst hs
      simp only [decode_nil, List.getLast?_singleton, Option.some.injEq] at h
      exact absurd h (hc.char e he)
    · have hne : decode es s ≠ [] := (decode_eq_nil hes).not.mpr hs
      rw [List.getLast?_cons_of_ne_nil hne] at h
      rw [List.getLast?_append_of_ne_nil _ hs, ih h]
  | other a s hnone ih =>
    rw [decode_cons hnone] at h
    by_cases hs : s = []
    · subst hs
      simpa using h
    · have hne : decode es s ≠ [] := (decode_eq_nil hes).not.mpr hs
      rw [List.getLast?_cons_of_ne_nil hne] at h
      rw [List.getLast?_cons_of_ne_nil hs, ih h]

end Entities
