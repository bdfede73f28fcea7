import Dinero.Cleanup
import Dinero.Numerals
import Mathlib.Data.List.TakeWhile

/-!
# Dinero.TemplateHash

What messages have one template hash: runs of digits and runs of white space may
be of any length, nothing else may differ but the case of letters.

Lower-casing is that of `str::to_lowercase`, which looks at the text around a
capital sigma; its Unicode tables are those of `UnicodeCase`.
-/

namespace Dinero

/-! ## lower case -/

/-- The tables behind `str::to_lowercase`. -/
structure CaseTables where
  isCased : Char → Bool
  isCaseIgnorable : Char → Bool
  /-- The lower case of a character by itself. -/
  lowercase : Char → List Char

namespace CaseTables

def caseIgnorableThenCased (T : CaseTables) (s : List Char) : Bool :=
  (s.dropWhile T.isCaseIgnorable).head?.any T.isCased

theorem cased_cons (T : CaseTables) {c : Char} (s : List Char) :
    T.caseIgnorableThenCased (c :: s) =
      if T.isCaseIgnorable c then T.caseIgnorableThenCased s else T.isCased c := by
  unfold caseIgnorableThenCased
  rw [List.dropWhile_cons]
  split <;> rfl

/-- `map_uppercase_sigma`: a capital sigma between the text before it, backwards, and the text
behind it. -/
def sigma (T : CaseTables) (before rest : List Char) : Char :=
  if T.caseIgnorableThenCased before && !T.caseIgnorableThenCased rest then 'ς' else 'σ'

/-- The loop of `str::to_lowercase`. -/
def lower (T : CaseTables) : List Char → List Char → List Char
  | _, [] => []
  | before, c :: rest =>
    (if c = 'Σ' then [T.sigma before rest] else T.lowercase c) ++ T.lower (c :: before) rest

end CaseTables

/-- The printable characters of ASCII. -/
def isPrintable (c : Char) : Bool := 32 ≤ c.toNat && c.toNat < 127

/-- A character that lower-casing leaves alone and does not look at. -/
structure CaseTables.Caseless (T : CaseTables) (c : Char) : Prop where
  ne_sigma : c ≠ 'Σ'
  lowercase : T.lowercase c = [c]
  not_cased : T.isCased c = false
  not_ignorable : T.isCaseIgnorable c = false

/-- The Unicode tables, as far as template hashes depend on them. -/
class UnicodeCase [Extern] where
  tables : CaseTables
  toLowercase_eq : ∀ s : String, toLowercase s = String.ofList (tables.lower [] s.toList)
  digit : ∀ c, isDigit c = true → tables.Caseless c ∧ isWhitespace c = false
  white : ∀ c, isWhitespace c = true → tables.Caseless c
  letter : ∀ c : Char, c.isAlpha = true →
    tables.isCased c = true ∧ tables.isCaseIgnorable c = false
  lowercase_printable : ∀ c, isPrintable c = true → tables.lowercase c = [c.toLower]
  isDigit_printable : ∀ c, isPrintable c = true → isDigit c = c.isDigit
  isWhitespace_printable : ∀ c, isPrintable c = true → isWhitespace c = (c == ' ')

/-! ## alike -/

section

variable [Extern]

/-- Texts that differ in the lengths of runs of digits and of white space, and in the case of
letters. -/
inductive Alike : List Char → List Char → Prop
  | nil : Alike [] []
  | same (c : Char) {s t : List Char} (h : Alike s t) : Alike (c :: s) (c :: t)
  | letter {c d : Char} {s t : List Char} (hc : c.isAlpha = true) (hd : d.isAlpha = true)
      (heq : c.toLower = d.toLower) (h : Alike s t) : Alike (c :: s) (d :: t)
  | digits {ds es s t : List Char} (hds : ds ≠ []) (hes : es ≠ [])
      (hd : ∀ c ∈ ds, isDigit c = true) (he : ∀ c ∈ es, isDigit c = true) (h : Alike s t) :
      Alike (ds ++ s) (es ++ t)
  | spaces {ws vs s t : List Char} (hws : ws ≠ []) (hvs : vs ≠ [])
      (hw : ∀ c ∈ ws, isWhitespace c = true) (hv : ∀ c ∈ vs, isWhitespace c = true)
      (h : Alike s t) : Alike (ws ++ s) (vs ++ t)

theorem Alike.refl (s : List Char) : Alike s s := by
  induction s with
  | nil => exact .nil
  | cons c s ih => exact .same c ih

theorem Alike.append {s t s' t' : List Char} (h : Alike s t) (h' : Alike s' t') :
    Alike (s ++ s') (t ++ t') := by
  induction h with
  | nil => exact h'
  | same c _ ih => exact .same c ih
  | letter hc hd heq _ ih => exact .letter hc hd heq ih
  | digits hds hes hd he _ ih =>
    rw [List.append_assoc, List.append_assoc]
    exact .digits hds hes hd he ih
  | spaces hws hvs hw hv _ ih =>
    rw [List.append_assoc, List.append_assoc]
    exact .spaces hws hvs hw hv ih

/-! ### runs -/

variable [UnicodeCase]

export UnicodeCase (tables)

theorem hash_not_white : isWhitespace '#' = false := by
  rw [UnicodeCase.isWhitespace_printable '#' (by decide)]
  rfl

theorem blank_white : isWhitespace ' ' = true := by
  rw [UnicodeCase.isWhitespace_printable ' ' (by decide)]
  rfl

/-- Texts that differ in the lengths of runs. -/
inductive SameRuns : List Char → List Char → Prop
  | nil : SameRuns [] []
  | same (c : Char) {s t : List Char} (h : SameRuns s t) : SameRuns (c :: s) (c :: t)
  | digits {ds es s t : List Char} (hds : ds ≠ []) (hes : es ≠ [])
      (hd : ∀ c ∈ ds, isDigit c = true) (he : ∀ c ∈ es, isDigit c = true) (h : SameRuns s t) :
      SameRuns (ds ++ s) (es ++ t)
  | spaces {ws vs s t : List Char} (hws : ws ≠ []) (hvs : vs ≠ [])
      (hw : ∀ c ∈ ws, isWhitespace c = true) (hv : ∀ c ∈ vs, isWhitespace c = true)
      (h : SameRuns s t) : SameRuns (ws ++ s) (vs ++ t)

/-- The two passes, over a text in lower case. -/
def squash (inDigits inSpace : Bool) (s : List Char) : List Char :=
  collapse isWhitespace ' ' inSpace (collapse isDigit '#' inDigits s)

theorem squash_cons_digit {c : Char} (h : isDigit c = true) (inDigits inSpace : Bool)
    (s : List Char) : squash inDigits inSpace (c :: s) =
      if inDigits then squash true inSpace s else '#' :: squash true false s := by
  unfold squash
  rw [collapse, if_pos h]
  cases inDigits with
  | true => rfl
  | false =>
    simp only [Bool.false_eq_true, if_false, List.singleton_append, collapse, hash_not_white]

theorem squash_cons_white {c : Char} (h : isWhitespace c = true) (inDigits inSpace : Bool)
    (s : List Char) : squash inDigits inSpace (c :: s) =
      if inSpace then squash false true s else ' ' :: squash false true s := by
  have hdigit : isDigit c = false := by
    by_contra hd
    rw [Bool.not_eq_false] at hd
    exact absurd ((UnicodeCase.digit c hd).2.symm.trans h) (by decide)
  unfold squash
  simp only [collapse, hdigit, Bool.false_eq_true, if_false, h, if_true]
  cases inSpace <;> rfl

omit [UnicodeCase] in
theorem squash_cons_other {c : Char} (hdigit : isDigit c = false) (hwhite : isWhitespace c = false)
    (inDigits inSpace : Bool) (s : List Char) :
    squash inDigits inSpace (c :: s) = c :: squash false false s := by
  unfold squash
  simp only [collapse, hdigit, hwhite, Bool.false_eq_true, if_false]

theorem squash_digits {ds : List Char} (hne : ds ≠ []) (h : ∀ c ∈ ds, isDigit c = true)
    (inDigits inSpace : Bool) (s : List Char) : squash inDigits inSpace (ds ++ s) =
      if inDigits then squash true inSpace s else '#' :: squash true false s := by
  induction ds generalizing inDigits inSpace with
  | nil => exact absurd rfl hne
  | cons c ds ih =>
    rw [List.cons_append, squash_cons_digit (h c List.mem_cons_self)]
    cases ds with
    | nil => rfl
    | cons d ds =>
      have hrest := ih (by simp) fun x hx => h x (List.mem_cons_of_mem c hx)
      rw [hrest true inSpace, hrest true false]
      rfl

theorem squash_spaces {ws : List Char} (hne : ws ≠ []) (h : ∀ c ∈ ws, isWhitespace c = true)
    (inDigits inSpace : Bool) (s : List Char) : squash inDigits inSpace (ws ++ s) =
      if inSpace then squash false true s else ' ' :: squash false true s := by
  induction ws generalizing inDigits inSpace with
  | nil => exact absurd rfl hne
  | cons c ws ih =>
    rw [List.cons_append, squash_cons_white (h c List.mem_cons_self)]
    cases ws with
    | nil => rfl
    | cons d ws =>
      have hrest := ih (by simp) fun x hx => h x (List.mem_cons_of_mem c hx)
      rw [hrest false true]
      rfl

/-- The passes do not see how long a run is. -/
theorem SameRuns.squash_eq {s t : List Char} (h : SameRuns s t) (inDigits inSpace : Bool) :
    squash inDigits inSpace s = squash inDigits inSpace t := by
  induction h generalizing inDigits inSpace with
  | nil => rfl
  | same c _ ih =>
    cases hdigit : isDigit c with
    | true => rw [squash_cons_digit hdigit, squash_cons_digit hdigit, ih, ih]
    | false =>
      cases hwhite : isWhitespace c with
      | true => rw [squash_cons_white hwhite, squash_cons_white hwhite, ih]
      | false => rw [squash_cons_other hdigit hwhite, squash_cons_other hdigit hwhite, ih]
  | digits hds hes hd he _ ih => rw [squash_digits hds hd, squash_digits hes he, ih, ih]
  | spaces hws hvs hw hv _ ih => rw [squash_spaces hws hw, squash_spaces hvs hv, ih]

omit [UnicodeCase] in
theorem SameRuns.append_left (r : List Char) {s t : List Char} (h : SameRuns s t) :
    SameRuns (r ++ s) (r ++ t) := by
  induction r with
  | nil => exact h
  | cons c r ih => exact .same c ih

/-! ### the text around a sigma -/

theorem caseIgnorableThenCased_caseless {ds : List Char} (hne : ds ≠ [])
    (h : ∀ c ∈ ds, tables.Caseless c) (s : List Char) :
    tables.caseIgnorableThenCased (ds ++ s) = false := by
  cases ds with
  | nil => exact absurd rfl hne
  | cons c ds =>
    have hc := h c List.mem_cons_self
    rw [List.cons_append, CaseTables.cased_cons, hc.not_ignorable, hc.not_cased]
    rfl

theorem Alike.caseIgnorableThenCased_eq {s t : List Char} (h : Alike s t) :
    tables.caseIgnorableThenCased s = tables.caseIgnorableThenCased t := by
  induction h with
  | nil => rfl
  | same c _ ih => rw [CaseTables.cased_cons, CaseTables.cased_cons, ih]
  | @letter c d _ _ hc hd _ _ _ =>
    obtain ⟨hcased, hignorable⟩ := UnicodeCase.letter c hc
    obtain ⟨hcased', hignorable'⟩ := UnicodeCase.letter d hd
    rw [CaseTables.cased_cons, CaseTables.cased_cons, hignorable, hignorable', hcased,
      hcased']
    rfl
  | digits hds hes hd he _ _ =>
    rw [caseIgnorableThenCased_caseless hds fun c hc => (UnicodeCase.digit c (hd c hc)).1,
      caseIgnorableThenCased_caseless hes fun c hc => (UnicodeCase.digit c (he c hc)).1]
  | spaces hws hvs hw hv _ _ =>
    rw [caseIgnorableThenCased_caseless hws fun c hc => UnicodeCase.white c (hw c hc),
      caseIgnorableThenCased_caseless hvs fun c hc => UnicodeCase.white c (hv c hc)]

/-- Of the text before, only what a sigma looks at matters. -/
theorem lower_congr {before before' : List Char} (s : List Char)
    (h : tables.caseIgnorableThenCased before = tables.caseIgnorableThenCased before') :
    tables.lower before s = tables.lower before' s := by
  induction s generalizing before before' with
  | nil => rfl
  | cons c s ih =>
    have hnext : tables.caseIgnorableThenCased (c :: before) =
        tables.caseIgnorableThenCased (c :: before') := by
      rw [CaseTables.cased_cons, CaseTables.cased_cons, h]
    unfold CaseTables.lower CaseTables.sigma
    rw [h, ih hnext]

theorem lower_caseless {ds : List Char} (h : ∀ c ∈ ds, tables.Caseless c)
    (before s : List Char) :
    tables.lower before (ds ++ s) = ds ++ tables.lower (ds.reverse ++ before) s := by
  induction ds generalizing before with
  | nil => rfl
  | cons c ds ih =>
    have hc := h c List.mem_cons_self
    rw [List.cons_append, CaseTables.lower, if_neg hc.ne_sigma, hc.lowercase,
      ih fun x hx => h x (List.mem_cons_of_mem c hx)]
    simp

theorem lower_caseless_congr {ds es before before' : List Char} (hds : ds ≠ []) (hes : es ≠ [])
    (hd : ∀ c ∈ ds, tables.Caseless c) (he : ∀ c ∈ es, tables.Caseless c) (s : List Char) :
    tables.lower (ds.reverse ++ before) s = tables.lower (es.reverse ++ before') s := by
  refine lower_congr s ?_
  rw [caseIgnorableThenCased_caseless (by simpa using hds)
      fun c hc => hd c (List.mem_reverse.mp hc),
    caseIgnorableThenCased_caseless (by simpa using hes)
      fun c hc => he c (List.mem_reverse.mp hc)]

omit [Extern] [UnicodeCase] in
theorem isPrintable_of_isAlpha {c : Char} (h : c.isAlpha = true) :
    isPrintable c = true ∧ c ≠ 'Σ' := by
  have hrange : 32 ≤ c.toNat ∧ c.toNat < 127 := by
    have := isAlpha_range h
    omega
  constructor
  · simpa [isPrintable] using hrange
  · rintro rfl
    exact absurd hrange.2 (by decide)

/-- Lower-casing keeps runs as they are. -/
theorem Alike.lower {s t : List Char} (h : Alike s t) {before before' : List Char}
    (hbefore : tables.caseIgnorableThenCased before = tables.caseIgnorableThenCased before') :
    SameRuns (tables.lower before s) (tables.lower before' t) := by
  induction h generalizing before before' with
  | nil => exact .nil
  | @same c s t h ih =>
    have hnext : tables.caseIgnorableThenCased (c :: before) =
        tables.caseIgnorableThenCased (c :: before') := by
      rw [CaseTables.cased_cons, CaseTables.cased_cons, hbefore]
    unfold CaseTables.lower CaseTables.sigma
    rw [hbefore, h.caseIgnorableThenCased_eq]
    exact .append_left _ (ih hnext)
  | @letter c d s t hc hd heq h ih =>
    obtain ⟨hcased, hignorable⟩ := UnicodeCase.letter c hc
    obtain ⟨hcased', hignorable'⟩ := UnicodeCase.letter d hd
    obtain ⟨hprint, hsigma⟩ := isPrintable_of_isAlpha hc
    obtain ⟨hprint', hsigma'⟩ := isPrintable_of_isAlpha hd
    have hnext : tables.caseIgnorableThenCased (c :: before) =
        tables.caseIgnorableThenCased (d :: before') := by
      rw [CaseTables.cased_cons, CaseTables.cased_cons, hignorable, hignorable',
        hcased, hcased']
      rfl
    rw [CaseTables.lower, CaseTables.lower, if_neg hsigma, if_neg hsigma',
      UnicodeCase.lowercase_printable c hprint, UnicodeCase.lowercase_printable d hprint', heq]
    exact .same _ (ih hnext)
  | @digits ds es s t hds hes hd he h ih =>
    have hd' : ∀ c ∈ ds, tables.Caseless c := fun c hc => (UnicodeCase.digit c (hd c hc)).1
    have he' : ∀ c ∈ es, tables.Caseless c := fun c hc => (UnicodeCase.digit c (he c hc)).1
    rw [lower_caseless hd', lower_caseless he',
      lower_caseless_congr  hds hes hd' he']
    exact .digits hds hes hd he (ih rfl)
  | @spaces ws vs s t hws hvs hw hv h ih =>
    have hw' : ∀ c ∈ ws, tables.Caseless c := fun c hc => UnicodeCase.white c (hw c hc)
    have hv' : ∀ c ∈ vs, tables.Caseless c := fun c hc => UnicodeCase.white c (hv c hc)
    rw [lower_caseless hw', lower_caseless hv',
      lower_caseless_congr  hws hvs hw' hv']
    exact .spaces hws hvs hw hv (ih rfl)

/-! ## the text that is hashed -/

/-- The text of a template, of a message. -/
def templateOf (body : List Char) : List Char := trim (squash false false (tables.lower [] body))

/-- `compute_template_hash` with any function in the place of SHA-256. -/
def templateHashWith (sha : String → String) (body : String) : String :=
  let noDigits := collapse isDigit '#' false (toLowercase body).toList
  sha (String.ofList (trim (collapse isWhitespace ' ' false noDigits)))

omit [UnicodeCase] in
theorem computeTemplateHash_eq (body : String) :
    computeTemplateHash body = templateHashWith sha256Hex body := rfl

theorem templateHashWith_eq (sha : String → String) (body : List Char) :
    templateHashWith sha (String.ofList body) = sha (String.ofList (templateOf body)) := by
  unfold templateHashWith templateOf squash
  rw [UnicodeCase.toLowercase_eq, String.toList_ofList, String.toList_ofList]

/-- Messages that are alike have one hash. -/
theorem Alike.templateOf_eq {s t : List Char} (h : Alike s t) : templateOf s = templateOf t := by
  unfold templateOf
  rw [(h.lower rfl).squash_eq]

/-! ### white space at the ends -/

omit [Extern] [UnicodeCase] in
theorem trimMatches_append {p : Char → Bool} (s : List Char) {r : List Char}
    (h : ∀ c ∈ r, p c = true) : trimMatches p (s ++ r) = trimMatches p s := by
  unfold trimMatches
  rw [List.dropWhile_append]
  split
  · next hempty =>
    rw [List.isEmpty_iff.mp hempty, List.dropWhile_eq_nil_iff.mpr h]
  · rw [List.reverse_append, List.dropWhile_append_of_pos fun c hc => h c (List.mem_reverse.mp hc)]

theorem dropWhile_squash (s : List Char) :
    (squash false true s).dropWhile isWhitespace =
      (squash false false s).dropWhile isWhitespace := by
  cases s with
  | nil => rfl
  | cons c s =>
    cases hdigit : isDigit c with
    | true => rw [squash_cons_digit hdigit, squash_cons_digit hdigit]; rfl
    | false =>
      cases hwhite : isWhitespace c with
      | true =>
        rw [squash_cons_white hwhite, squash_cons_white hwhite, if_pos rfl, if_neg (by decide),
          List.dropWhile_cons, if_pos blank_white]
      | false => rw [squash_cons_other hdigit hwhite, squash_cons_other hdigit hwhite]

theorem squash_append_spaces {ws : List Char} (hne : ws ≠ [])
    (h : ∀ c ∈ ws, isWhitespace c = true) (inDigits inSpace : Bool) (s : List Char) :
    ∃ r, (∀ c ∈ r, isWhitespace c = true) ∧
      squash inDigits inSpace (s ++ ws) = squash inDigits inSpace s ++ r := by
  induction s generalizing inDigits inSpace with
  | nil =>
    have hws := squash_spaces hne h inDigits inSpace []
    rw [List.append_nil] at hws
    refine ⟨squash inDigits inSpace ws, fun c hc => ?_, rfl⟩
    rw [hws] at hc
    cases inSpace with
    | true => exact absurd hc List.not_mem_nil
    | false => rw [List.mem_singleton.mp hc, blank_white]
  | cons c s ih =>
    rw [List.cons_append]
    cases hdigit : isDigit c with
    | true =>
      rw [squash_cons_digit hdigit, squash_cons_digit hdigit]
      cases inDigits with
      | true => exact ih true inSpace
      | false =>
        obtain ⟨r, hr, heq⟩ := ih true false
        exact ⟨r, hr, congrArg ('#' :: ·) heq⟩
    | false =>
      cases hwhite : isWhitespace c with
      | true =>
        rw [squash_cons_white hwhite, squash_cons_white hwhite]
        obtain ⟨r, hr, heq⟩ := ih false true
        cases inSpace with
        | true => exact ⟨r, hr, heq⟩
        | false => exact ⟨r, hr, congrArg (' ' :: ·) heq⟩
      | false =>
        rw [squash_cons_other hdigit hwhite, squash_cons_other hdigit hwhite]
        obtain ⟨r, hr, heq⟩ := ih false false
        exact ⟨r, hr, congrArg (c :: ·) heq⟩

theorem caseIgnorableThenCased_append_spaces {ws : List Char}
    (h : ∀ c ∈ ws, isWhitespace c = true) (s : List Char) :
    tables.caseIgnorableThenCased (s ++ ws) = tables.caseIgnorableThenCased s := by
  induction s with
  | nil =>
    cases ws with
    | nil => rfl
    | cons c ws =>
      have hws : tables.caseIgnorableThenCased (c :: ws ++ []) = false :=
        caseIgnorableThenCased_caseless (by simp) (fun x hx => UnicodeCase.white x (h x hx)) []
      rw [List.append_nil] at hws
      exact hws
  | cons c s ih =>
    rw [List.cons_append, CaseTables.cased_cons, CaseTables.cased_cons, ih]

theorem lower_append_spaces {ws : List Char} (h : ∀ c ∈ ws, isWhitespace c = true)
    (before s : List Char) : tables.lower before (s ++ ws) = tables.lower before s ++ ws := by
  induction s generalizing before with
  | nil =>
    have hws := lower_caseless (fun c hc => UnicodeCase.white c (h c hc)) before []
    rw [List.append_nil] at hws
    rw [List.nil_append, hws]
    simp [CaseTables.lower]
  | cons c s ih =>
    rw [List.cons_append]
    unfold CaseTables.lower CaseTables.sigma
    rw [caseIgnorableThenCased_append_spaces h, ih, List.append_assoc]

/-- White space in front of a message leaves no trace, nor does white space behind it. -/
theorem templateOf_edges {ws : List Char} (h : ∀ c ∈ ws, isWhitespace c = true)
    (body : List Char) :
    templateOf (ws ++ body) = templateOf body ∧ templateOf (body ++ ws) = templateOf body := by
  cases ws with
  | nil => exact ⟨rfl, congrArg templateOf (List.append_nil body)⟩
  | cons w ws =>
    have hne : w :: ws ≠ [] := by simp
    have hcaseless : ∀ c ∈ w :: ws, tables.Caseless c := fun c hc => UnicodeCase.white c (h c hc)
    constructor
    · have hlower : tables.lower ((w :: ws).reverse ++ []) body = tables.lower [] body :=
        lower_congr body (caseIgnorableThenCased_caseless (by simp)
          (fun c hc => hcaseless c (List.mem_reverse.mp hc)) [])
      unfold templateOf trim trimMatches
      rw [lower_caseless hcaseless, hlower, squash_spaces hne h, if_neg (by decide),
        List.dropWhile_cons, if_pos blank_white, dropWhile_squash]
    · obtain ⟨r, hr, heq⟩ := squash_append_spaces hne h false false (tables.lower [] body)
      unfold templateOf trim
      rw [lower_append_spaces h, heq, trimMatches_append _ hr]

/-! ## templates with holes -/

omit [Extern] [UnicodeCase] in
/-- A template: a text before each hole, and the text behind the last. -/
def fill (literals fillings : List (List Char)) (last : List Char) : List Char :=
  (List.zipWith (· ++ ·) literals fillings).flatten ++ last

/-- A hash that sees only the template: whatever stands for SHA-256, the two fillings of the holes
are not told apart, nor are runs of white space, nor white space at either end. -/
structure Abstracts (fillings : List (List Char × List Char)) : Prop where
  holes : ∀ (sha : String → String) (literals : List (List Char)) (last : List Char),
    literals.length = fillings.length →
    templateHashWith sha (String.ofList (fill literals (fillings.map (·.1)) last)) =
      templateHashWith sha (String.ofList (fill literals (fillings.map (·.2)) last))
  spaces : ∀ (sha : String → String) (before ws vs after : List Char), ws ≠ [] → vs ≠ [] →
    (∀ c ∈ ws, isWhitespace c = true) → (∀ c ∈ vs, isWhitespace c = true) →
    templateHashWith sha (String.ofList (before ++ ws ++ after)) =
      templateHashWith sha (String.ofList (before ++ vs ++ after))
  edges : ∀ (sha : String → String) (ws body : List Char), (∀ c ∈ ws, isWhitespace c = true) →
    templateHashWith sha (String.ofList (ws ++ body)) = templateHashWith sha (String.ofList body) ∧
      templateHashWith sha (String.ofList (body ++ ws)) = templateHashWith sha (String.ofList body)

omit [Extern] [UnicodeCase] in
/-- What amounts, dates and reference numbers are printed with. -/
def isPlain (c : Char) : Bool := isPrintable c && c ≠ '#' && c ≠ '|'

omit [UnicodeCase] in
theorem Alike.fill {fillings : List (List Char × List Char)}
    (h : ∀ p ∈ fillings, Alike p.1 p.2) (literals : List (List Char)) (last : List Char) :
    Alike (Dinero.fill literals (fillings.map (·.1)) last)
      (Dinero.fill literals (fillings.map (·.2)) last) := by
  unfold Dinero.fill
  refine Alike.append ?_ (.refl last)
  induction fillings generalizing literals with
  | nil => simpa using Alike.nil
  | cons p fillings ih =>
    cases literals with
    | nil => exact .nil
    | cons l literals =>
      have hfirst : Alike (l ++ p.1) (l ++ p.2) := (Alike.refl l).append (h p List.mem_cons_self)
      exact hfirst.append (ih (fun q hq => h q (List.mem_cons_of_mem p hq)) literals)

/-! ### reading the fillings back -/

/-- What a plain character is to the two passes. -/
inductive Passes (c : Char) : Prop
  | digit (h : isDigit c = true) (hlower : c.toLower = c)
  | white (h : isWhitespace c = true) (hlower : c.toLower = c)
  | other (h : isDigit c.toLower = false) (h' : isWhitespace c.toLower = false)
      (hhash : c.toLower ≠ '#') (hblank : c.toLower ≠ ' ') (hbar : c.toLower ≠ '|')

theorem passes_of_isPlain {c : Char} (h : isPlain c = true) : Passes c := by
  simp only [isPlain, Bool.and_eq_true, decide_eq_true_eq] at h
  obtain ⟨⟨hprint, hhash⟩, hbar⟩ := h
  obtain hlower | ⟨-, halpha⟩ := toLower_cases c
  · cases hdigit : isDigit c with
    | true => exact .digit hdigit hlower
    | false =>
      cases hwhite : isWhitespace c with
      | true => exact .white hwhite hlower
      | false =>
        refine .other ?_ ?_ ?_ ?_ ?_ <;> rw [hlower]
        · exact hdigit
        · exact hwhite
        · exact hhash
        · rintro rfl
          exact absurd (hwhite.symm.trans blank_white) (by decide)
        · exact hbar
  · have hne : ∀ d : Char, d.isAlpha = false → c.toLower ≠ d := by
      rintro d hd rfl
      exact absurd (hd.symm.trans halpha) (by decide)
    have hprint' := (isPrintable_of_isAlpha halpha).1
    refine .other ?_ ?_ (hne '#' (by decide)) (hne ' ' (by decide)) (hne '|' (by decide))
    · rw [UnicodeCase.isDigit_printable _ hprint']
      by_contra hd
      rw [Bool.not_eq_false] at hd
      have hletter := isAlpha_range halpha
      have hnumeral := isDigit_range hd
      omega
    · rw [UnicodeCase.isWhitespace_printable _ hprint']
      exact beq_false_of_ne (hne ' ' (by decide))

/-- What is left of a filling. -/
def shape (s : List Char) : List Char := squash false false (s.map Char.toLower)

omit [UnicodeCase] in
theorem shape_nil : shape [] = [] := rfl

/-- In a filling a state that is left at once makes no difference. -/
theorem squash_state (inDigits inSpace : Bool) {c : Char} (s : List Char)
    (hdigit : inDigits = true → isDigit c = false)
    (hwhite : inSpace = true → isWhitespace c = false) :
    squash inDigits inSpace (c :: s) = squash false false (c :: s) := by
  cases hd : isDigit c with
  | true =>
    obtain rfl : inDigits = false := by
      cases inDigits with
      | false => rfl
      | true => exact absurd ((hdigit rfl).symm.trans hd) (by decide)
    rw [squash_cons_digit hd, squash_cons_digit hd]
    rfl
  | false =>
    cases hw : isWhitespace c with
    | true =>
      obtain rfl : inSpace = false := by
        cases inSpace with
        | false => rfl
        | true => exact absurd ((hwhite rfl).symm.trans hw) (by decide)
      rw [squash_cons_white hw, squash_cons_white hw]
    | false => rw [squash_cons_other hd hw, squash_cons_other hd hw]

/-- A filling that is not empty begins with a run, or with a character that is kept. -/
inductive Begins (s : List Char) : Prop
  | digits (ds r : List Char) (hs : s = ds ++ r) (hne : ds ≠ []) (h : ∀ c ∈ ds, isDigit c = true)
      (hshape : shape s = '#' :: shape r)
  | spaces (ws r : List Char) (hs : s = ws ++ r) (hne : ws ≠ [])
      (h : ∀ c ∈ ws, isWhitespace c = true) (hshape : shape s = ' ' :: shape r)
  | other (c : Char) (r : List Char) (hs : s = c :: r) (hhash : c.toLower ≠ '#')
      (hblank : c.toLower ≠ ' ') (hshape : shape s = c.toLower :: shape r)

theorem toLower_of_caseless {c : Char} (hplain : isPlain c = true) (h : tables.Caseless c) :
    c.toLower = c := by
  have hprint : isPrintable c = true := by
    simp only [isPlain, Bool.and_eq_true] at hplain
    exact hplain.1.1
  have hlower := UnicodeCase.lowercase_printable c hprint
  rw [h.lowercase] at hlower
  exact (List.singleton_inj.mp hlower).symm

/-- A run of characters that lower-casing leaves alone. -/
theorem map_toLower_run {ds : List Char} (hplain : ∀ c ∈ ds, isPlain c = true)
    (h : ∀ c ∈ ds, tables.Caseless c) : ds.map Char.toLower = ds := by
  rw [List.map_congr_left fun c hc => toLower_of_caseless (hplain c hc) (h c hc)]
  exact List.map_id _

/-- What comes behind a run is squashed as if it came first. -/
theorem squash_behind (inDigits inSpace : Bool) {r : List Char}
    (hplain : ∀ c ∈ r, isPlain c = true)
    (hdigit : inDigits = true → ∀ c ∈ r.head?, isDigit c = false)
    (hwhite : inSpace = true → ∀ c ∈ r.head?, isWhitespace c = false) :
    squash inDigits inSpace (r.map Char.toLower) = shape r := by
  cases r with
  | nil => rfl
  | cons c r =>
    rw [List.map_cons]
    refine squash_state _ _ _ (fun hin => ?_) (fun hin => ?_)
    · cases passes_of_isPlain (hplain c List.mem_cons_self) with
      | digit h hlower => rw [hlower]; exact hdigit hin c rfl
      | white h hlower => rw [hlower]; exact hdigit hin c rfl
      | other h _ _ _ _ => exact h
    · cases passes_of_isPlain (hplain c List.mem_cons_self) with
      | digit h hlower => rw [hlower]; exact hwhite hin c rfl
      | white h hlower => rw [hlower]; exact hwhite hin c rfl
      | other _ h _ _ _ => exact h

theorem begins_of_isPlain {c : Char} {s : List Char} (h : ∀ x ∈ c :: s, isPlain x = true) :
    Begins (c :: s) := by
  have htake : ∀ p : Char → Bool, ∀ x ∈ (c :: s).takeWhile p, isPlain x = true := fun p x hx =>
    h x ((List.takeWhile_prefix p).subset hx)
  have hdrop : ∀ p : Char → Bool, ∀ x ∈ (c :: s).dropWhile p, isPlain x = true := fun p x hx =>
    h x ((List.dropWhile_suffix p).subset hx)
  have hhead : ∀ p : Char → Bool, ∀ x ∈ ((c :: s).dropWhile p).head?, p x = false := by
    intro p x hx
    have hnot := List.head?_dropWhile_not p (c :: s)
    rw [Option.mem_def.mp hx] at hnot
    exact hnot
  have hmap : ∀ p : Char → Bool, (c :: s).map Char.toLower =
      ((c :: s).takeWhile p).map Char.toLower ++ ((c :: s).dropWhile p).map Char.toLower := by
    intro p
    rw [← List.map_append, List.takeWhile_append_dropWhile]
  cases passes_of_isPlain (h c List.mem_cons_self) with
  | digit hd _ =>
    have hne : (c :: s).takeWhile isDigit ≠ [] := by simp [hd]
    have hall : ∀ x ∈ (c :: s).takeWhile isDigit, isDigit x = true := fun x hx =>
      List.mem_takeWhile_imp hx
    refine .digits _ _ (List.takeWhile_append_dropWhile (p := isDigit)).symm hne hall ?_
    unfold shape
    rw [hmap isDigit,
      map_toLower_run (htake isDigit) fun x hx => (UnicodeCase.digit x (hall x hx)).1,
      squash_digits hne hall, if_neg (by decide),
      squash_behind true false (hdrop isDigit) (fun _ => hhead isDigit) (fun h => by simp at h)]
    rfl
  | white hw _ =>
    have hne : (c :: s).takeWhile isWhitespace ≠ [] := by simp [hw]
    have hall : ∀ x ∈ (c :: s).takeWhile isWhitespace, isWhitespace x = true := fun x hx =>
      List.mem_takeWhile_imp hx
    refine .spaces _ _ (List.takeWhile_append_dropWhile (p := isWhitespace)).symm hne hall ?_
    unfold shape
    rw [hmap isWhitespace, map_toLower_run (htake isWhitespace) fun x hx =>
        UnicodeCase.white x (hall x hx),
      squash_spaces hne hall, if_neg (by decide),
      squash_behind false true (hdrop isWhitespace) (fun h => by simp at h)
        (fun _ => hhead isWhitespace)]
    rfl
  | other hd hw hhash hblank _ =>
    refine .other c s rfl hhash hblank ?_
    unfold shape
    rw [List.map_cons, squash_cons_other hd hw]

omit [Extern] [UnicodeCase] in
theorem letter_of_toLower_eq {c d : Char} (heq : c.toLower = d.toLower) :
    c = d ∨ (c.isAlpha = true ∧ d.isAlpha = true) := by
  obtain hc | ⟨hc, hc'⟩ := toLower_cases c
  · obtain hd | ⟨hd, hd'⟩ := toLower_cases d
    · exact .inl (hc.symm.trans (heq.trans hd))
    · rw [← heq, hc] at hd'
      exact .inr ⟨hd', hd⟩
  · obtain hd | ⟨hd, -⟩ := toLower_cases d
    · rw [heq, hd] at hc'
      exact .inr ⟨hc, hc'⟩
    · exact .inr ⟨hc, hd⟩

/-- Fillings of one shape are alike. -/
theorem alike_of_shape {s t : List Char} (hs : ∀ c ∈ s, isPlain c = true)
    (ht : ∀ c ∈ t, isPlain c = true) (h : shape s = shape t) : Alike s t := by
  induction hlen : s.length using Nat.strong_induction_on generalizing s t with
  | _ n ih =>
    cases s with
    | nil =>
      cases t with
      | nil => exact .nil
      | cons d t =>
        cases begins_of_isPlain ht with
        | digits _ _ _ _ _ hshape => rw [shape_nil, hshape] at h; simp at h
        | spaces _ _ _ _ _ hshape => rw [shape_nil, hshape] at h; simp at h
        | other _ _ _ _ _ hshape => rw [shape_nil, hshape] at h; simp at h
    | cons c s =>
      cases t with
      | nil =>
        cases begins_of_isPlain hs with
        | digits _ _ _ _ _ hshape => rw [shape_nil, hshape] at h; simp at h
        | spaces _ _ _ _ _ hshape => rw [shape_nil, hshape] at h; simp at h
        | other _ _ _ _ _ hshape => rw [shape_nil, hshape] at h; simp at h
      | cons d t =>
        cases begins_of_isPlain hs with
        | digits ds r hsplit hne hall hshape =>
          cases begins_of_isPlain ht with
          | digits es r' hsplit' hne' hall' hshape' =>
            rw [hshape, hshape', List.cons_inj_right] at h
            rw [hsplit] at hs hlen ⊢
            rw [hsplit'] at ht ⊢
            have hshort : r.length < n := by
              have := List.length_pos_of_ne_nil hne
              rw [List.length_append] at hlen
              omega
            exact .digits hne hne' hall hall' (ih _ hshort
              (fun x hx => hs x (List.mem_append_right ds hx))
              (fun x hx => ht x (List.mem_append_right es hx)) h rfl)
          | spaces _ _ _ _ _ hshape' => rw [hshape, hshape'] at h; simp at h
          | other _ _ _ hhash _ hshape' =>
            rw [hshape, hshape'] at h
            exact absurd (List.cons_eq_cons.mp h).1.symm hhash
        | spaces ws r hsplit hne hall hshape =>
          cases begins_of_isPlain ht with
          | digits _ _ _ _ _ hshape' => rw [hshape, hshape'] at h; simp at h
          | spaces vs r' hsplit' hne' hall' hshape' =>
            rw [hshape, hshape', List.cons_inj_right] at h
            rw [hsplit] at hs hlen ⊢
            rw [hsplit'] at ht ⊢
            have hshort : r.length < n := by
              have := List.length_pos_of_ne_nil hne
              rw [List.length_append] at hlen
              omega
            exact .spaces hne hne' hall hall' (ih _ hshort
              (fun x hx => hs x (List.mem_append_right ws hx))
              (fun x hx => ht x (List.mem_append_right vs hx)) h rfl)
          | other _ _ _ _ hblank hshape' =>
            rw [hshape, hshape'] at h
            exact absurd (List.cons_eq_cons.mp h).1.symm hblank
        | other c' r hsplit hhash hblank hshape =>
          cases begins_of_isPlain ht with
          | digits _ _ _ _ _ hshape' =>
            rw [hshape, hshape'] at h
            exact absurd (List.cons_eq_cons.mp h).1 hhash
          | spaces _ _ _ _ _ hshape' =>
            rw [hshape, hshape'] at h
            exact absurd (List.cons_eq_cons.mp h).1 hblank
          | other d' r' hsplit' _ _ hshape' =>
            rw [hshape, hshape'] at h
            obtain ⟨heq, htail⟩ := List.cons_eq_cons.mp h
            rw [hsplit] at hs hlen ⊢
            rw [hsplit'] at ht ⊢
            have hrest : Alike r r' := ih _ (by rw [← hlen]; simp)
              (fun x hx => hs x (List.mem_cons_of_mem _ hx))
              (fun x hx => ht x (List.mem_cons_of_mem _ hx)) htail rfl
            obtain rfl | ⟨hc, hd⟩ := letter_of_toLower_eq heq
            · exact .same _ hrest
            · exact .letter hc hd heq hrest

/-! ### a template that keeps its fillings apart -/

theorem squash_append_bar (inDigits inSpace : Bool) (s t : List Char) :
    squash inDigits inSpace (s ++ '|' :: t) =
      squash inDigits inSpace s ++ '|' :: squash false false t := by
  have hdigit : isDigit '|' = false := UnicodeCase.isDigit_printable '|' (by decide)
  have hwhite : isWhitespace '|' = false := UnicodeCase.isWhitespace_printable '|' (by decide)
  induction s generalizing inDigits inSpace with
  | nil => exact squash_cons_other hdigit hwhite inDigits inSpace t
  | cons c s ih =>
    rw [List.cons_append]
    cases hd : isDigit c with
    | true =>
      rw [squash_cons_digit hd, squash_cons_digit hd, ih, ih]
      cases inDigits <;> rfl
    | false =>
      cases hw : isWhitespace c with
      | true =>
        rw [squash_cons_white hw, squash_cons_white hw, ih]
        cases inSpace <;> rfl
      | false =>
        rw [squash_cons_other hd hw, squash_cons_other hd hw, ih]
        rfl

/-- The fillings between bars. -/
def barred (fillings : List (List Char)) : List Char :=
  (fillings.map ('|' :: ·)).flatten ++ ['|']

omit [Extern] [UnicodeCase] in
theorem fill_bars (fillings : List (List Char)) :
    fill (List.replicate fillings.length ['|']) fillings ['|'] = barred fillings := by
  unfold fill barred
  congr 2
  induction fillings with
  | nil => rfl
  | cons x fillings ih =>
    rw [List.length_cons, List.replicate_succ, List.zipWith_cons_cons, ih]
    rfl

theorem lower_printable {s : List Char} (h : ∀ c ∈ s, isPrintable c = true) (before : List Char) :
    tables.lower before s = s.map Char.toLower := by
  induction s generalizing before with
  | nil => rfl
  | cons c s ih =>
    have hc := h c List.mem_cons_self
    have hsigma : c ≠ 'Σ' := by
      rintro rfl
      exact absurd hc (by decide)
    rw [CaseTables.lower, if_neg hsigma, UnicodeCase.lowercase_printable c hc,
      ih fun x hx => h x (List.mem_cons_of_mem c hx)]
    rfl

theorem bar_not_mem_shape {s : List Char} (h : ∀ c ∈ s, isPlain c = true) : '|' ∉ shape s := by
  induction hlen : s.length using Nat.strong_induction_on generalizing s with
  | _ n ih =>
    cases s with
    | nil => simp [shape_nil]
    | cons c s =>
      have hshort : ∀ run r : List Char, c :: s = run ++ r → run ≠ [] → '|' ∉ shape r := by
        intro run r hsplit hne
        rw [hsplit] at h hlen
        refine ih r.length ?_ (fun x hx => h x (List.mem_append_right run hx)) rfl
        have := List.length_pos_of_ne_nil hne
        rw [List.length_append] at hlen
        omega
      cases begins_of_isPlain h with
      | digits ds r hsplit hne _ hshape =>
        rw [hshape]
        simpa using hshort ds r hsplit hne
      | spaces ws r hsplit hne _ hshape =>
        rw [hshape]
        simpa using hshort ws r hsplit hne
      | other d r hsplit _ _ hshape =>
        obtain ⟨rfl, rfl⟩ := List.cons_eq_cons.mp hsplit
        have hrest := hshort [c] s rfl (by simp)
        rw [hshape, List.mem_cons, not_or]
        refine ⟨?_, hrest⟩
        cases passes_of_isPlain (h c List.mem_cons_self) with
        | digit hd hlower =>
          rw [hlower]
          rintro rfl
          exact absurd hd (by rw [UnicodeCase.isDigit_printable '|' (by decide)]; decide)
        | white hw hlower =>
          rw [hlower]
          rintro rfl
          exact absurd hw (by rw [UnicodeCase.isWhitespace_printable '|' (by decide)]; decide)
        | other _ _ _ _ hbar => exact hbar.symm

/-- What is left of the fillings between bars. -/
theorem squash_barred (fillings : List (List Char)) :
    squash false false ((barred fillings).map Char.toLower) =
      barred (fillings.map shape) := by
  induction fillings with
  | nil =>
    exact squash_append_bar false false [] []
  | cons x fillings ih =>
    have hsplit : (barred (x :: fillings)).map Char.toLower =
        [] ++ '|' :: (x.map Char.toLower ++ (barred fillings).map Char.toLower) := by
      simp [barred]
    have hstart : ∀ l : List (List Char), ∃ r, barred l = '|' :: r := by
      intro l
      cases l with
      | nil => exact ⟨[], rfl⟩
      | cons y l => exact ⟨_, rfl⟩
    obtain ⟨r, hr⟩ := hstart fillings
    have hbar : ('|' : Char).toLower = '|' := by decide
    rw [hsplit, squash_append_bar, hr, List.map_cons, hbar, squash_append_bar]
    rw [hr, List.map_cons, hbar] at ih
    have htail := squash_append_bar false false [] (r.map Char.toLower)
    rw [List.nil_append] at htail
    rw [htail] at ih
    unfold barred at ih ⊢
    rw [List.map_cons, List.map_cons, List.flatten_cons, List.append_assoc, ← ih]
    rfl

omit [Extern] [UnicodeCase] in
theorem barred_inj {xs ys : List (List Char)} (hlen : xs.length = ys.length)
    (hx : ∀ x ∈ xs, '|' ∉ x) (hy : ∀ y ∈ ys, '|' ∉ y) (h : barred xs = barred ys) : xs = ys := by
  induction xs generalizing ys with
  | nil => exact (List.length_eq_zero_iff.mp hlen.symm).symm
  | cons x xs ih =>
    cases ys with
    | nil => simp at hlen
    | cons y ys =>
      have hstart : ∀ l : List (List Char), ∃ r, barred l = '|' :: r := by
        intro l
        cases l with
        | nil => exact ⟨[], rfl⟩
        | cons y l => exact ⟨_, rfl⟩
      obtain ⟨r, hr⟩ := hstart xs
      obtain ⟨r', hr'⟩ := hstart ys
      have hcons : ∀ (x : List Char) (l : List (List Char)),
          barred (x :: l) = '|' :: (x ++ barred l) := by
        intro x l
        simp [barred]
      rw [hcons, hcons, hr, hr', List.cons_inj_right] at h
      have hparts : x = y ∧ r = r' := by
        have hleft : x = (x ++ '|' :: r).takeWhile (· ≠ '|') := by
          rw [List.takeWhile_append_of_pos]
          · simp
          · intro c hc
            simpa using fun heq : c = '|' => hx x List.mem_cons_self (heq ▸ hc)
        have hright : y = (y ++ '|' :: r').takeWhile (· ≠ '|') := by
          rw [List.takeWhile_append_of_pos]
          · simp
          · intro c hc
            simpa using fun heq : c = '|' => hy y List.mem_cons_self (heq ▸ hc)
        have hxy : x = y := by rw [hleft, h, ← hright]
        rw [hxy] at h
        exact ⟨hxy, by simpa using h⟩
      rw [hparts.1, ih (by simpa using hlen) (fun z hz => hx z (List.mem_cons_of_mem x hz))
        (fun z hz => hy z (List.mem_cons_of_mem y hz)) (by rw [hr, hr', hparts.2])]

/-- Bars at both ends are not trimmed. -/
theorem trim_barred (fillings : List (List Char)) : trim (barred fillings) = barred fillings := by
  have hwhite : isWhitespace '|' = false := UnicodeCase.isWhitespace_printable '|' (by decide)
  have hdrop : (barred fillings).dropWhile isWhitespace = barred fillings := by
    cases fillings with
    | nil => simp [barred, hwhite]
    | cons x fillings => simp [barred, hwhite]
  unfold trim trimMatches
  rw [hdrop]
  unfold barred
  rw [List.reverse_append, List.reverse_singleton, List.singleton_append, List.dropWhile_cons,
    if_neg (by rw [hwhite]; decide)]
  simp

theorem templateOf_bars {fillings : List (List Char)}
    (h : ∀ x ∈ fillings, ∀ c ∈ x, isPlain c = true) :
    templateOf (fill (List.replicate fillings.length ['|']) fillings ['|']) =
      barred (fillings.map shape) := by
  have hprint : ∀ c ∈ barred fillings, isPrintable c = true := by
    intro c hc
    simp only [barred, List.mem_append, List.mem_flatten, List.mem_map, List.mem_singleton] at hc
    obtain ⟨_, ⟨x, hx, rfl⟩, hc⟩ | rfl := hc
    · obtain rfl | hc := List.mem_cons.mp hc
      · decide
      · have hplain := h x hx c hc
        simp only [isPlain, Bool.and_eq_true] at hplain
        exact hplain.1.1
    · decide
  unfold templateOf
  rw [fill_bars, lower_printable hprint, squash_barred, trim_barred]

/-- **Template hashing**: it abstracts from the fillings just if the two fillings of each hole are
alike. -/
theorem abstracts_iff {fillings : List (List Char × List Char)}
    (hplain : ∀ p ∈ fillings, (∀ c ∈ p.1, isPlain c = true) ∧ ∀ c ∈ p.2, isPlain c = true) :
    Abstracts fillings ↔ ∀ p ∈ fillings, Alike p.1 p.2 := by
  constructor
  · intro habstracts
    have hhash := habstracts.holes id (List.replicate fillings.length ['|']) ['|'] (by simp)
    rw [templateHashWith_eq, templateHashWith_eq] at hhash
    have htext := String.ofList_inj.mp hhash
    have hfirsts : ∀ x ∈ fillings.map (·.1), ∀ c ∈ x, isPlain c = true := by
      intro x hx
      obtain ⟨p, hp, rfl⟩ := List.mem_map.mp hx
      exact (hplain p hp).1
    have hseconds : ∀ x ∈ fillings.map (·.2), ∀ c ∈ x, isPlain c = true := by
      intro x hx
      obtain ⟨p, hp, rfl⟩ := List.mem_map.mp hx
      exact (hplain p hp).2
    have hfirst := templateOf_bars hfirsts
    have hsecond := templateOf_bars hseconds
    rw [List.length_map] at hfirst hsecond
    rw [hfirst, hsecond] at htext
    have hbar : ∀ xs : List (List Char), (∀ x ∈ xs, ∀ c ∈ x, isPlain c = true) →
        ∀ y ∈ xs.map shape, '|' ∉ y := by
      intro xs hxs y hy
      obtain ⟨x, hx, rfl⟩ := List.mem_map.mp hy
      exact bar_not_mem_shape (hxs x hx)
    have hshapes := barred_inj (by simp) (hbar _ hfirsts) (hbar _ hseconds) htext
    rw [List.map_map, List.map_map, List.map_inj_left] at hshapes
    exact fun p hp => alike_of_shape (hplain p hp).1 (hplain p hp).2 (hshapes p hp)
  · intro halike
    constructor
    · intro sha literals last _
      rw [templateHashWith_eq, templateHashWith_eq, (Alike.fill halike literals last).templateOf_eq]
    · intro sha before ws vs after hws hvs hw hv
      have hmessage : Alike (before ++ ws ++ after) (before ++ vs ++ after) := by
        rw [List.append_assoc, List.append_assoc]
        exact (Alike.refl before).append (.spaces hws hvs hw hv (.refl after))
      rw [templateHashWith_eq, templateHashWith_eq, hmessage.templateOf_eq]
    · intro sha ws body hw
      obtain ⟨hleft, hright⟩ := templateOf_edges hw body
      rw [templateHashWith_eq, templateHashWith_eq, templateHashWith_eq, hleft, hright]
      exact ⟨rfl, rfl⟩

/-! ### amounts -/

omit [Extern] [UnicodeCase] in
/-- An amount in print: digits, in groups behind commas if there are more, and decimals if there
are any. -/
structure PrintedAmount where
  first : List Char
  groups : List (List Char)
  decimals : Option (List Char)
  digits : ∀ ds ∈ first :: groups ++ decimals.toList, ds ≠ [] ∧ ∀ c ∈ ds, c.isDigit = true

namespace PrintedAmount

/-- The groups and the decimals, each behind its mark. -/
def tail (groups : List (List Char)) (decimals : Option (List Char)) : List Char :=
  (groups.map (',' :: ·)).flatten ++ (decimals.map ('.' :: ·)).getD []

def text (a : PrintedAmount) : List Char := a.first ++ tail a.groups a.decimals

end PrintedAmount

omit [Extern] [UnicodeCase] in
theorem isPlain_of_isDigit {c : Char} (h : c.isDigit = true) : isPlain c = true := by
  have hrange := isDigit_range h
  have hne : ∀ d : Char, d.toNat < 48 ∨ 57 < d.toNat → c ≠ d := by
    rintro d hd rfl
    omega
  have hhash := hne '#' (by decide)
  have hbar := hne '|' (by decide)
  simp only [isPlain, isPrintable, Bool.and_eq_true, decide_eq_true_eq]
  exact ⟨⟨⟨by omega, by omega⟩, hhash⟩, hbar⟩

theorem shape_digits {ds : List Char} (hne : ds ≠ []) (h : ∀ c ∈ ds, c.isDigit = true)
    {r : List Char} (hr : ∀ c ∈ r, isPlain c = true) (hhead : ∀ c ∈ r.head?, isDigit c = false) :
    shape (ds ++ r) = '#' :: shape r := by
  have hplain : ∀ c ∈ ds, isPlain c = true := fun c hc => isPlain_of_isDigit (h c hc)
  have hall : ∀ c ∈ ds, isDigit c = true := by
    intro c hc
    have hc' := hplain c hc
    simp only [isPlain, Bool.and_eq_true] at hc'
    rw [UnicodeCase.isDigit_printable c hc'.1.1]
    exact h c hc
  have hrest := squash_behind true false hr (fun _ => hhead) (fun h => by simp at h)
  unfold shape at hrest ⊢
  rw [List.map_append, map_toLower_run hplain fun c hc => (UnicodeCase.digit c (hall c hc)).1,
    squash_digits hne hall, if_neg (by decide), hrest]

theorem shape_mark {c : Char} (hprint : isPrintable c = true) (hdigit : c.isDigit = false)
    (hblank : c ≠ ' ') (hlower : c.toLower = c) (r : List Char) :
    shape (c :: r) = c :: shape r := by
  unfold shape
  rw [List.map_cons, hlower]
  refine squash_cons_other ?_ ?_ _ _ _
  · rw [UnicodeCase.isDigit_printable c hprint, hdigit]
  · rw [UnicodeCase.isWhitespace_printable c hprint]
    exact beq_false_of_ne hblank

theorem not_digit_mark {c : Char} (hprint : isPrintable c = true) (hdigit : c.isDigit = false) :
    isDigit c = false := by
  rw [UnicodeCase.isDigit_printable c hprint, hdigit]

namespace PrintedAmount

omit [Extern] [UnicodeCase] in
theorem tail_plain {groups : List (List Char)} {decimals : Option (List Char)}
    (h : ∀ ds ∈ groups ++ decimals.toList, ds ≠ [] ∧ ∀ c ∈ ds, c.isDigit = true) :
    ∀ c ∈ tail groups decimals, isPlain c = true := by
  intro c hc
  unfold tail at hc
  rw [List.mem_append] at hc
  cases hc with
  | inl hc =>
    obtain ⟨_, hmem, hc⟩ := List.mem_flatten.mp hc
    obtain ⟨ds, hds, rfl⟩ := List.mem_map.mp hmem
    obtain rfl | hc := List.mem_cons.mp hc
    · decide
    · exact isPlain_of_isDigit ((h ds (List.mem_append_left _ hds)).2 c hc)
  | inr hc =>
    cases decimals with
    | none => exact absurd hc List.not_mem_nil
    | some ds =>
      obtain rfl | hc := List.mem_cons.mp hc
      · decide
      · exact isPlain_of_isDigit ((h ds (List.mem_append_right _ (by simp))).2 c hc)

theorem tail_head {groups : List (List Char)} {decimals : Option (List Char)} :
    ∀ c ∈ (tail groups decimals).head?, isDigit c = false := by
  intro c hc
  have hmark : c = ',' ∨ c = '.' := by
    cases groups with
    | nil =>
      cases decimals with
      | none => simp [tail] at hc
      | some ds => simpa [tail, eq_comm] using Or.inr hc
    | cons g groups => simpa [tail, eq_comm] using Or.inl hc
  obtain rfl | rfl := hmark
  · exact not_digit_mark (by decide) (by decide)
  · exact not_digit_mark (by decide) (by decide)

/-- What is left of an amount: one mark for each run of digits. -/
theorem shape_tail {groups : List (List Char)} {decimals : Option (List Char)}
    (h : ∀ ds ∈ groups ++ decimals.toList, ds ≠ [] ∧ ∀ c ∈ ds, c.isDigit = true) :
    shape (tail groups decimals) =
      tail (groups.map fun _ => ['#']) (decimals.map fun _ => ['#']) := by
  induction groups with
  | nil =>
    cases decimals with
    | none => rfl
    | some ds =>
      obtain ⟨hne, hall⟩ := h ds (by simp)
      have hdigits := shape_digits hne hall (r := []) (by simp) (by simp)
      rw [List.append_nil] at hdigits
      show shape ('.' :: ds) = _
      rw [shape_mark (by decide) (by decide) (by decide) (by decide), hdigits]
      rfl
  | cons g groups ih =>
    have hrest : ∀ ds ∈ groups ++ decimals.toList, ds ≠ [] ∧ ∀ c ∈ ds, c.isDigit = true :=
      fun ds hds => h ds (List.mem_cons_of_mem g hds)
    obtain ⟨hne, hall⟩ := h g List.mem_cons_self
    have hcons : tail (g :: groups) decimals = ',' :: (g ++ tail groups decimals) := by
      simp [tail]
    rw [hcons, shape_mark (by decide) (by decide) (by decide) (by decide),
      shape_digits hne hall (tail_plain hrest) tail_head, ih hrest]
    rfl

theorem shape_text (a : PrintedAmount) : shape a.text =
    '#' :: tail (a.groups.map fun _ => ['#']) (a.decimals.map fun _ => ['#']) := by
  have hrest : ∀ ds ∈ a.groups ++ a.decimals.toList, ds ≠ [] ∧ ∀ c ∈ ds, c.isDigit = true :=
    fun ds hds => a.digits ds (List.mem_cons_of_mem a.first hds)
  obtain ⟨hne, hall⟩ := a.digits a.first List.mem_cons_self
  unfold text
  rw [shape_digits hne hall (tail_plain hrest) tail_head, shape_tail hrest]

omit [Extern] [UnicodeCase] in
theorem text_plain (a : PrintedAmount) : ∀ c ∈ a.text, isPlain c = true := by
  intro c hc
  obtain hc | hc := List.mem_append.mp hc
  · exact isPlain_of_isDigit ((a.digits a.first List.mem_cons_self).2 c hc)
  · exact tail_plain (fun ds hds => a.digits ds (List.mem_cons_of_mem a.first hds)) c hc

/-- **Amounts** are alike just if they have equally many commas, and both decimals or neither. -/
theorem alike_iff (a b : PrintedAmount) :
    Alike a.text b.text ↔
      a.groups.length = b.groups.length ∧ a.decimals.isSome = b.decimals.isSome := by
  have hcommas : ∀ a : PrintedAmount, (shape a.text).count ',' = a.groups.length := by
    intro a
    rw [shape_text]
    unfold tail
    rw [List.count_cons, List.count_append, List.count_flatten]
    cases a.decimals <;> simp
  have hpoints : ∀ a : PrintedAmount,
      (shape a.text).count '.' = if a.decimals.isSome then 1 else 0 := by
    intro a
    rw [shape_text]
    unfold tail
    rw [List.count_cons, List.count_append, List.count_flatten]
    cases a.decimals <;> simp
  constructor
  · intro h
    have hprint : ∀ a : PrintedAmount, ∀ c ∈ a.text, isPrintable c = true := by
      intro a c hc
      have hplain := a.text_plain c hc
      simp only [isPlain, Bool.and_eq_true] at hplain
      exact hplain.1.1
    have hshape : shape a.text = shape b.text := by
      have hruns : SameRuns (tables.lower [] a.text) (tables.lower [] b.text) := h.lower rfl
      have hlower := hruns.squash_eq false false
      rw [lower_printable (hprint a), lower_printable (hprint b)] at hlower
      exact hlower
    have hcount := hpoints a
    rw [hshape, hpoints b] at hcount
    refine ⟨by rw [← hcommas a, hshape, hcommas b], ?_⟩
    cases ha : a.decimals.isSome <;> cases hb : b.decimals.isSome <;> simp [ha, hb] at hcount ⊢
  · rintro ⟨hgroups, hdecimals⟩
    refine alike_of_shape a.text_plain b.text_plain ?_
    rw [shape_text, shape_text]
    congr 2
    · rw [List.map_const', List.map_const', hgroups]
    · cases ha : a.decimals <;> cases hb : b.decimals <;> simp [ha, hb] at hdecimals ⊢

end PrintedAmount

end

/-! ### five hundred, and a thousand more -/

/-- The case tables of ASCII. -/
def asciiCase : CaseTables where
  isCased := Char.isAlpha
  isCaseIgnorable c := c = '.' || c = ':' || c = '^'
  lowercase c := [c.toLower]

/-- Texts of ASCII, lower-cased as `str::to_lowercase` does. -/
@[reducible] def Extern.lowercasing : Extern :=
  { Extern.ascii with toLowercase := fun s => String.ofList (asciiCase.lower [] s.toList) }

theorem asciiCase_caseless {c : Char} (halpha : c.isAlpha = false)
    (hne : c ≠ '.' ∧ c ≠ ':' ∧ c ≠ '^' ∧ c ≠ 'Σ') : asciiCase.Caseless c where
  ne_sigma := hne.2.2.2
  lowercase := by
    obtain hlower | ⟨hc, -⟩ := toLower_cases c
    · exact congrArg ([·]) hlower
    · exact absurd (halpha.symm.trans hc) (by decide)
  not_cased := halpha
  not_ignorable := by simp [asciiCase, hne]

theorem asciiCase_digit {c : Char} (hc : c.isDigit = true) :
    asciiCase.Caseless c ∧ c.isWhitespace = false := by
  have hrange := isDigit_range hc
  have hne : ∀ d : Char, d.toNat < 48 ∨ 57 < d.toNat → c ≠ d := by
    rintro d hd rfl
    omega
  exact ⟨asciiCase_caseless (not_isAlpha_of_digit hc) ⟨hne _ (by decide), hne _ (by decide),
    hne _ (by decide), hne _ (by decide)⟩, isWhitespace_of_lt (by omega)⟩

theorem asciiCase_white {c : Char} (hc : c.isWhitespace = true) : asciiCase.Caseless c := by
  rw [isWhitespace_eq, Bool.or_eq_true, Bool.or_eq_true, Bool.or_eq_true,
    decide_eq_true_iff, decide_eq_true_iff, decide_eq_true_iff, decide_eq_true_iff] at hc
  obtain ((rfl | rfl) | rfl) | rfl := hc <;> exact asciiCase_caseless (by decide) (by decide)

theorem asciiCase_letter {c : Char} (hc : c.isAlpha = true) :
    asciiCase.isCased c = true ∧ asciiCase.isCaseIgnorable c = false := by
  have hrange := isAlpha_range hc
  have hne : ∀ d : Char, d.toNat < 65 ∨ d.toNat = 94 → c ≠ d := by
    rintro d hd rfl
    omega
  exact ⟨hc, by simp [asciiCase, hne '.' (by decide), hne ':' (by decide), hne '^' (by decide)]⟩

theorem isWhitespace_of_isPrintable {c : Char} (hc : isPrintable c = true) :
    c.isWhitespace = (c == ' ') := by
  have hne : ∀ d : Char, d.toNat < 32 → c ≠ d := by
    rintro d hd rfl
    simp only [isPrintable, Bool.and_eq_true, decide_eq_true_eq] at hc
    omega
  rw [isWhitespace_eq, decide_eq_false (hne '\t' (by decide)),
    decide_eq_false (hne '\r' (by decide)), decide_eq_false (hne '\n' (by decide)),
    Bool.or_false, Bool.or_false, Bool.or_false]
  exact (beq_eq_decide c ' ').symm

@[reducible] def UnicodeCase.ascii :
    letI := Extern.lowercasing
    UnicodeCase :=
  letI := Extern.lowercasing
  { tables := asciiCase
    toLowercase_eq := fun _ => rfl
    digit := fun _ hc => asciiCase_digit hc
    white := fun _ hc => asciiCase_white hc
    letter := fun _ hc => asciiCase_letter hc
    lowercase_printable := fun _ _ => rfl
    isDigit_printable := fun _ _ => rfl
    isWhitespace_printable := fun _ hc => isWhitespace_of_isPrintable hc }

theorem abstracts_one :
    letI := Extern.lowercasing
    letI := UnicodeCase.ascii
    Abstracts [("500.00".toList, "75.50".toList)] := by
  let := Extern.lowercasing
  let := UnicodeCase.ascii
  have hplain : "500.00".toList.all isPlain = true ∧ "75.50".toList.all isPlain = true := by
    decide +kernel
  have hdigits : ∀ ds : List Char, ds.all isDigit = true → ∀ c ∈ ds, isDigit c = true :=
    fun ds h => List.all_eq_true.mp h
  refine (abstracts_iff (fun p hp => ?_)).mpr fun p hp => ?_
  · rw [List.mem_singleton.mp hp]
    exact ⟨List.all_eq_true.mp hplain.1, List.all_eq_true.mp hplain.2⟩
  · rw [List.mem_singleton.mp hp]
    have hdecimals : Alike ['0', '0'] ['5', '0'] :=
      @Alike.digits _ ['0', '0'] ['5', '0'] [] [] (by simp) (by simp)
        (hdigits _ (by decide +kernel)) (hdigits _ (by decide +kernel)) .nil
    exact @Alike.digits _ ['5', '0', '0'] ['7', '5'] _ _ (by simp) (by simp)
      (hdigits _ (by decide +kernel)) (hdigits _ (by decide +kernel)) (.same '.' hdecimals)

/-- An amount of four digits has a comma, and the template another hash. -/
theorem grouped_amount_told_apart :
    letI := Extern.lowercasing
    templateHashWith id "Rs 500 spent" = "rs # spent" ∧
      templateHashWith id "Rs 1,500 spent" = "rs #,# spent" ∧
      ¬ Abstracts [("500".toList, "1,500".toList)] := by
  let := Extern.lowercasing
  refine ⟨by decide +kernel, by decide +kernel, fun habstracts => ?_⟩
  have hhash := habstracts.holes id ["Rs ".toList] " spent".toList rfl
  revert hhash
  decide +kernel

end Dinero
