import Mathlib.Data.List.Basic

/-!
# Dinero.Backtrack

Regular expressions, matched by backtracking.

A pattern is tried at one place of a text and gives the ways it can match there,
the preferred one first: the left alternative before the right one, a greedy
repetition as long as it gets, a lazy one as short.  Groups keep what they matched
last.  Searching takes the first place where there is a way at all.
-/

namespace Backtrack

inductive Pattern where
  /-- One character. -/
  | lit (c : Char)
  /-- One character of a class. -/
  | cls (p : Char → Bool)
  /-- Nothing, where what stands in front, the last first, and what follows allow it. -/
  | assert (p : List Char → List Char → Bool)
  | seq (r s : Pattern)
  | alt (r s : Pattern)
  | star (greedy : Bool) (r : Pattern)
  | group (name : Nat) (r : Pattern)

/-- A place in a text, and what the groups have matched, the last first. -/
structure Place where
  before : List Char
  rest : List Char
  groups : List (Nat × List Char)
deriving DecidableEq, Repr

/-- What lies between two places. -/
def Place.between (s s' : Place) : List Char := s.rest.take (s.rest.length - s'.rest.length)

/-- A repetition of `m`, at most `n` times; a round that takes nothing is no round. -/
def rounds (m : Place → List Place) (greedy : Bool) : Nat → Place → List Place
  | 0, s => [s]
  | n + 1, s =>
    let more := ((m s).filter fun s' => s'.rest.length < s.rest.length).flatMap (rounds m greedy n)
    if greedy then more ++ [s] else s :: more

/-- The ways to match at a place, the preferred one first. -/
def Pattern.ways : Pattern → Place → List Place
  | lit c, s => match s.rest with
    | d :: rest => if d = c then [{ s with before := d :: s.before, rest := rest }] else []
    | [] => []
  | cls p, s => match s.rest with
    | d :: rest => if p d then [{ s with before := d :: s.before, rest := rest }] else []
    | [] => []
  | assert p, s => if p s.before s.rest then [s] else []
  | seq r t, s => (r.ways s).flatMap t.ways
  | alt r t, s => r.ways s ++ t.ways s
  | star greedy r, s => rounds r.ways greedy s.rest.length s
  | group name r, s =>
    (r.ways s).map fun s' => { s' with groups := (name, s.between s') :: s'.groups }

/-! ## short forms -/

def eps : Pattern := .assert fun _ _ => true

def seqAll : List Pattern → Pattern
  | [] => eps
  | [r] => r
  | r :: rs => .seq r (seqAll rs)

def altAll : List Pattern → Pattern
  | [] => .assert fun _ _ => false
  | [r] => r
  | r :: rs => .alt r (altAll rs)

/-- A text, character by character. -/
def text (s : String) : Pattern := seqAll (s.toList.map .lit)

/-- `r{n}`. -/
def times (n : Nat) (r : Pattern) : Pattern := seqAll (List.replicate n r)

/-- `r+` and `r+?`. -/
def plus (greedy : Bool) (r : Pattern) : Pattern := .seq r (.star greedy r)

/-- `r?`. -/
def opt (r : Pattern) : Pattern := .alt r eps

/-- `r??`. -/
def optLazy (r : Pattern) : Pattern := .alt eps r

/-- `^`. -/
def atStart : Pattern := .assert fun before _ => before = []

/-- `$`. -/
def atEnd : Pattern := .assert fun _ rest => rest = []

/-! ## searching and replacing -/

/-- The preferred match at the first place that has one: where it starts, and where it ends. -/
def searchFrom (r : Pattern) (before : List Char) : List Char → Option (Place × Place)
  | [] => (r.ways ⟨before, [], []⟩).head?.map fun s' => (⟨before, [], []⟩, s')
  | c :: rest => match r.ways ⟨before, c :: rest, []⟩ with
    | s' :: _ => some (⟨before, c :: rest, []⟩, s')
    | [] => searchFrom r (c :: before) rest

/-- The groups of the first match. -/
def captures (r : Pattern) (s : List Char) : Option (List (Nat × List Char)) :=
  (searchFrom r [] s).map fun m => m.2.groups

def isMatch (r : Pattern) (s : List Char) : Bool := (searchFrom r [] s).isSome

/-- What a group matched, if it took part. -/
def groupOf (name : Nat) (groups : List (Nat × List Char)) : Option (List Char) :=
  (groups.find? fun g => g.1 = name).map Prod.snd

/-- `replace_all`, for patterns that match no empty text; `skip` counts what is left of the match
being replaced. -/
def replaceFrom (r : Pattern) (by_ : List Char) (before : List Char) (skip : Nat) :
    List Char → List Char
  | [] => []
  | c :: rest => match skip with
    | n + 1 => replaceFrom r by_ (c :: before) n rest
    | 0 => match r.ways ⟨before, c :: rest, []⟩ with
      | s' :: _ =>
        if s'.rest.length ≤ rest.length then
          by_ ++ replaceFrom r by_ (c :: before) (rest.length - s'.rest.length) rest
        else c :: replaceFrom r by_ (c :: before) 0 rest
      | [] => c :: replaceFrom r by_ (c :: before) 0 rest

def replaceAll (r : Pattern) (by_ s : List Char) : List Char := replaceFrom r by_ [] 0 s

/-! ## what a match takes -/

/-- Every match takes a `c`. -/
def Pattern.Needs (c : Char) : Pattern → Prop
  | lit d => d = c
  | cls _ => False
  | assert _ => False
  | seq r t => r.Needs c ∨ t.Needs c
  | alt r t => r.Needs c ∧ t.Needs c
  | star _ _ => False
  | group _ r => r.Needs c

/-- No match takes anything but what `q` allows. -/
def Pattern.Within (q : Char → Prop) : Pattern → Prop
  | lit d => q d
  | cls p => ∀ d, p d = true → q d
  | assert _ => True
  | seq r t => r.Within q ∧ t.Within q
  | alt r t => r.Within q ∧ t.Within q
  | star _ r => r.Within q
  | group _ r => r.Within q

/-- From one place to a later one, over `used`. -/
def Takes (s s' : Place) (used : List Char) : Prop :=
  s.rest = used ++ s'.rest ∧ s'.before = used.reverse ++ s.before

theorem Takes.refl (s : Place) : Takes s s [] := ⟨rfl, rfl⟩

theorem Takes.trans {s s' s'' : Place} {u v : List Char} (h : Takes s s' u)
    (h' : Takes s' s'' v) : Takes s s'' (u ++ v) :=
  ⟨by rw [h.1, h'.1, List.append_assoc], by rw [h'.2, h.2, List.reverse_append, List.append_assoc]⟩

theorem takes_rounds {m : Place → List Place} {greedy : Bool} {q : Char → Prop}
    (h : ∀ s, ∀ s' ∈ m s, ∃ used, Takes s s' used ∧ ∀ c ∈ used, q c) (n : Nat) :
    ∀ s, ∀ s' ∈ rounds m greedy n s, ∃ used, Takes s s' used ∧ ∀ c ∈ used, q c := by
  induction n with
  | zero =>
    intro s s' hs'
    rw [List.mem_singleton.mp hs']
    exact ⟨[], Takes.refl s, by simp⟩
  | succ n ih =>
    intro s s' hs'
    have hcases : s' = s ∨ s' ∈ ((m s).filter fun s' => s'.rest.length < s.rest.length).flatMap
        (rounds m greedy n) := by
      rw [rounds] at hs'
      cases greedy with
      | true => simpa [or_comm] using hs'
      | false => simpa using hs'
    obtain rfl | hmore := hcases
    · exact ⟨[], Takes.refl s', by simp⟩
    · obtain ⟨mid, hmid, hs'⟩ := List.mem_flatMap.mp hmore
      obtain ⟨u, hu, hqu⟩ := h s mid (List.mem_filter.mp hmid).1
      obtain ⟨v, hv, hqv⟩ := ih mid s' hs'
      refine ⟨u ++ v, hu.trans hv, fun c hc => ?_⟩
      obtain hc | hc := List.mem_append.mp hc
      · exact hqu c hc
      · exact hqv c hc

theorem takes_ways {q : Char → Prop} {r : Pattern} (hr : r.Within q) :
    ∀ s, ∀ s' ∈ r.ways s, ∃ used, Takes s s' used ∧ ∀ c ∈ used, q c := by
  induction r with
  | lit d =>
    intro s s' hs'
    obtain ⟨before, rest, groups⟩ := s
    cases rest with
    | nil => simp [Pattern.ways] at hs'
    | cons e rest =>
      simp only [Pattern.ways] at hs'
      split at hs'
      · next he =>
        rw [List.mem_singleton.mp hs']
        have hd : q d := hr
        exact ⟨[e], ⟨rfl, rfl⟩, by simpa [he] using hd⟩
      · cases hs'
  | cls p =>
    intro s s' hs'
    obtain ⟨before, rest, groups⟩ := s
    cases rest with
    | nil => simp [Pattern.ways] at hs'
    | cons e rest =>
      simp only [Pattern.ways] at hs'
      split at hs'
      · next he =>
        rw [List.mem_singleton.mp hs']
        exact ⟨[e], ⟨rfl, rfl⟩, by simpa using hr e he⟩
      · cases hs'
  | assert p =>
    intro s s' hs'
    simp only [Pattern.ways] at hs'
    split at hs'
    · rw [List.mem_singleton.mp hs']
      exact ⟨[], Takes.refl s, by simp⟩
    · cases hs'
  | seq r t ihr iht =>
    intro s s' hs'
    obtain ⟨mid, hmid, hs'⟩ := List.mem_flatMap.mp hs'
    obtain ⟨u, hu, hqu⟩ := ihr hr.1 s mid hmid
    obtain ⟨v, hv, hqv⟩ := iht hr.2 mid s' hs'
    refine ⟨u ++ v, hu.trans hv, fun c hc => ?_⟩
    obtain hc | hc := List.mem_append.mp hc
    · exact hqu c hc
    · exact hqv c hc
  | alt r t ihr iht =>
    intro s s' hs'
    obtain hs' | hs' := List.mem_append.mp hs'
    · exact ihr hr.1 s s' hs'
    · exact iht hr.2 s s' hs'
  | star greedy r ih => exact fun s => takes_rounds (ih hr) s.rest.length s
  | group name r ih =>
    intro s s' hs'
    obtain ⟨mid, hmid, rfl⟩ := List.mem_map.mp hs'
    exact ih hr s mid hmid

theorem Pattern.within_true (r : Pattern) : r.Within fun _ => True := by
  induction r with
  | lit _ => trivial
  | cls _ => exact fun _ _ => trivial
  | assert _ => trivial
  | seq _ _ ihr iht => exact ⟨ihr, iht⟩
  | alt _ _ ihr iht => exact ⟨ihr, iht⟩
  | star _ _ ih => exact ih
  | group _ _ ih => exact ih

theorem mem_of_needs {c : Char} {r : Pattern} (hr : r.Needs c) :
    ∀ s, ∀ s' ∈ r.ways s, ∃ used, Takes s s' used ∧ c ∈ used := by
  induction r with
  | lit d =>
    intro s s' hs'
    obtain ⟨used, htakes, hused⟩ := @takes_ways (fun e => e = c) (.lit d) hr s s' hs'
    cases used with
    | nil =>
      obtain ⟨before, rest, groups⟩ := s
      cases rest with
      | nil => simp [Pattern.ways] at hs'
      | cons e rest =>
        simp only [Pattern.ways] at hs'
        split at hs'
        · rw [List.mem_singleton.mp hs'] at htakes
          have hlength := congrArg List.length htakes.1
          simp at hlength
        · cases hs'
    | cons e used => exact ⟨e :: used, htakes, by simp [hused e (by simp)]⟩
  | cls _ => exact hr.elim
  | assert _ => exact hr.elim
  | seq r t ihr iht =>
    intro s s' hs'
    obtain ⟨mid, hmid, hs'⟩ := List.mem_flatMap.mp hs'
    obtain ⟨u, hu, -⟩ := takes_ways r.within_true s mid hmid
    obtain ⟨v, hv, -⟩ := takes_ways t.within_true mid s' hs'
    obtain hr | ht := hr
    · obtain ⟨u, hu, hc⟩ := ihr hr s mid hmid
      exact ⟨u ++ v, hu.trans hv, List.mem_append_left _ hc⟩
    · obtain ⟨v, hv, hc⟩ := iht ht mid s' hs'
      exact ⟨u ++ v, hu.trans hv, List.mem_append_right _ hc⟩
  | alt r t ihr iht =>
    intro s s' hs'
    obtain hs' | hs' := List.mem_append.mp hs'
    · exact ihr hr.1 s s' hs'
    · exact iht hr.2 s s' hs'
  | star _ _ _ => exact hr.elim
  | group name r ih =>
    intro s s' hs'
    obtain ⟨mid, hmid, rfl⟩ := List.mem_map.mp hs'
    exact ih hr s mid hmid

/-! ## what replacing leaves -/

/-- A text without the character is left alone. -/
theorem replaceAll_of_not_mem {c : Char} {r : Pattern} (hr : r.Needs c) {s by_ : List Char}
    (hs : c ∉ s) : replaceAll r by_ s = s := by
  have hfrom : ∀ before, replaceFrom r by_ before 0 s = s := by
    induction s with
    | nil => exact fun _ => rfl
    | cons d s ih =>
      intro before
      have hnone : r.ways ⟨before, d :: s, []⟩ = [] := by
        rw [List.eq_nil_iff_forall_not_mem]
        intro s' hs'
        obtain ⟨used, htakes, hc⟩ := mem_of_needs hr _ s' hs'
        have hrest : d :: s = used ++ s'.rest := htakes.1
        exact hs (hrest ▸ List.mem_append_left _ hc)
      rw [replaceFrom, hnone]
      dsimp only
      rw [ih fun hc => hs (List.mem_cons_of_mem d hc)]
  exact hfrom []

/-- Characters that no match takes, and that are not put in, stay. -/
theorem filter_replaceAll {q : Char → Prop} {r : Pattern} (hr : r.Within q) {p : Char → Bool}
    (hp : ∀ c, q c → p c = false) {by_ : List Char} (hby : by_.filter p = []) (s : List Char) :
    (replaceAll r by_ s).filter p = s.filter p := by
  have hfrom : ∀ before skip, (replaceFrom r by_ before skip s).filter p =
      (s.drop skip).filter p := by
    induction s with
    | nil => simp [replaceFrom]
    | cons c s ih =>
      intro before skip
      cases skip with
      | succ n => rw [replaceFrom, List.drop_succ_cons, ih]
      | zero =>
        rw [replaceFrom, List.drop_zero]
        cases hways : r.ways ⟨before, c :: s, []⟩ with
        | nil =>
          dsimp only
          rw [List.filter_cons, List.filter_cons, ih, List.drop_zero]
        | cons s' others =>
          dsimp only
          split
          · next hle =>
            obtain ⟨used, htakes, hused⟩ := takes_ways hr _ s' (hways ▸ List.mem_cons_self)
            have hrest : c :: s = used ++ s'.rest := htakes.1
            have hgone : used.filter p = [] := by
              rw [List.filter_eq_nil_iff]
              intro d hd
              simp [hp d (hused d hd)]
            have hsuffix : s.drop (s.length - s'.rest.length) = s'.rest := by
              have hlength := congrArg List.length hrest
              rw [List.length_cons, List.length_append] at hlength
              have hdrop : (c :: s).drop (s.length - s'.rest.length + 1) = s'.rest := by
                rw [hrest, List.drop_left' (by omega)]
              rwa [List.drop_succ_cons] at hdrop
            rw [List.filter_append, hby, ih, hsuffix, hrest, List.filter_append, hgone]
          · rw [List.filter_cons, List.filter_cons, ih, List.drop_zero]
  exact hfrom [] 0

end Backtrack
