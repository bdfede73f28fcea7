import Mathlib.Data.List.Infix
import Mathlib.Data.List.Nodup
import Mathlib.Tactic.Common

/-!
# Dinero.HashChain

Chains of links, each carrying the digest of its predecessor.

`Intact digest g ls` says that `ls` is a chain that starts behind the digest
`g`: every link names the digest before it and carries its own.  A chain grows
by `Intact.snoc`; a changed content shows unless the digest does not see the
change (`intact_edit`), and links that are left out or moved show as long as
no digest comes twice (`prefix_of_intact`).

Nothing here knows what is chained, or how a digest is computed.
-/

namespace HashChain

variable {α δ : Type}

/-- A content between the digest before it and its own. -/
structure Link (α δ : Type) where
  prev : δ
  content : α
  hash : δ

/-- The links follow each other from the digest `g` on. -/
def Intact (digest : δ → α → δ) : δ → List (Link α δ) → Prop
  | _, [] => True
  | g, l :: ls => l.prev = g ∧ digest l.prev l.content = l.hash ∧ Intact digest l.hash ls

/-- The digest behind the last link. -/
def head : δ → List (Link α δ) → δ
  | g, [] => g
  | _, l :: ls => head l.hash ls

/-- All digests of a chain, the one it starts behind included. -/
def digests (g : δ) (ls : List (Link α δ)) : List δ := g :: ls.map (·.hash)

@[simp] theorem head_append (g : δ) (xs ys : List (Link α δ)) :
    head g (xs ++ ys) = head (head g xs) ys := by
  induction xs generalizing g with
  | nil => rfl
  | cons x xs ih => exact ih x.hash

theorem head_mem (g : δ) (ls : List (Link α δ)) : head g ls ∈ digests g ls := by
  induction ls generalizing g with
  | nil => exact List.mem_cons_self
  | cons l ls ih => exact List.mem_cons_of_mem _ (ih l.hash)

variable {digest : δ → α → δ}

theorem intact_append {g : δ} {xs ys : List (Link α δ)} :
    Intact digest g (xs ++ ys) ↔ Intact digest g xs ∧ Intact digest (head g xs) ys := by
  induction xs generalizing g with
  | nil => simp [Intact, head]
  | cons x xs ih => simp [Intact, head, ih, and_assoc]

/-- A chain grows at its end. -/
theorem Intact.snoc {g : δ} {ls : List (Link α δ)} (h : Intact digest g ls) (content : α) :
    Intact digest g (ls ++ [⟨head g ls, content, digest (head g ls) content⟩]) :=
  intact_append.mpr ⟨h, rfl, rfl, trivial⟩

/-- A changed content is seen exactly when the digest sees it. -/
theorem intact_edit {g : δ} {xs ys : List (Link α δ)} {l : Link α δ} {content : α}
    (h : Intact digest g (xs ++ l :: ys)) :
    Intact digest g (xs ++ { l with content := content } :: ys) ↔
      digest l.prev content = digest l.prev l.content := by
  obtain ⟨hxs, hprev, hhash, hys⟩ := intact_append.mp h
  rw [intact_append]
  constructor
  · rintro ⟨-, -, hhash', -⟩
    exact hhash'.trans hhash.symm
  · exact fun hsame => ⟨hxs, hprev, hsame.trans hhash, hys⟩

/-- Where a link stands in a chain: behind the head of what comes before. -/
theorem Intact.prev_eq {g : δ} {xs ys : List (Link α δ)} {l : Link α δ}
    (h : Intact digest g (xs ++ l :: ys)) : l.prev = head g xs :=
  (intact_append.mp h).2.1

theorem Intact.hash_eq {g : δ} {xs ys : List (Link α δ)} {l : Link α δ}
    (h : Intact digest g (xs ++ l :: ys)) : digest l.prev l.content = l.hash :=
  (intact_append.mp h).2.2.1

/-! ## digests that come once -/

/-- Further links move the head. -/
theorem head_ne_head {g : δ} {us zs ys : List (Link α δ)} {m : Link α δ}
    (hnodup : (digests g (us ++ m :: zs ++ ys)).Nodup) : head g us ≠ head g (us ++ m :: zs) := by
  have hsplit : digests g (us ++ m :: zs ++ ys) =
      digests g us ++ (digests m.hash zs ++ ys.map (·.hash)) := by
    simp [digests]
  rw [hsplit, List.nodup_append] at hnodup
  have hlate : head g (us ++ m :: zs) ∈ digests m.hash zs := by
    rw [head_append]
    exact head_mem m.hash zs
  exact hnodup.2.2 _ (head_mem g us) _ (List.mem_append_left _ hlate)

/-- If no digest comes twice, two beginnings with one head are one. -/
theorem eq_of_head_eq {g : δ} {us vs xs ys : List (Link α δ)} (hsplit : us ++ vs = xs ++ ys)
    (hnodup : (digests g (xs ++ ys)).Nodup) (hhead : head g us = head g xs) : us = xs := by
  rcases List.append_eq_append_iff.mp hsplit with ⟨as, hxs, -⟩ | ⟨cs, hus, -⟩
  · rcases as with _ | ⟨m, zs⟩
    · rw [hxs, List.append_nil]
    · rw [hxs] at hhead hnodup
      exact absurd hhead (head_ne_head hnodup)
  · rcases cs with _ | ⟨m, zs⟩
    · rw [hus, List.append_nil]
    · rw [← hsplit, hus] at hnodup
      rw [hus] at hhead
      exact absurd hhead.symm (head_ne_head hnodup)

/-- A chain of links of an intact chain is a beginning of it: nothing was left
out before its end, nothing moved. -/
theorem prefix_of_intact {g : δ} {ls ls' : List (Link α δ)} (h : Intact digest g ls)
    (hnodup : (digests g ls).Nodup) (h' : Intact digest g ls') (hsub : ∀ l ∈ ls', l ∈ ls) :
    ls' <+: ls := by
  -- `xs` is what both chains have in common so far
  have hrest : ∀ (ls' xs ys : List (Link α δ)), ls = xs ++ ys → Intact digest (head g xs) ls' →
      (∀ l ∈ ls', l ∈ ls) → ls' <+: ys := by
    intro ls'
    induction ls' with
    | nil => exact fun _ _ _ _ _ => List.nil_prefix
    | cons l ls' ih =>
      intro xs ys hls hintact hmem
      obtain ⟨hprev, -, hls'⟩ := hintact
      obtain ⟨us, vs, hus⟩ := List.append_of_mem (hmem l List.mem_cons_self)
      have hplace : head g us = head g xs := by
        rw [hus] at h
        rw [← h.prev_eq, hprev]
      have hsame : us = xs := eq_of_head_eq (hus.symm.trans hls) (hls ▸ hnodup) hplace
      subst hsame
      have hys : ys = l :: vs := List.append_cancel_left (hls.symm.trans hus)
      have hnext : ls = (us ++ [l]) ++ vs := by rw [hus, List.append_assoc, List.singleton_append]
      have htail := ih (us ++ [l]) vs hnext (by rw [head_append]; exact hls')
        fun m hm => hmem m (List.mem_cons_of_mem _ hm)
      rw [hys]
      exact List.prefix_cons_inj l |>.mpr htail
  exact hrest ls' [] ls rfl h' hsub

/-- No digest comes twice if links with one digest have one predecessor, and
none has the digest the chain starts behind. -/
theorem nodup_digests {g : δ} {ls : List (Link α δ)} (h : Intact digest g ls)
    (hfirst : ∀ l ∈ ls, l.hash ≠ g)
    (hinj : ∀ l ∈ ls, ∀ m ∈ ls, l.hash = m.hash → l.prev = m.prev) :
    (digests g ls).Nodup := by
  induction ls using List.reverseRecOn with
  | nil => simp [digests]
  | append_singleton ls l ih =>
    have hbefore := (intact_append.mp h).1
    have hnodup := ih hbefore (fun m hm => hfirst m (List.mem_append_left _ hm))
      fun m hm n hn => hinj m (List.mem_append_left _ hm) n (List.mem_append_left _ hn)
    have hnew : l.hash ∉ digests g ls := by
      intro hmem
      rcases List.mem_cons.mp hmem with hg | hold
      · exact hfirst l (by simp) hg
      · obtain ⟨m, hm, hhash⟩ := List.mem_map.mp hold
        have hprev : l.prev = m.prev := hinj l (by simp) m (by simp [hm]) hhash.symm
        -- but the head behind `ls` is another than the one before `m`
        obtain ⟨us, vs, rfl⟩ := List.append_of_mem hm
        have hlast : l.prev = head g (us ++ m :: vs) := h.prev_eq
        have hmiddle : m.prev = head g us := hbefore.prev_eq
        have hwhole : (digests g (us ++ m :: vs ++ [])).Nodup := by rwa [List.append_nil]
        exact head_ne_head hwhole (hmiddle.symm.trans (hprev.symm.trans hlast))
    rw [digests, List.map_append, List.map_singleton, ← List.cons_append]
    exact List.nodup_append.mpr ⟨hnodup, List.nodup_singleton _,
      fun d hd e he heq => hnew (List.mem_singleton.mp he ▸ heq ▸ hd)⟩

end HashChain
