import Dinero.Cleanup
import Dinero.GreedyPacking

/-!
# Dinero.SenderQueries

The queries a historical scan puts to Gmail.

The known senders go into clauses of bounded length, as many to a query as fit;
one more query looks for subjects, for the senders nobody knows yet.
-/

namespace Dinero

open GreedyPacking

def maxSenderClauseChars : Nat := 1500

def rescueSubjectTerms : List String :=
  ["spent", "debited", "debit of", "credited", "credit of", "withdrawn", "withdrawal", "deducted",
    "paid", "payment", "purchase", "purchased", "transaction", "txn", "transferred", "transfer of",
    "charged", "swiped", "card used", "card was used", "recharge successful", "received", "refund",
    "refunded", "reversal", "reversed", "deposited", "money added", "available balance",
    "available bal", "avl balance", "avl bal", "account balance", "a/c balance", "closing balance",
    "balance update", "updated balance", "balance in your account", "account update",
    "upi payment"]

/-! ## the queries -/

def senderClause (domains : List (List Char)) : List Char :=
  " OR ".toList.intercalate (domains.map fun d => "from:".toList ++ d)

def formatSenderQuery (dateRange : List Char) (domains : List (List Char)) : List Char :=
  '(' :: senderClause domains ++ ") ".toList ++ dateRange

def buildRescueSubjectQuery (dateRange : List Char) : List Char :=
  '(' :: " OR ".toList.intercalate
    (rescueSubjectTerms.map fun t => "subject:(".toList ++ t.toList ++ [')']) ++
    ") ".toList ++ dateRange

/-- What the loop over the domains keeps. -/
structure SenderChunks where
  queries : List (List Char)
  chunk : List (List Char)
  chunkLen : Nat

def domainCost (domain : List Char) : Nat := utf8Len domain + 9

def SenderChunks.add (dateRange : List Char) (s : SenderChunks) (domain : List Char) :
    SenderChunks :=
  let s := if s.chunk ≠ [] ∧ s.chunkLen + domainCost domain > maxSenderClauseChars then
      ⟨s.queries ++ [formatSenderQuery dateRange s.chunk], [], 0⟩
    else s
  ⟨s.queries, s.chunk ++ [domain], s.chunkLen + domainCost domain⟩

def buildSenderScopedQueries (dateRange : List Char) (domains : List (List Char)) :
    List (List Char) :=
  if domains = [] then [dateRange]
  else
    let s := domains.foldl (SenderChunks.add dateRange) ⟨[], [], 0⟩
    let queries := if s.chunk ≠ [] then s.queries ++ [formatSenderQuery dateRange s.chunk]
      else s.queries
    queries ++ [buildRescueSubjectQuery dateRange]

/-! ## the loop packs -/

/-- The closed bins are the queries so far, the open one is the chunk. -/
structure Renders (dateRange : List Char) (s : SenderChunks) (bins : Bins (List Char)) : Prop where
  queries : s.queries = bins.closed.map (formatSenderQuery dateRange)
  chunk : s.chunk = bins.bin
  chunkLen : s.chunkLen = bins.load

variable {dateRange : List Char}

theorem Renders.add {s : SenderChunks} {bins : Bins (List Char)} (h : Renders dateRange s bins)
    (domain : List Char) :
    Renders dateRange (s.add dateRange domain)
      (bins.push domainCost maxSenderClauseChars domain) := by
  rw [SenderChunks.add, Bins.push, h.chunk, h.chunkLen]
  split
  · exact ⟨by simp [h.queries], rfl, by simp⟩
  · exact ⟨h.queries, by simp [h.chunk], by simp [h.chunkLen]⟩

theorem renders_foldl {s : SenderChunks} {bins : Bins (List Char)} (h : Renders dateRange s bins)
    (domains : List (List Char)) :
    Renders dateRange (domains.foldl (SenderChunks.add dateRange) s)
      (domains.foldl (Bins.push domainCost maxSenderClauseChars) bins) := by
  induction domains generalizing s bins with
  | nil => exact h
  | cons domain domains ih => exact ih (h.add domain)

/-- One query a bin, and the rescue. -/
theorem buildSenderScopedQueries_eq {domains : List (List Char)} (hne : domains ≠ []) :
    buildSenderScopedQueries dateRange domains =
      (pack domainCost maxSenderClauseChars domains).map (formatSenderQuery dateRange) ++
        [buildRescueSubjectQuery dateRange] := by
  have hstart : Renders dateRange ⟨[], [], 0⟩ Bins.empty := ⟨rfl, rfl, rfl⟩
  have hrenders := renders_foldl hstart domains
  rw [buildSenderScopedQueries, if_neg hne, pack, Bins.all]
  simp only [hrenders.queries, hrenders.chunk]
  split
  · rw [List.map_append, List.map_singleton]
  · next hbin => rw [if_pos (not_not.mp hbin)]

/-! ## the length of a clause -/

/-- Four bytes less than what the loop reckons. -/
theorem utf8Len_senderClause {domains : List (List Char)} (hne : domains ≠ []) :
    utf8Len (senderClause domains) + 4 = (domains.map domainCost).sum := by
  induction domains with
  | nil => exact absurd rfl hne
  | cons d domains ih =>
    have hfrom : utf8Len "from:".toList = 5 := by decide
    have hor : utf8Len " OR ".toList = 4 := by decide
    cases domains with
    | nil =>
      rw [senderClause, List.map_singleton, List.intercalate_singleton, utf8Len_append, hfrom]
      simp [domainCost]
      omega
    | cons e domains =>
      have hrest := ih (by simp)
      simp only [senderClause, List.map_cons, List.intercalate_cons_cons, utf8Len_append,
        List.sum_cons, domainCost, hfrom, hor] at hrest ⊢
      omega

theorem senderClause_ne_nil {domains : List (List Char)} (hne : domains ≠ []) :
    senderClause domains ≠ [] := by
  intro hnil
  have hlength := utf8Len_senderClause hne
  obtain ⟨d, ds, rfl⟩ := List.exists_cons_of_ne_nil hne
  simp [hnil, utf8Len, domainCost] at hlength
  omega

theorem clause_le_of_fits {chunk : List (List Char)}
    (h : Fits domainCost maxSenderClauseChars chunk)
    (hsingle : ∀ d ∈ chunk, utf8Len (senderClause [d]) ≤ maxSenderClauseChars) :
    utf8Len (senderClause chunk) ≤ maxSenderClauseChars := by
  obtain hone | hload := h.load
  · obtain ⟨d, rfl⟩ := List.length_eq_one_iff.mp hone
    exact hsingle d (by simp)
  · have hlength := utf8Len_senderClause h.ne_nil
    omega

/-! ## every domain, once -/

/-- In lists that have nothing twice, taken together, an element is in one only. -/
theorem existsUnique_mem_of_nodup {α : Type} {lists : List (List α)} (h : lists.flatten.Nodup)
    {a : α} (ha : a ∈ lists.flatten) : ∃! i : Nat, ∃ l : List α, lists[i]? = some l ∧ a ∈ l := by
  obtain ⟨l, hl, hal⟩ := List.mem_flatten.mp ha
  obtain ⟨i, hi⟩ := List.mem_iff_getElem?.mp hl
  have hapart := (List.nodup_flatten.mp h).2
  refine ⟨i, ⟨l, hi, hal⟩, ?_⟩
  intro j hj
  obtain ⟨l', hj, hal'⟩ := hj
  obtain ⟨hi', rfl⟩ := List.getElem?_eq_some_iff.mp hi
  obtain ⟨hj', rfl⟩ := List.getElem?_eq_some_iff.mp hj
  rw [List.pairwise_iff_getElem] at hapart
  obtain hlt | heq | hlt := Nat.lt_trichotomy j i
  · exact absurd hal (hapart j i hj' hi' hlt hal')
  · exact heq
  · exact absurd hal' (hapart i j hi' hj' hlt hal)

end Dinero
