import Dinero.RowLlm
import Dinero.RowParsers

/-!
# Dinero.PageRows

The same pages, read as one document and one by one.

The document's rows are the bank parser's, or the universal parser's if the bank's
finds none in all of it.  Page by page the choice is made again, and a page that has
rows is not sent to the model.
-/

namespace Dinero.RowExtractor

open Backtrack TextLines

/-! ## rows by their contents -/

/-- The rows of some contents, in order. -/
def numbered (cs : List RowContent) : List StatementRow := cs.zipIdx.map fun c => c.1.row c.2

@[simp] theorem length_numbered (cs : List RowContent) : (numbered cs).length = cs.length := by
  simp [numbered]

@[simp] theorem numbered_eq_nil {cs : List RowContent} : numbered cs = [] ↔ cs = [] := by
  rw [← List.length_eq_zero_iff, length_numbered, List.length_eq_zero_iff]

theorem numbered_concat (cs : List RowContent) (c : RowContent) :
    numbered (cs ++ [c]) = numbered cs ++ [c.row cs.length] := by
  simp [numbered, List.zipIdx_append]

/-- Date, amount, direction and description. -/
def StatementRow.key (row : StatementRow) : String × Int × String × String :=
  (row.transactionDate, row.amountMinor, row.direction, row.merchantRaw)

/-- The row is among the rows, wherever it stands. -/
def Lists (rows : List StatementRow) (row : StatementRow) : Prop :=
  ∃ row' ∈ rows, row'.key = row.key

theorem exists_of_mem_numbered {cs : List RowContent} {row : StatementRow}
    (h : row ∈ numbered cs) : ∃ c ∈ cs, ∃ i, c.row i = row := by
  obtain ⟨⟨c, i⟩, hmem, rfl⟩ := List.mem_map.mp h
  exact ⟨c, List.fst_mem_of_mem_zipIdx hmem, i, rfl⟩

theorem lists_numbered {cs : List RowContent} {c : RowContent} (h : c ∈ cs) (i : Nat) :
    Lists (numbered cs) (c.row i) := by
  obtain ⟨j, hj⟩ := List.mem_iff_getElem?.mp h
  exact ⟨c.row j, List.mem_map.mpr ⟨(c, j), List.mk_mem_zipIdx_iff_getElem?.mpr hj, rfl⟩, rfl⟩

theorem lists_of_subset {cs cs' : List RowContent} (h : cs ⊆ cs') {row : StatementRow}
    (hrow : row ∈ numbered cs) : Lists (numbered cs') row := by
  obtain ⟨c, hc, i, rfl⟩ := exists_of_mem_numbered hrow
  exact lists_numbered (h hc) i

section Contents

variable [Extern]

theorem parseLines_numbered (re : Pattern) (read : (Nat → List Char) → Option RowContent)
    (ls : List (List Char)) (cs : List RowContent) :
    parseLines re read ls (numbered cs) = numbered (cs ++ ls.filterMap fun line =>
      (captures re (trim line)).bind fun groups => read (textOf groups)) := by
  induction ls generalizing cs with
  | nil => simp [parseLines]
  | cons line ls ih =>
    rw [parseLines, List.filterMap_cons]
    cases hread : (captures re (trim line)).bind fun groups => read (textOf groups) with
    | none => exact ih cs
    | some c =>
      dsimp only
      rw [length_numbered, ← numbered_concat, ih, List.append_assoc, List.singleton_append]

/-- A parser that reads line by line reads page by page. -/
theorem parseWith_eq (re : Pattern) (read : (Nat → List Char) → Option RowContent) :
    ∃ contents : ParsedPage → List RowContent, ∀ pages,
      parseWith re read pages = numbered (pages.flatMap contents) := by
  refine ⟨fun page => (lines page.text).filterMap fun line =>
    (captures re (trim line)).bind fun groups => read (textOf groups), fun pages => ?_⟩
  have hfold : ∀ cs, pages.foldl (fun rows page => parseLines re read (lines page.text) rows)
      (numbered cs) = numbered (cs ++ pages.flatMap fun page =>
        (lines page.text).filterMap fun line =>
          (captures re (trim line)).bind fun groups => read (textOf groups)) := by
    induction pages with
    | nil => simp
    | cons page pages ih =>
      intro cs
      rw [List.foldl_cons, parseLines_numbered, ih, List.append_assoc, List.flatMap_cons]
  exact hfold []

variable [RowTables]

theorem universalLines_numbered (ls : List (List Char)) (isRow : List Bool) (index : Nat)
    (rest : List (List Char)) (cs : List RowContent) :
    universalLines ls isRow index rest (numbered cs) = numbered (cs ++
      (rest.zipIdx index).filterMap fun line => universalContent ls isRow line.2 line.1) := by
  induction rest generalizing index cs with
  | nil => simp [universalLines]
  | cons line rest ih =>
    rw [universalLines, List.zipIdx_cons, List.filterMap_cons]
    cases hread : universalContent ls isRow index line with
    | none => exact ih (index + 1) cs
    | some c =>
      dsimp only
      rw [length_numbered, ← numbered_concat, ih, List.append_assoc, List.singleton_append]

theorem parseUniversal_eq : ∃ contents : ParsedPage → List RowContent, ∀ pages,
    parseUniversal pages = numbered (pages.flatMap contents) := by
  refine ⟨fun page =>
    let ls := (lines page.text).map trim
    (ls.zipIdx 0).filterMap fun line =>
      universalContent ls (ls.map (isMatch universalRow)) line.2 line.1, fun pages => ?_⟩
  have hfold : ∀ cs, pages.foldl (fun rows page =>
      let ls := (lines page.text).map trim
      universalLines ls (ls.map (isMatch universalRow)) 0 ls rows) (numbered cs) =
      numbered (cs ++ pages.flatMap fun page =>
        let ls := (lines page.text).map trim
        (ls.zipIdx 0).filterMap fun line =>
          universalContent ls (ls.map (isMatch universalRow)) line.2 line.1) := by
    induction pages with
    | nil => simp
    | cons page pages ih =>
      intro cs
      rw [List.foldl_cons]
      dsimp only
      rw [universalLines_numbered, ih, List.append_assoc, List.flatMap_cons]
  exact hfold []

/-- Every bank's parser reads page by page. -/
theorem parseBank_eq (parser : BankParser) : ∃ contents : ParsedPage → List RowContent, ∀ pages,
    parseBank parser pages = numbered (pages.flatMap contents) := by
  cases parser with
  | hdfcCreditCard => exact parseWith_eq _ _
  | iciciCreditCard => exact parseWith_eq _ _
  | axisCreditCard => exact parseWith_eq _ _
  | amexIndia => exact parseWith_eq _ _
  | hdfcBankAccount => exact parseWith_eq _ _
  | iciciBankAccount => exact parseWith_eq _ _
  | sbiCreditCard => exact parseWith_eq _ _
  | unknown => exact ⟨fun _ => [], fun pages => by simp [parseBank, numbered]⟩

end Contents

section Pages

variable [Extern]

/-- `find_iter(..).count()`, for patterns that match no empty text; `skip` counts what is left of
the match counted last. -/
def countFrom (r : Pattern) (before : List Char) (skip : Nat) : List Char → Nat
  | [] => 0
  | c :: rest => match skip with
    | n + 1 => countFrom r (c :: before) n rest
    | 0 => match r.ways ⟨before, c :: rest, []⟩ with
      | s' :: _ => 1 + countFrom r (c :: before) (rest.length - s'.rest.length) rest
      | [] => countFrom r (c :: before) 0 rest

def minTableSignals : Nat := 2

def maxLlmPages : Nat := 12

/-- Cheap heuristic for whether a page could hold a transaction table. -/
def looksLikeATransactionTable (s : List Char) : Bool :=
  let separator := Pattern.cls isDateSeparator
  let dates := countFrom (seqAll [between 1 1 digit, separator,
    between 2 1 (.cls fun c => isAsciiLetter c || isAsciiNumeral c), separator,
    between 2 2 digit]) [] 0 s
  let amounts := countFrom (seqAll [digit, .star true (.cls fun c => isDigit c || c = ','),
    .lit '.', times 2 digit]) [] 0 s
  minTableSignals ≤ dates && minTableSignals ≤ amounts

variable [RowTables]

/-- What becomes of a page that is looked at. -/
inductive PageFate
  | hasRows
  | noTable
  | sent
deriving DecidableEq, Repr

def pageFate (parser : BankParser) (page : ParsedPage) : PageFate :=
  if extractRows [page] parser ≠ [] then .hasRows
  else if looksLikeATransactionTable page.text then .sent
  else .noTable

/-- The pages that are passed over because they have rows, up to the inference ceiling. -/
def skippedPages (parser : BankParser) : Nat → List ParsedPage → List ParsedPage
  | _, [] => []
  | sent, page :: pages =>
    if maxLlmPages ≤ sent then []
    else match pageFate parser page with
      | .hasRows => page :: skippedPages parser sent pages
      | .noTable => skippedPages parser sent pages
      | .sent => skippedPages parser (sent + 1) pages

/-! ## the document and its pages -/

/-- A page with its broken rows joined. -/
def merged (page : ParsedPage) : ParsedPage :=
  { page with text := mergeBrokenLineBoundaries page.text }

theorem extractRows_eq (pages : List ParsedPage) (parser : BankParser) :
    extractRows pages parser = if parseBank parser (pages.map merged) = [] then
      parseUniversal (pages.map merged) else parseBank parser (pages.map merged) := rfl

theorem mem_skippedPages {parser : BankParser} {sent : Nat} {pages : List ParsedPage}
    {page : ParsedPage} (h : page ∈ skippedPages parser sent pages) :
    page ∈ pages ∧ extractRows [page] parser ≠ [] := by
  induction pages generalizing sent with
  | nil => simp [skippedPages] at h
  | cons first pages ih =>
    rw [skippedPages] at h
    split at h
    · simp at h
    · split at h
      · next hfate =>
        obtain rfl | h := List.mem_cons.mp h
        · refine ⟨List.mem_cons_self, fun hnil => ?_⟩
          rw [pageFate, if_neg (not_not_intro hnil)] at hfate
          split at hfate <;> cases hfate
        · exact ⟨List.mem_cons_of_mem _ (ih h).1, (ih h).2⟩
      · exact ⟨List.mem_cons_of_mem _ (ih h).1, (ih h).2⟩
      · exact ⟨List.mem_cons_of_mem _ (ih h).1, (ih h).2⟩

/-- Every page that is passed over for its rows has them among the document's rows, just if
the bank's parser finds none in the document, or finds those that only the universal parser
sees on a page. -/
theorem skipped_pages_listed_iff (parser : BankParser) (pages : List ParsedPage) :
    (∀ page ∈ skippedPages parser 0 pages, ∀ row ∈ extractRows [page] parser,
        Lists (extractRows pages parser) row) ↔
      parseBank parser (pages.map merged) = [] ∨
        ∀ page ∈ skippedPages parser 0 pages, parseBank parser [merged page] = [] →
          ∀ row ∈ parseUniversal [merged page],
            Lists (parseBank parser (pages.map merged)) row := by
  obtain ⟨bank, hbank⟩ := parseBank_eq parser
  obtain ⟨universal, huniversal⟩ := parseUniversal_eq
  have hpart : ∀ (contents : ParsedPage → List RowContent) (page : ParsedPage), page ∈ pages →
      [merged page].flatMap contents ⊆ (pages.map merged).flatMap contents := by
    intro contents page hpage c hc
    rw [List.flatMap_cons, List.flatMap_nil, List.append_nil] at hc
    exact List.mem_flatMap.mpr ⟨merged page, List.mem_map_of_mem hpage, hc⟩
  constructor
  · intro h
    by_cases hnone : parseBank parser (pages.map merged) = []
    · exact .inl hnone
    · refine .inr fun page hpage hempty row hrow => ?_
      have hlisted := h page hpage row (by
        rw [extractRows_eq, List.map_cons, List.map_nil, if_pos hempty]
        exact hrow)
      rwa [extractRows_eq, if_neg hnone] at hlisted
  · intro h page hpage row hrow
    have hmem := (mem_skippedPages hpage).1
    rw [extractRows_eq, List.map_cons, List.map_nil] at hrow
    rw [extractRows_eq]
    by_cases hnone : parseBank parser (pages.map merged) = []
    · -- then the page has no row for the bank's parser either
      have hempty : parseBank parser [merged page] = [] := by
        rw [hbank, numbered_eq_nil] at hnone ⊢
        exact List.subset_nil.mp (hnone ▸ hpart bank page hmem)
      rw [if_pos hempty, huniversal] at hrow
      rw [if_pos hnone, huniversal]
      exact lists_of_subset (hpart universal page hmem) hrow
    · rw [if_neg hnone]
      by_cases hempty : parseBank parser [merged page] = []
      · rw [if_pos hempty] at hrow
        exact h.resolve_left hnone page hpage hempty row hrow
      · rw [if_neg hempty, hbank] at hrow
        rw [hbank]
        exact lists_of_subset (hpart bank page hmem) hrow

variable [RowLlm.JsonTexts]

/-- The loop of `extract_unparsed_pages`; `infer` is what the model prints for a page, if
anything. -/
def unparsedPagesFrom (infer : List Char → Option (List Char)) (parser : BankParser)
    (startIndex : Nat) : Nat → List ParsedPage → List StatementRow → List StatementRow
  | _, [], out => out
  | sent, page :: pages, out =>
    if maxLlmPages ≤ sent then out
    else match pageFate parser page with
      | .hasRows | .noTable => unparsedPagesFrom infer parser startIndex sent pages out
      | .sent => match infer page.text with
        | none => unparsedPagesFrom infer parser startIndex (sent + 1) pages out
        | some raw => unparsedPagesFrom infer parser startIndex (sent + 1) pages
            (out ++ RowLlm.validate raw page.text (startIndex + out.length))

/-- Runs the model over pages the deterministic parser could not read. -/
def extractUnparsedPages (infer : List Char → Option (List Char)) (parser : BankParser)
    (pages : List ParsedPage) (startIndex : Nat) : List StatementRow :=
  unparsedPagesFrom infer parser startIndex 0 pages []

end Pages

/-! ## two layouts in one document -/

/-- A page the bank's parser reads, and one that only the universal parser does. -/
def twoLayouts : List ParsedPage :=
  [page "01/12/2023  SWIGGY ORDER BANGALORE     1,250.00  DR",
    page "12 Jun 26   ASSPL         Bangalore   IN            304.00  D"]

/-- The second page has a row by itself, is not sent to the model, and is missing. -/
theorem universal_row_lost :
    letI := Extern.ascii
    letI := RowTables.ascii
    ¬ ∀ page ∈ skippedPages .hdfcCreditCard 0 twoLayouts,
      ∀ row ∈ extractRows [page] .hdfcCreditCard,
        Lists (extractRows twoLayouts .hdfcCreditCard) row := by
  let := Extern.ascii
  let := RowTables.ascii
  intro h
  have hskipped : skippedPages .hdfcCreditCard 0 twoLayouts = twoLayouts := by decide +kernel
  have hpage : (extractRows [page "12 Jun 26   ASSPL         Bangalore   IN            304.00  D"]
      .hdfcCreditCard).map StatementRow.key = [("20616", 30400, "debit", "ASSPL")] := by
    decide +kernel
  have hdocument : (extractRows twoLayouts .hdfcCreditCard).map StatementRow.key =
      [("19692", 125000, "debit", "SWIGGY ORDER BANGALORE")] := by decide +kernel
  have hrow : ("20616", 30400, "debit", "ASSPL") ∈ (extractRows
      [page "12 Jun 26   ASSPL         Bangalore   IN            304.00  D"]
      .hdfcCreditCard).map StatementRow.key := by rw [hpage]; exact List.mem_singleton_self _
  obtain ⟨row, hmem, hkey⟩ := List.mem_map.mp hrow
  obtain ⟨row', hmem', hkey'⟩ := h _ (by rw [hskipped, twoLayouts]; simp) row hmem
  have hlisted := List.mem_map_of_mem (f := StatementRow.key) hmem'
  rw [hdocument, hkey', hkey] at hlisted
  simp at hlisted

end Dinero.RowExtractor
