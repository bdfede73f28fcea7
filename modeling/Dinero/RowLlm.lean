import Dinero.RowFields

/-!
# Dinero.RowLlm

Statement rows that a model says it has read off a page.

A row is let through if its description and its amount stand somewhere on the page,
up to white space and case.  Nothing is asked of its date but that it is one, of the
amount's neighbours, or of how often a row is told.
-/

namespace Dinero.RowLlm

open RowExtractor

/-- `serde_json::Value`; numbers are never asked for. -/
inductive Json
  | null
  | bool (b : Bool)
  | number
  | string (s : String)
  | array (items : List Json)
  | object (members : List (String × Json))

namespace Json

def get (key : String) : Json → Option Json
  | object members => members.lookup key
  | null | bool _ | number | string _ | array _ => none

def asArray : Json → Option (List Json)
  | array items => some items
  | null | bool _ | number | string _ | object _ => none

def asStr : Json → Option String
  | string s => some s
  | null | bool _ | number | array _ | object _ => none

end Json

/-- What is taken from `serde_json`. -/
class JsonTexts where
  /-- `serde_json::from_str`. -/
  readJson : String → Option Json

export JsonTexts (readJson)

/-- The four texts the model gives for a row. -/
structure Quote where
  date : String
  description : String
  amount : String
  direction : String
deriving DecidableEq, Repr

def readQuote (row : Json) : Option Quote :=
  match (row.get "date").bind Json.asStr, (row.get "description").bind Json.asStr,
      (row.get "amount").bind Json.asStr, (row.get "direction").bind Json.asStr with
  | some date, some description, some amount, some direction =>
    some { date, description, amount, direction }
  | _, _, _, _ => none

section Validate

variable [Extern]

/-- Collapses whitespace for comparison against source text. -/
def collapse (s : List Char) : List Char :=
  (toUppercase (String.ofList ([' '].intercalate (splitWhitespace s)))).toList

variable [RowTables]

/-- The row a quote becomes, if the page has its description and its amount. -/
def Quote.check (haystack : List Char) (q : Quote) (rowIndex : Nat) : Option StatementRow :=
  let description := trim q.description.toList
  if description = [] ∨ isExcludedRow description = true then none
  else if ¬ collapse q.amount.toList <:+: haystack ∨ ¬ collapse description <:+: haystack then none
  else match parseDate q.date.toList, parseAmountMinor q.amount.toList with
    | some transactionDate, some amountMinor =>
      if amountMinor ≤ 0 ∨ ¬ (q.direction = "debit" ∨ q.direction = "credit") then none
      else some {
        transactionDate
        merchantRaw := String.ofList description
        amountMinor
        currency := "INR"
        direction := q.direction
        referenceId := extractReferenceId description
        rowIndex
        llmExtracted := true }
    | _, _ => none

/-- The loop over the rows of the output. -/
def validateRows (haystack : List Char) (startIndex : Nat) :
    List Json → List StatementRow → List StatementRow
  | [], out => out
  | row :: rows, out =>
    match (readQuote row).bind fun q => q.check haystack (startIndex + out.length) with
    | some accepted => validateRows haystack startIndex rows (out ++ [accepted])
    | none => validateRows haystack startIndex rows out

variable [JsonTexts]

/-- The rows the output lists. -/
def outputRows (rawOutput : List Char) : List Json :=
  let jsonText := (extractJsonBlock rawOutput).getD rawOutput
  (((readJson (String.ofList jsonText)).bind (Json.get "rows")).bind Json.asArray).getD []

/-- Validates model-extracted rows against the page they came from. -/
def validate (rawOutput pageText : List Char) (startIndex : Nat) : List StatementRow :=
  validateRows (collapse pageText) startIndex (outputRows rawOutput) []

end Validate

/-! ## what a page has -/

/-- The numbers of a text, each as long as it gets: digits, and commas and dots between them. -/
def numberTokensFrom (token : List Char) : List Char → List (List Char)
  | [] => if token = [] then [] else [token]
  | c :: rest =>
    if c.isDigit ∨ token ≠ [] ∧ (c = ',' ∨ c = '.') ∧ rest.head?.any Char.isDigit then
      numberTokensFrom (token ++ [c]) rest
    else (if token = [] then [] else [token]) ++ numberTokensFrom [] rest

def numberTokens (page : List Char) : List (List Char) := numberTokensFrom [] page

/-- How often a text stands in another. -/
def occurrences (needle s : List Char) : Nat := s.tails.countP (needle.isPrefixOf ·)

/-- A piece of the page that no digit adjoins. -/
def PieceOf (page piece : List Char) : Prop :=
  ∃ before after, page = before ++ piece ++ after ∧
    before.getLast?.any Char.isDigit = false ∧ after.head?.any Char.isDigit = false

/-- A number that ends where no digit follows. -/
theorem pieceOf_ended {t token s before : List Char}
    (hbefore : before.getLast?.any Char.isDigit = false) (hs : s.head?.any Char.isDigit = false)
    (h : t ∈ if token = [] then [] else [token]) : PieceOf (before ++ token ++ s) t := by
  split at h
  · cases h
  · rw [List.mem_singleton.mp h]
    exact ⟨before, s, rfl, hbefore, hs⟩

theorem pieceOf_numberTokensFrom {t token s before : List Char}
    (hbefore : before.getLast?.any Char.isDigit = false) (h : t ∈ numberTokensFrom token s) :
    PieceOf (before ++ token ++ s) t := by
  induction s generalizing token before with
  | nil => exact pieceOf_ended hbefore rfl h
  | cons c s ih =>
    rw [numberTokensFrom] at h
    split at h
    · have hpiece := ih hbefore h
      simpa using hpiece
    · next hjoin =>
      rw [not_or, Bool.not_eq_true] at hjoin
      obtain h | h := List.mem_append.mp h
      · exact pieceOf_ended hbefore hjoin.1 h
      · have hc : (before ++ token ++ [c]).getLast?.any Char.isDigit = false := by
          simpa using hjoin.1
        have hpiece := ih hc h
        simpa using hpiece

/-- No digit adjoins a number of a page. -/
theorem pieceOf_numberTokens {page t : List Char} (h : t ∈ numberTokens page) :
    PieceOf page t := by
  have hpiece := @pieceOf_numberTokensFrom t [] page [] rfl h
  simpa using hpiece

section Grounded

variable [Extern]

/-- The page has the date, in some format. -/
def DateOn (page : List Char) (date : String) : Prop :=
  ∃ piece, PieceOf page piece ∧ parseDate piece = some date

/-- How many of the page's numbers are worth so much. -/
def amountsOn (page : List Char) (amountMinor : Int) : Nat :=
  (numberTokens page).countP (parseAmountMinor · = some amountMinor)

/-- How often the page has the description, up to white space and case. -/
def descriptionsOn (page description : List Char) : Nat :=
  occurrences (collapse description) (collapse page)

/-- A row the page has: a positive amount that is one of its numbers, a date and a description
of it. -/
structure Grounded (page : List Char) (row : StatementRow) : Prop where
  positive : 0 < row.amountMinor
  amount : 0 < amountsOn page row.amountMinor
  date : DateOn page row.transactionDate
  description : collapse row.merchantRaw.toList <:+: collapse page

/-- Rows that are on the page, each as often as it is listed. -/
structure AllGrounded (page : List Char) (rows : List StatementRow) : Prop where
  each : ∀ row ∈ rows, Grounded page row
  often : ∀ description amountMinor,
    rows.countP (fun row => row.merchantRaw = description ∧ row.amountMinor = amountMinor) ≤
      min (descriptionsOn page description.toList) (amountsOn page amountMinor)

variable [RowTables]

/-- The check lets the quote through. -/
def Quote.passes (page : List Char) (q : Quote) : Bool := (q.check (collapse page) 0).isSome

/-- A date that the page does not have. -/
def Misdated (page : List Char) (q : Quote) : Prop :=
  ∃ date, parseDate q.date.toList = some date ∧ ¬ DateOn page date

/-- An amount that stands on the page, if at all, inside a longer number. -/
def Clipped (page : List Char) (q : Quote) : Prop :=
  ∃ amountMinor, parseAmountMinor q.amount.toList = some amountMinor ∧
    amountsOn page amountMinor = 0

/-- The same description and amount. -/
def Quote.tells (q q' : Quote) : Bool :=
  trim q.description.toList = trim q'.description.toList ∧
    parseAmountMinor q.amount.toList = parseAmountMinor q'.amount.toList

/-- A description and an amount that are let through more often than the page has them. -/
def Overtold (page : List Char) (quotes : List Quote) (q : Quote) : Prop :=
  ∃ amountMinor, parseAmountMinor q.amount.toList = some amountMinor ∧
    min (descriptionsOn page (trim q.description.toList)) (amountsOn page amountMinor) <
      (quotes.filter (Quote.passes page)).countP q.tells

end Grounded

section Checking

variable [Extern] [RowTables]

/-! ## what is let through -/

/-- What a quote that is let through has, and the row it becomes. -/
theorem Quote.check_eq_some {haystack : List Char} {q : Quote} {rowIndex : Nat}
    {row : StatementRow} (h : q.check haystack rowIndex = some row) :
    row.merchantRaw = String.ofList (trim q.description.toList) ∧
      collapse (trim q.description.toList) <:+: haystack ∧
      parseDate q.date.toList = some row.transactionDate ∧
      parseAmountMinor q.amount.toList = some row.amountMinor ∧ 0 < row.amountMinor ∧
      row.rowIndex = rowIndex := by
  unfold Quote.check at h
  dsimp only at h
  split at h
  · cases h
  split at h
  · cases h
  · next hpage =>
    rw [not_or, not_not, not_not] at hpage
    split at h
    · next date amount hdate hamount =>
      split at h
      · cases h
      · next hpositive =>
        rw [not_or, not_le] at hpositive
        obtain rfl := Option.some.inj h
        exact ⟨rfl, hpage.2, hdate, hamount, hpositive.1, rfl⟩
    · cases h

/-- A row under another index. -/
def placed (rowIndex : Nat) (row : StatementRow) : StatementRow := { row with rowIndex := rowIndex }

/-- The index of a row has no part in the check. -/
theorem Quote.check_index (haystack : List Char) (q : Quote) (i j : Nat) :
    (q.check haystack i).map (placed j) = q.check haystack j := by
  unfold Quote.check
  dsimp only
  split
  · rfl
  split
  · rfl
  split
  · split <;> rfl
  · rfl

theorem validateRows_eq (haystack : List Char) (startIndex : Nat) (rows : List Json)
    (out : List StatementRow) :
    (validateRows haystack startIndex rows out).map (placed 0) = out.map (placed 0) ++
      (rows.filterMap readQuote).filterMap fun q => q.check haystack 0 := by
  induction rows generalizing out with
  | nil => simp [validateRows]
  | cons row rows ih =>
    rw [validateRows]
    cases hquote : readQuote row with
    | none => rw [Option.bind_none, ih, List.filterMap_cons_none hquote]
    | some q =>
      rw [Option.bind_some, List.filterMap_cons_some hquote, List.filterMap_cons,
        ← Quote.check_index haystack q (startIndex + out.length) 0]
      cases hcheck : q.check haystack (startIndex + out.length) with
      | none =>
        dsimp only [Option.map_none]
        rw [ih]
      | some accepted =>
        dsimp only [Option.map_some]
        rw [ih, List.map_append, List.append_assoc]
        rfl

omit [RowTables] in
theorem grounded_placed {page : List Char} {row : StatementRow} (i : Nat) :
    Grounded page (placed i row) ↔ Grounded page row :=
  ⟨fun ⟨hpositive, hamount, hdate, hdescription⟩ => ⟨hpositive, hamount, hdate, hdescription⟩,
    fun ⟨hpositive, hamount, hdate, hdescription⟩ => ⟨hpositive, hamount, hdate, hdescription⟩⟩

omit [RowTables] in
theorem allGrounded_placed {page : List Char} {rows : List StatementRow} (i : Nat) :
    AllGrounded page (rows.map (placed i)) ↔ AllGrounded page rows := by
  have hcount : ∀ description amountMinor, (rows.map (placed i)).countP (fun row =>
      row.merchantRaw = description ∧ row.amountMinor = amountMinor) =
      rows.countP fun row => row.merchantRaw = description ∧ row.amountMinor = amountMinor := by
    intro description amountMinor
    rw [List.countP_map]
    rfl
  constructor
  · intro h
    refine ⟨fun row hrow => ?_, fun description amountMinor => ?_⟩
    · exact (grounded_placed i).mp (h.each _ (List.mem_map_of_mem hrow))
    · rw [← hcount]
      exact h.often description amountMinor
  · intro h
    refine ⟨fun row hrow => ?_, fun description amountMinor => ?_⟩
    · obtain ⟨row, hmem, rfl⟩ := List.mem_map.mp hrow
      exact (grounded_placed i).mpr (h.each row hmem)
    · rw [hcount]
      exact h.often description amountMinor

/-- A row is on the page just when its quote is neither misdated nor clipped. -/
theorem grounded_row_iff {page : List Char} {q : Quote} {i : Nat} {row : StatementRow}
    (h : q.check (collapse page) i = some row) :
    Grounded page row ↔ ¬ Misdated page q ∧ ¬ Clipped page q := by
  obtain ⟨hmerchant, hpage, hdate, hamount, hpositive, -⟩ := Quote.check_eq_some h
  constructor
  · intro hg
    refine ⟨fun ⟨date, hread, hnot⟩ => ?_, fun ⟨amount, hread, hnone⟩ => ?_⟩
    · obtain rfl := Option.some.inj (hdate.symm.trans hread)
      exact hnot hg.date
    · obtain rfl := Option.some.inj (hamount.symm.trans hread)
      have := hg.amount
      omega
  · intro ⟨hdated, hwhole⟩
    refine ⟨hpositive, ?_, ?_, ?_⟩
    · rw [Nat.pos_iff_ne_zero]
      exact fun hnone => hwhole ⟨_, hamount, hnone⟩
    · by_contra hnot
      exact hdated ⟨_, hdate, hnot⟩
    · rw [hmerchant, String.toList_ofList]
      exact hpage

/-- Rows of one description and amount come from quotes that tell the same. -/
theorem countP_check {page : List Char} {q : Quote} {row : StatementRow} {i : Nat}
    (h : q.check (collapse page) i = some row) (quotes : List Quote) :
    (quotes.filterMap fun q' => q'.check (collapse page) 0).countP (fun row' =>
      row'.merchantRaw = row.merchantRaw ∧ row'.amountMinor = row.amountMinor) =
      (quotes.filter (Quote.passes page)).countP q.tells := by
  obtain ⟨hmerchant, -, -, hamount, -, -⟩ := Quote.check_eq_some h
  rw [List.countP_filterMap, List.countP_filter]
  refine List.countP_congr fun q' _ => ?_
  cases hcheck : q'.check (collapse page) 0 with
  | none => simp [Quote.passes, hcheck]
  | some row' =>
    obtain ⟨hmerchant', -, -, hamount', -, -⟩ := Quote.check_eq_some hcheck
    have hdescription : row'.merchantRaw = row.merchantRaw ↔
        trim q.description.toList = trim q'.description.toList := by
      rw [hmerchant, hmerchant', String.ofList_inj, eq_comm]
    have hamounts : row'.amountMinor = row.amountMinor ↔
        parseAmountMinor q.amount.toList = parseAmountMinor q'.amount.toList := by
      rw [hamount, hamount', Option.some_inj, eq_comm]
    simp [Quote.passes, hcheck, Quote.tells, hdescription, hamounts]

/-- Quotes become rows of the page if each that is let through is on the page often enough. -/
theorem allGrounded_quotes_iff (page : List Char) (quotes : List Quote) :
    AllGrounded page (quotes.filterMap fun q => q.check (collapse page) 0) ↔
      ∀ q ∈ quotes, q.passes page = true →
        ¬ Misdated page q ∧ ¬ Clipped page q ∧ ¬ Overtold page quotes q := by
  constructor
  · intro h q hq hpasses
    obtain ⟨row, hrow⟩ := Option.isSome_iff_exists.mp hpasses
    obtain ⟨hmerchant, -, -, hamount, -, -⟩ := Quote.check_eq_some hrow
    have hground := (grounded_row_iff hrow).mp (h.each row (List.mem_filterMap.mpr ⟨q, hq, hrow⟩))
    refine ⟨hground.1, hground.2, fun ⟨amount, hread, hless⟩ => ?_⟩
    obtain rfl := Option.some.inj (hamount.symm.trans hread)
    have hoften := h.often row.merchantRaw row.amountMinor
    rw [countP_check hrow, hmerchant, String.toList_ofList] at hoften
    omega
  · intro h
    refine ⟨fun row hrow => ?_, fun description amountMinor => ?_⟩
    · obtain ⟨q, hq, hrow⟩ := List.mem_filterMap.mp hrow
      have hkinds := h q hq (Option.isSome_iff_exists.mpr ⟨row, hrow⟩)
      exact (grounded_row_iff hrow).mpr ⟨hkinds.1, hkinds.2.1⟩
    · by_cases hnone : ∀ row ∈ quotes.filterMap fun q => q.check (collapse page) 0,
          ¬ (row.merchantRaw = description ∧ row.amountMinor = amountMinor)
      · rw [List.countP_eq_zero.mpr (by simpa using hnone)]
        exact Nat.zero_le _
      · simp only [not_forall, not_not] at hnone
        obtain ⟨row, hrow, rfl, rfl⟩ := hnone
        obtain ⟨q, hq, hrow⟩ := List.mem_filterMap.mp hrow
        obtain ⟨hmerchant, -, -, hamount, -, -⟩ := Quote.check_eq_some hrow
        have hkinds := h q hq (Option.isSome_iff_exists.mpr ⟨row, hrow⟩)
        rw [countP_check hrow, hmerchant, String.toList_ofList]
        by_contra hmore
        exact hkinds.2.2 ⟨_, hamount, not_le.mp hmore⟩

variable [JsonTexts]

/-- The rows the output lists with all four texts. -/
def quotes (rawOutput : List Char) : List Quote := (outputRows rawOutput).filterMap readQuote

end Checking

/-! ## a clipped amount -/

def swiggyPage : String := "01/12/2025  SWIGGY ORDER BANGALORE            1,250.00  DR"

def clippedOutput : String :=
  "\x7b\"rows\":[\x7b\"date\":\"03/12/2025\",\"description\":\"SWIGGY ORDER BANGALORE\"," ++
    "\"amount\":\"250.00\",\"direction\":\"debit\"\x7d]\x7d"

/-- One output, as `serde_json` reads it. -/
@[reducible] def JsonTexts.clipped : JsonTexts where
  readJson s :=
    if s = clippedOutput then
      some (.object [("rows", .array [.object [("date", .string "03/12/2025"),
        ("description", .string "SWIGGY ORDER BANGALORE"), ("amount", .string "250.00"),
        ("direction", .string "debit")]])])
    else none

end Dinero.RowLlm
