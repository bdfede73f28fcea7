import Dinero.DateReading
import Dinero.Descriptors
import Dinero.SenderGate

/-!
# Dinero.TokenLayer

The token scan of the extraction ladder (`NlpLayer` of `extraction/ladder.rs`,
with `extraction/lexicon.rs`).

One pass over the words of a message, with some words of lookahead.  A field once
read is left alone, so that what follows a transaction in a message, its footer
and its disclaimers, does not change what was read of it.
-/

namespace Dinero.Ladder

open Backtrack

/-! ## results -/

/-- What a layer has read of a message. -/
structure ExtractionResult where
  amountMinor : Option Int := none
  currency : Option String := none
  direction : Option String := none
  eventTime : Option Int := none
  merchantRaw : Option String := none
  referenceId : Option String := none
  balanceAfter : Option Int := none
  originalAmountMinor : Option Int := none
  originalCurrency : Option String := none
  instrumentType : Option String := none
  issuerName : Option String := none
  maskedIdentifier : Option String := none
  network : Option String := none
  upiVpa : Option String := none
  extractionMethod : String := ""
  confidenceScore : Option ℚ := none
  parserVersion : Option String := none
  emiTotalInstallments : Option Int := none
  emiInstallmentNumber : Option Int := none
  emiOriginalAmountMinor : Option Int := none
  exchangeRate : Option ℚ := none
  eventTimeAmbiguous : Bool := false
  dateCrossCheckFlag : Option String := none
  channel : Option String := none
deriving DecidableEq

/-- Whether a result carries the mandatory fields. -/
def ExtractionResult.isValid (r : ExtractionResult) : Bool :=
  let hasTxFields := r.amountMinor.isSome && r.currency.isSome && r.direction.isSome &&
    r.merchantRaw.isSome
  r.eventTime.isSome && (hasTxFields || r.balanceAfter.isSome)

/-! ## the lexicon -/

def creditVerbs : List String := [
  "credited", "received", "refund", "refunded", "deposited", "reversal", "reversed", "added",
  "returned", "cashback"]

def debitVerbs : List String := [
  "debited", "spent", "paid", "withdrawn", "payment", "sent", "deducted", "purchase", "purchased",
  "charged", "billed"]

def merchantLabelStrict : List String := [
  "towards", "paid to", "purchased at", "txn at", "info", "beneficiary", "in favor of",
  "merchant name", "merchant"]

section Scan

variable [Extern] [RuleTexts] [RowExtractor.RowTables]

/-- A word of a message, as it stands and in lower case. -/
structure Token where
  orig : List Char
  lower : List Char

/-- `split_whitespace`, and the same in lower case. -/
def tokensOf (body : List Char) : List Token :=
  (splitWhitespace body).map fun t => ⟨t, lowercase t⟩

def Token.isOneOf (t : Token) (words : List String) : Bool :=
  words.any fun w => decide (t.lower = w.toList)

/-- `trim_end_matches`, of some characters. -/
def trimEndOf (cs : List Char) (s : List Char) : List Char :=
  s.rdropWhile fun c => decide (c ∈ cs)

/-- Whether a merchant candidate is nothing but filler words. -/
def isStopwordOnlyMerchant (candidate : List Char) : Bool :=
  let toks := splitWhitespace candidate
  toks ≠ [] && toks.all fun tok =>
    let cleaned := trimMatches (fun c => !isAlphanumeric c) tok
    cleaned = [] || merchantStopwords.any fun w => decide (lowercase cleaned = w.toList)

/-- Matches a label of one or more words at the front of the tokens. -/
def matchLabelAt (ts : List Token) (keywords : List String) : Option Nat :=
  keywords.findSome? fun kw =>
    let words := kw.toList.splitOn ' '
    if words.length ≤ ts.length ∧
        (ts.take words.length).map (fun t => trimEndOf [':'] t.lower) = words then
      some words.length
    else none

/-- `(?i)^(?:your|my|the)\b.*\baccount$|^account$`. -/
def selfReferentialRe : Pattern :=
  .alt
    (seqAll [atStart, altAll [word "your", word "my", word "the"], wordBoundary,
      .star true (.cls fun c => c ≠ '\n'), wordBoundary, word "account", atEnd])
    (seqAll [atStart, word "account", atEnd])

/-- Rejects merchant candidates that are not merchants. -/
def isInvalidMerchant (candidate : List Char) (bankName : String) : Bool :=
  let lower := lowercase (trim candidate)
  let bank := (toLowercase bankName).toList
  let remaining := trim (lower.drop bank.length)
  isMatch selfReferentialRe (trim candidate) ||
    isStopwordOnlyMerchant (trim candidate) ||
    !candidate.any isAlphabetic ||
    lower = bank ||
    (bank ≠ [] && bank.isPrefixOf lower &&
      (remaining = [] || remaining = "bank".toList || remaining = "alerts".toList)) ||
    lower = "bank".toList || lower = "alerts".toList

/-! ## merchants -/

/-- A word that ends a merchant's name. -/
def Token.endsWindow (t : Token) : Bool :=
  t.isOneOf ["on", "via", "bal", "balance", "with", "card", "date", "a/c", "branch", "upi"] ||
    "ref".toList.isPrefixOf t.lower

/-- The words of a merchant's name, from the front of the tokens: at most `n`. -/
def windowParts : Nat → List Token → List (List Char)
  | 0, _ | _, [] => []
  | n + 1, t :: rest =>
    if t.endsWindow then []
    else
      let cleaned := trimEndOf ['.', ',', ';', ':'] t.orig
      let part := if cleaned = [] then [] else [cleaned]
      if t.orig.getLast? = some '.' ∨ t.orig.getLast? = some ',' then part
      else part ++ windowParts n rest

def joinWords (parts : List (List Char)) : List Char := [' '].intercalate parts

/-- Collects the tokens behind a label as a merchant candidate. -/
def collectMerchantWindow (ts : List Token) : Option (List Char) :=
  let parts := windowParts 5 ts
  if parts = [] then none else some (joinWords parts)

/-- Pulls the payee out of a UPI narration such as `UPI/1234567890/AmazonPay`. -/
def upiNarrationPayee (candidate : List Char) : Option (List Char) :=
  if "upi/".toList <:+: lowercase candidate then
    ((candidate.splitOn '/')[2]?).bind fun part =>
      let payee := trim (trimEndOf ['.', ','] part)
      if payee = [] then none else some payee
  else none

/-- The merchant that the tokens behind a label name. -/
def merchantBehind (bankName : String) (ts : List Token) : Option (List Char) :=
  (collectMerchantWindow ts).bind fun candidate =>
    let candidate := (upiNarrationPayee candidate).getD candidate
    if isInvalidMerchant candidate bankName then none else some candidate

/-- The first strict label with a merchant behind it. -/
def strictMerchant (bankName : String) : List Token → Option (List Char)
  | [] => none
  | t :: rest =>
    ((matchLabelAt (t :: rest) merchantLabelStrict).bind fun consumed =>
      merchantBehind bankName ((t :: rest).drop consumed)).or (strictMerchant bankName rest)

/-! ## what is read at a token -/

/-- The direction that a word gives. -/
def directionAt (t : Token) : Option String :=
  if debitVerbs.any fun v => decide (v.toList <:+: t.lower) then some "debit"
  else if creditVerbs.any fun v => decide (v.toList <:+: t.lower) then some "credit"
  else none

/-- The amount behind a rupee sign. -/
def amountAt (t : Token) (rest : List Token) : Option Int :=
  if t.isOneOf ["rs", "rs.", "inr", "₹"] then rest.head?.bind fun next => parseAmount next.orig
  else none

/-- The merchant behind a preposition. -/
def ambiguousMerchantAt (bankName : String) (t : Token) (rest : List Token) : Option (List Char) :=
  if t.isOneOf ["at", "to", "from", "for", "by", "merchant", "beneficiary"] then
    merchantBehind bankName rest
  else none

/-- The payee of a narration in one word. -/
def narrationMerchantAt (bankName : String) (t : Token) : Option (List Char) :=
  (upiNarrationPayee t.orig).bind fun candidate =>
    if isInvalidMerchant candidate bankName then none else some candidate

def Token.isBalanceLabel (t : Token) : Bool :=
  t.isOneOf ["bal", "balance", "avl"] || "bal:".toList.isPrefixOf t.lower ||
    "balance:".toList.isPrefixOf t.lower

def Token.isFiller (t : Token) : Bool := t.isOneOf ["rs", "rs.", "inr", "₹", "-", "is"]

/-- The tokens behind a balance label, its fillers passed over. -/
def behindBalance (t : Token) (rest : List Token) : List Token :=
  let rest :=
    if t.isOneOf ["avl"] then
      match rest with
      | next :: more => if next.isOneOf ["bal"] then more else rest
      | [] => []
    else rest
  rest.dropWhile Token.isFiller

/-- The balance in a label, or behind it. -/
def balanceAt (t : Token) (rest : List Token) : Option Int :=
  if t.isBalanceLabel then
    ((splitOnce ':' t.orig).bind fun parts => parseAmount parts.2).or
      ((behindBalance t rest).head?.bind fun next => parseAmount next.orig)
  else none

/-- A date in a word. -/
def Token.date (t : Token) : Option (Int × Bool) :=
  parseDateGeneric (String.ofList (trimEndOf ['.', ','] t.orig))

/-- The date behind an "on". -/
def dateAt (t : Token) (rest : List Token) : Option (Int × Bool) :=
  if t.isOneOf ["on"] then rest.head?.bind Token.date else none

/-! ## the scan -/

/-- What the loop has read. -/
structure Reading where
  amountMinor : Option Int := none
  direction : Option String := none
  merchantRaw : Option (List Char) := none
  balanceAfter : Option Int := none
  eventTime : Option (Int × Bool) := none

/-- One turn of the loop; a field that is there is left alone. -/
def Reading.readToken (bankName : String) (s : Reading) (t : Token) (rest : List Token) :
    Reading where
  direction := s.direction.or (directionAt t)
  amountMinor := s.amountMinor.or (amountAt t rest)
  merchantRaw :=
    (s.merchantRaw.or (ambiguousMerchantAt bankName t rest)).or (narrationMerchantAt bankName t)
  balanceAfter := s.balanceAfter.or (balanceAt t rest)
  eventTime := s.eventTime.or (dateAt t rest)

def scanTokens (bankName : String) : Reading → List Token → Reading
  | s, [] => s
  | s, t :: rest => scanTokens bankName (s.readToken bankName t rest) rest

/-- The scan as a result; where no "on" gave a date, the first date there is.  An amount is in
rupees. -/
def Reading.result (s : Reading) (ts : List Token) : ExtractionResult :=
  let eventTime := s.eventTime.or (ts.findSome? Token.date)
  { amountMinor := s.amountMinor
    currency := s.amountMinor.map fun _ => "INR"
    direction := s.direction
    merchantRaw := s.merchantRaw.map String.ofList
    balanceAfter := s.balanceAfter
    eventTime := eventTime.map (·.1)
    eventTimeAmbiguous := (eventTime.map (·.2)).getD false
    extractionMethod := "nlp" }

/-- Label-driven token scanning for fields the regexes missed. -/
def nlpExtract (bankName : String) (body : List Char) : Option ExtractionResult :=
  let ts := tokensOf body
  let start : Reading := { merchantRaw := strictMerchant bankName ts }
  let result := (scanTokens bankName start ts).result ts
  if result.isValid then some result else none

/-! ## first come, first kept -/

/-- The first reading of the tokens, each with the tokens behind it. -/
def firstAt {α : Type} (f : Token → List Token → Option α) : List Token → Option α
  | [] => none
  | t :: rest => (f t rest).or (firstAt f rest)

omit [Extern] [RuleTexts] [RowExtractor.RowTables] in
theorem firstAt_eq_some {α : Type} {f : Token → List Token → Option α} {ts : List Token} {a : α}
    (h : firstAt f ts = some a) : ∃ t rest, (t :: rest) <:+ ts ∧ f t rest = some a := by
  induction ts with
  | nil => simp [firstAt] at h
  | cons t rest ih =>
    cases ht : f t rest with
    | some b =>
      have hb : b = a := by simpa [firstAt, ht] using h
      exact ⟨t, rest, List.suffix_rfl, hb ▸ ht⟩
    | none =>
      obtain ⟨t', rest', hsuffix, ha⟩ := ih (by simpa [firstAt, ht] using h)
      exact ⟨t', rest', hsuffix.trans (List.suffix_cons t rest), ha⟩

omit [Extern] [RuleTexts] [RowExtractor.RowTables] in
/-- What is read first stays the first reading when tokens follow, if the lookahead of a token that
reads nothing only reads more where the tokens behind it read nothing. -/
theorem firstAt_append {α : Type} {f : Token → List Token → Option α} {ts : List Token}
    (us : List Token) (hsome : ∀ t rest a, f t rest = some a → f t (rest ++ us) = some a)
    (hnone : ∀ t rest a, (t :: rest) <:+ ts → f t rest = none → firstAt f rest = some a →
      f t (rest ++ us) = none)
    {a : α} (h : firstAt f ts = some a) : firstAt f (ts ++ us) = some a := by
  induction ts with
  | nil => simp [firstAt] at h
  | cons t rest ih =>
    cases ht : f t rest with
    | some b =>
      have hb : b = a := by simpa [firstAt, ht] using h
      simp [firstAt, hsome t rest b ht, hb]
    | none =>
      have hrest : firstAt f rest = some a := by simpa [firstAt, ht] using h
      have htail := ih
        (fun t' rest' b hsuffix => hnone t' rest' b (hsuffix.trans (List.suffix_cons t rest))) hrest
      simp [firstAt, hnone t rest a List.suffix_rfl ht hrest, htail]

omit [Extern] [RuleTexts] [RowExtractor.RowTables] in
/-- A reading that looks at the next token at most. -/
theorem firstAt_append_next {α : Type} {p : Token → Bool} {g : Token → Option α}
    {ts : List Token} (us : List Token) {a : α}
    (h : firstAt (fun t rest => if p t then rest.head?.bind g else none) ts = some a) :
    firstAt (fun t rest => if p t then rest.head?.bind g else none) (ts ++ us) = some a := by
  refine firstAt_append us (fun t rest b hb => ?_) (fun t rest b _ hb hrest => ?_) h
  · cases rest with
    | nil => simp at hb
    | cons next more => simpa using hb
  · cases rest with
    | nil => simp [firstAt] at hrest
    | cons next more => simpa using hb

/-- A field that a turn of the loop reads just if it is not there. -/
theorem scan_field {α : Type} {bankName : String} {field : Reading → Option α}
    {f : Token → List Token → Option α}
    (hturn : ∀ s t rest, field (Reading.readToken bankName s t rest) = (field s).or (f t rest))
    (s : Reading) (ts : List Token) :
    field (scanTokens bankName s ts) = (field s).or (firstAt f ts) := by
  induction ts generalizing s with
  | nil => simp [scanTokens, firstAt]
  | cons t rest ih => simp [scanTokens, firstAt, ih, hturn, Option.or_assoc]

theorem scan_direction (bankName : String) (s : Reading) (ts : List Token) :
    (scanTokens bankName s ts).direction =
      s.direction.or (firstAt (fun t _ => directionAt t) ts) :=
  scan_field (fun _ _ _ => rfl) s ts

theorem scan_amount (bankName : String) (s : Reading) (ts : List Token) :
    (scanTokens bankName s ts).amountMinor = s.amountMinor.or (firstAt amountAt ts) :=
  scan_field (fun _ _ _ => rfl) s ts

theorem scan_merchant (bankName : String) (s : Reading) (ts : List Token) :
    (scanTokens bankName s ts).merchantRaw = s.merchantRaw.or (firstAt (fun t rest =>
      (ambiguousMerchantAt bankName t rest).or (narrationMerchantAt bankName t)) ts) :=
  scan_field (fun _ _ _ => Option.or_assoc) s ts

theorem scan_balance (bankName : String) (s : Reading) (ts : List Token) :
    (scanTokens bankName s ts).balanceAfter = s.balanceAfter.or (firstAt balanceAt ts) :=
  scan_field (fun _ _ _ => rfl) s ts

theorem scan_date (bankName : String) (s : Reading) (ts : List Token) :
    (scanTokens bankName s ts).eventTime = s.eventTime.or (firstAt dateAt ts) :=
  scan_field (fun _ _ _ => rfl) s ts

/-! ## balances -/

omit [Extern] [RuleTexts] [RowExtractor.RowTables] in
theorem isOneOf_iff {t : Token} {words : List String} :
    t.isOneOf words = true ↔ ∃ w ∈ words, t.lower = w.toList := by
  simp [Token.isOneOf]

omit [Extern] [RuleTexts] [RowExtractor.RowTables] in
theorem not_label_of_filler {t : Token} (h : t.isFiller = true) : t.isBalanceLabel = false := by
  obtain ⟨w, hw, hlower⟩ := isOneOf_iff.mp h
  have hwords : ∀ w ∈ ["rs", "rs.", "inr", "₹", "-", "is"],
      (Token.mk [] w.toList).isBalanceLabel = false := by decide +kernel
  have hlabel : t.isBalanceLabel = (Token.mk [] t.lower).isBalanceLabel := rfl
  rw [hlabel, hlower]
  exact hwords w hw

omit [Extern] [RowExtractor.RowTables] in
/-- Fillers name no balance. -/
theorem firstAt_fillers {ts : List Token} (h : ts.dropWhile Token.isFiller = []) :
    firstAt balanceAt ts = none := by
  cases hfirst : firstAt balanceAt ts with
  | none => rfl
  | some b =>
    obtain ⟨t, rest, hsuffix, hb⟩ := firstAt_eq_some hfirst
    have hmem : t ∈ ts := hsuffix.subset (by simp)
    have hfiller := List.dropWhile_eq_nil_iff.mp h t hmem
    simp [balanceAt, not_label_of_filler hfiller] at hb

omit [Extern] [RuleTexts] [RowExtractor.RowTables] in
/-- The tokens behind a label, when more follow. -/
theorem behindBalance_append {t : Token} {rest : List Token} (us : List Token)
    (h : behindBalance t rest ≠ []) : behindBalance t (rest ++ us) = behindBalance t rest ++ us := by
  have hdrop : ∀ l : List Token, l.dropWhile Token.isFiller ≠ [] →
      (l ++ us).dropWhile Token.isFiller = l.dropWhile Token.isFiller ++ us := by
    intro l hl
    rw [List.dropWhile_append, if_neg (by simpa using hl)]
  unfold behindBalance at h ⊢
  cases rest with
  | nil => simp at h
  | cons next more =>
    by_cases havl : t.isOneOf ["avl"] = true
    · by_cases hbal : next.isOneOf ["bal"] = true
      · simp only [havl, hbal, if_true, List.cons_append] at h ⊢
        exact hdrop more h
      · simp only [havl, hbal, if_true, List.cons_append] at h ⊢
        exact hdrop (next :: more) h
    · simp only [havl, List.cons_append] at h ⊢
      exact hdrop (next :: more) h

/-- A colon in a word is one in lower case. -/
def Token.KeepsColon (t : Token) : Prop := ':' ∈ t.orig → ':' ∈ t.lower

omit [Extern] [RowExtractor.RowTables] in
/-- A label behind which there are only fillers, and a balance further on: there is none. -/
theorem firstAt_behindBalance {t : Token} {rest : List Token} (h : behindBalance t rest = [])
    (hcolon : ∀ next ∈ rest, next.KeepsColon) : firstAt balanceAt rest = none := by
  unfold behindBalance at h
  cases rest with
  | nil => rfl
  | cons next more =>
    by_cases havl : t.isOneOf ["avl"] = true
    · by_cases hbal : next.isOneOf ["bal"] = true
      · simp only [havl, hbal, if_true] at h
        have hlower : next.lower = "bal".toList := by simpa [isOneOf_iff] using hbal
        have hinline : splitOnce ':' next.orig = none := by
          have hnot : ':' ∉ next.orig := by
            intro hmem
            have hin := hcolon next (by simp) hmem
            rw [hlower] at hin
            simp at hin
          simp [splitOnce, hnot]
        have hnavl : next.isOneOf ["avl"] = false := by simp [Token.isOneOf, hlower]
        have hbehind : behindBalance next more = [] := by
          unfold behindBalance
          simpa [hnavl] using h
        have hat : balanceAt next more = none := by
          unfold balanceAt
          simp [hinline, hbehind]
        simp [firstAt, hat, firstAt_fillers h]
      · simp only [havl, hbal, if_true] at h
        exact firstAt_fillers h
    · simp only [havl] at h
      exact firstAt_fillers h

omit [Extern] [RowExtractor.RowTables] in
/-- The first balance stays the first. -/
theorem firstAt_balance_append {ts : List Token} (us : List Token)
    (hcolon : ∀ t ∈ ts, t.KeepsColon) {b : Int} (h : firstAt balanceAt ts = some b) :
    firstAt balanceAt (ts ++ us) = some b := by
  have hhead : ∀ t rest, behindBalance t rest ≠ [] →
      (behindBalance t (rest ++ us)).head? = (behindBalance t rest).head? := by
    intro t rest hne
    rw [behindBalance_append us hne, List.head?_append_of_ne_nil _ hne]
  refine firstAt_append us (fun t rest b hb => ?_) (fun t rest b hsuffix hb hrest => ?_) h
  · unfold balanceAt at hb ⊢
    by_cases hlabel : t.isBalanceLabel = true
    · simp only [hlabel, if_true] at hb ⊢
      by_cases hne : behindBalance t rest = []
      · have hinline : ((splitOnce ':' t.orig).bind fun parts => parseAmount parts.2) = some b := by
          simpa [hne] using hb
        simp [hinline]
      · rw [hhead t rest hne]
        exact hb
    · simp [hlabel] at hb
  · unfold balanceAt at hb ⊢
    by_cases hlabel : t.isBalanceLabel = true
    · simp only [hlabel, if_true] at hb ⊢
      have hne : behindBalance t rest ≠ [] := by
        intro hnil
        have hnone := firstAt_behindBalance hnil fun next hnext =>
          hcolon next (hsuffix.subset (List.mem_cons_of_mem t hnext))
        simp [hnone] at hrest
      rw [hhead t rest hne]
      exact hb
    · simp [hlabel]

omit [Extern] [RuleTexts] [RowExtractor.RowTables] in
theorem mem_behindBalance {t next : Token} {rest : List Token} (h : next ∈ behindBalance t rest) :
    next ∈ rest := by
  unfold behindBalance at h
  have hdrop := (List.dropWhile_sublist Token.isFiller).subset h
  split at hdrop
  · split at hdrop
    · rename_i first more
      split at hdrop
      · exact List.mem_cons_of_mem first hdrop
      · exact hdrop
    · exact hdrop
  · exact hdrop

/-! ## what a reading stands on -/

/-- A run of words without the punctuation behind each. -/
def joinedRun (run : List Token) : List Char :=
  joinWords ((run.map fun t => trimEndOf ['.', ',', ';', ':'] t.orig).filter (· ≠ []))

/-- A merchant that stands in the message: at most five words in a row, or the payee of a
narration among them. -/
structure NamesMerchant (bankName : String) (ts : List Token) (m : List Char) : Prop where
  merchant : isInvalidMerchant m bankName = false
  words : (∃ run, run <:+: ts ∧ run.length ≤ 5 ∧
    (m = joinedRun run ∨ upiNarrationPayee (joinedRun run) = some m)) ∨
      ∃ t ∈ ts, upiNarrationPayee t.orig = some m

/-- Every field of a result is read off the words of the message. -/
structure ReadOff (bankName : String) (ts : List Token) (r : ExtractionResult) : Prop where
  direction : ∀ d ∈ r.direction,
    (d = "debit" ∧ ∃ t ∈ ts, ∃ v ∈ debitVerbs, v.toList <:+: t.lower) ∨
      (d = "credit" ∧ ∃ t ∈ ts, ∃ v ∈ creditVerbs, v.toList <:+: t.lower)
  amount : ∀ a ∈ r.amountMinor, r.currency = some "INR" ∧ ∃ mark figure, [mark, figure] <:+: ts ∧
    mark.isOneOf ["rs", "rs.", "inr", "₹"] = true ∧ parseAmount figure.orig = some a
  merchant : ∀ m ∈ r.merchantRaw, NamesMerchant bankName ts m.toList
  balance : ∀ b ∈ r.balanceAfter, ∃ t ∈ ts, parseAmount t.orig = some b ∨
    ∃ label inline, splitOnce ':' t.orig = some (label, inline) ∧ parseAmount inline = some b
  date : ∀ e ∈ r.eventTime, ∃ t ∈ ts, t.date = some (e, r.eventTimeAmbiguous)

omit [RuleTexts] [RowExtractor.RowTables] [Extern] in
theorem windowParts_eq (n : Nat) (ts : List Token) : ∃ k ≤ n, windowParts n ts =
    ((ts.take k).map fun t => trimEndOf ['.', ',', ';', ':'] t.orig).filter (· ≠ []) := by
  induction n generalizing ts with
  | zero => exact ⟨0, le_rfl, by simp [windowParts]⟩
  | succ n ih =>
    cases ts with
    | nil => exact ⟨0, by omega, by simp [windowParts]⟩
    | cons t rest =>
      have hone : (if trimEndOf ['.', ',', ';', ':'] t.orig = [] then []
          else [trimEndOf ['.', ',', ';', ':'] t.orig]) =
          [trimEndOf ['.', ',', ';', ':'] t.orig].filter (· ≠ []) := by
        by_cases h : trimEndOf ['.', ',', ';', ':'] t.orig = []
        · simp [h]
        · simp [h]
      by_cases hends : t.endsWindow = true
      · exact ⟨0, by omega, by simp [windowParts, hends]⟩
      · by_cases hlast : t.orig.getLast? = some '.' ∨ t.orig.getLast? = some ','
        · refine ⟨1, by omega, ?_⟩
          simp only [windowParts, hends, hlast, if_true, if_false, Bool.false_eq_true, hone]
          simp
        · obtain ⟨k, hk, hparts⟩ := ih rest
          refine ⟨k + 1, by omega, ?_⟩
          simp only [windowParts, hends, hlast, if_false, Bool.false_eq_true, hone, hparts,
            ← List.filter_append]
          simp

theorem merchantBehind_names {bankName : String} {ts behind : List Token} {m : List Char}
    (hsuffix : behind <:+ ts) (h : merchantBehind bankName behind = some m) :
    NamesMerchant bankName ts m := by
  unfold merchantBehind collectMerchantWindow at h
  obtain ⟨k, hk, hparts⟩ := windowParts_eq 5 behind
  by_cases hnil : windowParts 5 behind = []
  · simp [hnil] at h
  · have hrun : behind.take k <:+: ts :=
      (List.take_prefix k behind).isInfix.trans hsuffix.isInfix
    have hjoin : joinWords (windowParts 5 behind) = joinedRun (behind.take k) := by
      rw [hparts, joinedRun]
    simp only [hnil, if_false, Option.bind_some, hjoin] at h
    split at h
    · simp at h
    · rename_i hvalid
      have hm := Option.some.inj h
      refine ⟨by simpa [hm] using hvalid, .inl ⟨behind.take k, hrun, ?_, ?_⟩⟩
      · rw [List.length_take]
        omega
      · cases hpayee : upiNarrationPayee (joinedRun (behind.take k)) with
        | none => exact .inl (by simpa [hpayee] using hm.symm)
        | some payee => exact .inr (by simpa [hpayee] using hm)

theorem strictMerchant_names {bankName : String} {ts : List Token} {m : List Char}
    (h : strictMerchant bankName ts = some m) : NamesMerchant bankName ts m := by
  suffices hsub : ∀ sub, sub <:+ ts → strictMerchant bankName sub = some m →
      NamesMerchant bankName ts m from hsub ts List.suffix_rfl h
  intro sub
  induction sub with
  | nil =>
    intro _ hm
    simp [strictMerchant] at hm
  | cons t rest ih =>
    intro hsuffix hm
    unfold strictMerchant at hm
    cases hlabel : matchLabelAt (t :: rest) merchantLabelStrict with
    | none => exact ih ((List.suffix_cons t rest).trans hsuffix) (by simpa [hlabel] using hm)
    | some consumed =>
      cases hbehind : merchantBehind bankName ((t :: rest).drop consumed) with
      | none =>
        exact ih ((List.suffix_cons t rest).trans hsuffix) (by simpa [hlabel, hbehind] using hm)
      | some m' =>
        have hm' : m' = m := by simpa [hlabel, hbehind] using hm
        exact merchantBehind_names ((List.drop_suffix _ _).trans hsuffix) (hm' ▸ hbehind)

theorem scanned_merchant_names {bankName : String} {ts : List Token} {m : List Char}
    (h : firstAt (fun t rest =>
      (ambiguousMerchantAt bankName t rest).or (narrationMerchantAt bankName t)) ts = some m) :
    NamesMerchant bankName ts m := by
  obtain ⟨t, rest, hsuffix, hm⟩ := firstAt_eq_some h
  have hmem : t ∈ ts := hsuffix.subset (by simp)
  cases hamb : ambiguousMerchantAt bankName t rest with
  | some m' =>
    have hm' : m' = m := by simpa [hamb] using hm
    unfold ambiguousMerchantAt at hamb
    split at hamb
    · exact merchantBehind_names ((List.suffix_cons t rest).trans hsuffix) (hm' ▸ hamb)
    · simp at hamb
  | none =>
    have hnarr : narrationMerchantAt bankName t = some m := by simpa [hamb] using hm
    unfold narrationMerchantAt at hnarr
    obtain ⟨payee, hpayee, hkeep⟩ := Option.bind_eq_some_iff.mp hnarr
    split at hkeep
    · simp at hkeep
    · rename_i hvalid
      have hp := Option.some.inj hkeep
      exact ⟨by simpa [hp] using hvalid, .inr ⟨t, hmem, hp ▸ hpayee⟩⟩

theorem nlpExtract_eq_some {bankName : String} {body : List Char} {r : ExtractionResult}
    (h : nlpExtract bankName body = some r) :
    r = (scanTokens bankName { merchantRaw := strictMerchant bankName (tokensOf body) }
      (tokensOf body)).result (tokensOf body) ∧ r.isValid = true := by
  unfold nlpExtract at h
  dsimp only at h
  split at h
  · rename_i hvalid
    have hr := Option.some.inj h
    exact ⟨hr.symm, hr ▸ hvalid⟩
  · simp at h

omit [Extern] [RuleTexts] [RowExtractor.RowTables] in
theorem head_infix {t next : Token} {rest ts : List Token} (hsuffix : (t :: rest) <:+ ts)
    (h : rest.head? = some next) : [t, next] <:+: ts := by
  obtain ⟨more, rfl⟩ := List.head?_eq_some_iff.mp h
  exact (List.prefix_append [t, next] more).isInfix.trans hsuffix.isInfix

/-- **Nothing is invented.**  Whatever the token scan reports stands in the words of the message:
the verb of a direction, the figure of an amount behind a rupee sign, the words of a merchant, the
figure of a balance, and the date. -/
theorem nlp_reads_off {bankName : String} {body : List Char} {r : ExtractionResult}
    (h : nlpExtract bankName body = some r) : ReadOff bankName (tokensOf body) r := by
  obtain ⟨hr, -⟩ := nlpExtract_eq_some h
  subst hr
  set ts := tokensOf body
  constructor
  · intro d hd
    have hfirst : firstAt (fun t _ => directionAt t) ts = some d := by
      simpa [Reading.result, scan_direction] using hd
    obtain ⟨t, rest, hsuffix, hat⟩ := firstAt_eq_some hfirst
    have hmem : t ∈ ts := hsuffix.subset (by simp)
    unfold directionAt at hat
    split at hat
    · rename_i hverb
      exact .inl ⟨(Option.some.inj hat).symm, t, hmem, by simpa using hverb⟩
    · split at hat
      · rename_i hverb
        exact .inr ⟨(Option.some.inj hat).symm, t, hmem, by simpa using hverb⟩
      · simp at hat
  · intro a ha
    have hfirst : firstAt amountAt ts = some a := by
      simpa [Reading.result, scan_amount] using ha
    obtain ⟨t, rest, hsuffix, hat⟩ := firstAt_eq_some hfirst
    refine ⟨by simp [Reading.result, scan_amount, hfirst], ?_⟩
    unfold amountAt at hat
    split at hat
    · rename_i hmark
      obtain ⟨next, hnext, hfigure⟩ := Option.bind_eq_some_iff.mp hat
      exact ⟨t, next, head_infix hsuffix hnext, hmark, hfigure⟩
    · simp at hat
  · intro m hm
    have hmerchant : ∃ m', m = String.ofList m' ∧ ((strictMerchant bankName ts).or
        (firstAt (fun t rest => (ambiguousMerchantAt bankName t rest).or
          (narrationMerchantAt bankName t)) ts)) = some m' := by
      simpa [Reading.result, scan_merchant, eq_comm, and_comm] using hm
    obtain ⟨m', rfl, hread⟩ := hmerchant
    rw [String.toList_ofList]
    cases hstrict : strictMerchant bankName ts with
    | some m'' =>
      have heq : m'' = m' := by simpa [hstrict] using hread
      exact strictMerchant_names (heq ▸ hstrict)
    | none => exact scanned_merchant_names (by simpa [hstrict] using hread)
  · intro b hb
    have hfirst : firstAt balanceAt ts = some b := by
      simpa [Reading.result, scan_balance] using hb
    obtain ⟨t, rest, hsuffix, hat⟩ := firstAt_eq_some hfirst
    have hmem : t ∈ ts := hsuffix.subset (by simp)
    unfold balanceAt at hat
    split at hat
    · cases hinline : (splitOnce ':' t.orig).bind fun parts => parseAmount parts.2 with
      | some b' =>
        have heq : b' = b := by simpa [hinline] using hat
        obtain ⟨parts, hsplit, hparse⟩ := Option.bind_eq_some_iff.mp hinline
        exact ⟨t, hmem, .inr ⟨parts.1, parts.2, hsplit, heq ▸ hparse⟩⟩
      | none =>
        have hbehind : ((behindBalance t rest).head?.bind fun next => parseAmount next.orig) =
            some b := by simpa [hinline] using hat
        obtain ⟨next, hnext, hparse⟩ := Option.bind_eq_some_iff.mp hbehind
        have hin : next ∈ behindBalance t rest := List.mem_of_head? hnext
        exact ⟨next, hsuffix.subset (List.mem_cons_of_mem t (mem_behindBalance hin)), .inl hparse⟩
    · simp at hat
  · intro e he
    have hdate : ∃ ambiguous, (firstAt dateAt ts).or (ts.findSome? Token.date) =
        some (e, ambiguous) := by
      simpa [Reading.result, scan_date] using he
    obtain ⟨ambiguous, hread⟩ := hdate
    have hflag : ((scanTokens bankName { merchantRaw := strictMerchant bankName ts } ts).result
        ts).eventTimeAmbiguous = ambiguous := by
      simp [Reading.result, scan_date, hread]
    rw [hflag]
    cases hon : firstAt dateAt ts with
    | some found =>
      obtain ⟨t, rest, hsuffix, hat⟩ := firstAt_eq_some hon
      unfold dateAt at hat
      split at hat
      · obtain ⟨next, hnext, hparse⟩ := Option.bind_eq_some_iff.mp hat
        have heq : found = (e, ambiguous) := by simpa [hon] using hread
        have hin : next ∈ rest := List.mem_of_head? hnext
        exact ⟨next, hsuffix.subset (List.mem_cons_of_mem t hin), heq ▸ hparse⟩
      · simp at hat
    | none =>
      have hfind : ts.findSome? Token.date = some (e, ambiguous) := by simpa [hon] using hread
      exact List.exists_of_findSome?_eq_some hfind

/-- Five words and a date, read. -/
def debitAlert : List Char := "Rs 500 debited at Zudio on 05/03/2024".toList

def debitRead : ExtractionResult where
  amountMinor := some 50000
  currency := some "INR"
  direction := some "debit"
  eventTime := some 1709596800
  merchantRaw := some "Zudio"
  eventTimeAmbiguous := true
  extractionMethod := "nlp"

omit [Extern] [RuleTexts] [RowExtractor.RowTables] in
theorem debit_reads_off :
    letI := Extern.ascii
    letI := RuleTexts.dates
    letI := RowExtractor.RowTables.ascii
    ReadOff "HDFC Bank" (tokensOf debitAlert) debitRead := by
  let := Extern.ascii
  let := RuleTexts.dates
  let := RowExtractor.RowTables.ascii
  have hread : nlpExtract "HDFC Bank" debitAlert = some debitRead := by decide +kernel
  exact nlp_reads_off hread

/-! ## footers -/

/-- Lower case keeps a colon. -/
class ColonIsKept [Extern] : Prop where
  colon : ∀ s : List Char, ':' ∈ s → ':' ∈ lowercase s

omit [RuleTexts] [RowExtractor.RowTables] in
theorem tokensOf_append {body : List Char} {c : Char} (hc : isWhitespace c = true)
    (footer : List Char) : tokensOf (body ++ c :: footer) = tokensOf body ++ tokensOf footer := by
  simp [tokensOf, splitWhitespace_append_white hc]

/-- **A footer changes nothing.**  The direction, the amount and the balance that the token scan
reads of a message, it reads of the message with anything behind it. -/
theorem footer_changes_nothing [ColonIsKept] {bankName : String} {body footer : List Char} {c : Char}
    {r r' : ExtractionResult} (hc : isWhitespace c = true) (h : nlpExtract bankName body = some r)
    (h' : nlpExtract bankName (body ++ c :: footer) = some r') :
    (∀ d ∈ r.direction, r'.direction = some d) ∧
      (∀ a ∈ r.amountMinor, r'.amountMinor = some a ∧ r'.currency = r.currency) ∧
      ∀ b ∈ r.balanceAfter, r'.balanceAfter = some b := by
  obtain ⟨hr, -⟩ := nlpExtract_eq_some h
  obtain ⟨hr', -⟩ := nlpExtract_eq_some h'
  rw [tokensOf_append hc] at hr'
  subst hr hr'
  simp only [Reading.result, scan_direction, scan_amount, scan_balance, Option.none_or]
  refine ⟨fun d hd => ?_, fun a ha => ?_, fun b hb => ?_⟩
  · exact firstAt_append (f := fun t _ => directionAt t) _ (fun t rest d hd => hd)
      (fun t rest d _ hnone _ => hnone) hd
  · have happ : firstAt amountAt (tokensOf body ++ tokensOf footer) = some a :=
      firstAt_append_next _ ha
    rw [happ, show firstAt amountAt (tokensOf body) = some a from ha]
    simp
  · refine firstAt_balance_append _ (fun t ht => ?_) hb
    obtain ⟨w, -, rfl⟩ := List.mem_map.mp ht
    exact ColonIsKept.colon w

omit [Extern] [RuleTexts] [RowExtractor.RowTables] in
/-- The alert, and behind it a word of a credit and another amount. -/
theorem debit_keeps_direction :
    letI := Extern.ascii
    letI := RuleTexts.dates
    letI := RowExtractor.RowTables.ascii
    (∀ d ∈ debitRead.direction, debitRead.direction = some d) ∧
      (∀ a ∈ debitRead.amountMinor,
        debitRead.amountMinor = some a ∧ debitRead.currency = debitRead.currency) ∧
      ∀ b ∈ debitRead.balanceAfter, debitRead.balanceAfter = some b := by
  let := Extern.ascii
  let := RuleTexts.dates
  let := RowExtractor.RowTables.ascii
  have : ColonIsKept := ⟨fun s h => by
    change ':' ∈ (String.ofList ((String.ofList s).toList.map Char.toLower)).toList
    rw [String.toList_ofList, String.toList_ofList]
    exact List.mem_map.mpr ⟨':', h, rfl⟩⟩
  have hread : nlpExtract "HDFC Bank" debitAlert = some debitRead := by decide +kernel
  have hfooter : nlpExtract "HDFC Bank" (debitAlert ++ ' ' :: "credited Rs 9".toList) =
      some debitRead := by decide +kernel
  exact footer_changes_nothing (by decide) hread hfooter

end Scan

end Dinero.Ladder
