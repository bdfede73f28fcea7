import Dinero.SenderGate
import Dinero.SenderQueries

/-!
# Dinero.ContentClasses

What a message of a known sender is about, decided by the phrases in it.

Language for money that has not moved is taken out before any verb is looked for.
The queries of a scan name single words only; every phrase that makes a payment
alert or a balance of a subject has the words of one of them in it.
-/

namespace Dinero.ContentClassifier

open Backtrack

/-! ## phrases -/

/-- Language for a transaction that has already settled. -/
def transactionVerbs : List String := [
  "spent", "debited", "debit of", "withdrawn", "withdrawal of", "deducted", "you paid",
  "you have paid", "you've paid", "paid to", "bill paid", "payment of", "payment made",
  "payment done", "payment successful", "payment was successful", "purchase of", "purchase at",
  "purchased at", "transaction of", "transaction alert", "transaction successful",
  "transaction was successful", "txn of", "txn at", "transferred to", "money transferred",
  "transfer of", "charged to", "has been charged", "swiped at", "card used at", "card was used",
  "recharge successful", "credited", "credit of", "payment received", "money received",
  "amount received", "funds received", "you received", "you have received", "refund of",
  "refunded", "refund processed", "reversal of", "reversed", "deposited", "money added"]

/-- Language for an alert that reports a balance without a transaction. -/
def balanceTerms : List String := [
  "available balance", "available bal", "avl balance", "avl bal", "account balance",
  "a/c balance", "closing balance", "balance update", "updated balance",
  "balance in your account", "account update", "upi payment"]

/-- Phrases describing money that has not moved. -/
def unsettledPhrases : List String := [
  "be debited", "be credited", "be deducted", "be charged", "be withdrawn", "be paid",
  "be refunded", "be reversed", "be transferred", "not debited", "not been debited",
  "not credited", "not been credited", "not received", "not paid", "not been paid"]

/-- Markers that a transaction was attempted and did not go through. -/
def failurePhrases : List String := [
  "transaction failed", "transaction has failed", "transaction was unsuccessful",
  "transaction declined", "transaction was declined", "payment failed", "payment has failed",
  "payment was unsuccessful", "payment declined", "debit failed", "autopay failed",
  "could not be processed", "unable to process your payment", "insufficient balance",
  "insufficient funds"]

def mandateCancellationPhrases : List String := [
  "mandate cancelled", "mandate canceled", "mandate cancellation", "mandate stands cancelled",
  "mandate has been cancelled", "mandate revoked", "mandate withdrawn", "mandate deleted",
  "mandate suspended", "mandate terminated", "autopay deactivated", "autopay cancelled",
  "autopay canceled", "autopay stopped", "autopay disabled", "standing instruction cancelled",
  "standing instruction has been cancelled", "standing instruction revoked",
  "subscription cancelled"]

def mandateRegistrationPhrases : List String := [
  "mandate registered", "mandate registration", "mandate set at merchant", "mandate created",
  "mandate has been created", "mandate approved", "mandate authenticated", "mandate activated",
  "mandate is now active", "registration success", "autopay activated", "autopay enabled",
  "autopay set up", "autopay setup", "successful autopay transaction",
  "standing instruction registered", "standing instruction set"]

/-! ## the classes -/

inductive ContentClass
  | transactionAlert
  | balanceUpdate
  | statementEmail
  | mandateRegistration
  | mandateCancellation
  | noise
  | otp
  | kyc
  | marketing
  | reminder
  | unknown
deriving DecidableEq, Repr

def containsAny (haystack : List Char) (needles : List String) : Bool :=
  needles.any fun n => decide (n.toList <:+: haystack)

/-- Strips future-tense and negated forms so only settled language remains. -/
def settledText (content : List Char) : List Char :=
  unsettledPhrases.foldl (fun out phrase => Entities.replace phrase.toList [' '] out) content

section Classifier

variable [Extern] [RowExtractor.RowTables]

/-- `[\d,]+(?:\.\d{1,2})?`. -/
def figureRe : Pattern :=
  .seq (plus true (.cls fun c => isDigit c || c = ','))
    (opt (seqAll [.lit '.', .cls isDigit, opt (.cls isDigit)]))

/-- `\s*`. -/
def blanksRe : Pattern := .star true (.cls isWhitespace)

/-- Three shapes: symbol first, code first with an optional period, and amount first. -/
def amountRegex : Pattern :=
  altAll [seqAll [.lit '₹', blanksRe, figureRe],
    seqAll [wordBoundary, .alt (word "rs") (word "inr"), opt (.lit '.'), blanksRe, figureRe],
    seqAll [figureRe, blanksRe,
      .alt (.lit '₹') (seqAll [wordBoundary, .alt (word "rs") (word "inr"), wordBoundary])]]

def hasAmountPattern (content : List Char) : Bool := isMatch amountRegex content

/-- Classifies a message as transactional, mandate-related, or neither. -/
def classify (subject body : List Char) : ContentClass :=
  let subjectLower := lowercase subject
  let content := subjectLower ++ ' ' :: lowercase body
  let settled := settledText content
  let hasVerb := containsAny settled transactionVerbs
  if containsAny subjectLower ["otp", "one time password", "verification code"] then .otp
  else if containsAny subjectLower ["kyc", "know your customer", "pan update", "aadhaar"] then .kyc
  else if containsAny subjectLower ["statement", "e-statement"] then .statementEmail
  else if containsAny content mandateCancellationPhrases then .mandateCancellation
  else if containsAny content mandateRegistrationPhrases then .mandateRegistration
  else if containsAny subjectLower ["personal loan", "loan offer"] then .marketing
  else if containsAny (settled.take 600) failurePhrases then .noise
  else if !(hasAmountPattern content && hasVerb) &&
      containsAny subjectLower ["offer", "exclusive", "apply now", "pre-approved", "cashback",
        "upgrade", "benefits", "biometric authentication"] then .marketing
  else if !hasVerb && containsAny subjectLower ["payment due", "due date", "reminder", "overdue"]
    then .reminder
  else if hasVerb then .transactionAlert
  else if containsAny settled balanceTerms then .balanceUpdate
  else if containsAny subjectLower ["terms", "conditions", "important notice"] then .noise
  else .unknown

/-- Whether a content class could plausibly describe a transaction. -/
def contentClassMayBeTransactional : ContentClass → Bool
  | .transactionAlert | .balanceUpdate | .statementEmail | .mandateRegistration
  | .mandateCancellation => true
  | _ => false

/-- Reads one header value from a message, or empty if absent. -/
def headerValue (msg : Message) (name : String) : List Char :=
  (((msg.payload.bind MessagePart.headers).bind fun hs =>
    hs.find? fun h => eqIgnoreAsciiCase h.name name).map MessagePartHeader.value).getD []

/-- Whether the subject alone suggests a transaction. -/
def subjectLooksLikeTransaction (msg : Message) : Bool :=
  (msg.payload.bind MessagePart.headers).isSome &&
    (classify (headerValue msg "subject") [] = .transactionAlert ||
      classify (headerValue msg "subject") [] = .balanceUpdate)

end Classifier

/-! ## words that survive -/

/-- A text without blanks that starts what is left of `s` starts `s`. -/
theorem prefix_of_prefix_replace {pat w s : List Char} (hpat : pat ≠ []) (hw : ' ' ∉ w)
    (h : w <+: Entities.replace pat [' '] s) : w <+: s := by
  induction w generalizing s with
  | nil => exact List.nil_prefix
  | cons d w ih =>
    cases s with
    | nil => simp at h
    | cons c s =>
      by_cases hc : pat <+: c :: s
      · obtain ⟨t, ht⟩ := hc
        rw [← ht, Entities.replace_append hpat, List.singleton_append, List.cons_prefix_cons] at h
        simp [h.1] at hw
      · rw [Entities.replace_cons hc, List.cons_prefix_cons] at h
        exact List.cons_prefix_cons.mpr ⟨h.1, ih (by simp_all) h.2⟩

/-- A text without blanks that is left of `s` was part of `s`. -/
theorem infix_of_infix_replace {pat w s : List Char} (hpat : pat ≠ []) (hw : ' ' ∉ w)
    (h : w <:+: Entities.replace pat [' '] s) : w <:+: s := by
  induction hn : s.length using Nat.strong_induction_on generalizing s with
  | h n ih =>
    cases s with
    | nil => exact h
    | cons c s =>
      by_cases hc : pat <+: c :: s
      · obtain ⟨t, ht⟩ := hc
        rw [← ht, Entities.replace_append hpat, List.singleton_append, List.infix_cons_iff] at h
        rw [← ht]
        cases h with
        | inl h =>
          cases w with
          | nil => exact List.nil_infix
          | cons d w => simp [(List.cons_prefix_cons.mp h).1] at hw
        | inr h =>
          have hlen := congrArg List.length ht
          have := List.length_pos_of_ne_nil hpat
          simp only [List.length_append, List.length_cons] at hlen hn
          exact (ih t.length (by omega) h rfl).trans (List.suffix_append pat t).isInfix
      · rw [Entities.replace_cons hc, List.infix_cons_iff] at h
        cases h with
        | inl h =>
          rw [← Entities.replace_cons hc] at h
          exact (prefix_of_prefix_replace hpat hw h).isInfix
        | inr h =>
          simp only [List.length_cons] at hn
          exact List.infix_cons (ih s.length (by omega) h rfl)

theorem infix_of_infix_settledText {w content : List Char} (hw : ' ' ∉ w)
    (h : w <:+: settledText content) : w <:+: content := by
  have aux (phrases : List String) (hne : ∀ p ∈ phrases, p.toList ≠ []) (s : List Char)
      (h : w <:+: phrases.foldl (fun out p => Entities.replace p.toList [' '] out) s) :
      w <:+: s := by
    induction phrases generalizing s with
    | nil => exact h
    | cons p phrases ih =>
      simp only [List.mem_cons, forall_eq_or_imp] at hne
      exact infix_of_infix_replace hne.1 hw (ih hne.2 _ h)
  exact aux _ (by decide) _ h

/-! ## subjects within reach of the scan -/

/-- Whether the words of a query term all occur in a text. -/
def Reaches (term : String) (text : List Char) : Prop :=
  ∀ word ∈ term.toList.splitOn ' ', word <:+: text

instance (term : String) (text : List Char) : Decidable (Reaches term text) :=
  inferInstanceAs (Decidable (∀ word ∈ term.toList.splitOn ' ', word <:+: text))

/-- The phrases that tell a payment or a balance, each with a term that has no other words. -/
def reachedBy : List (String × String) := [
  ("spent", "spent"), ("debited", "debited"), ("debit of", "debit of"),
  ("withdrawn", "withdrawn"), ("withdrawal of", "withdrawal"), ("deducted", "deducted"),
  ("you paid", "paid"), ("you have paid", "paid"), ("you've paid", "paid"), ("paid to", "paid"),
  ("bill paid", "paid"), ("payment of", "payment"), ("payment made", "payment"),
  ("payment done", "payment"), ("payment successful", "payment"),
  ("payment was successful", "payment"), ("purchase of", "purchase"),
  ("purchase at", "purchase"), ("purchased at", "purchase"), ("transaction of", "transaction"),
  ("transaction alert", "transaction"), ("transaction successful", "transaction"),
  ("transaction was successful", "transaction"), ("txn of", "txn"), ("txn at", "txn"),
  ("transferred to", "transferred"), ("money transferred", "transferred"),
  ("transfer of", "transfer of"), ("charged to", "charged"), ("has been charged", "charged"),
  ("swiped at", "swiped"), ("card used at", "card used"), ("card was used", "card used"),
  ("recharge successful", "recharge successful"), ("credited", "credited"),
  ("credit of", "credit of"), ("payment received", "payment"), ("money received", "received"),
  ("amount received", "received"), ("funds received", "received"), ("you received", "received"),
  ("you have received", "received"), ("refund of", "refund"), ("refunded", "refund"),
  ("refund processed", "refund"), ("reversal of", "reversal"), ("reversed", "reversed"),
  ("deposited", "deposited"), ("money added", "money added"),
  ("available balance", "available bal"), ("available bal", "available bal"),
  ("avl balance", "avl bal"), ("avl bal", "avl bal"), ("account balance", "account balance"),
  ("a/c balance", "a/c balance"), ("closing balance", "closing balance"),
  ("balance update", "balance update"), ("updated balance", "balance update"),
  ("balance in your account", "account balance"), ("account update", "account update"),
  ("upi payment", "payment")]

theorem reaches_of_mem_reachedBy : ∀ p ∈ reachedBy, Reaches p.2 p.1.toList := by
  simp only [reachedBy, List.forall_mem_cons, List.not_mem_nil, false_implies, implies_true,
    and_true]
  repeat' apply And.intro
  all_goals
    rw [Reaches]
    repeat rw [String.toList_ofList]
    decide

/-- Every phrase that tells a payment or a balance has the words of a term in it. -/
theorem exists_reaches_phrase {phrase : String}
    (h : phrase ∈ transactionVerbs ++ balanceTerms) :
    ∃ term ∈ rescueSubjectTerms, Reaches term phrase.toList := by
  have hall : transactionVerbs ++ balanceTerms = reachedBy.map Prod.fst := by decide
  have hterm : ∀ p ∈ reachedBy, p.2 ∈ rescueSubjectTerms := by decide +kernel
  rw [hall, List.mem_map] at h
  obtain ⟨p, hp, rfl⟩ := h
  exact ⟨p.2, hterm p hp, reaches_of_mem_reachedBy p hp⟩

theorem blank_not_mem_of_term :
    ∀ term ∈ rescueSubjectTerms, ∀ word ∈ term.toList.splitOn ' ', ' ' ∉ word := by
  decide +kernel

/-- A phrase found in the settled text is reached in the text as it came. -/
theorem exists_reaches_of_settled {content : List Char} {phrases : List String}
    (hphrases : phrases ⊆ transactionVerbs ++ balanceTerms)
    (h : containsAny (settledText content) phrases = true) :
    ∃ term ∈ rescueSubjectTerms, Reaches term content := by
  simp only [containsAny, List.any_eq_true, decide_eq_true_eq] at h
  obtain ⟨phrase, hphrase, hin⟩ := h
  obtain ⟨term, hterm, hreaches⟩ := exists_reaches_phrase (hphrases hphrase)
  exact ⟨term, hterm, fun word hword =>
    infix_of_infix_settledText (blank_not_mem_of_term term hterm word hword)
      ((hreaches word hword).trans hin)⟩

theorem infix_of_infix_append_blank {w s : List Char} (hw : ' ' ∉ w) (h : w <:+: s ++ [' ']) :
    w <:+: s := by
  obtain ⟨before, after, heq⟩ := h
  cases after using List.reverseRecOn with
  | nil =>
    cases w using List.reverseRecOn with
    | nil => exact List.nil_infix
    | append_singleton w c =>
      rw [List.append_nil, ← List.append_assoc] at heq
      have := List.append_inj_right' heq rfl
      simp_all
  | append_singleton after c =>
    rw [← List.append_assoc] at heq
    exact ⟨before, after, List.append_inj_left' heq rfl⟩

section Reach

variable [Extern] [RowExtractor.RowTables]

/-- What makes a payment alert or a balance is a phrase in the settled text. -/
theorem settled_of_classify {subject body : List Char}
    (h : classify subject body = .transactionAlert ∨ classify subject body = .balanceUpdate) :
    containsAny (settledText (lowercase subject ++ ' ' :: lowercase body)) transactionVerbs ∨
      containsAny (settledText (lowercase subject ++ ' ' :: lowercase body)) balanceTerms := by
  by_contra hno
  simp only [not_or, Bool.not_eq_true] at hno
  simp only [classify, hno.1, hno.2, Bool.false_eq_true, if_false] at h
  repeat' split at h
  all_goals simp at h

/-- A message whose texts make it a payment alert or a balance has, in its subject or in its body,
the words of a term the scan asks for. -/
theorem exists_reaches_of_classify {subject body : List Char}
    (h : classify subject body = .transactionAlert ∨ classify subject body = .balanceUpdate) :
    ∃ term ∈ rescueSubjectTerms, Reaches term (lowercase subject ++ ' ' :: lowercase body) := by
  cases settled_of_classify h with
  | inl hverb => exact exists_reaches_of_settled (List.subset_append_left _ _) hverb
  | inr hterm => exact exists_reaches_of_settled (List.subset_append_right _ _) hterm

omit [RowExtractor.RowTables] in
theorem lowercase_nil (h : toLowercase "" = "") : lowercase [] = [] := by
  simp [lowercase, h]

/-- No subject that looks like a transaction is out of the scan's reach: the words of one of the
terms it asks Gmail for are all in it. -/
theorem subject_within_reach (hempty : toLowercase "" = "") (msg : Message)
    (h : subjectLooksLikeTransaction msg = true) :
    ∃ term ∈ rescueSubjectTerms, Reaches term (lowercase (headerValue msg "subject")) := by
  simp only [subjectLooksLikeTransaction, Bool.and_eq_true, Bool.or_eq_true,
    decide_eq_true_eq] at h
  obtain ⟨term, hterm, hreaches⟩ := exists_reaches_of_classify h.2
  rw [lowercase_nil hempty] at hreaches
  exact ⟨term, hterm, fun word hword =>
    infix_of_infix_append_blank (blank_not_mem_of_term term hterm word hword) (hreaches word hword)⟩

end Reach

/-- A card alert of one word. -/
def spentMessage : Message := ⟨some ⟨some [⟨"Subject", "Spent".toList⟩]⟩⟩

theorem spent_within_reach :
    letI := Extern.ascii
    letI := RowExtractor.RowTables.ascii
    subjectLooksLikeTransaction spentMessage = true ∧
      ∃ term ∈ rescueSubjectTerms, Reaches term (lowercase (headerValue spentMessage "subject")) := by
  let := Extern.ascii
  let := RowExtractor.RowTables.ascii
  have h : subjectLooksLikeTransaction spentMessage = true := by decide +kernel
  exact ⟨h, subject_within_reach (by decide) spentMessage h⟩

end Dinero.ContentClassifier
