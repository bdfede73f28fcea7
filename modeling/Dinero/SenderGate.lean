import Dinero.MimeSanitization
import Dinero.RowFields

/-!
# Dinero.SenderGate

Whose mail is read: the gate in front of the pipeline, decided from the headers
of a message alone.

The domain of the sender is looked up among the senders the user has approved,
and else among the registered ones; what Gmail says of the message's origin can
only take a verdict back, and what the user says of a domain's bank only changes
the bank's name.
-/

namespace Dinero

open Backtrack RowExtractor

/-- What the gate takes from the Unicode tables and from `strsim`, beyond the ledger's. -/
class MailTexts where
  nfkc : List Char → List Char
  /-- `unicode_security::skeleton`. -/
  skeleton : List Char → List Char
  /-- `strsim::normalized_damerau_levenshtein`. -/
  similarity : List Char → List Char → ℚ
  /-- `format!("{:?}", ..)` of an `Option<String>`. -/
  debug : Option (List Char) → String

export MailTexts (nfkc skeleton similarity)

structure MessagePartHeader where
  name : String
  value : List Char
deriving DecidableEq, Repr

structure MessagePart where
  headers : Option (List MessagePartHeader)
deriving DecidableEq, Repr

structure Message where
  payload : Option MessagePart
deriving DecidableEq, Repr

/-- `eq_ignore_ascii_case`. -/
def eqIgnoreAsciiCase (s t : String) : Bool := s.toList.map Char.toLower = t.toList.map Char.toLower

/-- `split_once`. -/
def splitOnce (c : Char) (s : List Char) : Option (List Char × List Char) :=
  if c ∈ s then some (s.takeWhile (· ≠ c), (s.dropWhile (· ≠ c)).drop 1) else none

/-- `rsplit_once`. -/
def rsplitOnce (c : Char) (s : List Char) : Option (List Char × List Char) :=
  (splitOnce c s.reverse).map fun p => (p.2.reverse, p.1.reverse)

section Gate

variable [Extern] [RowTables] [MailTexts]

/-- `to_lowercase`. -/
def lowercase (s : List Char) : List Char := (toLowercase (String.ofList s)).toList

/-! ## addresses -/

/-- Canonical form of a domain, for comparing one against another. -/
def normalizeDomain (domain : List Char) : List Char :=
  let bare := trimMatches (fun c => c = '[' ∨ c = ']') (trim domain)
  nfkc (lowercase (trim (bare.rdropWhile (· = '.'))))

/-- The domain of an address, unless there is more than one `@`. -/
def addressDomain (email : List Char) : Option (List Char) :=
  match splitOnce '@' (trim email) with
  | none => none
  | some (_, domain) =>
    if '@' ∈ domain then none
    else if normalizeDomain domain = [] then none
    else some (normalizeDomain domain)

/-- The text inside the first `<...>` pair. -/
def firstAngleAddr (value : List Char) : Option (List Char) :=
  match splitOnce '<' value with
  | none => none
  | some (_, rest) => (splitOnce '>' rest).map Prod.fst

/-- Splits a From header into address and display name. -/
def parseFromHeader (from_ : List Char) : List Char × Option (List Char) :=
  match firstAngleAddr from_ with
  | some addr =>
    let namePart := trim (from_.takeWhile (· ≠ '<'))
    (trim addr, if namePart = [] then none
      else some (trimMatches (fun c => c = '"' ∨ c = ' ' ∨ c = '\'') namePart))
  | none => (trim from_, none)

/-! ## the registry -/

inductive SenderVerificationResult
  | verifiedTransactionCandidate (bankName : String)
  | verifiedStatementCandidate (bankName : String)
  | verifiedNoise
  | unverifiedReject (reason : String)
  | spoofReject (reason : String)
deriving DecidableEq, Repr

structure VerifiedSenderConfig where
  domain : List Char
  bankName : String
  displayNames : List (List Char)
  classification : String
deriving DecidableEq, Repr

/-- The bundled senders, a domain once. -/
structure SenderValidator where
  senders : List VerifiedSenderConfig
  distinct : (senders.map VerifiedSenderConfig.domain).Nodup

def VerifiedSenderConfig.verdict (c : VerifiedSenderConfig) : SenderVerificationResult :=
  match c.classification with
  | "transaction_candidate" => .verifiedTransactionCandidate c.bankName
  | "statement_candidate" => .verifiedStatementCandidate c.bankName
  | _ => .verifiedNoise

/-- The loop for the longest registered domain the given one is below. -/
def bestSuffixMatch (domain : List Char) (senders : List VerifiedSenderConfig) :
    Option VerifiedSenderConfig :=
  senders.foldl (fun best c =>
    if ('.' :: c.domain) <:+ domain ∧ best.all (fun b => utf8Len b.domain < utf8Len c.domain)
    then some c else best) none

def typosquatSimilarityThreshold : ℚ := 85 / 100

/-- What is said of a domain that is not registered. -/
def SenderValidator.suspicion (v : SenderValidator) (domain : List Char)
    (displayName : Option (List Char)) : SenderVerificationResult :=
  match v.senders.find? fun c => c.domain <:+: domain with
  | some c => .spoofReject ("Suspicious domain containing " ++ String.ofList c.domain)
  | none =>
  match (if domain.all (·.val < 128) then none
    else v.senders.find? fun c => skeleton c.domain = skeleton domain) with
  | some c => .spoofReject ("Homoglyph/look-alike domain mimicking " ++ String.ofList c.domain)
  | none =>
  if (domain.splitOn '.').any ("xn--".toList.isPrefixOf ·) then
    .spoofReject "Punycode-encoded domain (possible IDN homograph attack)"
  else
  match v.senders.find? fun c =>
    typosquatSimilarityThreshold ≤ similarity domain c.domain ∧ domain ≠ c.domain with
  | some c => .spoofReject ("Typo-squatted domain similar to " ++ String.ofList c.domain)
  | none =>
  match displayName.bind fun name => v.senders.find? fun c =>
    c.displayNames.any fun valid => lowercase valid <:+: nfkc (lowercase (trim name)) with
  | some c => .spoofReject ("Mismatched display name for " ++ String.ofList c.domain)
  | none => .unverifiedReject "Unknown sender domain"

/-- The domain an address is looked up by: what follows the last `@`. -/
def lookupDomain (emailAddress : List Char) : Option (List Char) :=
  (rsplitOnce '@' (trim emailAddress)).map fun p =>
    nfkc (lowercase ((trim p.2).rdropWhile (· = '.')))

/-- Decides whether a sender is a genuine financial institution. -/
def SenderValidator.verifySender (v : SenderValidator) (emailAddress : List Char)
    (displayName : Option (List Char)) : SenderVerificationResult :=
  match lookupDomain emailAddress with
  | none => .unverifiedReject "Invalid email format"
  | some domain =>
    match v.senders.find? fun c => c.domain = domain with
    | some c => c.verdict
    | none =>
      match bestSuffixMatch domain v.senders with
      | some c => c.verdict
      | none => v.suspicion domain displayName

/-! ## authentication results -/

/-- `\b`. -/
def wordBoundary : Pattern :=
  .assert fun before rest => before.head?.any isWord ≠ rest.head?.any isWord

/-- `(?i)\b(spf|dkim|dmarc)=(\w+)`. -/
def verdictRe : Pattern :=
  seqAll [wordBoundary, .group 1 (altAll [word "spf", word "dkim", word "dmarc"]), .lit '=',
    .group 2 (plus true (.cls isWord))]

/-- `[\w.-]+`. -/
def domainChars : Pattern := plus true (.cls fun c => isWord c || c = '.' || c = '-')

/-- `(?i)header\.[id]=@?([\w.-]+)`. -/
def dkimDomainRe : Pattern :=
  seqAll [word "header", .lit '.', .alt (caseless 'i') (caseless 'd'), .lit '=', opt (.lit '@'),
    .group 1 domainChars]

/-- `(?i)header\.from=([\w.-]+)`. -/
def dmarcFromDomainRe : Pattern :=
  seqAll [word "header", .lit '.', word "from", .lit '=', .group 1 domainChars]

/-- `captures_iter`, for patterns that match no empty text; at most `n` matches. -/
def capturesIter (r : Pattern) : Nat → List Char → List Char → List (List (Nat × List Char))
  | 0, _, _ => []
  | n + 1, before, s => match searchFrom r before s with
    | none => []
    | some (_, stop) => stop.groups :: capturesIter r n stop.before stop.rest

structure AuthResults where
  spf : Option (List Char)
  dkim : Option (List Char)
  dmarc : Option (List Char)
  dkimDomain : Option (List Char)
  dmarcFromDomain : Option (List Char)
deriving DecidableEq, Repr

/-- Whether the message failed sender authentication. -/
def AuthResults.authenticationFailed (a : AuthResults) : Bool :=
  a.dmarc = some "fail".toList || (a.spf = some "fail".toList && a.dkim = some "fail".toList)

/-- One verdict; the first for each method stands. -/
def AuthResults.record (a : AuthResults) (groups : List (Nat × List Char)) : AuthResults :=
  let verdict := lowercase ((groupOf 2 groups).getD [])
  let method := String.ofList (lowercase ((groupOf 1 groups).getD []))
  if method = "spf" then { a with spf := a.spf.or (some verdict) }
  else if method = "dkim" then { a with dkim := a.dkim.or (some verdict) }
  else if method = "dmarc" then { a with dmarc := a.dmarc.or (some verdict) }
  else a

/-- Whether a header was added by the receiving provider. -/
def isTrusted (h : MessagePartHeader) : Bool :=
  eqIgnoreAsciiCase h.name "authentication-results" &&
    decide ("google.com".toList <:+: lowercase (h.value.takeWhile (· ≠ ';')))

def parseAuthenticationResults (headers : List MessagePartHeader) : Option AuthResults :=
  (headers.find? isTrusted).map fun trusted =>
    let value := trusted.value
    let a := (capturesIter verdictRe value.length [] value).foldl AuthResults.record
      ⟨none, none, none, none, none⟩
    { a with
      dkimDomain := ((captures dkimDomainRe value).bind (groupOf 1)).map lowercase
      dmarcFromDomain := ((captures dmarcFromDomainRe value).bind (groupOf 1)).map lowercase }

/-- Whether the provider's own header says that the message failed. -/
def refuted (headers : List MessagePartHeader) : Bool :=
  (parseAuthenticationResults headers).any AuthResults.authenticationFailed

def authFailure (bankName : String) (a : AuthResults) : String :=
  "SPF/DKIM/DMARC authentication failed for domain claiming to be " ++ bankName ++ " (spf=" ++
    MailTexts.debug a.spf ++ ", dkim=" ++ MailTexts.debug a.dkim ++ ", dmarc=" ++
    MailTexts.debug a.dmarc ++ ")"

/-- Applies the parsed verdicts to a sender verification decision. -/
def applyAuthResultsCheck (result : SenderVerificationResult)
    (headers : List MessagePartHeader) : SenderVerificationResult :=
  let check (bankName : String) := match parseAuthenticationResults headers with
    | none => result
    | some a => if a.authenticationFailed then .spoofReject (authFailure bankName a) else result
  match result with
  | .verifiedTransactionCandidate b => check b
  | .verifiedStatementCandidate b => check b
  | _ => result

/-! ## the gate -/

structure PendingSenderRow where
  id : String
  domain : List Char
  bankName : String
  classification : String
  status : String
  rejectCount : Nat
deriving DecidableEq, Repr

structure SenderBankOverride where
  id : String
  domain : List Char
  bankName : String
  displayName : Option String
  status : String
deriving DecidableEq, Repr

/-- The override that applies to a domain. -/
def overrideFor (overrides : List SenderBankOverride) (domain : List Char) :
    Option SenderBankOverride :=
  if normalizeDomain domain = [] then none
  else overrides.find? fun o => normalizeDomain o.domain = normalizeDomain domain

/-- Applies a user-configured sender-to-bank override. -/
def applyBankOverride (result : SenderVerificationResult) (domain : List Char)
    (overrides : List SenderBankOverride) : SenderVerificationResult :=
  match overrideFor overrides domain with
  | none => result
  | some o => match result with
    | .verifiedTransactionCandidate _ => .verifiedTransactionCandidate o.bankName
    | .verifiedStatementCandidate _ => .verifiedStatementCandidate o.bankName
    | other => other

def approvedMatch (approved : List PendingSenderRow) (domain : List Char) :
    Option PendingSenderRow :=
  if domain = [] then none else approved.find? fun p => normalizeDomain p.domain = domain

def PendingSenderRow.verdict (p : PendingSenderRow) : SenderVerificationResult :=
  match p.classification with
  | "statement_candidate" => .verifiedStatementCandidate p.bankName
  | _ => .verifiedTransactionCandidate p.bankName

def fromHeaders (headers : List MessagePartHeader) : List MessagePartHeader :=
  headers.filter fun h => eqIgnoreAsciiCase h.name "from"

def SenderValidator.evaluateMetadataGate (v : SenderValidator) (msg : Message)
    (approved : List PendingSenderRow) (overrides : List SenderBankOverride) :
    SenderVerificationResult :=
  match msg.payload with
  | none => .unverifiedReject "No payload"
  | some part => match part.headers with
    | none => .unverifiedReject "No headers"
    | some headers => match fromHeaders headers with
      | [] => .unverifiedReject "Empty or missing From header"
      | [h] =>
        if trim h.value = [] then .unverifiedReject "Empty From header"
        else
          let (email, displayName) := parseFromHeader h.value
          let domain := (addressDomain email).getD []
          let result := match approvedMatch approved domain with
            | some p => p.verdict
            | none => v.verifySender email displayName
          applyBankOverride (applyAuthResultsCheck result headers) domain overrides
      | _ => .spoofReject
        "Multiple From headers detected (RFC 5322 violation, possible header smuggling)"

/-! ## who is registered -/

/-- A registered domain stands for itself and for every domain below it. -/
def VerifiedSenderConfig.Covers (c : VerifiedSenderConfig) (domain : List Char) : Prop :=
  c.domain = domain ∨ ('.' :: c.domain) <:+ domain

/-- The entry a domain is judged by: the longest of those that stand for it. -/
structure SenderValidator.Lists (v : SenderValidator) (domain : List Char)
    (c : VerifiedSenderConfig) : Prop where
  mem : c ∈ v.senders
  covers : c.Covers domain
  longest : ∀ b ∈ v.senders, b.Covers domain → utf8Len b.domain ≤ utf8Len c.domain

section Registry

omit [Extern] [RowTables] [MailTexts]

theorem eq_of_suffix_of_utf8Len {s t d : List Char} (hs : s <:+ d) (ht : t <:+ d)
    (h : utf8Len s = utf8Len t) : s = t := by
  have aux {s t : List Char} (hst : s <:+ t) (h : utf8Len s = utf8Len t) : s = t := by
    obtain ⟨p, rfl⟩ := hst
    cases p with
    | nil => rfl
    | cons c p =>
      have := c.utf8Size_pos
      simp only [List.cons_append, utf8Len_cons, utf8Len_append] at h
      omega
  obtain hst | hts := List.suffix_or_suffix_of_suffix hs ht
  · exact aux hst h
  · exact (aux hts h.symm).symm

theorem VerifiedSenderConfig.Covers.suffix {c : VerifiedSenderConfig} {domain : List Char}
    (h : c.Covers domain) : c.domain <:+ domain := by
  cases h with
  | inl h => simp [h]
  | inr h => exact (List.suffix_cons '.' c.domain).trans h

/-- An entry below which a domain properly is has the shorter domain. -/
theorem utf8Len_lt_of_below {d domain : List Char} (h : ('.' :: d) <:+ domain) :
    utf8Len d < utf8Len domain := by
  obtain ⟨p, rfl⟩ := h
  have := Char.utf8Size_pos '.'
  simp only [utf8Len_append, utf8Len_cons]
  omega

theorem SenderValidator.Lists.unique {v : SenderValidator} {domain : List Char}
    {c c' : VerifiedSenderConfig} (h : v.Lists domain c) (h' : v.Lists domain c') : c = c' := by
  have hlen := Nat.le_antisymm (h'.longest c h.mem h.covers) (h.longest c' h'.mem h'.covers)
  exact List.inj_on_of_nodup_map v.distinct h.mem h'.mem
    (eq_of_suffix_of_utf8Len h.covers.suffix h'.covers.suffix hlen)

theorem bestSuffixMatch_append (domain : List Char) (l : List VerifiedSenderConfig)
    (c : VerifiedSenderConfig) :
    bestSuffixMatch domain (l ++ [c]) =
      if ('.' :: c.domain) <:+ domain ∧
          (bestSuffixMatch domain l).all (fun b => utf8Len b.domain < utf8Len c.domain)
      then some c else bestSuffixMatch domain l := by
  rw [bestSuffixMatch, List.foldl_append]
  rfl

theorem bestSuffixMatch_eq_none {domain : List Char} {l : List VerifiedSenderConfig} :
    bestSuffixMatch domain l = none ↔ ∀ b ∈ l, ¬ ('.' :: b.domain) <:+ domain := by
  induction l using List.reverseRecOn with
  | nil => simp [bestSuffixMatch]
  | append_singleton l c ih =>
    rw [bestSuffixMatch_append]
    by_cases hc : ('.' :: c.domain) <:+ domain
    · cases hl : bestSuffixMatch domain l with
      | none => simp [hc]
      | some b =>
        have hsome : ¬ ∀ b ∈ l, ¬ ('.' :: b.domain) <:+ domain := by simp [← ih, hl]
        split <;> simp_all
    · simp only [hc, false_and, ite_false, ih, List.mem_append, List.mem_singleton, or_imp,
        forall_and, forall_eq, not_false_eq_true, and_true]

theorem bestSuffixMatch_spec {domain : List Char} {l : List VerifiedSenderConfig}
    {c : VerifiedSenderConfig} (h : bestSuffixMatch domain l = some c) :
    c ∈ l ∧ ('.' :: c.domain) <:+ domain ∧
      ∀ b ∈ l, ('.' :: b.domain) <:+ domain → utf8Len b.domain ≤ utf8Len c.domain := by
  induction l using List.reverseRecOn generalizing c with
  | nil => simp [bestSuffixMatch] at h
  | append_singleton l d ih =>
    rw [bestSuffixMatch_append] at h
    split at h
    case isTrue hd =>
      obtain rfl : d = c := by simpa using h
      refine ⟨by simp, hd.1, fun b hb hbelow => ?_⟩
      obtain hb | rfl := by simpa using hb
      · cases hl : bestSuffixMatch domain l with
        | none => exact absurd hbelow (bestSuffixMatch_eq_none.mp hl b hb)
        | some best =>
          have hlt := hd.2
          have hle := (ih hl).2.2 b hb hbelow
          simp only [hl, Option.all_some, decide_eq_true_eq] at hlt
          omega
      · exact le_rfl
    case isFalse hd =>
      obtain ⟨hmem, hbelow, hlongest⟩ := ih h
      refine ⟨by simp [hmem], hbelow, fun b hb hb' => ?_⟩
      obtain hb | rfl := by simpa using hb
      · exact hlongest b hb hb'
      · simpa [h, hb'] using hd

/-- The entry the validator looks up. -/
def SenderValidator.listing (v : SenderValidator) (domain : List Char) :
    Option VerifiedSenderConfig :=
  (v.senders.find? fun c => c.domain = domain).or (bestSuffixMatch domain v.senders)

/-- Exact matches first, then the longest suffix: the longest entry of all. -/
theorem SenderValidator.lists_of_listing {v : SenderValidator} {domain : List Char}
    {c : VerifiedSenderConfig} (h : v.listing domain = some c) : v.Lists domain c := by
  simp only [listing, Option.or_eq_some_iff, List.find?_eq_none, decide_eq_true_eq] at h
  cases h with
  | inl h =>
    obtain rfl : c.domain = domain := by simpa using List.find?_some h
    refine ⟨List.mem_of_find?_eq_some h, .inl rfl, fun b _ hb => ?_⟩
    cases hb with
    | inl hb => exact le_of_eq (by rw [hb])
    | inr hb => exact (utf8Len_lt_of_below hb).le
  | inr h =>
    obtain ⟨hmem, hbelow, hlongest⟩ := bestSuffixMatch_spec h.2
    refine ⟨hmem, .inr hbelow, fun b hb hcovers => ?_⟩
    cases hcovers with
    | inl heq => exact absurd heq (h.1 b hb)
    | inr hb' => exact hlongest b hb hb'

theorem SenderValidator.listing_eq_some_iff {v : SenderValidator} {domain : List Char}
    {c : VerifiedSenderConfig} : v.listing domain = some c ↔ v.Lists domain c := by
  refine ⟨lists_of_listing, fun h => ?_⟩
  cases hl : v.listing domain with
  | some b => rw [(lists_of_listing hl).unique h]
  | none =>
    simp only [listing, Option.or_eq_none_iff, List.find?_eq_none, decide_eq_true_eq,
      bestSuffixMatch_eq_none] at hl
    cases h.covers with
    | inl heq => exact absurd heq (hl.1 c h.mem)
    | inr hbelow => exact absurd hbelow (hl.2 c h.mem)

end Registry

/-! ## who is let through -/

inductive CandidateKind | transaction | statement
deriving DecidableEq, Repr

/-- What a message that is let through is a candidate for, and of which bank. -/
def SenderVerificationResult.candidate :
    SenderVerificationResult → Option (CandidateKind × String)
  | verifiedTransactionCandidate b => some (.transaction, b)
  | verifiedStatementCandidate b => some (.statement, b)
  | _ => none

omit [RowTables] in
/-- Whatever is found suspicious about an unregistered domain, nothing makes it a sender. -/
theorem SenderValidator.suspicion_candidate (v : SenderValidator) (domain : List Char)
    (displayName : Option (List Char)) : (v.suspicion domain displayName).candidate = none := by
  unfold suspicion
  repeat' split
  all_goals rfl

omit [RowTables] in
/-- A sender is let through by its entry alone; the display name plays no part. -/
theorem SenderValidator.verifySender_candidate (v : SenderValidator) (email : List Char)
    (displayName : Option (List Char)) :
    (v.verifySender email displayName).candidate =
      (lookupDomain email).bind fun d => (v.listing d).bind fun c => c.verdict.candidate := by
  unfold verifySender listing
  cases lookupDomain email with
  | none => rfl
  | some d =>
    cases he : v.senders.find? fun c => c.domain = d with
    | some c => simp [he]
    | none =>
      cases hs : bestSuffixMatch d v.senders with
      | some c => simp [he, hs]
      | none => simp [he, hs, suspicion_candidate]

/-- What the provider says can only take a verdict back. -/
theorem applyAuthResultsCheck_candidate (r : SenderVerificationResult)
    (headers : List MessagePartHeader) :
    (applyAuthResultsCheck r headers).candidate =
      if refuted headers then none else r.candidate := by
  unfold applyAuthResultsCheck refuted
  cases parseAuthenticationResults headers with
  | none => cases r <;> simp
  | some a =>
    cases ha : a.authenticationFailed <;> cases r <;>
      simp [ha, SenderVerificationResult.candidate]

/-- The name a candidate is given, when its domain's bank is `bankName`. -/
def bankNameFor (overrides : List SenderBankOverride) (domain : List Char) (bankName : String) :
    String :=
  ((overrideFor overrides domain).map SenderBankOverride.bankName).getD bankName

omit [RowTables] in
/-- An override renames the bank of a candidate, and makes no candidate. -/
theorem applyBankOverride_candidate (r : SenderVerificationResult) (domain : List Char)
    (overrides : List SenderBankOverride) :
    (applyBankOverride r domain overrides).candidate =
      r.candidate.map fun p => (p.1, bankNameFor overrides domain p.2) := by
  unfold applyBankOverride bankNameFor
  cases overrideFor overrides domain with
  | none => simp
  | some o => cases r <;> rfl

/-- Who stands for an address: the approved sender with its domain, and if there is none the
registered one that what follows the last `@` is at or below. -/
inductive SenderValidator.Vouches (v : SenderValidator) (approved : List PendingSenderRow)
    (email : List Char) : CandidateKind → String → Prop
  | approved {p : PendingSenderRow} {kind : CandidateKind} {bankName : String}
      (found : approvedMatch approved ((addressDomain email).getD []) = some p)
      (verdict : p.verdict.candidate = some (kind, bankName)) : v.Vouches approved email kind bankName
  | registered {domain : List Char} {c : VerifiedSenderConfig} {kind : CandidateKind}
      {bankName : String}
      (nobody : approvedMatch approved ((addressDomain email).getD []) = none)
      (address : lookupDomain email = some domain) (lists : v.Lists domain c)
      (verdict : c.verdict.candidate = some (kind, bankName)) :
      v.Vouches approved email kind bankName

omit [RowTables] in
theorem SenderValidator.vouches_iff {v : SenderValidator} {approved : List PendingSenderRow}
    {email : List Char} (displayName : Option (List Char)) {kind : CandidateKind}
    {bankName : String} :
    v.Vouches approved email kind bankName ↔
      (match approvedMatch approved ((addressDomain email).getD []) with
        | some p => p.verdict
        | none => v.verifySender email displayName).candidate = some (kind, bankName) := by
  constructor
  · intro h
    cases h with
    | approved found verdict => simp [found, verdict]
    | registered nobody address lists verdict =>
      simp [nobody, verifySender_candidate, address, listing_eq_some_iff.mpr lists, verdict]
  · intro h
    split at h
    case h_1 p found => exact .approved found h
    case h_2 nobody =>
      simp only [verifySender_candidate, Option.bind_eq_some_iff] at h
      obtain ⟨domain, address, c, hc, verdict⟩ := h
      exact .registered nobody address (listing_eq_some_iff.mp hc) verdict

/-- The verdict on a message with one From header. -/
theorem SenderValidator.gate_candidate (v : SenderValidator) {msg : Message}
    (approved : List PendingSenderRow) (overrides : List SenderBankOverride)
    {headers : List MessagePartHeader} {h : MessagePartHeader}
    (hmsg : msg.payload = some ⟨some headers⟩) (hfrom : fromHeaders headers = [h])
    (hvalue : trim h.value ≠ []) (kind : CandidateKind) (bankName : String) :
    (v.evaluateMetadataGate msg approved overrides).candidate = some (kind, bankName) ↔
      refuted headers = false ∧ ∃ name, v.Vouches approved (parseFromHeader h.value).1 kind name ∧
        bankName = bankNameFor overrides
          ((addressDomain (parseFromHeader h.value).1).getD []) name := by
  simp only [evaluateMetadataGate, hmsg, hfrom, if_neg hvalue, applyBankOverride_candidate,
    applyAuthResultsCheck_candidate, vouches_iff (parseFromHeader h.value).2]
  cases refuted headers with
  | true => simp
  | false => simp [Prod.ext_iff, eq_comm]

/-- A message is let through exactly when it has one From header, somebody stands for its address,
and the provider does not refute it. -/
theorem SenderValidator.gate_lets_through_iff (v : SenderValidator) (msg : Message)
    (approved : List PendingSenderRow) (overrides : List SenderBankOverride)
    (kind : CandidateKind) (bankName : String) :
    (v.evaluateMetadataGate msg approved overrides).candidate = some (kind, bankName) ↔
      ∃ headers h, msg.payload = some ⟨some headers⟩ ∧ fromHeaders headers = [h] ∧
        trim h.value ≠ [] ∧ refuted headers = false ∧
        ∃ name, v.Vouches approved (parseFromHeader h.value).1 kind name ∧
          bankName = bankNameFor overrides
            ((addressDomain (parseFromHeader h.value).1).getD []) name := by
  constructor
  · intro hgate
    unfold evaluateMetadataGate at hgate
    split at hgate
    case h_1 => cases hgate
    case h_2 part hmsg =>
      split at hgate
      case h_1 => cases hgate
      case h_2 headers hheaders =>
        split at hgate
        case h_1 => cases hgate
        case h_3 => cases hgate
        case h_2 h hfrom =>
          split at hgate
          case isTrue => cases hgate
          case isFalse hvalue =>
            have hmsg : msg.payload = some ⟨some headers⟩ := by rw [hmsg, ← hheaders]
            refine ⟨headers, h, hmsg, hfrom, hvalue, ?_⟩
            rw [← v.gate_candidate approved overrides hmsg hfrom hvalue]
            simpa [evaluateMetadataGate, hmsg, hfrom, hvalue] using hgate
  · rintro ⟨headers, h, hmsg, hfrom, hvalue, hrest⟩
    exact (v.gate_candidate approved overrides hmsg hfrom hvalue kind bankName).mpr hrest

end Gate

end Dinero
