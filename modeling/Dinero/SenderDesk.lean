import Mathlib.Data.String.Basic
import Dinero.ContentClasses

/-!
# Dinero.SenderDesk

What is kept about senders, and who is trusted because of it.

Every message leaves a sighting of its sender's domain, and a rejected one perhaps
a candidate the user might approve.  A scan collects these records and writes them
together; a poll writes each as it comes.  The user reports a wrong bank, or takes
a report back.
-/

namespace Dinero

/-- The times of a sighting, which nothing reads, are left out. -/
structure SenderReputationRow where
  domain : List Char
  messageCount : Nat
  verifiedPassCount : Nat
  lastVerificationResult : String
deriving DecidableEq, Repr

structure IgnoredMessageRow where
  messageId : String
  bankName : Option String
  reason : String
  subject : List Char
  snippet : List Char
  expiresAt : Int
deriving DecidableEq, Repr

def ignoredMessageTtlDays : Int := 30

instance : Keyed SenderReputationRow (List Char) := ⟨(·.domain)⟩
instance : Keyed PendingSenderRow (List Char) := ⟨(·.domain)⟩
instance : Keyed SenderBankOverride (List Char) := ⟨(·.domain)⟩

/-- `INSERT .. ON CONFLICT DO UPDATE`. -/
def upsertRow {α κ : Type} [Keyed α κ] [DecidableEq κ] (T : Table α) (r : α) (u : Patch α) :
    Table α :=
  (T.insert? r).getD (T.modify (Keyed.key r) u)

theorem mem_upsertRow {α κ : Type} [Keyed α κ] [DecidableEq κ] {T : Table α} {r x : α}
    {u : Patch α} (h : x ∈ upsertRow T r u) :
    x = r ∨ x ∈ T ∨ ∃ y ∈ T, Keyed.key y = Keyed.key r ∧ x = u.run y := by
  unfold upsertRow at h
  cases hins : T.insert? r with
  | some T' =>
    rw [hins, Option.getD_some, Table.mem_of_insert? hins] at h
    tauto
  | none =>
    rw [hins, Option.getD_none] at h
    obtain hx | ⟨y, hy, hkey, rfl⟩ := Table.mem_modify_cases h
    · exact .inr (.inl hx.1)
    · exact .inr (.inr ⟨y, hy, hkey, rfl⟩)

/-- What the tables about senders hold; of the audit log, the rejections. -/
structure SenderDesk where
  reputation : Table SenderReputationRow
  pending : Table PendingSenderRow
  overrides : Table SenderBankOverride
  rejections : List (String × String)
  ignored : List IgnoredMessageRow

def SenderDesk.fresh : SenderDesk := ⟨.empty, .empty, .empty, [], []⟩

/-! ## records -/

/-- What a message makes the pipeline write down. -/
inductive ScanRecord
  | sighting (id : String) (domain : List Char) (tag : String) (isRejectionCandidate : Bool)
  | rejection (messageId reason : String)
  | ignored (messageId : String) (bankName : Option String) (reason : String)
      (subject snippet : List Char)
deriving DecidableEq, Repr

def isPass (tag : String) : Nat := if "verified".toList <+: tag.toList then 1 else 0

def sightingPatch (tag : String) : Patch SenderReputationRow where
  run r := { r with
    messageCount := r.messageCount + 1
    verifiedPassCount := r.verifiedPassCount + isPass tag
    lastVerificationResult := tag }
  key_run _ := rfl

def recordSighting (domain : List Char) (tag : String) (T : Table SenderReputationRow) :
    Table SenderReputationRow :=
  upsertRow T ⟨domain, 1, isPass tag, tag⟩ (sightingPatch tag)

def rejectionPatch : Patch PendingSenderRow where
  run r := if r.status = "pending" then { r with rejectCount := r.rejectCount + 1 } else r
  key_run r := by split <;> rfl

def recordRejectionCandidate (id : String) (domain : List Char) (bankName classification : String)
    (T : Table PendingSenderRow) : Table PendingSenderRow :=
  upsertRow T ⟨id, domain, bankName, classification, "pending", 1⟩ rejectionPatch

namespace SenderDesk

def sight (w : SenderDesk) (id : String) (domain : List Char) (tag : String)
    (isRejectionCandidate : Bool) : SenderDesk :=
  { w with
    reputation := recordSighting domain tag w.reputation
    pending := if isRejectionCandidate then
        recordRejectionCandidate id domain (String.ofList domain) "transaction_candidate" w.pending
      else w.pending }

def reject (w : SenderDesk) (messageId reason : String) : SenderDesk :=
  { w with rejections := w.rejections ++ [(messageId, reason)] }

def ignore (w : SenderDesk) (now : Int) (messageId : String) (bankName : Option String)
    (reason : String) (subject snippet : List Char) : SenderDesk :=
  { w with ignored := w.ignored ++
      [⟨messageId, bankName, reason, subject, snippet, now + ignoredMessageTtlDays * 86400⟩] }

/-- A record written as it comes. -/
def apply (now : Int) (w : SenderDesk) : ScanRecord → SenderDesk
  | .sighting id domain tag candidate => w.sight id domain tag candidate
  | .rejection messageId reason => w.reject messageId reason
  | .ignored messageId bankName reason subject snippet =>
    w.ignore now messageId bankName reason subject snippet

end SenderDesk

/-! ## the batcher -/

structure PendingSighting where
  id : String
  domain : List Char
  tag : String
  isRejectionCandidate : Bool

structure PendingRejection where
  messageId : String
  reason : String

structure PendingIgnored where
  messageId : String
  bankName : Option String
  reason : String
  subject : List Char
  snippet : List Char

structure ScanDbBatcher where
  sightings : List PendingSighting
  rejections : List PendingRejection
  ignored : List PendingIgnored

def ScanDbBatcher.new : ScanDbBatcher := ⟨[], [], []⟩

def ScanDbBatcher.record (b : ScanDbBatcher) : ScanRecord → ScanDbBatcher
  | .sighting id domain tag candidate =>
    { b with sightings := b.sightings ++ [⟨id, domain, tag, candidate⟩] }
  | .rejection messageId reason => { b with rejections := b.rejections ++ [⟨messageId, reason⟩] }
  | .ignored messageId bankName reason subject snippet =>
    { b with ignored := b.ignored ++ [⟨messageId, bankName, reason, subject, snippet⟩] }

/-- Writes the queued records: the sightings, then the rejections, then the ignored. -/
def SenderDesk.flush (now : Int) (w : SenderDesk) (b : ScanDbBatcher) : SenderDesk :=
  let w := b.sightings.foldl (fun w s => w.sight s.id s.domain s.tag s.isRejectionCandidate) w
  let w := b.rejections.foldl (fun w r => w.reject r.messageId r.reason) w
  b.ignored.foldl (fun w g =>
    w.ignore now g.messageId g.bankName g.reason g.subject g.snippet) w

/-- The tables, and what a scan has not written yet. -/
structure SenderBooks where
  desk : SenderDesk
  batcher : ScanDbBatcher

namespace SenderBooks

def fresh : SenderBooks := ⟨.fresh, .new⟩

def record (b : SenderBooks) (r : ScanRecord) : SenderBooks :=
  { b with batcher := b.batcher.record r }

def flush (now : Int) (b : SenderBooks) : SenderBooks := ⟨b.desk.flush now b.batcher, .new⟩

end SenderBooks

/-! ## the batch writes what would have been written -/

/-- The tables without the times ignored messages expire at. -/
def SenderDesk.untimed (w : SenderDesk) : SenderDesk :=
  { w with ignored := w.ignored.map fun g => { g with expiresAt := 0 } }

theorem SenderDesk.foldl_reject (w : SenderDesk) (rs : List PendingRejection) :
    rs.foldl (fun w r => w.reject r.messageId r.reason) w =
      { w with rejections := w.rejections ++ rs.map fun r => (r.messageId, r.reason) } := by
  induction rs generalizing w with
  | nil => simp
  | cons r rs ih =>
    rw [List.foldl_cons, ih]
    simp [reject]

theorem SenderDesk.foldl_ignore (now : Int) (w : SenderDesk) (gs : List PendingIgnored) :
    gs.foldl (fun w g => w.ignore now g.messageId g.bankName g.reason g.subject g.snippet) w =
      { w with ignored := w.ignored ++ gs.map fun g => ⟨g.messageId, g.bankName, g.reason,
          g.subject, g.snippet, now + ignoredMessageTtlDays * 86400⟩ } := by
  induction gs generalizing w with
  | nil => simp
  | cons g gs ih =>
    rw [List.foldl_cons, ih]
    simp [ignore]

/-- The records of the three kinds go to tables of their own, so what is collected last may as
well be written last. -/
theorem SenderDesk.flush_record (now : Int) (w : SenderDesk) (b : ScanDbBatcher) (r : ScanRecord) :
    w.flush now (b.record r) = (w.flush now b).apply now r := by
  simp only [flush, foldl_reject, foldl_ignore]
  cases r with
  | sighting id domain tag candidate =>
    simp only [ScanDbBatcher.record, apply, List.foldl_append, List.foldl_cons, List.foldl_nil,
      sight]
  | rejection messageId reason => simp [ScanDbBatcher.record, apply, reject]
  | ignored messageId bankName reason subject snippet =>
    simp [ScanDbBatcher.record, apply, ignore]

theorem SenderDesk.flush_new (now : Int) (w : SenderDesk) : w.flush now .new = w := rfl

theorem SenderDesk.untimed_apply (now now' : Int) (w : SenderDesk) (r : ScanRecord) :
    (w.apply now r).untimed = (w.untimed.apply now' r).untimed := by
  cases r <;> simp [apply, sight, reject, ignore, untimed]

theorem SenderDesk.untimed_foldl_apply {now now' : Int} {w w' : SenderDesk}
    (h : w.untimed = w'.untimed) (rs : List ScanRecord) :
    (rs.foldl (apply now) w).untimed = (rs.foldl (apply now') w').untimed := by
  induction rs generalizing w w' with
  | nil => exact h
  | cons r rs ih =>
    refine ih ?_
    rw [untimed_apply now now w, untimed_apply now' now w', h]

/-- What a scan does with its records: it collects them, and writes them now and then. -/
inductive BatchStep
  | record (r : ScanRecord)
  | flush (now : Int)

def BatchStep.records : BatchStep → List ScanRecord
  | .record r => [r]
  | .flush _ => []

def SenderBooks.batchStep (b : SenderBooks) : BatchStep → SenderBooks
  | .record r => b.record r
  | .flush now => b.flush now

/-- Wherever a scan's records are cut into batches, the last flush leaves what writing each of them
as it came would have left; only what is ignored may expire at another time. -/
theorem SenderBooks.flush_batches (now later : Int) (w : SenderDesk) (steps : List BatchStep) :
    ((steps.foldl batchStep ⟨w, .new⟩).flush later).desk.untimed =
      ((steps.flatMap BatchStep.records).foldl (SenderDesk.apply now) w).untimed := by
  induction steps using List.reverseRecOn generalizing later with
  | nil => rfl
  | append_singleton steps s ih =>
    rw [List.foldl_append, List.flatMap_append, List.foldl_append]
    cases s with
    | record r =>
      calc ((steps.foldl batchStep ⟨w, .new⟩).record r |>.flush later).desk.untimed
          = (((steps.foldl batchStep ⟨w, .new⟩).flush later).desk.apply later r).untimed := by
            simp only [flush, record, SenderDesk.flush_record]
        _ = _ := SenderDesk.untimed_foldl_apply (ih later) [r]
    | flush now' => exact ih now'

/-! ## messages and reports -/

section Desk

open ContentClassifier

variable [Extern] [RowExtractor.RowTables] [MailTexts]

/-- Extracts the sending domain from a message. -/
def extractSenderDomain (msg : Message) : Option (List Char) :=
  let fromHeader := headerValue msg "from"
  if trim fromHeader = [] then none else addressDomain (parseFromHeader fromHeader).1

/-- Domains trusted to send genuine financial mail. -/
def SenderDesk.approvedDomains (w : SenderDesk) : List PendingSenderRow :=
  w.pending.rows.filter fun p => p.status = "approved"

/-- Active overrides, by domain. -/
def SenderDesk.activeOverrides (w : SenderDesk) : List SenderBankOverride :=
  orderBy (fun a b => a.domain ≤ b.domain) (w.overrides.rows.filter fun o => o.status = "active")

/-- The verdict on a message, as things stand. -/
def SenderDesk.gate (v : SenderValidator) (w : SenderDesk) (msg : Message) :
    SenderVerificationResult :=
  match extractSenderDomain msg with
  | some _ => v.evaluateMetadataGate msg w.approvedDomains w.activeOverrides
  | none => v.evaluateMetadataGate msg [] []

/-- Short tag naming the verification outcome. -/
def classificationTag : SenderVerificationResult → String
  | .verifiedTransactionCandidate _ => "verified_transaction_candidate"
  | .verifiedStatementCandidate _ => "verified_statement_candidate"
  | .verifiedNoise => "verified_noise"
  | .unverifiedReject _ => "unverified_reject"
  | .spoofReject _ => "spoof_reject"

def SenderVerificationResult.rejection : SenderVerificationResult → Option String
  | .unverifiedReject reason => some reason
  | .spoofReject reason => some reason
  | _ => none

/-- What the gate writes down about a message. -/
def SenderDesk.gateRecords (v : SenderValidator) (w : SenderDesk) (id messageId : String)
    (msg : Message) : List ScanRecord :=
  let result := w.gate v msg
  ((extractSenderDomain msg).map fun domain => ScanRecord.sighting id domain
    (classificationTag result) (result.rejection.isSome && subjectLooksLikeTransaction msg)).toList ++
  (result.rejection.map fun reason => ScanRecord.rejection messageId reason).toList

def overridePatch (bankName : String) : Patch SenderBankOverride where
  run o := { o with bankName := bankName, displayName := none, status := "active" }
  key_run _ := rfl

def inactivePatch : Patch SenderBankOverride where
  run o := { o with status := "inactive" }
  key_run _ := rfl

/-- The user reports that a domain's mail is another bank's; both texts are trimmed, and neither
may be empty. -/
def SenderDesk.applyWrongBankReport (w : SenderDesk) (id : String) (domain : List Char)
    (bankName : List Char) : SenderDesk :=
  if trim domain = [] ∨ trim bankName = [] ∨ lowercase (trim (trim domain)) = [] then w
  else
    let domain := lowercase (trim (trim domain))
    let bankName := String.ofList (trim bankName)
    { w with overrides :=
        upsertRow w.overrides ⟨id, domain, bankName, none, "active"⟩ (overridePatch bankName) }

/-- The user takes a report back. -/
def SenderDesk.deactivate (w : SenderDesk) (id : String) : SenderDesk :=
  match w.overrides.rows.find? fun o => o.id = id with
  | some o => { w with overrides := w.overrides.modify o.domain inactivePatch }
  | none => w

/-- What happens to the tables about senders; `more` is what the later gates write down about a
message. -/
inductive DeskEvent
  /-- A poll takes up a message. -/
  | polled (now : Int) (id messageId : String) (msg : Message) (more : List ScanRecord)
  /-- A scan takes up a message. -/
  | scanned (id messageId : String) (msg : Message) (more : List ScanRecord)
  | flush (now : Int)
  | report (id : String) (domain bankName : List Char)
  | revert (id : String)

def SenderBooks.step (v : SenderValidator) (b : SenderBooks) : DeskEvent → SenderBooks
  | .polled now id messageId msg more =>
    { b with desk := (b.desk.gateRecords v id messageId msg ++ more).foldl (.apply now) b.desk }
  | .scanned id messageId msg more =>
    (b.desk.gateRecords v id messageId msg ++ more).foldl .record b
  | .flush now => b.flush now
  | .report id domain bankName =>
    { b with desk := b.desk.applyWrongBankReport id domain bankName }
  | .revert id => { b with desk := b.desk.deactivate id }

/-! ## mail moves no trust -/

omit [Extern] [RowExtractor.RowTables] [MailTexts] in
theorem headerValue_from {msg : Message} {headers : List MessagePartHeader} {h : MessagePartHeader}
    (hmsg : msg.payload = some ⟨some headers⟩) (hfrom : fromHeaders headers = [h]) :
    headerValue msg "from" = h.value := by
  have hfind : headers.find? (fun h => eqIgnoreAsciiCase h.name "from") = some h := by
    rw [← List.head?_filter]
    simpa [fromHeaders] using congrArg List.head? hfrom
  simp [headerValue, hmsg, hfind]

omit [RowExtractor.RowTables] in
theorem bankNameFor_nil (domain : List Char) (bankName : String) :
    bankNameFor [] domain bankName = bankName := by
  unfold bankNameFor overrideFor
  split <;> simp

/-- With nobody approved, the overrides decide a name and nothing else. -/
theorem SenderValidator.gate_overrides (v : SenderValidator) (msg : Message)
    (overrides : List SenderBankOverride) :
    (v.evaluateMetadataGate msg [] overrides).candidate =
      (v.evaluateMetadataGate msg [] []).candidate.map fun p =>
        (p.1, bankNameFor overrides ((extractSenderDomain msg).getD []) p.2) := by
  unfold evaluateMetadataGate
  split
  case h_1 => rfl
  case h_2 part hmsg =>
    split
    case h_1 => rfl
    case h_2 headers hheaders =>
      split
      case h_1 => rfl
      case h_3 => rfl
      case h_2 h hfrom =>
        split
        case isTrue => rfl
        case isFalse hvalue =>
          have hmsg : msg.payload = some ⟨some headers⟩ := by rw [hmsg, ← hheaders]
          have hdomain : extractSenderDomain msg = addressDomain (parseFromHeader h.value).1 := by
            simp [extractSenderDomain, headerValue_from hmsg hfrom, hvalue]
          simp only [applyBankOverride_candidate, hdomain, bankNameFor_nil, Option.map_map]
          rfl

/-- Whether an event reports that a domain's mail is this bank's. -/
def DeskEvent.Reports (domain : List Char) (bankName : String) : DeskEvent → Prop
  | .report _ d b => lowercase (trim (trim d)) = domain ∧ String.ofList (trim b) = bankName
  | _ => False

/-- What holds of the tables after some events: nobody is approved, and every override has the
name the user reported. -/
structure SenderDesk.Earned (w : SenderDesk) (events : List DeskEvent) : Prop where
  pending : ∀ p ∈ w.pending, p.status = "pending"
  reported : ∀ o ∈ w.overrides, ∃ e ∈ events, e.Reports o.domain o.bankName

omit [Extern] [RowExtractor.RowTables] [MailTexts] in
theorem recordRejectionCandidate_pending {id bankName classification : String}
    {domain : List Char} {T : Table PendingSenderRow} (h : ∀ p ∈ T, p.status = "pending") :
    ∀ p ∈ recordRejectionCandidate id domain bankName classification T, p.status = "pending" := by
  intro p hp
  obtain rfl | hp | ⟨q, hq, -, rfl⟩ := mem_upsertRow hp
  · rfl
  · exact h p hp
  · simp [rejectionPatch, h q hq]

namespace SenderDesk.Earned

variable {w : SenderDesk} {events : List DeskEvent}

omit [RowExtractor.RowTables] [MailTexts] in
theorem mono {events' : List DeskEvent} (h : w.Earned events) (hsub : events ⊆ events') :
    w.Earned events' where
  pending := h.pending
  reported o ho := by
    obtain ⟨e, he, hreports⟩ := h.reported o ho
    exact ⟨e, hsub he, hreports⟩

omit [RowExtractor.RowTables] [MailTexts] in
theorem apply (h : w.Earned events) (now : Int) (r : ScanRecord) :
    (w.apply now r).Earned events := by
  cases r with
  | sighting id domain tag candidate =>
    refine ⟨?_, h.reported⟩
    cases candidate with
    | true => exact recordRejectionCandidate_pending h.pending
    | false => exact h.pending
  | rejection messageId reason => exact ⟨h.pending, h.reported⟩
  | ignored messageId bankName reason subject snippet => exact ⟨h.pending, h.reported⟩

omit [RowExtractor.RowTables] [MailTexts] in
theorem foldl_apply (h : w.Earned events) (now : Int) (rs : List ScanRecord) :
    (rs.foldl (SenderDesk.apply now) w).Earned events := by
  induction rs generalizing w with
  | nil => exact h
  | cons r rs ih => exact ih (h.apply now r)

omit [RowExtractor.RowTables] [MailTexts] in
theorem flush (h : w.Earned events) (now : Int) (b : ScanDbBatcher) :
    (w.flush now b).Earned events := by
  have hsightings : (b.sightings.foldl
      (fun w s => w.sight s.id s.domain s.tag s.isRejectionCandidate) w).Earned events := by
    have := h.foldl_apply now (b.sightings.map fun s =>
      .sighting s.id s.domain s.tag s.isRejectionCandidate)
    rwa [List.foldl_map] at this
  simp only [SenderDesk.flush, foldl_reject, foldl_ignore]
  exact ⟨hsightings.pending, hsightings.reported⟩

omit [RowExtractor.RowTables] [MailTexts] in
theorem report (h : w.Earned events) (id : String) (domain bankName : List Char) :
    (w.applyWrongBankReport id domain bankName).Earned
      (events ++ [.report id domain bankName]) := by
  unfold applyWrongBankReport
  split
  case isTrue => exact h.mono (List.subset_append_left _ _)
  case isFalse =>
    refine ⟨h.pending, fun o ho => ?_⟩
    have hlast : DeskEvent.report id domain bankName ∈ events ++ [.report id domain bankName] := by
      simp
    obtain rfl | ho | ⟨o', -, hdomain, rfl⟩ := mem_upsertRow ho
    · exact ⟨_, hlast, rfl, rfl⟩
    · exact (h.mono (List.subset_append_left _ _)).reported o ho
    · exact ⟨_, hlast, hdomain.symm, rfl⟩

omit [RowExtractor.RowTables] [MailTexts] in
theorem deactivate (h : w.Earned events) (id : String) : (w.deactivate id).Earned events := by
  unfold SenderDesk.deactivate
  split
  case h_2 => exact h
  case h_1 o ho =>
    refine ⟨h.pending, fun o' ho' => ?_⟩
    obtain ho' | ⟨q, hq, -, rfl⟩ := Table.mem_modify_cases ho'
    · exact h.reported o' ho'.1
    · exact h.reported q hq

end SenderDesk.Earned

omit [Extern] [RowExtractor.RowTables] [MailTexts] in
theorem SenderBooks.desk_foldl_record (b : SenderBooks) (rs : List ScanRecord) :
    (rs.foldl SenderBooks.record b).desk = b.desk := by
  induction rs generalizing b with
  | nil => rfl
  | cons r rs ih => exact ih _

theorem SenderBooks.step_earned (v : SenderValidator) {b : SenderBooks} {events : List DeskEvent}
    (h : b.desk.Earned events) (e : DeskEvent) : (b.step v e).desk.Earned (events ++ [e]) := by
  have hmono {w : SenderDesk} (h : w.Earned events) : w.Earned (events ++ [e]) :=
    h.mono (List.subset_append_left _ _)
  cases e with
  | polled now id messageId msg more => exact hmono (h.foldl_apply now _)
  | scanned id messageId msg more =>
    rw [step, desk_foldl_record]
    exact hmono h
  | flush now => exact hmono (h.flush now b.batcher)
  | report id domain bankName => exact h.report id domain bankName
  | revert id => exact hmono (h.deactivate id)

theorem SenderBooks.run_earned (v : SenderValidator) (events : List DeskEvent) :
    (events.foldl (SenderBooks.step v) .fresh).desk.Earned events := by
  induction events using List.reverseRecOn with
  | nil => exact ⟨fun p hp => absurd hp List.not_mem_nil, fun o ho => absurd ho List.not_mem_nil⟩
  | append_singleton events e ih =>
    rw [List.foldl_append]
    exact step_earned v ih e

omit [RowExtractor.RowTables] [MailTexts] in
theorem SenderDesk.Earned.approvedDomains {w : SenderDesk} {events : List DeskEvent}
    (h : w.Earned events) : w.approvedDomains = [] := by
  rw [SenderDesk.approvedDomains, List.filter_eq_nil_iff]
  intro p hp
  simp [h.pending p hp]

/-- The verdict on a message is the one of a fresh installation, but for the bank's name. -/
theorem SenderDesk.Earned.gate {w : SenderDesk} {events : List DeskEvent} (h : w.Earned events)
    (v : SenderValidator) (msg : Message) :
    (w.gate v msg).candidate = (v.evaluateMetadataGate msg [] []).candidate.map fun p =>
      (p.1, (extractSenderDomain msg).elim p.2 fun d => bankNameFor w.activeOverrides d p.2) := by
  unfold SenderDesk.gate
  cases hd : extractSenderDomain msg with
  | none => simp
  | some d => simp [h.approvedDomains, v.gate_overrides msg w.activeOverrides, hd]

/-- **Trust is not moved.**  Whatever mail has been polled and scanned, whatever the user has
reported and taken back, a message is let through as it would be on a fresh installation, and as
the same kind; a bank's name that is not the registry's is one the user has reported for the
message's domain. -/
theorem trust_unmoved (v : SenderValidator) (events : List DeskEvent) (msg : Message) :
    (((events.foldl (SenderBooks.step v) .fresh).desk.gate v msg).candidate.map Prod.fst =
      (v.evaluateMetadataGate msg [] []).candidate.map Prod.fst) ∧
    ∀ kind bankName,
      ((events.foldl (SenderBooks.step v) .fresh).desk.gate v msg).candidate =
        some (kind, bankName) →
      (v.evaluateMetadataGate msg [] []).candidate = some (kind, bankName) ∨
        ∃ e ∈ events, ∃ reported domain, e.Reports reported bankName ∧
          extractSenderDomain msg = some domain ∧
          normalizeDomain reported = normalizeDomain domain := by
  have hrun := SenderBooks.run_earned v events
  rw [hrun.gate v msg]
  constructor
  · simp [Function.comp_def]
  · intro kind bankName h
    simp only [Option.map_eq_some_iff, Prod.exists, Prod.mk.injEq] at h
    obtain ⟨_, name, hfresh, rfl, hname⟩ := h
    cases hd : extractSenderDomain msg with
    | none => exact .inl (by simpa [hd, ← hname] using hfresh)
    | some domain =>
      simp only [hd, Option.elim_some] at hname
      cases ho : overrideFor (events.foldl (SenderBooks.step v) .fresh).desk.activeOverrides domain
        with
      | none =>
        simp only [bankNameFor, ho, Option.map_none, Option.getD_none] at hname
        exact .inl (by rw [hfresh, hname])
      | some o =>
        simp only [bankNameFor, ho, Option.map_some, Option.getD_some] at hname
        unfold overrideFor at ho
        split at ho
        case isTrue => cases ho
        case isFalse =>
          have hmem := List.mem_of_find?_eq_some ho
          have heq := List.find?_some ho
          simp only [SenderDesk.activeOverrides, mem_orderBy, List.mem_filter] at hmem
          obtain ⟨e, he, hreports⟩ := hrun.reported o hmem.1
          exact .inr ⟨e, he, o.domain, domain, hname ▸ hreports, rfl, by simpa using heq⟩

end Desk

end Dinero
