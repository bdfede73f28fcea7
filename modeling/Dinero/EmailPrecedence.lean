import Dinero.UserColumns

/-!
# Dinero.EmailPrecedence

One email after the other about one payment: whose reference and merchant stand.

A transaction that only emails speak for takes the fields of the next one if it is
more confident by a margin.  More confident than which, is looked up among the emails
the transaction has; whichever is found, an email that beats them all writes, and one
that beats none does not.
-/

namespace Dinero

open Sql

variable [Extern]

/-- The columns one email may overwrite for another. -/
structure EmailFields where
  referenceId : Option String
  merchantDisplayName : Option String
deriving DecidableEq, Repr

section Fields

omit [Extern]

def TransactionsRow.emailFields (t : TransactionsRow) : EmailFields :=
  ⟨t.referenceId, t.merchantDisplayName⟩

def Database.emailFields (db : Database) (id : String) : Option EmailFields :=
  (db.transactions.find? id).map (·.emailFields)

/-- The fields with what the email has of them. -/
def EmailFields.overwritten (f : EmailFields) (obs : IncomingObservation) : EmailFields where
  referenceId := obs.referenceId.or f.referenceId
  merchantDisplayName := obs.merchantRaw.or f.merchantDisplayName

def matchingDecisions : List Decision :=
  [.autoMatchedExact, .autoMatchedScored, .manuallyConfirmed]

/-- A decision that an email belongs to the transaction. -/
def Database.DecidedFor (db : Database) (id obsId : String) : Prop :=
  ∃ md ∈ db.matchDecisions, md.observationId = some obsId ∧
    md.matchedTransactionId = some id ∧ md.decision ∈ matchingDecisions

/-- An email the transaction has, by a link or by a decision, and its confidence. -/
def Database.HasEmail (db : Database) (id obsId : String) (confidence : Option ℚ) : Prop :=
  ∃ o ∈ db.observations, o.id = obsId ∧ o.sourcePipeline = some "gmail_transaction" ∧
    o.confidenceScore = confidence ∧
    (o.canonicalTransactionId = some id ∨ db.DecidedFor id obsId)

/-- More confident, by more than the margin, than an email the transaction has. -/
def Database.BeatsSome (db : Database) (id : String) (obs : IncomingObservation) : Prop :=
  ∃ confidence earlier obsId, obs.confidenceScore = some confidence ∧ obsId ≠ obs.id ∧
    db.HasEmail id obsId (some earlier) ∧ emailVsEmailConfidenceMargin < confidence - earlier

/-- More confident, by more than the margin, than every email the transaction has, and it has
one. -/
def Database.BeatsAll (db : Database) (id : String) (obs : IncomingObservation) : Prop :=
  ∃ confidence, obs.confidenceScore = some confidence ∧
    (∃ obsId c, obsId ≠ obs.id ∧ db.HasEmail id obsId c) ∧
    ∀ obsId c, obsId ≠ obs.id → db.HasEmail id obsId c →
      ∃ earlier, c = some earlier ∧ emailVsEmailConfidenceMargin < confidence - earlier

end Fields

/-! ## the confidence to beat -/

section Emails

omit [Extern]

/-- The decisions for emails other than `obsId`, by date, with the emails' confidences. -/
def Database.decidedEmails (db : Database) (id obsId : String) : List (Int × Option ℚ) :=
  db.matchDecisions.rows.filterMap fun md =>
    md.observationId.bind fun oid =>
      (db.observations.find? oid).bind fun o =>
        if md.matchedTransactionId = some id ∧ md.decision ∈ matchingDecisions ∧
            o.sourcePipeline = some "gmail_transaction" ∧ o.id ≠ obsId then
          some (md.createdAt, o.confidenceScore)
        else none

/-- The linked emails other than `obsId`. -/
def Database.linkedEmails (db : Database) (id obsId : String) : List TransactionObservationsRow :=
  db.observations.rows.filter fun o => o.canonicalTransactionId = some id &&
    o.sourcePipeline = some "gmail_transaction" && o.id != obsId

theorem Database.mem_decidedEmails {db : Database} {id obsId : String} {row : Int × Option ℚ} :
    row ∈ db.decidedEmails id obsId ↔ ∃ md ∈ db.matchDecisions, ∃ o ∈ db.observations,
      md.observationId = some o.id ∧ md.matchedTransactionId = some id ∧
        md.decision ∈ matchingDecisions ∧ o.sourcePipeline = some "gmail_transaction" ∧
        o.id ≠ obsId ∧ (md.createdAt, o.confidenceScore) = row := by
  rw [decidedEmails, List.mem_filterMap]
  constructor
  · intro ⟨md, hmd, hrow⟩
    obtain ⟨oid, hoid, hrow⟩ := Option.bind_eq_some_iff.mp hrow
    obtain ⟨o, ho, hrow⟩ := Option.bind_eq_some_iff.mp hrow
    obtain ⟨hmem, hkey⟩ := Table.find?_eq_some.mp ho
    have hid : o.id = oid := hkey
    split at hrow
    · next hall =>
      exact ⟨md, hmd, o, hmem, hid ▸ hoid, hall.1, hall.2.1, hall.2.2.1, hall.2.2.2,
        Option.some.inj hrow⟩
    · cases hrow
  · intro ⟨md, hmd, o, ho, hoid, hmatched, hdecision, hpipeline, hne, hrow⟩
    refine ⟨md, hmd, ?_⟩
    have hfind : db.observations.find? o.id = some o := Table.find?_eq_some.mpr ⟨ho, rfl⟩
    rw [hoid, Option.bind_some, hfind, Option.bind_some,
      if_pos ⟨hmatched, hdecision, hpipeline, hne⟩, hrow]

theorem Database.mem_linkedEmails {db : Database} {id obsId : String}
    {o : TransactionObservationsRow} :
    o ∈ db.linkedEmails id obsId ↔ o ∈ db.observations ∧ o.canonicalTransactionId = some id ∧
      o.sourcePipeline = some "gmail_transaction" ∧ o.id ≠ obsId := by
  rw [linkedEmails, List.mem_filter]
  simp only [Bool.and_eq_true, decide_eq_true_eq, bne_iff_ne, ne_eq, and_assoc]
  rfl

theorem Database.decidedEmails_hasEmail {db : Database} {id obsId : String}
    {row : Int × Option ℚ} (h : row ∈ db.decidedEmails id obsId) :
    ∃ other, other ≠ obsId ∧ db.HasEmail id other row.2 := by
  obtain ⟨md, hmd, o, ho, hoid, hmatched, hdecision, hpipeline, hne, rfl⟩ :=
    mem_decidedEmails.mp h
  exact ⟨o.id, hne, o, ho, rfl, hpipeline, rfl, .inr ⟨md, hmd, hoid, hmatched, hdecision⟩⟩

theorem Database.linkedEmails_hasEmail {db : Database} {id obsId : String}
    {o : TransactionObservationsRow} (h : o ∈ db.linkedEmails id obsId) :
    ∃ other, other ≠ obsId ∧ db.HasEmail id other o.confidenceScore := by
  obtain ⟨ho, hlink, hpipeline, hne⟩ := mem_linkedEmails.mp h
  exact ⟨o.id, hne, o, ho, rfl, hpipeline, rfl, .inl hlink⟩

end Emails

/-- Where there are rows, one of them comes first. -/
theorem exists_head_orderBy {α : Type} {r : α → α → Prop} [DecidableRel r] {l : List α} {a : α}
    (h : a ∈ l) : ∃ b ∈ l, (orderBy r (scan l)).head? = some b := by
  have hmem : a ∈ orderBy r (scan l) := mem_orderBy.mpr (mem_scan.mpr h)
  cases hl : orderBy r (scan l) with
  | nil => simp [hl] at hmem
  | cons b rest =>
    exact ⟨b, mem_scan.mp (mem_orderBy.mp (hl ▸ List.mem_cons_self)), rfl⟩

theorem mem_of_head_orderBy {α : Type} {r : α → α → Prop} [DecidableRel r] {l : List α} {a : α}
    (h : (orderBy r (scan l)).head? = some a) : a ∈ l :=
  mem_scan.mp (mem_orderBy.mp (List.mem_of_mem_head? h))

/-- What is to beat is the confidence of an email the transaction has. -/
theorem existingConfidence_hasEmail {db : Database} {id obsId : String} {c : ℚ}
    (h : db.existingConfidence id obsId = some c) :
    ∃ other, other ≠ obsId ∧ db.HasEmail id other (some c) := by
  obtain h | ⟨-, h⟩ := Option.or_eq_some_iff.mp h
  · obtain ⟨row, hhead, hc⟩ := Option.bind_eq_some_iff.mp h
    have hemail := Database.decidedEmails_hasEmail (mem_of_head_orderBy hhead)
    rwa [hc] at hemail
  · obtain ⟨o, hhead, hc⟩ := Option.bind_eq_some_iff.mp h
    have hemail := Database.linkedEmails_hasEmail (mem_of_head_orderBy hhead)
    rwa [hc] at hemail

/-- With emails, all of a confidence, there is one to beat. -/
theorem existingConfidence_isSome {db : Database} {id obsId : String}
    (hemail : ∃ other c, other ≠ obsId ∧ db.HasEmail id other c)
    (hall : ∀ other c, other ≠ obsId → db.HasEmail id other c → c.isSome) :
    (db.existingConfidence id obsId).isSome := by
  obtain ⟨other, c, hne, o, ho, rfl, hpipeline, rfl, hlink | hdecided⟩ := hemail
  · -- a link is found if no decision is
    have hmem : o ∈ db.linkedEmails id obsId :=
      Database.mem_linkedEmails.mpr ⟨ho, hlink, hpipeline, hne⟩
    obtain ⟨o', ho', hhead⟩ := @exists_head_orderBy _ _
      (fun a b => nullsFirst a.createdAt b.createdAt) _ _ _ hmem
    obtain ⟨other, hother, hemail⟩ := Database.linkedEmails_hasEmail ho'
    have hlinked : db.confidenceByLink id obsId = o'.confidenceScore := by
      have heq : db.confidenceByLink id obsId = ((orderBy
          (fun a b => nullsFirst a.createdAt b.createdAt)
          (scan (db.linkedEmails id obsId))).head?).bind (·.confidenceScore) := rfl
      rw [heq, hhead, Option.bind_some]
    rw [Database.existingConfidence, hlinked, Option.isSome_or, hall other _ hother hemail,
      Bool.or_true]
  · obtain ⟨md, hmd, hoid, hmatched, hdecision⟩ := hdecided
    have hmem : (md.createdAt, o.confidenceScore) ∈ db.decidedEmails id obsId :=
      Database.mem_decidedEmails.mpr
        ⟨md, hmd, o, ho, hoid, hmatched, hdecision, hpipeline, hne, rfl⟩
    obtain ⟨row, hrow, hhead⟩ := @exists_head_orderBy _ _
      (fun a b : Int × Option ℚ => b.1 ≤ a.1) _ _ _ hmem
    obtain ⟨other, hother, hemail⟩ := Database.decidedEmails_hasEmail hrow
    have hdecided : db.confidenceByDecision id obsId = row.2 := by
      have heq : db.confidenceByDecision id obsId = ((orderBy
          (fun a b => b.1 ≤ a.1) (scan (db.decidedEmails id obsId))).head?).bind (·.2) := rfl
      rw [heq, hhead, Option.bind_some]
    rw [Database.existingConfidence, hdecided, Option.isSome_or, hall other _ hother hemail,
      Bool.true_or]

theorem outweighs_of_beatsAll {db : Database} {id : String} {obs : IncomingObservation}
    (h : db.BeatsAll id obs) : db.outweighs obs id = true := by
  obtain ⟨confidence, hconfidence, hemail, hall⟩ := h
  have hsome := existingConfidence_isSome hemail fun other c hne hc => by
    obtain ⟨earlier, rfl, -⟩ := hall other c hne hc
    rfl
  obtain ⟨existing, hexisting⟩ := Option.isSome_iff_exists.mp hsome
  obtain ⟨other, hne, hother⟩ := existingConfidence_hasEmail hexisting
  obtain ⟨earlier, heq, hless⟩ := hall other _ hne hother
  obtain rfl := Option.some.inj heq
  rw [Database.outweighs, hconfidence, hexisting]
  exact decide_eq_true (not_le.mpr hless)

theorem beatsSome_of_outweighs {db : Database} {id : String} {obs : IncomingObservation}
    (h : db.outweighs obs id = true) : db.BeatsSome id obs := by
  unfold Database.outweighs at h
  split at h
  · next confidence existing hconfidence hexisting =>
    obtain ⟨other, hne, hother⟩ := existingConfidence_hasEmail hexisting
    have hless := not_le.mp (of_decide_eq_true h)
    exact ⟨confidence, existing, other, hconfidence, hne, hother, hless⟩
  · cases h

/-! ## a match -/

/-- An email is matched with a transaction that only emails speak for. -/
structure EmailMatch (id : String) (obs : IncomingObservation) (db db' : Database) : Prop where
  canonical : ∃ t ∈ db.transactions, t.id = id ∧ t.sourceMix = some .emailOnly
  pipeline : obs.sourcePipeline = "gmail_transaction"
  stored : ∃ o ∈ db.observations, o.id = obs.id ∧
    o.sourcePipeline = some "gmail_transaction" ∧ o.confidenceScore = obs.confidenceScore
  matched : ∃ score decision d now s s', s.db = db ∧ s'.db = db' ∧
    autoMatch obs id (some .emailOnly) score decision (.quiet now) s = (.ok d, s')

/-- What a match leaves, the confidence weighed. -/
theorem autoMatch_weighed {obs : IncomingObservation} {id : String} {mix : Option SourceMix}
    {score : ℚ} {decision d : DecisionType} {now : Int} {s s' : Store Database}
    (h : autoMatch obs id mix score decision (.quiet now) s = (.ok d, s')) :
    s'.db.transactions.rows.map TransactionsRow.settled =
        (s.db.transactions.modify id
          (mergePatch obs mix (s.db.outweighs obs id) now)).rows.map TransactionsRow.settled ∧
      s'.db.observations = s.db.observations.modify obs.id (linkPatch (some id) now) ∧
      ∃ r, s'.db.matchDecisions.rows = s.db.matchDecisions.rows ++ [r] := by
  obtain ⟨-, s₁, s₂, s₃, h₁, h₂, h₃, h₄⟩ := autoMatch_steps h
  obtain ⟨L, hmerged⟩ := applyPrecedence_weighed h₁
  obtain ⟨-, -, hlink⟩ := updateCanonicalTransactionId_ok h₂
  obtain ⟨s₃', hpost, hder⟩ := postProcess_spec id obs (.quiet now) s₂
  obtain ⟨-, rfl⟩ := Prod.mk.inj (h₃.symm.trans hpost)
  obtain ⟨T, m, a, r, hs₃, hT⟩ := hder
  obtain ⟨⟨row, D, -, -, -, hD, hdb⟩, -⟩ := appendMatchDecision_decided h₄
  rw [hlink, hmerged] at hs₃ hT
  rw [hs₃] at hdb hD
  rw [hdb]
  exact ⟨hT, rfl, row, (Table.insert?_eq_some.mp hD).2⟩

omit [Extern] in
/-- The fields are settled columns. -/
theorem emailFields_of_settled {T : Table TransactionsRow} {db : Database}
    (h : db.transactions.rows.map TransactionsRow.settled =
      T.rows.map TransactionsRow.settled) (id : String) :
    db.emailFields id = (T.find? id).map (·.emailFields) := by
  cases hfind : T.find? id with
  | none =>
    have hnone : db.transactions.find? id = none := by
      rw [Table.find?_eq_none]
      intro t' ht' hkey
      obtain ⟨t, ht, heq⟩ := Table.exists_of_map_eq h ht'
      exact Table.find?_eq_none.mp hfind t ht ((congrArg TransactionsRow.id heq).trans hkey)
    rw [Database.emailFields, hnone]
  | some t =>
    obtain ⟨ht, hid⟩ := Table.find?_eq_some.mp hfind
    obtain ⟨t', ht', heq⟩ := Table.exists_of_map_eq h.symm ht
    have hkey : t'.id = id := (congrArg TransactionsRow.id heq).trans hid
    have hfind' : db.transactions.find? id = some t' := Table.find?_eq_some.mpr ⟨ht', hkey⟩
    rw [Database.emailFields, hfind', Option.map_some, Option.map_some, Option.some_inj]
    have hfields : t'.settled.emailFields = t.settled.emailFields := by rw [heq]
    exact hfields

namespace EmailMatch

variable {id : String} {obs : IncomingObservation} {db db' : Database}

/-- **A match** writes the email's fields if it outweighs, and leaves them else. -/
theorem emailFields (h : EmailMatch id obs db db') :
    ∃ f, db.emailFields id = some f ∧ db'.emailFields id =
      some (if db.outweighs obs id then f.overwritten obs else f) := by
  obtain ⟨⟨t, ht, hid, hmix⟩, hpipeline, -, score, decision, d, now, s, s', rfl, rfl, hmatch⟩ := h
  have hfind : s.db.transactions.find? id = some t := Table.find?_eq_some.mpr ⟨ht, hid⟩
  refine ⟨t.emailFields, by rw [Database.emailFields, hfind, Option.map_some], ?_⟩
  rw [emailFields_of_settled (autoMatch_weighed hmatch).1, Table.find?_modify, if_pos rfl, hfind,
    Option.map_some, Option.map_some, Option.some_inj]
  have hmail : ("gmail_transaction" : String) ≠ "statement_pdf" := by decide
  cases hout : s.db.outweighs obs id with
  | true =>
    simp [mergePatch, hpipeline, hmail, emailOverwritePatch, TransactionsRow.emailFields,
      EmailFields.overwritten]
  | false => simp [mergePatch, hpipeline, hmail, Patch.idle]

/-- The emails a transaction has stay its emails. -/
theorem hasEmail_mono (h : EmailMatch id obs db db') {other : String} {c : Option ℚ}
    (hemail : db.HasEmail id other c) : db'.HasEmail id other c := by
  obtain ⟨-, -, -, score, decision, d, now, s, s', rfl, rfl, hmatch⟩ := h
  obtain ⟨-, hobservations, r, hdecisions⟩ := autoMatch_weighed hmatch
  obtain ⟨o, ho, rfl, hpipeline, rfl, hhas⟩ := hemail
  have hdecided : s.db.DecidedFor id o.id → s'.db.DecidedFor id o.id := by
    intro ⟨md, hmd, hrest⟩
    refine ⟨md, ?_, hrest⟩
    rw [Table.mem_def, hdecisions]
    exact List.mem_append_left _ hmd
  by_cases hobs : o.id = obs.id
  · refine ⟨(linkPatch (some id) now).run o, ?_, rfl, hpipeline, rfl, .inl rfl⟩
    rw [hobservations]
    exact Table.mem_modify_of_mem ho hobs
  · refine ⟨o, ?_, rfl, hpipeline, rfl, hhas.imp_right hdecided⟩
    rw [hobservations, Table.mem_modify_of_ne hobs]
    exact ho

/-- The email matched is one of them from then on. -/
theorem hasEmail_self (h : EmailMatch id obs db db') :
    db'.HasEmail id obs.id obs.confidenceScore := by
  obtain ⟨-, -, ⟨o, ho, hid, hpipeline, hconfidence⟩, score, decision, d, now, s, s', rfl, rfl,
    hmatch⟩ := h
  obtain ⟨-, hobservations, -⟩ := autoMatch_weighed hmatch
  refine ⟨(linkPatch (some id) now).run o, ?_, hid, hpipeline, hconfidence, .inl rfl⟩
  rw [hobservations]
  exact Table.mem_modify_of_mem ho hid

end EmailMatch

/-! ## one match after the other -/

/-- What else happens leaves a transaction's fields and the emails it has. -/
structure KeepsEmails (id : String) (db db' : Database) : Prop where
  fields : db'.emailFields id = db.emailFields id
  emails : ∀ other c, db.HasEmail id other c → db'.HasEmail id other c

/-- Emails are matched with one transaction, and in between anything happens that leaves its
fields alone. -/
inductive EmailRun (id : String) (db : Database) : List IncomingObservation → Database → Prop
  | start : EmailRun id db [] db
  | email {obss : List IncomingObservation} {obs : IncomingObservation} {db' db'' : Database}
      (hrun : EmailRun id db obss db') (h : EmailMatch id obs db' db'') :
      EmailRun id db (obss ++ [obs]) db''
  | other {obss : List IncomingObservation} {db' db'' : Database} (hrun : EmailRun id db obss db')
      (h : KeepsEmails id db' db'') : EmailRun id db obss db''

/-- Every column is as it was at the start, or is that of an email. -/
structure Supplied (f₀ : EmailFields) (obss : List IncomingObservation) (f : EmailFields) :
    Prop where
  referenceId : f.referenceId = f₀.referenceId ∨ ∃ o ∈ obss, f.referenceId = o.referenceId
  merchant : f.merchantDisplayName = f₀.merchantDisplayName ∨
    ∃ o ∈ obss, f.merchantDisplayName = o.merchantRaw

omit [Extern] in
theorem Supplied.mono {f₀ f : EmailFields} {obss : List IncomingObservation}
    (h : Supplied f₀ obss f) (obs : IncomingObservation) : Supplied f₀ (obss ++ [obs]) f where
  referenceId := h.referenceId.imp_right fun ⟨o, ho, hf⟩ => ⟨o, List.mem_append_left _ ho, hf⟩
  merchant := h.merchant.imp_right fun ⟨o, ho, hf⟩ => ⟨o, List.mem_append_left _ ho, hf⟩

omit [Extern] in
/-- A column an email lacks stays whose it was. -/
theorem Supplied.overwritten {f₀ f : EmailFields} {obss : List IncomingObservation}
    (h : Supplied f₀ obss f) (obs : IncomingObservation) :
    Supplied f₀ (obss ++ [obs]) (f.overwritten obs) where
  referenceId := by
    cases hobs : obs.referenceId with
    | none => simpa [EmailFields.overwritten, hobs] using (h.mono obs).referenceId
    | some r => exact .inr ⟨obs, by simp, by simp [EmailFields.overwritten, hobs]⟩
  merchant := by
    cases hobs : obs.merchantRaw with
    | none => simpa [EmailFields.overwritten, hobs] using (h.mono obs).merchant
    | some m => exact .inr ⟨obs, by simp, by simp [EmailFields.overwritten, hobs]⟩

namespace EmailRun

variable {id : String} {db db' : Database} {obss : List IncomingObservation}

theorem hasEmail (h : EmailRun id db obss db') :
    ∀ o ∈ obss, db'.HasEmail id o.id o.confidenceScore := by
  induction h with
  | start => simp
  | email _ hmatch ih =>
    intro o ho
    obtain ho | ho := List.mem_append.mp ho
    · exact hmatch.hasEmail_mono (ih o ho)
    · obtain rfl := List.mem_singleton.mp ho
      exact hmatch.hasEmail_self
  | other _ hkeeps ih => exact fun o ho => hkeeps.emails _ _ (ih o ho)

theorem supplied (h : EmailRun id db obss db') {f₀ f : EmailFields}
    (hstart : db.emailFields id = some f₀) (hend : db'.emailFields id = some f) :
    Supplied f₀ obss f := by
  induction h generalizing f with
  | start =>
    obtain rfl := Option.some.inj (hstart.symm.trans hend)
    exact ⟨.inl rfl, .inl rfl⟩
  | @email obss obs db' db'' _ hmatch ih =>
    obtain ⟨f', hf', hafter⟩ := hmatch.emailFields
    obtain rfl := Option.some.inj (hend.symm.trans hafter)
    split
    · exact (ih hf').overwritten obs
    · exact (ih hf').mono obs
  | other _ hkeeps ih => exact ih (hkeeps.fields ▸ hend)

end EmailRun

/-- An email about lunch. -/
def lunchEmail (id merchant : String) (confidence : ℚ) : TransactionObservationsRow :=
  { observed id "gmail_transaction" "debit" 500 1000 with
    fingerprint := some "fp", merchantRaw := some merchant, confidenceScore := some confidence }

/-- One email has a transaction, another is stored. -/
def twoLunchEmails (confidence : ℚ) : Store Database :=
  (Op.ingest (lunchEmail "o2" "SWIGGY" confidence) false).run 1002
    ((Op.ingest (lunchEmail "o1" "ZOMATO" (1 / 2)) true).run 1001 firstLedger)

/-- The second is matched with it. -/
def matchLunch (confidence : ℚ) : Except SqlError DecisionType × Store Database :=
  autoMatch (incomingOf (lunchEmail "o2" "SWIGGY" confidence) "account") (uuid 0)
    (some .emailOnly) 1 .autoMatchedExact (.quiet 1003) (twoLunchEmails confidence)

/-- What counts of an observation: who it is, what it is, its confidence and its transaction. -/
def emailColumns (o : TransactionObservationsRow) :
    String × Option String × Option ℚ × Option String :=
  (o.id, o.sourcePipeline, o.confidenceScore, o.canonicalTransactionId)

/-- The first email is linked, the second only stored. -/
def lunchRows (confidence : ℚ) : List (String × Option String × Option ℚ × Option String) :=
  [("o1", some "gmail_transaction", some (1 / 2), some (uuid 0)),
    ("o2", some "gmail_transaction", some confidence, none)]

theorem emailMatch_lunch {confidence : ℚ}
    (htransactions : (twoLunchEmails confidence).db.transactions.rows.map
      (fun t => (t.id, t.sourceMix)) = [(uuid 0, some .emailOnly)])
    (hobservations : (twoLunchEmails confidence).db.observations.rows.map emailColumns =
      lunchRows confidence)
    (hok : (matchLunch confidence).1 = .ok .autoMatchedExact) :
    EmailMatch (uuid 0) (incomingOf (lunchEmail "o2" "SWIGGY" confidence) "account")
      (twoLunchEmails confidence).db (matchLunch confidence).2.db where
  canonical := by
    have hmem : (uuid 0, some SourceMix.emailOnly) ∈
        (twoLunchEmails confidence).db.transactions.rows.map fun t => (t.id, t.sourceMix) := by
      simp [htransactions]
    obtain ⟨t, ht, heq⟩ := List.mem_map.mp hmem
    obtain ⟨hid, hmix⟩ := Prod.mk.inj heq
    exact ⟨t, ht, hid, hmix⟩
  pipeline := rfl
  stored := by
    have hmem : ("o2", some "gmail_transaction", some confidence, none) ∈
        (twoLunchEmails confidence).db.observations.rows.map emailColumns := by
      simp [hobservations, lunchRows]
    obtain ⟨o, ho, heq⟩ := List.mem_map.mp hmem
    simp only [emailColumns, Prod.mk.injEq] at heq
    exact ⟨o, ho, heq.1, heq.2.1, heq.2.2.1⟩
  matched := ⟨1, .autoMatchedExact, .autoMatchedExact, 1003, twoLunchEmails confidence,
    (matchLunch confidence).2, rfl, rfl, Prod.ext hok rfl⟩

/-- The second email beats the only one before it. -/
theorem beatsAll_lunch {db : Database} {confidence : ℚ} {obs : IncomingObservation}
    (hid : obs.id = "o2") (hconfidence : obs.confidenceScore = some confidence)
    (hobservations : db.observations.rows.map emailColumns = lunchRows confidence)
    (hmore : emailVsEmailConfidenceMargin < confidence - 1 / 2) : db.BeatsAll (uuid 0) obs := by
  refine ⟨confidence, hconfidence, ?_, fun other c hne ⟨o, ho, hother, _, hc, _⟩ => ?_⟩
  · have hmem : ("o1", some "gmail_transaction", some (1 / 2), some (uuid 0)) ∈
        db.observations.rows.map emailColumns := by simp [hobservations, lunchRows]
    obtain ⟨o, ho, heq⟩ := List.mem_map.mp hmem
    simp only [emailColumns, Prod.mk.injEq] at heq
    refine ⟨"o1", some (1 / 2), ?_, o, ho, heq.1, heq.2.1, heq.2.2.1, .inl heq.2.2.2⟩
    rw [hid]
    decide
  · have hmem : emailColumns o ∈ db.observations.rows.map emailColumns := List.mem_map_of_mem ho
    rw [hobservations, lunchRows, List.mem_cons, List.mem_singleton] at hmem
    simp only [emailColumns, Prod.mk.injEq] at hmem
    obtain hfirst | hsecond := hmem
    · exact ⟨1 / 2, hc ▸ hfirst.2.2.1, hmore⟩
    · exact absurd (hother.symm.trans (hsecond.1.trans hid.symm)) hne

end Dinero
