import Dinero.FileHashes

/-!
# Dinero.BillingCycles

One statement for each billing cycle of an instrument.

A cycle is looked up when a document is staged, among the statements that are
in by then.  Review may change the instrument and the period, and a second
draft of the cycle may wait beside the first; the commit looks nothing up.
-/

namespace Dinero

open Sql

/-! ## cycles -/

/-- What a period that was not read is written as. -/
def unknownDate : String := "1970-01-01"

/-- The instrument and the known period of a statement that counts. -/
def StatementsRow.cycle (r : StatementsRow) : Option (String × String × String) :=
  if r.isDuplicate = true ∨ r.billingPeriodStart = unknownDate ∨ r.billingPeriodEnd = unknownDate
  then none
  else r.instrumentId.map fun i => (i, r.billingPeriodStart, r.billingPeriodEnd)

/-- No two statements have one cycle. -/
def Desk.DistinctCycles (d : Desk) : Prop :=
  ∀ a ∈ d.statements, ∀ b ∈ d.statements, a.cycle ≠ none → a.cycle = b.cycle → a = b

theorem cycle_eq_some {r : StatementsRow} {i start stop : String} :
    r.cycle = some (i, start, stop) ↔
      (r.isDuplicate = false ∧ start ≠ unknownDate ∧ stop ≠ unknownDate) ∧
        r.instrumentId = some i ∧ r.billingPeriodStart = start ∧ r.billingPeriodEnd = stop := by
  unfold StatementsRow.cycle
  split_ifs with h
  · constructor
    · intro hnone
      cases hnone
    · rintro ⟨⟨hdup, hstart, hstop⟩, -, rfl, rfl⟩
      simp [hdup, hstart, hstop] at h
  · simp only [not_or, Bool.not_eq_true] at h
    rw [Option.map_eq_some_iff]
    constructor
    · rintro ⟨j, hj, heq⟩
      obtain ⟨rfl, rfl, rfl⟩ : j = i ∧ r.billingPeriodStart = start ∧ r.billingPeriodEnd = stop := by
        simpa using heq
      exact ⟨h, hj, rfl, rfl⟩
    · rintro ⟨-, hi, rfl, rfl⟩
      exact ⟨i, hi, rfl⟩

/-- The check of the staging pipeline, for a known period. -/
theorem checkBillingCycleDuplicate_iff {i start stop : String} {d : Desk}
    (hstart : start ≠ unknownDate) (hstop : stop ≠ unknownDate) :
    checkBillingCycleDuplicate i start stop d = .noDuplicate ↔
      ∀ r ∈ d.statements, r.cycle ≠ some (i, start, stop) := by
  unfold checkBillingCycleDuplicate
  split_ifs with hcount
  · simp only [false_iff, not_forall, not_not]
    obtain ⟨r, hr, hp⟩ := List.countP_pos_iff.mp hcount
    simp only [Bool.and_eq_true, decide_eq_true_eq, Bool.not_eq_true'] at hp
    exact ⟨r, hr, cycle_eq_some.mpr ⟨⟨hp.2, hstart, hstop⟩, hp.1.1.1, hp.1.1.2, hp.1.2⟩⟩
  · simp only [true_iff]
    intro r hr hcycle
    obtain ⟨⟨hdup, -, -⟩, hi, hs, he⟩ := cycle_eq_some.mp hcycle
    exact hcount (List.countP_pos_iff.mpr ⟨r, hr, by simp [hdup, hi, hs, he]⟩)

/-- A queued statement has no cycle yet. -/
theorem cycle_queuedRow (id sourceType : String) (sourceMessageId fileHash : Option String)
    (today : String) : (queuedRow id sourceType sourceMessageId fileHash today).cycle = none := by
  simp [StatementsRow.cycle, queuedRow]

/-! ## everything but a commit -/

/-- The statements and `ids` have been drawn, and no cycle is new beside those of `T`. -/
structure NoNewCycle [Extern] (T : Table StatementsRow) (ids : List String) (d : Desk)
    (n : Nat) : Prop where
  drawn : ∀ r ∈ d.statements, ∃ k < n, r.id = uuid k
  ids : ∀ id ∈ ids, ∃ k < n, id = uuid k
  old : ∀ r ∈ d.statements, r.cycle ≠ none → r ∈ T

section Cycles

variable [Extern] {T : Table StatementsRow} {ids : List String}

theorem NoNewCycle.mono {d : Desk} {n n' : Nat} (h : NoNewCycle T ids d n) (hn : n ≤ n') :
    NoNewCycle T ids d n' := by
  refine ⟨fun r hr => ?_, fun id hid => ?_, h.old⟩
  · obtain ⟨k, hk, heq⟩ := h.drawn r hr
    exact ⟨k, Nat.lt_of_lt_of_le hk hn, heq⟩
  · obtain ⟨k, hk, heq⟩ := h.ids id hid
    exact ⟨k, Nat.lt_of_lt_of_le hk hn, heq⟩

theorem NoNewCycle.subset {d d' : Desk} {n : Nat} (h : NoNewCycle T ids d n)
    (hsub : ∀ r ∈ d'.statements, r ∈ d.statements) : NoNewCycle T ids d' n :=
  ⟨fun r hr => h.drawn r (hsub r hr), h.ids, fun r hr => h.old r (hsub r hr)⟩

/-- A step that removes statements at most. -/
theorem keeps_change {f : Desk → Desk} (hf : ∀ d, ∀ r ∈ (f d).statements, r ∈ d.statements) :
    Keeps (NoNewCycle T ids) (change f) := by
  refine .update fun now n d _ d' h hd' => ?_
  obtain ⟨-, rfl⟩ := Prod.mk.inj (Except.ok.inj hd')
  exact h.subset (hf d)

theorem keeps_look (f : Desk → α) : Keeps (NoNewCycle T ids) (look f) := by
  refine .update fun now n d _ d' h hd' => ?_
  obtain ⟨-, rfl⟩ := Prod.mk.inj (Except.ok.inj hd')
  exact h

theorem keeps_orFail (x : Except SqlError α) : Keeps (NoNewCycle T ids) (orFail x) := by
  cases x with
  | ok a => exact .pure a
  | error e => exact .fail e

theorem keeps_deletePdf (id : String) : Keeps (NoNewCycle T ids) (deletePdf id) :=
  keeps_change fun _ _ hr => hr

theorem keeps_storePdf (id : String) (bytes : Bytes) :
    Keeps (NoNewCycle T ids) (storePdf id bytes) :=
  keeps_change fun _ _ hr => hr

theorem keeps_noteFile (id : String) (bytes : Bytes) :
    Keeps (NoNewCycle T ids) (noteFile id bytes) :=
  keeps_change fun _ _ hr => hr

theorem keeps_deleteOrphanedQueuedRow (id : String) :
    Keeps (NoNewCycle T ids) (deleteOrphanedQueuedRow id) :=
  keeps_change fun _ _ hr => (Desk.mem_dropQueued.mp hr).1

theorem keeps_insertUnprocessed (r : UnprocessedStatementRow) :
    Keeps (NoNewCycle T ids) (insertUnprocessed r) := by
  unfold insertUnprocessed
  refine .update fun now n d _ d' h hd' => ?_
  split at hd'
  · obtain ⟨-, rfl⟩ := Prod.mk.inj (Except.ok.inj hd')
    exact h.subset fun _ hr => hr
  · cases hd'

theorem keeps_insertDraft (r : StatementDraftRow) :
    Keeps (NoNewCycle T ids) (insertDraft r) := by
  unfold insertDraft
  refine .update fun now n d _ d' h hd' => ?_
  split at hd'
  · obtain ⟨-, rfl⟩ := Prod.mk.inj (Except.ok.inj hd')
    exact h.subset fun _ hr => hr
  · cases hd'

/-- Drawing an id, then a program that may use that it has been drawn. -/
theorem keeps_draw {f : String → DeskProg α}
    (hf : ∀ id, Keeps (NoNewCycle T (id :: ids)) (f id)) :
    Keeps (NoNewCycle T ids) (newUuid uuid >>= f) := by
  refine Keeps.newUuid_bind (J := fun id => NoNewCycle T (id :: ids)) ?_ ?_ hf
  · intro d n h
    refine ⟨(h.mono (Nat.le_succ n)).drawn, fun id hid => ?_, h.old⟩
    rcases List.mem_cons.mp hid with rfl | hid
    · exact ⟨n, Nat.lt_succ_self n, rfl⟩
    · exact (h.mono (Nat.le_succ n)).ids id hid
  · intro id d n h
    exact ⟨h.drawn, fun id' hid => h.ids id' (List.mem_cons_of_mem _ hid), h.old⟩

theorem keeps_resolve (q : InstrumentRequest) :
    Keeps (NoNewCycle T ids) (onInstruments (resolveOrCreateInstrument q)) := by
  intro ctx s h
  obtain ⟨now, fault⟩ := ctx
  cases fault with
  | some e => cases e
  | none =>
    have hresolve := onInstruments_resolve q now s
    rw [show (⟨now, none⟩ : Ctx Empty) = .quiet now from rfl, hresolve]
    exact (h.mono (Nat.le_succ _)).subset fun _ hr => hr

/-- The queued row of a new file. -/
theorem keeps_insertQueued {id : String} (hid : id ∈ ids) (sourceType : String)
    (sourceMessageId fileHash : Option String) (today : String) :
    Keeps (NoNewCycle T ids) (insertQueued id sourceType sourceMessageId fileHash today) := by
  unfold insertQueued insertStatement
  refine .update fun now n d _ d' h hd' => ?_
  split at hd'
  · next T' hT =>
      obtain ⟨-, rfl⟩ := Prod.mk.inj (Except.ok.inj hd')
      refine ⟨fun r hr => ?_, h.ids, fun r hr hcycle => ?_⟩
      · rcases (Table.mem_of_insert? hT).mp hr with hr | rfl
        · exact h.drawn r hr
        · exact h.ids id hid
      · rcases (Table.mem_of_insert? hT).mp hr with hr | rfl
        · exact h.old r hr hcycle
        · exact absurd (cycle_queuedRow _ _ _ _ _) hcycle
  · cases hd'

/-! ### the programs -/

theorem keeps_stageParsePipeline (c : StagingCall) :
    Keeps (NoNewCycle T ids) (stageParsePipeline c) := by
  refine .bind (keeps_storePdf _ _) fun _ => .bind (keeps_orFail _) fun pages => ?_
  split
  · exact .fail _
  refine .bind (keeps_orFail _) fun m => ?_
  split
  · refine .bind (keeps_deleteOrphanedQueuedRow _) fun _ => keeps_draw fun id => ?_
    exact .bind (keeps_insertUnprocessed _) fun _ => .bind (keeps_noteFile _ _) fun _ =>
      .bind (keeps_storePdf _ _) fun _ => .pure _
  · next q _ =>
      refine .bind (keeps_resolve q) fun instrumentId => .bind (keeps_look _) fun taken => ?_
      split
      · exact .bind (keeps_deleteOrphanedQueuedRow _) fun _ => .fail _
      · exact .bind (keeps_orFail _) fun _ => .bind (keeps_deleteOrphanedQueuedRow _) fun _ =>
          .bind (keeps_insertDraft _) fun _ => .pure _

theorem keeps_readSource (id : String) : Keeps (NoNewCycle T ids) (readSource id) := by
  refine .bind (keeps_look _) fun row => ?_
  split
  · exact .pure _
  · exact .fail _

theorem keeps_readPdf (id : String) : Keeps (NoNewCycle T ids) (readPdf id) := by
  refine .bind (keeps_look _) fun bytes => ?_
  split
  · exact .pure _
  · exact .fail _

theorem keeps_removeBlocked (id : String) (outcome : PipelineOutcome) :
    Keeps (NoNewCycle T ids) (removeBlocked id outcome) := by
  cases outcome with
  | staged draftId => exact .pure _
  | blockedAwaitingInstrument statementId => exact keeps_change fun _ _ hr => hr

/-- A new file, whatever its way in. -/
theorem keeps_newFile (resolution : StatementPasswordResolution) (bytes : Bytes)
    (recorded filename sourceType today : String) (sourceMessageId rowHash : Option String)
    (job : String → Option String → StatementJob) :
    Keeps (NoNewCycle T ids) (newUuid uuid >>= fun stmtId =>
      match resolution with
      | .prompt => promptFor stmtId recorded filename bytes
      | .proceed password =>
        enqueue stmtId sourceType sourceMessageId rowHash bytes today (job stmtId password)) := by
  refine keeps_draw fun id => ?_
  cases resolution with
  | prompt =>
    exact .bind (keeps_insertUnprocessed _) fun _ => .bind (keeps_noteFile _ _) fun _ =>
      keeps_storePdf _ _
  | proceed password =>
    exact .bind (keeps_insertQueued List.mem_cons_self _ _ _ _) fun _ =>
      .bind (keeps_noteFile _ _) fun _ => .bind (keeps_storePdf _ _) fun _ =>
        keeps_change fun _ _ hr => hr

variable [Documents]

/-- **Only a commit brings a cycle in.** -/
theorem keeps_statementOp {op : StatementOp}
    (hop : ∀ draftId edited, op ≠ .commitDraft draftId edited) :
    Keeps (NoNewCycle T ids) op.prog := by
  cases op with
  | upload bytes filename today resolution =>
    refine .bind (keeps_orFail _) fun hash => .bind (keeps_look _) fun known => ?_
    split
    · exact .fail _
    refine .bind (keeps_look _) fun cycle => ?_
    split
    · exact .fail _
    · exact keeps_newFile resolution bytes hash filename "manual_upload" today none (some hash)
        fun stmtId password => ⟨filename, hash, stmtId, password, "manual_upload"⟩
  | scan bytes filename msgId today resolution =>
    refine .bind (keeps_look _) fun known => ?_
    cases known with
    | none => exact .pure _
    | some hash =>
      exact keeps_newFile resolution bytes msgId filename "gmail_email" today (some msgId) none
        fun stmtId password => ⟨filename, hash, stmtId, password, "email_scan"⟩
  | runJob n reading =>
    refine .bind (keeps_look _) fun job => ?_
    cases job with
    | none => exact .pure _
    | some job =>
      refine .bind (keeps_change fun _ _ hr => hr) fun _ => .bind (.attempt ?_) fun outcome => ?_
      · exact .bind (keeps_readPdf _) fun _ => keeps_stageParsePipeline _
      · split
        · exact .pure _
        · exact keeps_deletePdf _
  | confirmInstrument id issuer masked type reading =>
    refine .bind ?_ fun _ => .pure _
    unfold statementsConfirmInstrument
    split
    · exact .fail _
    split
    · exact .fail _
    · exact .bind (keeps_readPdf _) fun _ => .bind (keeps_readSource _) fun _ =>
        keeps_stageParsePipeline _
  | submitPassword id password opens reading =>
    refine .bind (keeps_readPdf _) fun bytes => ?_
    split
    · exact .bind (keeps_change fun _ _ hr => hr) fun _ => .bind (keeps_readSource _) fun _ =>
        .bind (keeps_stageParsePipeline _) fun _ => keeps_removeBlocked _ _
    · exact keeps_change fun _ _ hr => hr
  | retry id stored reading =>
    refine .bind (keeps_readSource _) fun source => .bind (keeps_look _) fun bytes => ?_
    cases bytes with
    | none => exact .pure _
    | some bytes =>
      cases stored with
      | none => exact .pure _
      | some password =>
        exact .bind (keeps_stageParsePipeline _) fun _ => keeps_removeBlocked _ _
  | discard id =>
    exact .bind (keeps_readSource _) fun _ => keeps_change fun _ _ hr => hr
  | commitDraft draftId edited => exact absurd rfl (hop draftId edited)
  | discardDraft draftId =>
    exact .bind (keeps_deletePdf _) fun _ => keeps_change fun _ _ hr => hr
  | sweepDrafts cutoff => exact keeps_change fun _ _ hr => hr

/-! ## a commit -/

/-- Statement ids have been drawn. -/
def DrawnStatements (s : Store Desk) : Prop := ∀ r ∈ s.db.statements, ∃ k < s.nextUuid, r.id = uuid k

def DraftMetadataUpdate.request (edited : DraftMetadataUpdate) : InstrumentRequest :=
  ⟨edited.instrumentType, edited.issuerName, edited.maskedIdentifier, none⟩

/-- A draft that is committed has a cycle that is not in yet, or none.  What the user
entered and the instrument it resolves to are looked up as staging does. -/
def StatementOp.FitsCycle (now : Int) (s : Store Desk) : StatementOp → Prop
  | .commitDraft draftId edited => ∀ draft i start stop,
      s.db.drafts.find? draftId = some draft → draft.status = .pendingReview →
      s.db.instrumentFor edited.request (uuid s.nextUuid) now = some i →
      edited.billingPeriodStart = some start → edited.billingPeriodEnd = some stop →
      start ≠ unknownDate → stop ≠ unknownDate →
        checkBillingCycleDuplicate i start stop s.db = .noDuplicate
  | _ => True

omit [Documents] [Extern] in
/-- One row more. -/
theorem distinctCycles_insert {d d' : Desk} {r : StatementsRow}
    (hT : d.statements.insert? r = some d'.statements) (h : d.DistinctCycles) :
    d'.DistinctCycles ↔ ∀ x ∈ d.statements, r.cycle ≠ none → x.cycle ≠ r.cycle := by
  have hnew := (Table.insert?_eq_some.mp hT).1
  constructor
  · intro h' x hx hcycle heq
    have hxr := h' r ((Table.mem_of_insert? hT).mpr (.inr rfl)) x
      ((Table.mem_of_insert? hT).mpr (.inl hx)) hcycle heq.symm
    exact hnew x hx (congrArg Keyed.key hxr.symm)
  · intro hfree a ha b hb hcycle heq
    rcases (Table.mem_of_insert? hT).mp ha with ha | rfl
    · rcases (Table.mem_of_insert? hT).mp hb with hb | rfl
      · exact h a ha b hb hcycle heq
      · exact absurd heq (hfree a ha (heq ▸ hcycle))
    · rcases (Table.mem_of_insert? hT).mp hb with hb | rfl
      · exact absurd heq.symm (hfree b hb hcycle)
      · rfl

omit [Documents] [Extern] in
/-- The cycle of the row a commit writes. -/
theorem cycle_statementRow {edited : DraftMetadataUpdate} {stmtId i instrumentType : String}
    {sourceMessageId : Option String} {c : String × String × String} :
    (edited.metadata.statementRow stmtId i instrumentType sourceMessageId).cycle = some c ↔
      ∃ start stop, edited.billingPeriodStart = some start ∧ edited.billingPeriodEnd = some stop ∧
        start ≠ unknownDate ∧ stop ≠ unknownDate ∧ c = (i, start, stop) := by
  obtain ⟨j, start, stop⟩ := c
  rw [cycle_eq_some]
  simp only [StatementMetadata.statementRow, DraftMetadataUpdate.metadata]
  constructor
  · rintro ⟨⟨-, hstart, hstop⟩, hi, hs, he⟩
    cases hbegin : edited.billingPeriodStart with
    | none =>
      rw [hbegin] at hs
      exact absurd hs.symm hstart
    | some b =>
      cases hend : edited.billingPeriodEnd with
      | none =>
        rw [hend] at he
        exact absurd he.symm hstop
      | some e =>
        rw [hbegin] at hs
        rw [hend] at he
        refine ⟨b, e, rfl, rfl, ?_⟩
        simp only [Option.getD_some] at hs he
        rw [hs, he, Option.some.inj hi]
        exact ⟨hstart, hstop, rfl⟩
  · rintro ⟨b, e, hbegin, hend, hb, he, hc⟩
    simp only [Prod.mk.injEq] at hc
    obtain ⟨rfl, rfl, rfl⟩ := hc
    simp [hbegin, hend, hb, he]

omit [Documents] in
/-- What a commit does to the statements: one row under a new id. -/
theorem writeCommitted_statements {s : Store Desk} (hdrawn : DrawnStatements s)
    (draft : StatementDraftRow) (edited : DraftMetadataUpdate) (i : String) (now : Int) :
    s.db.statements.insert? (edited.metadata.statementRow (uuid s.nextUuid) i
        edited.instrumentType (some draft.fileHash)) =
      some (writeCommitted draft edited i (.quiet now) s).2.db.statements ∧
    (writeCommitted draft edited i (.quiet now) s).2.nextUuid = s.nextUuid + 1 := by
  let row := edited.metadata.statementRow (uuid s.nextUuid) i edited.instrumentType
    (some draft.fileHash)
  obtain ⟨T, hT⟩ := Table.exists_insert (T := s.db.statements) (r := row) fun x hx hid => by
    obtain ⟨k, hk, hxid⟩ := hdrawn x hx
    have hkeq : k = s.nextUuid := Extern.uuid_injective (hxid.symm.trans hid)
    omega
  have hwrite := writeStatementRow_new (s := ⟨s.db, s.nextUuid + 1, s.skip⟩) hT (.quiet now)
  rw [writeCommitted, Eff.bind_of_ok (newUuid_apply _ _ _), Eff.bind_of_ok hwrite]
  exact ⟨hT, rfl⟩

omit [Documents] in
/-- A draft in review is committed for the instrument the user entered. -/
theorem commitStagedDraft_pending {s : Store Desk} {draftId : String} {draft : StatementDraftRow}
    (hfind : s.db.drafts.find? draftId = some draft) (hreview : draft.status = .pendingReview)
    (edited : DraftMetadataUpdate) (now : Int) :
    commitStagedDraft draftId edited (.quiet now) s =
      match s.db.instrumentFor edited.request (uuid s.nextUuid) now with
      | some i => writeCommitted draft edited i (.quiet now) (afterResolve edited.request now s)
      | none => (.error .queryReturnedNoRows, afterResolve edited.request now s) := by
  have hresolve := onInstruments_resolve edited.request now s
  have hstart : commitStagedDraft draftId edited (.quiet now) s =
      (onInstruments (resolveOrCreateInstrument edited.request) >>=
        writeCommitted draft edited) (.quiet now) s := by
    rw [commitStagedDraft, Eff.bind_of_ok (look_apply _ _ _), hfind]
    dsimp only
    rw [if_neg (not_not.mpr hreview)]
    rfl
  rw [hstart]
  cases hfor : s.db.instrumentFor edited.request (uuid s.nextUuid) now with
  | none =>
    rw [hfor] at hresolve
    exact Eff.bind_of_error hresolve
  | some i =>
    rw [hfor] at hresolve
    exact Eff.bind_of_ok hresolve

omit [Documents] in
/-- A draft that is not in review is left alone. -/
theorem commitStagedDraft_settled {s : Store Desk} {draftId : String}
    (h : ∀ draft, s.db.drafts.find? draftId = some draft → draft.status ≠ .pendingReview)
    (edited : DraftMetadataUpdate) (now : Int) :
    (commitStagedDraft draftId edited (.quiet now) s).2 = s := by
  rw [commitStagedDraft, Eff.bind_of_ok (look_apply _ _ _)]
  cases hfind : s.db.drafts.find? draftId with
  | none => rfl
  | some draft =>
    dsimp only
    rw [if_pos (h draft hfind)]
    rfl

omit [Documents] in
/-- **A commit keeps cycles apart exactly if it brings no cycle that is there.** -/
theorem commit_cycles {s : Store Desk} (hdrawn : DrawnStatements s) (h : s.db.DistinctCycles)
    (draftId : String) (edited : DraftMetadataUpdate) (now : Int) :
    DrawnStatements (commitStagedDraft draftId edited (.quiet now) s).2 ∧
      ((commitStagedDraft draftId edited (.quiet now) s).2.db.DistinctCycles ↔
        (StatementOp.commitDraft draftId edited).FitsCycle now s) := by
  have hafter : DrawnStatements (afterResolve edited.request now s) := by
    intro r hr
    obtain ⟨k, hk, hid⟩ := hdrawn r hr
    exact ⟨k, Nat.lt_succ_of_lt hk, hid⟩
  by_cases hpending : ∃ draft, s.db.drafts.find? draftId = some draft ∧
      draft.status = .pendingReview
  · obtain ⟨draft, hfind, hreview⟩ := hpending
    rw [commitStagedDraft_pending hfind hreview]
    cases hfor : s.db.instrumentFor edited.request (uuid s.nextUuid) now with
    | none =>
      refine ⟨hafter, iff_of_true h fun draft i start stop _ _ hi => ?_⟩
      rw [hfor] at hi
      cases hi
    | some i =>
      obtain ⟨hT, hnext⟩ := writeCommitted_statements hafter draft edited i now
      constructor
      · intro r hr
        rw [hnext]
        rcases (Table.mem_of_insert? hT).mp hr with hr | rfl
        · obtain ⟨k, hk, hid⟩ := hafter r hr
          exact ⟨k, Nat.lt_succ_of_lt hk, hid⟩
        · exact ⟨_, Nat.lt_succ_self _, rfl⟩
      · rw [distinctCycles_insert (d := (afterResolve edited.request now s).db) hT h]
        constructor
        · intro hfree draft' i' start stop _ _ hi' hstart hstop hknown hknown'
          rw [hfor] at hi'
          cases hi'
          rw [checkBillingCycleDuplicate_iff hknown hknown']
          intro x hx hcycle
          have hrow : (edited.metadata.statementRow (uuid (afterResolve edited.request now
              s).nextUuid) i edited.instrumentType (some draft.fileHash)).cycle =
                some (i, start, stop) :=
            cycle_statementRow.mpr ⟨start, stop, hstart, hstop, hknown, hknown', rfl⟩
          exact hfree x hx (by rw [hrow]; simp) (hcycle.trans hrow.symm)
        · intro hfits x hx hcycle heq
          obtain ⟨c, hc⟩ := Option.ne_none_iff_exists'.mp hcycle
          obtain ⟨start, stop, hstart, hstop, hknown, hknown', rfl⟩ := cycle_statementRow.mp hc
          have hcheck := hfits draft i start stop hfind hreview hfor hstart hstop hknown hknown'
          rw [checkBillingCycleDuplicate_iff hknown hknown'] at hcheck
          exact hcheck x hx (heq.trans hc)
  · rw [commitStagedDraft_settled fun draft hfind hreview => hpending ⟨draft, hfind, hreview⟩]
    exact ⟨hdrawn, iff_of_true h fun draft i start stop hfind hreview =>
      absurd ⟨draft, hfind, hreview⟩ hpending⟩

/-! ## runs -/

theorem run_cycles {s : Store Desk} (hdrawn : DrawnStatements s) (h : s.db.DistinctCycles)
    (op : StatementOp) (now : Int) :
    DrawnStatements (op.run now s) ∧
      ((op.run now s).db.DistinctCycles ↔ op.FitsCycle now s) := by
  by_cases hop : ∃ draftId edited, op = .commitDraft draftId edited
  · obtain ⟨draftId, edited, rfl⟩ := hop
    rw [StatementOp.run, StatementOp.prog, discardAnswer_store]
    exact commit_cycles hdrawn h draftId edited now
  · have hother : ∀ draftId edited, op ≠ .commitDraft draftId edited :=
      fun draftId edited heq => hop ⟨draftId, edited, heq⟩
    have hstart : NoNewCycle s.db.statements [] s.db s.nextUuid :=
      ⟨hdrawn, by simp, fun r hr _ => hr⟩
    have hend : NoNewCycle s.db.statements [] (op.run now s).db (op.run now s).nextUuid :=
      keeps_statementOp hother (.quiet now) s hstart
    refine ⟨hend.drawn, iff_of_true ?_ ?_⟩
    · intro a ha b hb hcycle heq
      exact h a (hend.old a ha hcycle) b (hend.old b hb (heq ▸ hcycle)) hcycle heq
    · cases op with
      | commitDraft draftId edited => exact absurd rfl (hother draftId edited)
      | _ => trivial

/-- **Billing cycles.**  In a run of statement operations from an empty desk no two statements
have one cycle, in any state, exactly if no draft is committed whose cycle is in by then. -/
theorem cycles_run (instruments : Instruments) (n : Nat) (skip : Option Nat)
    (ops : List (Int × StatementOp)) :
    (∀ pre, pre <+: ops →
      (runStatements ⟨.start instruments, n, skip⟩ pre).db.DistinctCycles) ↔
    ∀ pre now op, pre ++ [(now, op)] <+: ops →
      op.FitsCycle now (runStatements ⟨.start instruments, n, skip⟩ pre) := by
  have hall := Runs.prefixes_iff (f := fun s (op : Int × StatementOp) => op.2.run op.1 s)
    (I := DrawnStatements) (P := fun s => s.db.DistinctCycles)
    (G := fun s op => op.2.FitsCycle op.1 s) (fun s op hdrawn h => run_cycles hdrawn h op.2 op.1)
    (s := ⟨.start instruments, n, skip⟩) (fun r hr => absurd hr (Table.not_mem_empty r))
    (fun a ha => absurd ha (Table.not_mem_empty a)) ops
  simp only [Prod.forall] at hall
  exact hall

end Cycles

/-- The parser finds a card and its January. -/
def januaryReading : Reading where
  pages := .ok 1
  metadata := .ok ⟨some "2026-01-01", some "2026-01-31", none, none, none, some "HDFC",
    some "1234", none, none, none⟩
  rowsJson := .ok "[]"

/-- What the user confirms: what was read. -/
def january : DraftMetadataUpdate :=
  ⟨"HDFC", "1234", "credit_card", some "2026-01-01", some "2026-01-31", none, none, none, none⟩

/-- Two files of one statement, staged one after the other and then committed. -/
def twoDrafts : List (Int × StatementOp) := [
  (1, .upload smallPdf "a.pdf" "2026-02-01" (.proceed none)),
  (2, .upload (smallPdf ++ [10]) "b.pdf" "2026-02-01" (.proceed none)),
  (3, .runJob 0 januaryReading),
  (4, .runJob 0 januaryReading),
  (5, .commitDraft "-" january),
  (6, .commitDraft "u-" january)]

/-- Both are committed, for one card and one month. -/
theorem cycle_imported_twice :
    letI := Extern.ascii
    letI := Documents.small
    let s := runStatements ⟨.start .empty, 0, none⟩ twoDrafts
    s.db.statements.rows.map (·.cycle) =
        [some ("uu-", "2026-01-01", "2026-01-31"), some ("uu-", "2026-01-01", "2026-01-31")] ∧
      ¬ s.db.DistinctCycles := by
  let := Extern.ascii
  let := Documents.small
  intro s
  have hrows : s.db.statements.rows.map (fun r => (r.id, r.cycle)) =
      [("uuuuu-", some ("uu-", "2026-01-01", "2026-01-31")),
        ("uuuuuuu-", some ("uu-", "2026-01-01", "2026-01-31"))] := by
    decide +kernel
  constructor
  · have hcycles := congrArg (List.map Prod.snd) hrows
    rw [List.map_map] at hcycles
    exact hcycles
  · intro hdistinct
    obtain ⟨a, rest, hrest, ha, htail⟩ := List.map_eq_cons_iff.mp hrows
    obtain ⟨b, rest', hrest', hb, -⟩ := List.map_eq_cons_iff.mp htail
    obtain ⟨haid, hacycle⟩ := Prod.mk.inj ha
    obtain ⟨hbid, hbcycle⟩ := Prod.mk.inj hb
    have hab := hdistinct a (by rw [Table.mem_def, hrest]; simp)
      b (by rw [Table.mem_def, hrest, hrest']; simp) (by rw [hacycle]; simp)
      (hacycle.trans hbcycle.symm)
    rw [hab] at haid
    have hids := haid.symm.trans hbid
    revert hids
    decide

end Dinero
