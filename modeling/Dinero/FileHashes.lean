import Dinero.Runs
import Dinero.Staging

/-!
# Dinero.FileHashes

Whether a file that is in the house is recognised when it comes again.

Uploads, scans, commits and discarded drafts lose no hash that was not lost
before; the pipeline does, which removes the queued row before it writes the
draft, and so does the user who discards the one row that bears the hash.
-/

namespace Dinero

open Sql

section Files

variable [Documents] [Extern]

/-! ## files that come in -/

section Incoming

variable {d : Desk} {n : Nat}

theorem Desk.Sound.ne_of_standsFor (hd : d.Sound n) {y : String} (h : d.StandsFor y) :
    y ≠ uuid n := by
  rcases h with ⟨r, hr, rfl, -⟩ | ⟨r, hr, rfl, -⟩ | ⟨r, hr, rfl, -⟩
  · exact hd.ne_of_mem_drafts hr
  · exact hd.ne_of_mem_unprocessed hr
  · exact hd.ne_of_mem_statements hr

/-- A file comes in under a new id, and nothing stands for it yet. -/
theorem Desk.Recognises.file_in (hrec : d.Recognises) (hd : d.Sound n) {d' : Desk}
    {file : Option Bytes} (hfile : d'.file = Function.update d.file (uuid n) file)
    (hstands : ∀ y, d'.StandsFor y → d.StandsFor y) (hbears : ∀ h, d.Bears h → d'.Bears h) :
    d'.Recognises := by
  refine hrec.mono ?_ hbears
  rintro h ⟨y, b, hy, hfile', hsha⟩
  have hne := hd.ne_of_standsFor (hstands y hy)
  rw [hfile, Function.update_of_ne hne] at hfile'
  exact ⟨y, b, hstands y hy, hfile', hsha⟩

omit [Documents] [Extern] in
theorem Desk.StandsFor.of_insert_unprocessed {d' : Desk} {x : UnprocessedStatementRow}
    (hT : d.unprocessed.insert? x = some d'.unprocessed)
    (hstatus : x.status ≠ .awaitingInstrumentConfirmation) (hdrafts : d'.drafts = d.drafts)
    (hstatements : d'.statements = d.statements) {y : String} (h : d'.StandsFor y) :
    d.StandsFor y := by
  rcases h with h | ⟨r, hr, hid, hs⟩ | h
  · exact .inl (hdrafts ▸ h)
  · rcases (Table.mem_of_insert? hT).mp hr with hr | rfl
    · exact .inr (.inl ⟨r, hr, hid, hs⟩)
    · exact absurd hs hstatus
  · exact .inr (.inr (hstatements ▸ h))

omit [Documents] [Extern] in
theorem Desk.StandsFor.of_insert_statement {d' : Desk} {x : StatementsRow}
    (hT : d.statements.insert? x = some d'.statements) (hstatus : x.parseStatus ≠ .parsed)
    (hdrafts : d'.drafts = d.drafts) (hunprocessed : d'.unprocessed = d.unprocessed)
    {y : String} (h : d'.StandsFor y) : d.StandsFor y := by
  rcases h with h | h | ⟨r, hr, hid, hs⟩
  · exact .inl (hdrafts ▸ h)
  · exact .inr (.inl (hunprocessed ▸ h))
  · rcases (Table.mem_of_insert? hT).mp hr with hr | rfl
    · exact .inr (.inr ⟨r, hr, hid, hs⟩)
    · exact absurd hs hstatus

end Incoming

/-! ## the operations, one by one -/

variable {s : Store Desk}

omit [Documents] in
theorem exists_insert_unprocessed (hd : ∀ r ∈ s.db.unprocessed, r.id ≠ uuid s.nextUuid)
    (r : UnprocessedStatementRow) (hid : r.id = uuid s.nextUuid) :
    ∃ T, s.db.unprocessed.insert? r = some T := by
  rw [← Option.ne_none_iff_exists']
  intro hnone
  obtain ⟨x, hx, hkey⟩ := Table.insert?_eq_none.mp hnone
  exact hd x hx (hkey.trans hid)

omit [Documents] in
theorem exists_insert_statement (hd : ∀ r ∈ s.db.statements, r.id ≠ uuid s.nextUuid)
    (r : StatementsRow) (hid : r.id = uuid s.nextUuid) :
    ∃ T, s.db.statements.insert? r = some T := by
  rw [← Option.ne_none_iff_exists']
  intro hnone
  obtain ⟨x, hx, hkey⟩ := Table.insert?_eq_none.mp hnone
  exact hd x hx (hkey.trans hid)

/-- Both halves of the invariant. -/
structure Kept (s : Store Desk) : Prop where
  sound : s.db.Sound s.nextUuid
  recognises : s.db.Recognises

omit [Documents] in
/-- The desk when a file has come in under the id drawn last. -/
def Desk.noted (d : Desk) (id : String) (bytes : Bytes) : Desk :=
  { d with
    file := Function.update d.file id (some bytes)
    pdfs := Function.update d.pdfs id (some bytes) }

theorem promptFor_kept (h : Kept s) (recorded filename : String) (bytes : Bytes) (now : Int) :
    Kept (promptFor (uuid s.nextUuid) recorded filename bytes (.quiet now)
      ⟨s.db, s.nextUuid + 1, s.skip⟩).2 := by
  obtain ⟨T, hT⟩ := exists_insert_unprocessed (fun _ => h.sound.ne_of_mem_unprocessed)
    (awaitingPasswordRow (uuid s.nextUuid) recorded filename) rfl
  let d : Desk := { s.db.noted (uuid s.nextUuid) bytes with unprocessed := T }
  have hcreate : createAwaitingPasswordRow (uuid s.nextUuid) recorded filename (.quiet now)
      ⟨s.db, s.nextUuid + 1, s.skip⟩ =
        (.ok (), ⟨{ s.db with unprocessed := T }, s.nextUuid + 1, s.skip⟩) :=
    insertUnprocessed_apply (s := ⟨s.db, s.nextUuid + 1, s.skip⟩) hT _
  have hrun : (promptFor (uuid s.nextUuid) recorded filename bytes (.quiet now)
      ⟨s.db, s.nextUuid + 1, s.skip⟩).2 = ⟨d, s.nextUuid + 1, s.skip⟩ := by
    rw [promptFor, Eff.bind_of_ok hcreate, Eff.bind_of_ok (noteFile_apply _ _ _ _)]
    rfl
  have hstands : ∀ y, d.StandsFor y → s.db.StandsFor y := by
    have hinsert : s.db.unprocessed.insert? _ = some d.unprocessed := hT
    exact fun y hy => hy.of_insert_unprocessed hinsert
      (show UnprocessedStatus.awaitingPassword ≠ _ from nofun) rfl rfl
  have hbears : ∀ hash, s.db.Bears hash → d.Bears hash := by
    rintro hash (hold | ⟨r, hr, hhash⟩)
    · exact .inl hold
    · exact .inr ⟨r, (Table.mem_of_insert? hT).mpr (.inl hr), hhash⟩
  rw [hrun]
  exact ⟨(h.sound.noteFile bytes).insertUnprocessed hT (Function.update_self _ _ _),
    h.recognises.file_in h.sound rfl hstands hbears⟩

theorem enqueue_kept (h : Kept s) (sourceType : String) (sourceMessageId : Option String)
    {rowHash : Option String} {bytes : Bytes} (hhash : ∀ hash, rowHash = some hash →
      sha256 bytes = hash) (today : String) (job : StatementJob) (now : Int) :
    Kept (enqueue (uuid s.nextUuid) sourceType sourceMessageId rowHash bytes today job
      (.quiet now) ⟨s.db, s.nextUuid + 1, s.skip⟩).2 := by
  obtain ⟨T, hT⟩ := exists_insert_statement (fun _ => h.sound.ne_of_mem_statements)
    (queuedRow (uuid s.nextUuid) sourceType sourceMessageId rowHash today) rfl
  let d : Desk := { s.db.noted (uuid s.nextUuid) bytes with
    statements := T
    queue := s.db.queue ++ [job] }
  have hinsert : insertQueued (uuid s.nextUuid) sourceType sourceMessageId rowHash today
      (.quiet now) ⟨s.db, s.nextUuid + 1, s.skip⟩ =
        (.ok (), ⟨{ s.db with statements := T }, s.nextUuid + 1, s.skip⟩) :=
    insertStatement_apply (s := ⟨s.db, s.nextUuid + 1, s.skip⟩) hT _
  have hrun : (enqueue (uuid s.nextUuid) sourceType sourceMessageId rowHash bytes today job
      (.quiet now) ⟨s.db, s.nextUuid + 1, s.skip⟩).2 = ⟨d, s.nextUuid + 1, s.skip⟩ := by
    rw [enqueue, Eff.bind_of_ok hinsert, Eff.bind_of_ok (noteFile_apply _ _ _ _),
      Eff.bind_of_ok (storePdf_apply _ _ _ _)]
    rfl
  have hstands : ∀ y, d.StandsFor y → s.db.StandsFor y := by
    have hinsert : s.db.statements.insert? _ = some d.statements := hT
    exact fun y hy => hy.of_insert_statement hinsert
      (show ParseStatus.queued ≠ _ from nofun) rfl rfl
  have hbears : ∀ hash, s.db.Bears hash → d.Bears hash := by
    rintro hash (⟨r, hr, hold⟩ | hold)
    · exact .inl ⟨r, (Table.mem_of_insert? hT).mpr (.inl hr), hold⟩
    · exact .inr hold
  have hsound : Desk.Sound { s.db.noted (uuid s.nextUuid) bytes with statements := T }
      (s.nextUuid + 1) :=
    (h.sound.noteFile bytes).insertStatement hT (Function.update_self _ _ _) hhash
  rw [hrun]
  exact ⟨{ hsound with }, h.recognises.file_in h.sound rfl hstands hbears⟩

omit [Extern] in
theorem validateAndHash_eq {bytes : Bytes} {hash : String}
    (h : validateAndHash bytes = .ok hash) : sha256 bytes = hash := by
  unfold validateAndHash at h
  split at h
  · exact absurd h nofun
  · split at h
    · exact absurd h nofun
    · split at h
      · exact absurd h nofun
      · exact Except.ok.inj h

theorem upload_kept (h : Kept s) (bytes : Bytes) (filename today : String)
    (resolution : StatementPasswordResolution) (now : Int) :
    Kept (uploadOneStatement bytes filename today resolution (.quiet now) s).2 := by
  rw [uploadOneStatement]
  rcases hhash : validateAndHash bytes with e | hash
  · exact h
  · rw [Eff.bind_of_ok (orFail_ok _ _ _), Eff.bind_of_ok (look_apply _ _ _)]
    by_cases hdup : checkFileHashDuplicate hash s.db = .noDuplicate
    · rw [if_neg (not_not.mpr hdup), Eff.bind_of_ok (look_apply _ _ _)]
      by_cases hcycle : checkFilenameBillingCycleAllInstruments filename s.db =
          some .duplicateBillingCycle
      · rw [if_pos hcycle]
        exact h
      · rw [if_neg hcycle, Eff.bind_of_ok (newUuid_apply _ _ _)]
        rcases resolution with password | _
        · exact enqueue_kept h _ _ (fun x hx => (validateAndHash_eq hhash).trans
            (Option.some.inj hx)) today _ now
        · exact promptFor_kept h hash filename bytes now
    · rw [if_pos hdup]
      exact h

theorem scan_kept (h : Kept s) (bytes : Bytes) (filename msgId today : String)
    (resolution : StatementPasswordResolution) (now : Int) :
    Kept (scanAttachment bytes filename msgId today resolution (.quiet now) s).2 := by
  rw [scanAttachment, Eff.bind_of_ok (look_apply _ _ _)]
  rcases hashEmailAttachmentIfNew bytes s.db with _ | hash
  · exact h
  · dsimp only
    rw [Eff.bind_of_ok (newUuid_apply _ _ _)]
    rcases resolution with password | _
    · have hnone : ∀ hash, (none : Option String) = some hash → sha256 bytes = hash := nofun
      exact enqueue_kept h _ _ hnone today _ now
    · exact promptFor_kept h msgId filename bytes now

/-! ## commit, discard, sweep -/

omit [Documents] [Extern] in
/-- A change of rows that keeps ids and sources, and lets nobody stand anew. -/
theorem bears_modify_unprocessed {d : Desk} {id : String} {u : Patch UnprocessedStatementRow}
    (hsource : ∀ r, (u.run r).source = r.source) {hash : String} :
    Desk.Bears { d with unprocessed := d.unprocessed.modify id u } hash ↔ d.Bears hash := by
  refine or_congr_right ?_
  constructor
  · rintro ⟨r, hr, hhash⟩
    rcases Table.mem_modify_cases hr with ⟨hr, -⟩ | ⟨r', hr', -, rfl⟩
    · exact ⟨r, hr, hhash⟩
    · exact ⟨r', hr', by rwa [hsource] at hhash⟩
  · rintro ⟨r, hr, hhash⟩
    by_cases hid : r.id = id
    · exact ⟨u.run r, Table.mem_modify_of_mem hr hid, by rwa [hsource]⟩
    · exact ⟨r, (Table.mem_modify_of_ne hid).mpr hr, hhash⟩

omit [Documents] [Extern] in
theorem standsFor_of_modify_unprocessed {d : Desk} {id : String}
    {u : Patch UnprocessedStatementRow}
    (hstatus : ∀ r, (u.run r).status = .awaitingInstrumentConfirmation →
      r.status = .awaitingInstrumentConfirmation) {y : String}
    (h : Desk.StandsFor { d with unprocessed := d.unprocessed.modify id u } y) :
    d.StandsFor y := by
  rcases h with h | ⟨r, hr, hid, hs⟩ | h
  · exact .inl h
  · rcases Table.mem_modify_cases hr with ⟨hr, -⟩ | ⟨r', hr', -, rfl⟩
    · exact .inr (.inl ⟨r, hr, hid, hs⟩)
    · exact .inr (.inl ⟨r', hr', (u.key_run r').symm.trans hid, hstatus r' hs⟩)
  · exact .inr (.inr h)

theorem Desk.Sound.modify_unprocessed {d : Desk} {n : Nat} (hd : d.Sound n) (id : String)
    (u : Patch UnprocessedStatementRow) :
    Desk.Sound { d with unprocessed := d.unprocessed.modify id u } n :=
  { hd with
    unprocessed := fun r hr => by
      rcases Table.mem_modify_cases hr with ⟨hr, -⟩ | ⟨r', hr', -, rfl⟩
      · exact hd.unprocessed r hr
      · have hid : (u.run r').id = r'.id := u.key_run r'
        rw [hid]
        exact hd.unprocessed r' hr' }

/-- A row changes its status, but not to waiting for an instrument. -/
theorem Kept.modify_unprocessed (h : Kept s) (id : String) {u : Patch UnprocessedStatementRow}
    (hsource : ∀ r, (u.run r).source = r.source)
    (hstatus : ∀ r, (u.run r).status = .awaitingInstrumentConfirmation →
      r.status = .awaitingInstrumentConfirmation) :
    Kept { s with db := { s.db with unprocessed := s.db.unprocessed.modify id u } } where
  sound := h.sound.modify_unprocessed id u
  recognises := h.recognises.mono
    (fun _ ⟨y, bytes, hy, hrest⟩ =>
      ⟨y, bytes, standsFor_of_modify_unprocessed hstatus hy, hrest⟩)
    fun _ => (bears_modify_unprocessed hsource).mpr

/-- Drafts go, or leave review. -/
theorem Kept.drafts (h : Kept s) {T : Table StatementDraftRow}
    (hT : ∀ r ∈ T, ∃ r' ∈ s.db.drafts, r'.id = r.id ∧
      (r.status = .pendingReview → r'.status = .pendingReview))
    (pdfs : String → Option Bytes) (hpdfs : ∀ id bytes, pdfs id = some bytes →
      s.db.pdfs id = some bytes) :
    Kept { s with db := { s.db with drafts := T, pdfs := pdfs } } where
  sound := { h.sound with
    drafts := fun r hr => by
      obtain ⟨r', hr', hid, -⟩ := hT r hr
      rw [← hid]
      exact h.sound.drafts r' hr'
    pdfs := fun id bytes hid => h.sound.pdfs id bytes (hpdfs id bytes hid) }
  recognises := by
    refine h.recognises.mono ?_ fun _ hold => hold
    rintro hash ⟨y, bytes, hy, hrest⟩
    refine ⟨y, bytes, ?_, hrest⟩
    rcases hy with ⟨r, hr, hid, hs⟩ | hy
    · obtain ⟨r', hr', hid', hs'⟩ := hT r hr
      exact .inl ⟨r', hr', hid'.trans hid, hs' hs⟩
    · exact .inr hy

theorem discardDraft_kept (h : Kept s) (draftId : String) (now : Int) :
    Kept (discardStagedDraft draftId (.quiet now) s).2 := by
  refine h.drafts (fun r hr => ⟨r, (Table.mem_keep.mp hr).1, rfl, id⟩) _ fun id bytes hid => ?_
  dsimp only at hid
  by_cases hne : id = draftId
  · rw [hne, Function.update_self] at hid
    exact absurd hid nofun
  · rwa [Function.update_of_ne hne] at hid

theorem sweepDrafts_kept (h : Kept s) (cutoff now : Int) :
    Kept (sweepSettledStatementDrafts cutoff (.quiet now) s).2 :=
  h.drafts (fun r hr => ⟨r, (Table.mem_keep.mp hr).1, rfl, id⟩) _ fun _ _ hid => hid

/-- A draft in review becomes a statement: the file is represented as it was. -/
theorem Kept.statement_for (h : Kept s) {draft : StatementDraftRow} (hdraft : draft ∈ s.db.drafts)
    (hreview : draft.status = .pendingReview) {x : StatementsRow} {T : Table StatementsRow}
    (hid : x.id = uuid s.nextUuid) (hhash : x.fileHash = none)
    (hT : s.db.statements.insert? x = some T) :
    Kept ⟨{ s.db with
      statements := T
      file := Function.update s.db.file (uuid s.nextUuid) (s.db.file draft.id) },
      s.nextUuid + 1, s.skip⟩ := by
  obtain ⟨bytes, hbytes⟩ := h.sound.drafts draft hdraft
  rw [hbytes]
  have hold : ∀ y b, s.db.file y = some b →
      Function.update s.db.file (uuid s.nextUuid) (some bytes) y = some b := by
    intro y b hy
    have hne : y ≠ uuid s.nextUuid := by
      rintro rfl
      rw [h.sound.fresh _ le_rfl] at hy
      exact absurd hy nofun
    rwa [Function.update_of_ne hne]
  have hnoted := h.sound.noteFile bytes
  constructor
  · refine { hnoted with statements := fun r hr => ?_, pdfs := ?_ }
    · rcases (Table.mem_of_insert? hT).mp hr with hr | rfl
      · exact hnoted.statements r hr
      · refine ⟨bytes, by rw [hid]; exact Function.update_self _ _ _, fun hash hx => ?_⟩
        rw [hhash] at hx
        exact absurd hx nofun
    · exact fun y b hy => hold y b (h.sound.pdfs y b hy)
  · refine h.recognises.mono ?_ ?_
    · rintro hash ⟨y, b, hy, hfile, hsha⟩
      have hstands : (y = uuid s.nextUuid ∧ b = bytes) ∨ s.db.StandsFor y := by
        rcases hy with hy | hy | ⟨r, hr, rfl, hs⟩
        · exact .inr (.inl hy)
        · exact .inr (.inr (.inl hy))
        · rcases (Table.mem_of_insert? hT).mp hr with hr | rfl
          · exact .inr (.inr (.inr ⟨r, hr, rfl, hs⟩))
          · refine .inl ⟨hid, ?_⟩
            dsimp only at hfile
            rw [hid, Function.update_self, Option.some.injEq] at hfile
            exact hfile.symm
      rcases hstands with ⟨-, rfl⟩ | hstands
      · exact ⟨draft.id, b, .inl ⟨draft, hdraft, rfl, hreview⟩, hbytes, hsha⟩
      · have hne := h.sound.ne_of_standsFor hstands
        dsimp only at hfile
        rw [Function.update_of_ne hne] at hfile
        exact ⟨y, b, hstands, hfile, hsha⟩
    · rintro hash (⟨r, hr, hold⟩ | hold)
      · exact .inl ⟨r, (Table.mem_of_insert? hT).mpr (.inl hr), hold⟩
      · exact .inr hold

/-- The row that keeps a committed draft's PDF. -/
theorem Kept.retention (h : Kept s) {draft : StatementDraftRow} (hdraft : draft ∈ s.db.drafts) :
    Kept { s with db := { s.db with unprocessed :=
      (s.db.unprocessed.insert? (retentionRow draft.id)).getD s.db.unprocessed } } := by
  obtain ⟨bytes, hbytes⟩ := h.sound.drafts draft hdraft
  rcases hT : s.db.unprocessed.insert? (retentionRow draft.id) with _ | T
  · exact h
  · refine ⟨h.sound.insertUnprocessed hT hbytes, h.recognises.mono ?_ ?_⟩
    · rintro hash ⟨y, b, hy, hrest⟩
      refine ⟨y, b, ?_, hrest⟩
      rcases hy with hy | ⟨r, hr, hid, hs⟩ | hy
      · exact .inl hy
      · rcases (Table.mem_of_insert? hT).mp hr with hr | rfl
        · exact .inr (.inl ⟨r, hr, hid, hs⟩)
        · exact absurd hs nofun
      · exact .inr (.inr hy)
    · rintro hash (hold | ⟨r, hr, hhash⟩)
      · exact .inl hold
      · exact .inr ⟨r, (Table.mem_of_insert? hT).mpr (.inl hr), hhash⟩

omit [Documents] [Extern] in
theorem writeStatementRow_new {r : StatementsRow} {T : Table StatementsRow}
    (hT : s.db.statements.insert? r = some T) (ctx : Ctx Empty) :
    writeStatementRow r ctx s = (.ok (), { s with db := { s.db with statements := T } }) := by
  have hfree : ¬s.db.statements.contains r.id = true := by
    rw [Table.contains_iff]
    rintro ⟨x, hx, hid⟩
    exact (Table.insert?_eq_some.mp hT).1 x hx hid
  rw [writeStatementRow, Eff.bind_of_ok (look_apply _ _ _), if_neg hfree]
  exact insertStatement_apply hT ctx

theorem writeCommitted_kept (h : Kept s) {draft : StatementDraftRow}
    (hdraft : draft ∈ s.db.drafts) (hreview : draft.status = .pendingReview)
    (edited : DraftMetadataUpdate) (instrumentId : String) (now : Int) :
    Kept (writeCommitted draft edited instrumentId (.quiet now) s).2 := by
  let row := edited.metadata.statementRow (uuid s.nextUuid) instrumentId edited.instrumentType
    (some draft.fileHash)
  obtain ⟨T, hT⟩ := exists_insert_statement (fun _ => h.sound.ne_of_mem_statements) row rfl
  have hwrite := writeStatementRow_new (s := ⟨s.db, s.nextUuid + 1, s.skip⟩) hT (.quiet now)
  have hstatement := h.statement_for hdraft hreview rfl rfl hT
  have hretention := hstatement.retention hdraft
  have hresolved := hretention.modify_unprocessed draft.id
    (u := unprocessedPatch .resolved (some (uuid s.nextUuid))) (fun _ => rfl)
    fun _ hs => absurd hs nofun
  rw [writeCommitted, Eff.bind_of_ok (newUuid_apply _ _ _), Eff.bind_of_ok hwrite]
  refine hresolved.drafts (fun r hr => ?_) _ fun _ _ hid => hid
  rcases Table.mem_modify_cases hr with ⟨hr, -⟩ | ⟨r', hr', -, rfl⟩
  · exact ⟨r, hr, rfl, id⟩
  · exact ⟨r', hr', rfl, fun hs => absurd hs nofun⟩

theorem Kept.afterResolve (h : Kept s) (q : InstrumentRequest) (now : Int) :
    Kept (afterResolve q now s) :=
  ⟨{ h.sound.mono (Nat.le_succ _) with }, h.recognises⟩

theorem commit_kept (h : Kept s) (draftId : String) (edited : DraftMetadataUpdate) (now : Int) :
    Kept (commitStagedDraft draftId edited (.quiet now) s).2 := by
  rw [commitStagedDraft, Eff.bind_of_ok (look_apply _ _ _)]
  rcases hfind : s.db.drafts.find? draftId with _ | draft
  · exact h
  · obtain ⟨hdraft, -⟩ := Table.find?_eq_some.mp hfind
    dsimp only
    by_cases hreview : draft.status = .pendingReview
    · have hresolve := onInstruments_resolve
        ⟨edited.instrumentType, edited.issuerName, edited.maskedIdentifier, none⟩ now s
      have hafter := h.afterResolve
        ⟨edited.instrumentType, edited.issuerName, edited.maskedIdentifier, none⟩ now
      rw [if_neg (not_not.mpr hreview)]
      rcases hfor : s.db.instrumentFor _ (uuid s.nextUuid) now with _ | instrumentId
      · rw [hfor] at hresolve
        rw [Eff.bind_of_error hresolve]
        exact hafter
      · rw [hfor] at hresolve
        rw [Eff.bind_of_ok hresolve]
        exact writeCommitted_kept hafter hdraft hreview edited instrumentId now
    · rw [if_pos hreview]
      exact h

/-! ## the operations that can lose a hash -/

/-- The call of the pipeline keeps files recognised. -/
def StagingCall.KeepsFrom (c : StagingCall) (now : Int) (s : Store Desk) : Prop :=
  c.Keeps s.db (c.ending s.db (uuid s.nextUuid) now)

omit [Extern] in
/-- Nothing stands for the file of a row that is discarded, or its hash is to
be found elsewhere. -/
def Desk.Spares (d : Desk) (id : String) : Prop :=
  ∀ row hash, d.unprocessed.find? id = some row → row.source.fileHash = some hash →
    (d.dropUnprocessed id).Represents hash → (d.dropUnprocessed id).Bears hash

/-- When an operation keeps files recognised. -/
def StatementOp.Keeps (now : Int) (s : Store Desk) : StatementOp → Prop
  | .runJob n reading => ∀ job bytes, s.db.queue[n]? = some job →
      s.db.pdfs job.stmtId = some bytes → (job.call bytes reading).KeepsFrom now s
  | .confirmInstrument id issuer masked type reading => ∀ bytes row,
      isBlank issuer = false → isBlank masked = false → s.db.pdfs id = some bytes →
      s.db.unprocessed.find? id = some row →
      (resumedCall bytes row.source (some (confirmedInstrument issuer masked type))
        row.source.passwordBlob (row.source.filename.getD "statement.pdf") id
        reading).KeepsFrom now s
  | .submitPassword id password opens reading => ∀ bytes row, opens = true →
      s.db.pdfs id = some bytes → s.db.unprocessed.find? id = some row →
      (resumedCall bytes row.source none (some password)
        (row.source.filename.getD "statement.pdf") id reading).KeepsFrom now
          { s with db := s.db.markUnlocked id }
  | .retry id stored reading => ∀ password bytes row, stored = some password →
      s.db.pdfs id = some bytes → s.db.unprocessed.find? id = some row →
      (resumedCall bytes row.source none (some password) (row.source.filename.getD "") id
        reading).KeepsFrom now s
  | .discard id => s.db.Spares id
  | _ => True

/-- What there is to show of an operation. -/
structure Exactly (p : Prop) (s : Store Desk) : Prop where
  sound : s.db.Sound s.nextUuid
  recognises_iff : s.db.Recognises ↔ p

theorem Kept.exactly (h : Kept s) {p : Prop} (hp : p) : Exactly p s :=
  ⟨h.sound, iff_of_true h.recognises hp⟩

theorem Exactly.congr {p q : Prop} (h : Exactly p s) (hpq : p ↔ q) : Exactly q s :=
  ⟨h.sound, h.recognises_iff.trans hpq⟩

theorem discard_exactly (h : Kept s) (id : String) (now : Int) :
    Exactly (s.db.Spares id) (statementsDiscard id (.quiet now) s).2 := by
  rw [statementsDiscard]
  rcases hfind : s.db.unprocessed.find? id with _ | row
  · rw [Eff.bind_of_error (readSource_missing hfind _)]
    exact h.exactly fun row _ hrow => absurd (hfind.symm.trans hrow) nofun
  · rw [Eff.bind_of_ok (readSource_apply hfind _)]
    obtain ⟨hrow, hid⟩ := Table.find?_eq_some.mp hfind
    have hrep : ∀ hash, (s.db.dropUnprocessed id).Represents hash → s.db.Represents hash :=
      fun hash ⟨y, bytes, hy, hrest⟩ => ⟨y, bytes, hy.of_dropUnprocessed, hrest⟩
    have hbears : ∀ hash, row.source.fileHash ≠ some hash → s.db.Bears hash →
        (s.db.dropUnprocessed id).Bears hash := by
      rintro hash hne (hold | ⟨r, hr, hhash⟩)
      · exact .inl hold
      · refine .inr ⟨r, Desk.mem_dropUnprocessed.mpr ⟨hr, fun hr' => hne ?_⟩, hhash⟩
        have hsame : r = row := Table.eq_of_key_eq hr hrow (hr'.trans hid.symm)
        rw [← hsame]
        exact hhash
    refine ⟨h.sound.dropUnprocessed, ?_⟩
    rcases hhash : row.source.fileHash with _ | hash
    · refine iff_of_true (h.recognises.mono hrep fun x => hbears x (by simp [hhash])) ?_
      intro row' hash' hfind' hhash'
      rw [hfind, Option.some.injEq] at hfind'
      rw [← hfind', hhash] at hhash'
      exact absurd hhash' nofun
    · have hone : (s.db.dropUnprocessed id).Recognises ↔
          ((s.db.dropUnprocessed id).Represents hash → (s.db.dropUnprocessed id).Bears hash) := by
        refine recognises_iff_of_one h.recognises (fun x _ => hrep x) fun x hne => hbears x ?_
        exact fun hx => hne (Option.some.inj (hhash.symm.trans hx)).symm
      refine hone.trans ?_
      constructor
      · intro hkeep row' hash' hfind' hhash'
        rw [hfind, Option.some.injEq] at hfind'
        rw [← hfind', hhash, Option.some.injEq] at hhash'
        exact hhash' ▸ hkeep
      · exact fun hspares => hspares row hash hfind hhash

/-- The pipeline, called for a row whose PDF is stored. -/
theorem stage_exactly (h : Kept s) (c : StagingCall) (now : Int)
    (hstored : s.db.pdfs c.stmtId = some c.bytes) :
    Exactly (c.KeepsFrom now s) (stageParsePipeline c (.quiet now) s).2 := by
  have hfile := h.sound.pdfs _ _ hstored
  have hleaves := stageParsePipeline_leaves c now hstored fun _ => h.sound.ne_of_mem_unprocessed
  exact ⟨hleaves.sound h.sound hfile, hleaves.recognises h.sound h.recognises hfile⟩

theorem Exactly.deletePdf {p : Prop} (h : Exactly p s) (id : String) (now : Int) :
    Exactly p (deletePdf id (.quiet now) s).2 := by
  refine ⟨{ h.sound with pdfs := fun y bytes hy => ?_ }, h.recognises_iff⟩
  rw [deletePdf_apply] at hy
  dsimp only at hy
  by_cases hne : y = id
  · rw [hne, Function.update_self] at hy
    exact absurd hy nofun
  · rw [Function.update_of_ne hne] at hy
    exact h.sound.pdfs y bytes hy

theorem runJob_exactly (h : Kept s) (n : Nat) (reading : Reading) (now : Int) :
    Exactly ((StatementOp.runJob n reading).Keeps now s)
      (runStatementJob n reading (.quiet now) s).2 := by
  rw [runStatementJob, Eff.bind_of_ok (look_apply _ _ _)]
  rcases hjob : s.db.queue[n]? with _ | job
  · exact h.exactly fun job _ hjob' => absurd (hjob.symm.trans hjob') nofun
  · dsimp only
    let s₁ : Store Desk := { s with db := { s.db with queue := s.db.queue.eraseIdx n } }
    have h₁ : Kept s₁ := ⟨{ h.sound with }, h.recognises⟩
    rw [Eff.bind_of_ok (change_apply _ _ _), Eff.bind_of_ok (Eff.attempt_apply _ _ _)]
    rcases hpdf : s.db.pdfs job.stmtId with _ | bytes
    · have hmissing := readPdf_missing (s := s₁) hpdf (.quiet now)
      rw [Eff.bind_of_error hmissing]
      refine (h₁.exactly ?_).deletePdf job.stmtId now
      intro job' bytes hjob' hpdf'
      rw [hjob, Option.some.injEq] at hjob'
      rw [← hjob', hpdf] at hpdf'
      exact absurd hpdf' nofun
    · have hread := readPdf_apply (s := s₁) hpdf (.quiet now)
      have hstage := stage_exactly h₁ (job.call bytes reading) now hpdf
      have hkeeps : (job.call bytes reading).KeepsFrom now s₁ ↔
          (StatementOp.runJob n reading).Keeps now s := by
        constructor
        · intro hkeep job' bytes' hjob' hpdf'
          rw [hjob, Option.some.injEq] at hjob'
          subst hjob'
          rw [hpdf, Option.some.injEq] at hpdf'
          subst hpdf'
          exact hkeep
        · exact fun hkeep => hkeep job bytes hjob hpdf
      rw [Eff.bind_of_ok hread]
      generalize stageParsePipeline (job.call bytes reading) (.quiet now) s₁ = r at hstage
      refine (?_ : Exactly _ _).congr hkeeps
      obtain ⟨e | o, s₂⟩ := r
      · exact hstage.deletePdf job.stmtId now
      · cases o with
        | staged id => exact hstage
        | blockedAwaitingInstrument id => exact hstage.deletePdf job.stmtId now

/-- The pipeline, resumed for a row that makes way if the file is blocked. -/
theorem resumed_exactly (h : Kept s) (c : StagingCall) (now : Int) {row : UnprocessedStatementRow}
    (hstored : s.db.pdfs c.stmtId = some c.bytes)
    (hfind : s.db.unprocessed.find? c.stmtId = some row)
    (hhash : c.fileHash = row.source.fileHash.getD "") :
    Exactly (c.KeepsFrom now s)
      ((stageParsePipeline c >>= removeBlocked c.stmtId) (.quiet now) s).2 := by
  have hfile := h.sound.pdfs _ _ hstored
  have hstage := stage_exactly h c now hstored
  have hleaves := stageParsePipeline_leaves c now hstored fun _ => h.sound.ne_of_mem_unprocessed
  unfold StagingCall.KeepsFrom at hstage ⊢
  rw [Eff.bind_apply]
  generalize stageParsePipeline c (.quiet now) s = r at hstage hleaves
  generalize c.ending s.db (uuid s.nextUuid) now = e at hstage hleaves
  obtain ⟨answer, s'⟩ := r
  dsimp only at hstage hleaves
  cases hleaves with
  | stopped => exact hstage
  | dropped => exact hstage
  | blocked T hnext hT hdb =>
    have hsource : ∀ r ∈ s.db.unprocessed, r.id = c.stmtId →
        c.fileHash = r.source.fileHash.getD "" := by
      intro r hr hid
      obtain ⟨hrow, hid'⟩ := Table.find?_eq_some.mp hfind
      have hsame : r = row := Table.eq_of_key_eq hr hrow (hid.trans hid'.symm)
      rw [hsame]
      exact hhash
    constructor
    · exact hstage.sound.dropUnprocessed
    · have hrec := c.recognises_removed h.sound h.recognises hfile hT hsource
      rw [← hdb] at hrec
      exact hrec
  | staged => exact hstage

theorem confirmInstrument_exactly (h : Kept s) (id issuer masked : String) (type : Option String)
    (reading : Reading) (now : Int) :
    Exactly ((StatementOp.confirmInstrument id issuer masked type reading).Keeps now s)
      (statementsConfirmInstrument id issuer masked type reading (.quiet now) s).2 := by
  rw [statementsConfirmInstrument]
  by_cases hissuer : isBlank issuer = true
  · rw [if_pos hissuer]
    exact h.exactly fun _ _ hissuer' => absurd (hissuer.symm.trans hissuer') nofun
  · by_cases hmasked : isBlank masked = true
    · rw [if_neg hissuer, if_pos hmasked]
      exact h.exactly fun _ _ _ hmasked' => absurd (hmasked.symm.trans hmasked') nofun
    · rw [if_neg hissuer, if_neg hmasked]
      rcases hpdf : s.db.pdfs id with _ | bytes
      · rw [Eff.bind_of_error (readPdf_missing hpdf _)]
        exact h.exactly fun _ _ _ _ hpdf' => absurd (hpdf.symm.trans hpdf') nofun
      · rw [Eff.bind_of_ok (readPdf_apply hpdf _)]
        rcases hfind : s.db.unprocessed.find? id with _ | row
        · rw [Eff.bind_of_error (readSource_missing hfind _)]
          exact h.exactly fun _ _ _ _ _ hfind' => absurd (hfind.symm.trans hfind') nofun
        · rw [Eff.bind_of_ok (readSource_apply hfind _)]
          refine (stage_exactly h (resumedCall bytes row.source
            (some (confirmedInstrument issuer masked type)) row.source.passwordBlob
            (row.source.filename.getD "statement.pdf") id reading) now hpdf).congr ⟨?_, ?_⟩
          · intro hkeep bytes' row' _ _ hpdf' hfind'
            rw [hpdf, Option.some.injEq] at hpdf'
            rw [hfind, Option.some.injEq] at hfind'
            subst hpdf' hfind'
            exact hkeep
          · exact fun hkeep => hkeep bytes row (Bool.eq_false_iff.mpr hissuer)
              (Bool.eq_false_iff.mpr hmasked) hpdf hfind

theorem submitPassword_exactly (h : Kept s) (id password : String) (opens : Bool)
    (reading : Reading) (now : Int) :
    Exactly ((StatementOp.submitPassword id password opens reading).Keeps now s)
      (statementsSubmitPassword id password opens reading (.quiet now) s).2 := by
  rw [statementsSubmitPassword]
  rcases hpdf : s.db.pdfs id with _ | bytes
  · rw [Eff.bind_of_error (readPdf_missing hpdf _)]
    exact h.exactly fun _ _ _ hpdf' => absurd (hpdf.symm.trans hpdf') nofun
  · rw [Eff.bind_of_ok (readPdf_apply hpdf _)]
    cases opens with
    | false =>
      refine Kept.exactly (h.modify_unprocessed id (fun _ => rfl) fun _ hs => hs) ?_
      exact fun _ _ hopens => absurd hopens nofun
    | true =>
      have h₁ : Kept { s with db := s.db.markUnlocked id } :=
        h.modify_unprocessed id (fun _ => rfl) fun _ hs => absurd hs nofun
      rw [if_pos rfl, Eff.bind_of_ok (change_apply _ _ _)]
      rcases hfind : s.db.unprocessed.find? id with _ | row
      · have hmarked : (s.db.markUnlocked id).unprocessed.find? id = none := by
          rw [Desk.markUnlocked, Table.find?_modify, hfind, if_pos rfl]
          rfl
        have hread := readSource_missing (s := { s with db := s.db.markUnlocked id }) hmarked
          (.quiet now)
        rw [Eff.bind_of_error hread]
        exact h₁.exactly fun _ _ _ _ hfind' => absurd (hfind.symm.trans hfind') nofun
      · have hmarked : (s.db.markUnlocked id).unprocessed.find? id =
            some { row with status := .resolved } := by
          rw [Desk.markUnlocked, Table.find?_modify, hfind, if_pos rfl]
          rfl
        have hread := readSource_apply (s := { s with db := s.db.markUnlocked id }) hmarked
          (.quiet now)
        rw [Eff.bind_of_ok hread]
        refine (resumed_exactly h₁ (resumedCall bytes row.source none (some password)
          (row.source.filename.getD "statement.pdf") id reading) now hpdf hmarked rfl).congr
          ⟨?_, ?_⟩
        · intro hkeep bytes' row' _ hpdf' hfind'
          rw [hpdf, Option.some.injEq] at hpdf'
          rw [hfind, Option.some.injEq] at hfind'
          subst hpdf' hfind'
          exact hkeep
        · exact fun hkeep => hkeep bytes row rfl hpdf hfind

theorem retry_exactly (h : Kept s) (id : String) (stored : Option String) (reading : Reading)
    (now : Int) : Exactly ((StatementOp.retry id stored reading).Keeps now s)
      (retryOneUnprocessed id stored reading (.quiet now) s).2 := by
  rw [retryOneUnprocessed]
  rcases hfind : s.db.unprocessed.find? id with _ | row
  · rw [Eff.bind_of_error (readSource_missing hfind _)]
    exact h.exactly fun _ _ _ _ _ hfind' => absurd (hfind.symm.trans hfind') nofun
  · rw [Eff.bind_of_ok (readSource_apply hfind _), Eff.bind_of_ok (look_apply _ _ _)]
    rcases hpdf : s.db.pdfs id with _ | bytes
    · exact h.exactly fun _ _ _ _ hpdf' => absurd (hpdf.symm.trans hpdf') nofun
    · dsimp only
      rcases stored with _ | password
      · exact h.exactly fun _ _ _ hstored => absurd hstored nofun
      · refine (resumed_exactly h (resumedCall bytes row.source none (some password)
          (row.source.filename.getD "") id reading) now hpdf hfind rfl).congr ⟨?_, ?_⟩
        · intro hkeep password' bytes' row' hpassword hpdf' hfind'
          rw [hpdf, Option.some.injEq] at hpdf'
          rw [hfind, Option.some.injEq] at hfind'
          rw [Option.some.injEq] at hpassword
          subst hpdf' hfind' hpassword
          exact hkeep
        · exact fun hkeep => hkeep password bytes row rfl hpdf hfind

/-! ## runs -/

omit [Documents] [Extern] in
/-- The answer of a command is not looked at. -/
theorem discardAnswer_store (x : DeskProg α) (ctx : Ctx Empty) :
    ((do let _ ← x : DeskProg Unit) ctx s).2 = (x ctx s).2 := by
  rw [Eff.bind_apply]
  rcases x ctx s with ⟨e | a, s'⟩
  · rfl
  · rfl

theorem StatementOp.run_exactly (h : Kept s) (op : StatementOp) (now : Int) :
    Exactly (op.Keeps now s) (op.run now s) := by
  cases op with
  | upload bytes filename today resolution =>
    exact (upload_kept h bytes filename today resolution now).exactly trivial
  | scan bytes filename msgId today resolution =>
    exact (scan_kept h bytes filename msgId today resolution now).exactly trivial
  | runJob n reading => exact runJob_exactly h n reading now
  | confirmInstrument id issuer masked type reading =>
    rw [StatementOp.run, StatementOp.prog, discardAnswer_store]
    exact confirmInstrument_exactly h id issuer masked type reading now
  | submitPassword id password opens reading =>
    exact submitPassword_exactly h id password opens reading now
  | retry id stored reading => exact retry_exactly h id stored reading now
  | discard id => exact discard_exactly h id now
  | commitDraft draftId edited =>
    rw [StatementOp.run, StatementOp.prog, discardAnswer_store]
    exact (commit_kept h draftId edited now).exactly trivial
  | discardDraft draftId => exact (discardDraft_kept h draftId now).exactly trivial
  | sweepDrafts cutoff => exact (sweepDrafts_kept h cutoff now).exactly trivial

/-- From a desk that recognises its files: every step counts. -/
theorem recognises_prefixes_iff (h : Kept s) (ops : List (Int × StatementOp)) :
    (∀ pre, pre <+: ops → (runStatements s pre).db.Recognises) ↔
      ∀ pre now op, pre ++ [(now, op)] <+: ops → op.Keeps now (runStatements s pre) := by
  have hall := Runs.prefixes_iff (f := fun s (op : Int × StatementOp) => op.2.run op.1 s)
    (I := fun s => s.db.Sound s.nextUuid) (P := fun s => s.db.Recognises)
    (G := fun s op => op.2.Keeps op.1 s) (fun s op hsound hrec => by
      have hop := op.2.run_exactly ⟨hsound, hrec⟩ op.1
      exact ⟨hop.sound, hop.recognises_iff⟩) h.sound h.recognises ops
  simp only [Prod.forall] at hall
  exact hall

theorem kept_start (instruments : Instruments) (n : Nat) (skip : Option Nat) :
    Kept ⟨.start instruments, n, skip⟩ where
  sound := {
    fresh := fun _ _ => rfl
    statements := fun r hr => absurd hr (Table.not_mem_empty r)
    unprocessed := fun r hr => absurd hr (Table.not_mem_empty r)
    drafts := fun r hr => absurd hr (Table.not_mem_empty r)
    pdfs := fun _ _ h => absurd h nofun }
  recognises := by
    rintro hash ⟨y, bytes, -, hfile, -⟩
    exact absurd hfile nofun

/-- **File hashes.**  In a run of statement operations every represented file
is recognised in every state, exactly if every operation of the run keeps the
hash it is about where the check looks. -/
theorem fileHash_run (instruments : Instruments) (n : Nat) (skip : Option Nat)
    (ops : List (Int × StatementOp)) :
    (∀ pre, pre <+: ops →
      (runStatements ⟨.start instruments, n, skip⟩ pre).db.Recognises) ↔
    ∀ pre now op, pre ++ [(now, op)] <+: ops →
      op.Keeps now (runStatements ⟨.start instruments, n, skip⟩ pre) :=
  recognises_prefixes_iff (kept_start instruments n skip) ops

end Files

/-! ## a statement imported twice -/

/-- `%PDF-1.4` -/
def smallPdf : Bytes := [37, 80, 68, 70, 45, 49, 46, 52]

def smallPdfHash : String :=
  "e16fa5d9b51928755db85b917f0297babaf22c7a47e97d9212adab56e61ba04e"

/-- One file with its SHA-256, and a filename without a period. -/
@[reducible] def Documents.small : Documents where
  sha256 bytes := if bytes = smallPdf then smallPdfHash else ""
  extractBillingPeriodFromFilename _ := none

/-- The parser finds a card and no rows. -/
def smallReading : Reading where
  pages := .ok 1
  metadata := .ok ⟨none, none, none, none, none, some "HDFC", some "1234", none, none, none⟩
  rowsJson := .ok "[]"

/-- Upload, parse, commit. -/
def uploadParseCommit : List (Int × StatementOp) := [
  (1, .upload smallPdf "statement.pdf" "2026-01-01" (.proceed none)),
  (2, .runJob 0 smallReading),
  (3, .commitDraft "-" ⟨"HDFC", "1234", "credit_card", none, none, none, none, none, none⟩)]

/-- A draft in review, then a committed statement, and neither is recognised:
the queued row is gone with its hash, and the commit writes the hash into the
column for the message id. -/
theorem fileHash_lost :
    letI := Extern.ascii
    letI := Documents.small
    let draft := runStatements ⟨.start .empty, 0, none⟩ (uploadParseCommit.take 2)
    let statement := runStatements ⟨.start .empty, 0, none⟩ uploadParseCommit
    (draft.db.Represents smallPdfHash ∧
      checkFileHashDuplicate smallPdfHash draft.db = .noDuplicate) ∧
    statement.db.Represents smallPdfHash ∧
      checkFileHashDuplicate smallPdfHash statement.db = .noDuplicate ∧
      statement.db.statements.rows.map (fun r => (r.sourceMessageId, r.fileHash)) =
        [(some smallPdfHash, none)] := by
  let := Extern.ascii
  let := Documents.small
  intro draft statement
  have hdraft : (∃ r ∈ draft.db.drafts.rows, r.id = "-" ∧ r.status = .pendingReview) ∧
      draft.db.file "-" = some smallPdf ∧
        checkFileHashDuplicate smallPdfHash draft.db = .noDuplicate := by
    decide +kernel
  have hstatement : (∃ r ∈ statement.db.statements.rows,
      r.id = "uuu-" ∧ r.parseStatus = .parsed) ∧
      statement.db.file "uuu-" = some smallPdf ∧
        checkFileHashDuplicate smallPdfHash statement.db = .noDuplicate ∧
          statement.db.statements.rows.map (fun r => (r.sourceMessageId, r.fileHash)) =
            [(some smallPdfHash, none)] := by
    decide +kernel
  exact ⟨⟨⟨"-", smallPdf, .inl hdraft.1, hdraft.2.1, rfl⟩, hdraft.2.2⟩,
    ⟨"uuu-", smallPdf, .inr (.inr hstatement.1), hstatement.2.1, rfl⟩, hstatement.2.2⟩

end Dinero
