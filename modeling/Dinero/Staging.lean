import Dinero.Statements

/-!
# Dinero.Staging

The hash check and the staging pipeline.

`check_file_hash_duplicate` looks for the hash in queued statements and in the
rows of `unprocessed_statements`; a draft's hash, and that of a committed
statement, are in columns it does not look at.  A step concerns the hash of one
file at most, so a desk that recognises its files goes on doing so exactly if
the step leaves that one hash somewhere the check looks
(`recognises_iff_of_one`).
-/

namespace Dinero

open Sql

/-! ## what bears a hash, what stands for a file -/

/-- The hash is where the check looks. -/
def Desk.Bears (d : Desk) (hash : String) : Prop :=
  (∃ r ∈ d.statements, r.fileHash = some hash) ∨
    ∃ r ∈ d.unprocessed, r.source.fileHash = some hash

theorem checkFileHashDuplicate_iff {d : Desk} {hash : String} :
    checkFileHashDuplicate hash d = .duplicateFileHash ↔ d.Bears hash := by
  have hstatements : (0 < d.statements.rows.countP fun r => r.fileHash = some hash) ↔
      ∃ r ∈ d.statements, r.fileHash = some hash := by
    simp [List.countP_pos_iff, Table.mem_def]
  have hunprocessed : (0 < d.unprocessed.rows.countP fun r => r.source.fileHash = some hash) ↔
      ∃ r ∈ d.unprocessed, r.source.fileHash = some hash := by
    simp [List.countP_pos_iff, Table.mem_def]
  unfold checkFileHashDuplicate Desk.Bears
  rw [← hstatements, ← hunprocessed]
  split
  · next h => exact iff_of_true rfl (.inl h)
  · next h =>
      split
      · next h' => exact iff_of_true rfl (.inr h')
      · next h' => exact iff_of_false nofun (not_or.mpr ⟨h, h'⟩)

/-- The row `id` stands for its file: a draft in review, a statement waiting
for its instrument, or a committed statement. -/
def Desk.StandsFor (d : Desk) (id : String) : Prop :=
  (∃ r ∈ d.drafts, r.id = id ∧ r.status = .pendingReview) ∨
    (∃ r ∈ d.unprocessed, r.id = id ∧ r.status = .awaitingInstrumentConfirmation) ∨
      ∃ r ∈ d.statements, r.id = id ∧ r.parseStatus = .parsed

section Files

variable [Documents]

/-- A file with this hash is represented. -/
def Desk.Represents (d : Desk) (hash : String) : Prop :=
  ∃ id bytes, d.StandsFor id ∧ d.file id = some bytes ∧ sha256 bytes = hash

/-- Every file that is represented is recognised. -/
def Desk.Recognises (d : Desk) : Prop :=
  ∀ hash, d.Represents hash → checkFileHashDuplicate hash d = .duplicateFileHash

theorem Desk.recognises_iff {d : Desk} :
    d.Recognises ↔ ∀ hash, d.Represents hash → d.Bears hash := by
  simp only [Recognises, checkFileHashDuplicate_iff]

/-- A change that concerns one hash only. -/
theorem recognises_iff_of_one {d d' : Desk} {hash : String} (hd : d.Recognises)
    (hrep : ∀ h, h ≠ hash → d'.Represents h → d.Represents h)
    (hbears : ∀ h, h ≠ hash → d.Bears h → d'.Bears h) :
    d'.Recognises ↔ (d'.Represents hash → d'.Bears hash) := by
  rw [Desk.recognises_iff] at hd ⊢
  constructor
  · exact fun h => h hash
  · intro h h₁ hrep₁
    by_cases hne : h₁ = hash
    · subst hne
      exact h hrep₁
    · exact hbears h₁ hne (hd h₁ (hrep h₁ hne hrep₁))

/-- A change that concerns none. -/
theorem Desk.Recognises.mono {d d' : Desk} (hd : d.Recognises)
    (hrep : ∀ h, d'.Represents h → d.Represents h) (hbears : ∀ h, d.Bears h → d'.Bears h) :
    d'.Recognises := by
  rw [Desk.recognises_iff] at hd ⊢
  exact fun h hr => hbears h (hd h (hrep h hr))

/-! ## which ids are taken -/

variable [Extern]

/-- Rows have files, rows' hashes are their files' hashes, stored PDFs are the
files, and ids to come are not taken. -/
structure Desk.Sound (d : Desk) (n : Nat) : Prop where
  fresh : ∀ k, n ≤ k → d.file (uuid k) = none
  statements : ∀ r ∈ d.statements, ∃ bytes, d.file r.id = some bytes ∧
    ∀ hash, r.fileHash = some hash → sha256 bytes = hash
  unprocessed : ∀ r ∈ d.unprocessed, ∃ bytes, d.file r.id = some bytes
  drafts : ∀ r ∈ d.drafts, ∃ bytes, d.file r.id = some bytes
  pdfs : ∀ id bytes, d.pdfs id = some bytes → d.file id = some bytes

namespace Desk.Sound

variable {d : Desk} {n n' : Nat}

theorem mono (h : d.Sound n) (hn : n ≤ n') : d.Sound n' :=
  { h with fresh := fun k hk => h.fresh k (by omega) }

/-- A new id names no row. -/
theorem ne_of_mem_unprocessed (h : d.Sound n) {r : UnprocessedStatementRow}
    (hr : r ∈ d.unprocessed) : r.id ≠ uuid n := by
  intro heq
  obtain ⟨bytes, hfile⟩ := h.unprocessed r hr
  rw [heq, h.fresh n le_rfl] at hfile
  exact absurd hfile nofun

theorem ne_of_mem_statements (h : d.Sound n) {r : StatementsRow} (hr : r ∈ d.statements) :
    r.id ≠ uuid n := by
  intro heq
  obtain ⟨bytes, hfile, -⟩ := h.statements r hr
  rw [heq, h.fresh n le_rfl] at hfile
  exact absurd hfile nofun

theorem ne_of_mem_drafts (h : d.Sound n) {r : StatementDraftRow} (hr : r ∈ d.drafts) :
    r.id ≠ uuid n := by
  intro heq
  obtain ⟨bytes, hfile⟩ := h.drafts r hr
  rw [heq, h.fresh n le_rfl] at hfile
  exact absurd hfile nofun

end Desk.Sound

/-! ## how the pipeline ends -/

/-- Before the queued row is touched; with the queued row removed and nothing
put in its place; at the gate; with a draft. -/
inductive StagingEnd
  | stopped | dropped | blocked | staged
deriving DecidableEq, Repr

omit [Documents] in
/-- The instrument the import would resolve the request to. -/
def Desk.instrumentFor (d : Desk) (q : InstrumentRequest) (newId : String) (now : Int) :
    Option String :=
  (d.instruments.insertOrIgnore
    (ingestedInstrument (q.type, q.issuerName, q.maskedIdentifier) q.network newId now)).findAny
      (q.type, q.issuerName, q.maskedIdentifier)

omit [Documents] in
/-- Where the second half of the pipeline will end. -/
def StagingCall.draftEnding (c : StagingCall) (m : StatementMetadata) (q : InstrumentRequest)
    (d : Desk) (newId : String) (now : Int) : StagingEnd :=
  match d.instrumentFor q newId now with
  | none => .stopped
  | some instrumentId =>
    match m.takenCycle instrumentId d, c.reading.rowsJson with
    | some _, _ => .dropped
    | none, .error _ => .stopped
    | none, .ok _ => if d.drafts.contains c.stmtId then .dropped else .staged

omit [Documents] in
/-- Where the pipeline will end, by what it reads and finds. -/
def StagingCall.ending (c : StagingCall) (d : Desk) (newId : String) (now : Int) : StagingEnd :=
  match c.reading.pages, c.reading.metadata with
  | .ok (_ + 1), .ok m =>
    match c.instrument m with
    | none => .blocked
    | some q => c.draftEnding m q d newId now
  | _, _ => .stopped

omit [Documents] in
/-- The desk a blocked file leaves. -/
def StagingCall.blockedDesk (c : StagingCall) (s : Store Desk)
    (T : Table UnprocessedStatementRow) : Desk :=
  { s.db.dropQueued c.stmtId with
    unprocessed := T
    file := Function.update s.db.file (uuid s.nextUuid) (some c.bytes)
    pdfs := Function.update s.db.pdfs (uuid s.nextUuid) (some c.bytes) }

omit [Documents] [Extern] in
/-- The desk a staged file leaves. -/
def StagingCall.stagedDesk (c : StagingCall) (d : Desk) (T : Table StatementDraftRow) : Desk :=
  { d.dropQueued c.stmtId with drafts := T }

/-- What the pipeline leaves, the instruments apart. -/
inductive StagingCall.Leaves (c : StagingCall) (s s' : Store Desk) :
    StagingEnd → Except SqlError PipelineOutcome → Prop
  | stopped (e : SqlError) (hnext : s.nextUuid ≤ s'.nextUuid)
      (hdb : { s'.db with instruments := s.db.instruments } = s.db) :
      Leaves c s s' .stopped (.error e)
  | dropped (e : SqlError) (hnext : s.nextUuid ≤ s'.nextUuid)
      (hdb : { s'.db with instruments := s.db.instruments } = s.db.dropQueued c.stmtId) :
      Leaves c s s' .dropped (.error e)
  | blocked (T : Table UnprocessedStatementRow) (hnext : s'.nextUuid = s.nextUuid + 1)
      (hT : s.db.unprocessed.insert?
        (awaitingInstrumentRow (uuid s.nextUuid) c.fileHash c.filename c.password) = some T)
      (hdb : s'.db = c.blockedDesk s T) :
      Leaves c s s' .blocked (.ok (.blockedAwaitingInstrument (uuid s.nextUuid)))
  | staged (r : StatementDraftRow) (T : Table StatementDraftRow)
      (hnext : s.nextUuid ≤ s'.nextUuid) (hid : r.id = c.stmtId)
      (hstatus : r.status = .pendingReview) (hT : s.db.drafts.insert? r = some T)
      (hdb : { s'.db with instruments := s.db.instruments } = c.stagedDesk s.db T) :
      Leaves c s s' .staged (.ok (.staged c.stmtId))

omit [Documents] in
theorem blockAtGate_leaves (c : StagingCall) (now : Int) {s : Store Desk}
    (hfresh : ∀ r ∈ s.db.unprocessed, r.id ≠ uuid s.nextUuid) :
    c.Leaves s (blockAtGate c (.quiet now) s).2 .blocked (blockAtGate c (.quiet now) s).1 := by
  obtain ⟨T, hT⟩ : ∃ T, s.db.unprocessed.insert?
      (awaitingInstrumentRow (uuid s.nextUuid) c.fileHash c.filename c.password) = some T := by
    rw [← Option.ne_none_iff_exists']
    intro hnone
    obtain ⟨r, hr, hid⟩ := Table.insert?_eq_none.mp hnone
    exact hfresh r hr hid
  have hcreate : createAwaitingInstrumentRow (uuid s.nextUuid) c.fileHash c.filename c.password
      (.quiet now) ⟨s.db.dropQueued c.stmtId, s.nextUuid + 1, s.skip⟩ =
        (.ok (), ⟨{ s.db.dropQueued c.stmtId with unprocessed := T }, s.nextUuid + 1, s.skip⟩) :=
    insertUnprocessed_apply (s := ⟨s.db.dropQueued c.stmtId, s.nextUuid + 1, s.skip⟩) hT _
  rw [blockAtGate, Eff.bind_of_ok (deleteOrphanedQueuedRow_apply _ _ _),
    Eff.bind_of_ok (newUuid_apply _ _ _), Eff.bind_of_ok hcreate,
    Eff.bind_of_ok (noteFile_apply _ _ _ _), Eff.bind_of_ok (storePdf_apply _ _ _ _)]
  exact .blocked T rfl hT rfl

omit [Documents] in
/-- The desk after the import has resolved the request. -/
def afterResolve (q : InstrumentRequest) (now : Int) (s : Store Desk) : Store Desk :=
  ⟨{ s.db with
      instruments := s.db.instruments.insertOrIgnore (ingestedInstrument
        (q.type, q.issuerName, q.maskedIdentifier) q.network (uuid s.nextUuid) now) },
    s.nextUuid + 1, s.skip⟩

omit [Documents] in
theorem onInstruments_resolve (q : InstrumentRequest) (now : Int) (s : Store Desk) :
    onInstruments (resolveOrCreateInstrument q) (.quiet now) s =
      ((s.db.instrumentFor q (uuid s.nextUuid) now).elim (.error .queryReturnedNoRows) .ok,
        afterResolve q now s) := by
  rw [onInstruments, zoom, resolveOrCreateInstrument_quiet]
  have hfor : (afterIngest (q.type, q.issuerName, q.maskedIdentifier) q.network now
      ⟨s.db.instruments, s.nextUuid, s.skip⟩).db.findAny
        (q.type, q.issuerName, q.maskedIdentifier) =
          s.db.instrumentFor q (uuid s.nextUuid) now := rfl
  rw [hfor]
  rcases s.db.instrumentFor q (uuid s.nextUuid) now with _ | id
  · rfl
  · rfl

omit [Documents] in
theorem stageDraft_leaves (c : StagingCall) (m : StatementMetadata) (q : InstrumentRequest)
    (now : Int) (s : Store Desk) : c.Leaves s (stageDraft c m q (.quiet now) s).2
      (c.draftEnding m q s.db (uuid s.nextUuid) now) (stageDraft c m q (.quiet now) s).1 := by
  have hnext : s.nextUuid ≤ (afterResolve q now s).nextUuid := Nat.le_succ _
  have hresolve := onInstruments_resolve q now s
  rw [stageDraft, StagingCall.draftEnding]
  rcases hfor : s.db.instrumentFor q (uuid s.nextUuid) now with _ | instrumentId
  · rw [hfor] at hresolve
    rw [Eff.bind_of_error hresolve]
    exact .stopped _ hnext rfl
  · rw [hfor] at hresolve
    rw [Eff.bind_of_ok hresolve, Eff.bind_of_ok (look_apply _ _ _)]
    have hcycle : m.takenCycle instrumentId (afterResolve q now s).db =
        m.takenCycle instrumentId s.db := rfl
    rw [hcycle]
    dsimp only
    rcases m.takenCycle instrumentId s.db with _ | ⟨start, stop⟩
    · rcases c.reading.rowsJson with e | rowsJson
      · exact .stopped _ hnext rfl
      · dsimp only
        rw [Eff.bind_of_ok (orFail_ok _ _ _), Eff.bind_of_ok (deleteOrphanedQueuedRow_apply _ _ _)]
        let s₂ : Store Desk := 
          ⟨(afterResolve q now s).db.dropQueued c.stmtId, (afterResolve q now s).nextUuid,
            (afterResolve q now s).skip⟩
        by_cases htaken : s.db.drafts.contains c.stmtId = true
        · rw [if_pos htaken]
          have hnone : s.db.drafts.insert?
              { c.draft m q instrumentId rowsJson with updatedAt := now } = none :=
            Table.insert?_eq_none.mpr (Table.contains_iff.mp htaken)
          rw [Eff.bind_of_error (insertDraft_refused (s := s₂) hnone)]
          exact .dropped _ hnext rfl
        · rw [if_neg htaken]
          obtain ⟨T, hT⟩ : ∃ T, s.db.drafts.insert?
              { c.draft m q instrumentId rowsJson with updatedAt := now } = some T := by
            rw [← Option.ne_none_iff_exists']
            exact fun hnone => htaken (Table.contains_iff.mpr (Table.insert?_eq_none.mp hnone))
          rw [Eff.bind_of_ok (insertDraft_apply (s := s₂) hT)]
          exact .staged _ T hnext rfl rfl hT rfl
    · exact .dropped _ hnext rfl

omit [Documents] in
/-- The pipeline ends where `ending` says and leaves what `Leaves` says. -/
theorem stageParsePipeline_leaves (c : StagingCall) (now : Int) {s : Store Desk}
    (hstored : s.db.pdfs c.stmtId = some c.bytes)
    (hfresh : ∀ r ∈ s.db.unprocessed, r.id ≠ uuid s.nextUuid) :
    c.Leaves s (stageParsePipeline c (.quiet now) s).2 (c.ending s.db (uuid s.nextUuid) now)
      (stageParsePipeline c (.quiet now) s).1 := by
  rw [stageParsePipeline, StagingCall.ending, Eff.bind_of_ok (storePdf_again hstored _)]
  rcases c.reading.pages with e | pages
  · exact .stopped _ le_rfl rfl
  · rw [Eff.bind_of_ok (orFail_ok _ _ _)]
    rcases pages with _ | pages
    · exact .stopped _ le_rfl rfl
    · rw [if_neg (Nat.succ_ne_zero pages)]
      rcases c.reading.metadata with e | m
      · exact .stopped _ le_rfl rfl
      · rw [Eff.bind_of_ok (orFail_ok _ _ _)]
        dsimp only
        rcases c.instrument m with _ | q
        · exact blockAtGate_leaves c now hfresh
        · exact stageDraft_leaves c m q now s

/-! ## single changes -/

section Changes

variable {d : Desk} {n : Nat} {id : String} {bytes : Bytes}

omit [Documents] [Extern] in
theorem Desk.mem_dropQueued {r : StatementsRow} : r ∈ (d.dropQueued id).statements ↔
    r ∈ d.statements ∧ ¬(r.id = id ∧ r.parseStatus = .queued) := by
  simp [dropQueued, imp_iff_not_or]

omit [Documents] [Extern] in
theorem Desk.mem_dropUnprocessed {r : UnprocessedStatementRow} :
    r ∈ (d.dropUnprocessed id).unprocessed ↔ r ∈ d.unprocessed ∧ r.id ≠ id := by
  simp [dropUnprocessed]

omit [Documents] [Extern] in
theorem Desk.Bears.of_dropQueued {hash : String} (h : (d.dropQueued id).Bears hash) :
    d.Bears hash := by
  rcases h with ⟨r, hr, hhash⟩ | h
  · exact .inl ⟨r, (mem_dropQueued.mp hr).1, hhash⟩
  · exact .inr h

/-- Only the file of the queued row can lose its hash with it. -/
theorem Desk.Bears.dropQueued {hash : String} (h : d.Bears hash) (hd : d.Sound n)
    (hfile : d.file id = some bytes) (hne : hash ≠ sha256 bytes) :
    (d.dropQueued id).Bears hash := by
  rcases h with ⟨r, hr, hhash⟩ | h
  · refine .inl ⟨r, mem_dropQueued.mpr ⟨hr, ?_⟩, hhash⟩
    rintro ⟨hid, -⟩
    obtain ⟨bytes', hfile', hsha⟩ := hd.statements r hr
    rw [hid, hfile, Option.some.injEq] at hfile'
    exact hne (hfile' ▸ (hsha hash hhash).symm)
  · exact .inr h

omit [Documents] [Extern] in
/-- A queued row does not stand for its file. -/
theorem Desk.standsFor_dropQueued {x : String} :
    (d.dropQueued id).StandsFor x ↔ d.StandsFor x := by
  have hparsed : (∃ r ∈ (d.dropQueued id).statements, r.id = x ∧ r.parseStatus = .parsed) ↔
      ∃ r ∈ d.statements, r.id = x ∧ r.parseStatus = .parsed := by
    constructor
    · rintro ⟨r, hr, h⟩
      exact ⟨r, (mem_dropQueued.mp hr).1, h⟩
    · rintro ⟨r, hr, hid, hstatus⟩
      refine ⟨r, mem_dropQueued.mpr ⟨hr, fun h => ?_⟩, hid, hstatus⟩
      rw [hstatus] at h
      exact absurd h.2 nofun
  exact or_congr_right (or_congr_right hparsed)

omit [Extern] in
theorem Desk.represents_dropQueued {hash : String} :
    (d.dropQueued id).Represents hash ↔ d.Represents hash := by
  simp only [Represents, standsFor_dropQueued]
  rfl

omit [Documents] [Extern] in
theorem Desk.Bears.of_dropUnprocessed {hash : String} (h : (d.dropUnprocessed id).Bears hash) :
    d.Bears hash := by
  rcases h with h | ⟨r, hr, hhash⟩
  · exact .inl h
  · exact .inr ⟨r, (mem_dropUnprocessed.mp hr).1, hhash⟩

omit [Documents] [Extern] in
theorem Desk.StandsFor.of_dropUnprocessed {x : String} (h : (d.dropUnprocessed id).StandsFor x) :
    d.StandsFor x := by
  rcases h with h | ⟨r, hr, h⟩ | h
  · exact .inl h
  · exact .inr (.inl ⟨r, (mem_dropUnprocessed.mp hr).1, h⟩)
  · exact .inr (.inr h)

namespace Desk.Sound

theorem dropQueued (hd : d.Sound n) : (d.dropQueued id).Sound n :=
  { hd with statements := fun r hr => hd.statements r (mem_dropQueued.mp hr).1 }

theorem dropUnprocessed (hd : d.Sound n) : (d.dropUnprocessed id).Sound n :=
  { hd with unprocessed := fun r hr => hd.unprocessed r (mem_dropUnprocessed.mp hr).1 }

/-- The id just drawn is given out for a file, and its PDF stored. -/
theorem noteFile (hd : d.Sound n) (bytes : Bytes) : Desk.Sound { d with
    file := Function.update d.file (uuid n) (some bytes)
    pdfs := Function.update d.pdfs (uuid n) (some bytes) } (n + 1) where
  fresh k hk := by
    have hne : uuid k ≠ uuid n := fun h => by
      have := Extern.uuid_injective h
      omega
    dsimp only
    rw [Function.update_of_ne hne]
    exact hd.fresh k (by omega)
  statements r hr := by
    dsimp only
    rw [Function.update_of_ne (hd.ne_of_mem_statements hr)]
    exact hd.statements r hr
  unprocessed r hr := by
    dsimp only
    rw [Function.update_of_ne (hd.ne_of_mem_unprocessed hr)]
    exact hd.unprocessed r hr
  drafts r hr := by
    dsimp only
    rw [Function.update_of_ne (hd.ne_of_mem_drafts hr)]
    exact hd.drafts r hr
  pdfs x b h := by
    by_cases hx : x = uuid n
    · subst hx
      simpa using h
    · dsimp only at h ⊢
      rw [Function.update_of_ne hx] at h ⊢
      exact hd.pdfs x b h

theorem insertStatement (hd : d.Sound n) {r : StatementsRow} {T : Table StatementsRow}
    (hT : d.statements.insert? r = some T) (hfile : d.file r.id = some bytes)
    (hhash : ∀ hash, r.fileHash = some hash → sha256 bytes = hash) :
    Desk.Sound { d with statements := T } n :=
  { hd with
    statements := fun x hx => by
      rcases (Table.mem_of_insert? hT).mp hx with hx | rfl
      · exact hd.statements x hx
      · exact ⟨bytes, hfile, hhash⟩ }

theorem insertUnprocessed (hd : d.Sound n) {r : UnprocessedStatementRow}
    {T : Table UnprocessedStatementRow} (hT : d.unprocessed.insert? r = some T)
    (hfile : d.file r.id = some bytes) : Desk.Sound { d with unprocessed := T } n :=
  { hd with
    unprocessed := fun x hx => by
      rcases (Table.mem_of_insert? hT).mp hx with hx | rfl
      · exact hd.unprocessed x hx
      · exact ⟨bytes, hfile⟩ }

theorem insertDraft (hd : d.Sound n) {r : StatementDraftRow} {T : Table StatementDraftRow}
    (hT : d.drafts.insert? r = some T) (hfile : d.file r.id = some bytes) :
    Desk.Sound { d with drafts := T } n :=
  { hd with
    drafts := fun x hx => by
      rcases (Table.mem_of_insert? hT).mp hx with hx | rfl
      · exact hd.drafts x hx
      · exact ⟨bytes, hfile⟩ }

end Desk.Sound

end Changes

/-! ## what the pipeline does to the hashes -/

omit [Extern] in
/-- The hash check and the rows that stand for files do not read the
instruments. -/
theorem recognises_congr {d d' : Desk} {T : Instruments}
    (h : { d with instruments := T } = d') : d.Recognises ↔ d'.Recognises := by
  subst h
  exact Iff.rfl

theorem Desk.Sound.congr {d d' : Desk} {T : Instruments} {n : Nat}
    (h : { d with instruments := T } = d') (hd : d'.Sound n) : d.Sound n := by
  subst h
  exact { hd with }

/-- When an end of the pipeline keeps files recognised.  The queued row the
call came from does not count: it is gone when the draft is there. -/
def StagingCall.Keeps (c : StagingCall) (d : Desk) : StagingEnd → Prop
  | .stopped => True
  | .dropped => d.Represents (sha256 c.bytes) → (d.dropQueued c.stmtId).Bears (sha256 c.bytes)
  | .blocked =>
    c.fileHash = sha256 c.bytes ∨ (d.dropQueued c.stmtId).Bears (sha256 c.bytes)
  | .staged => (d.dropQueued c.stmtId).Bears (sha256 c.bytes)

section Blocked

variable {c : StagingCall} {s : Store Desk} {T : Table UnprocessedStatementRow}

omit [Documents] in
theorem StagingCall.mem_blockedDesk {r : UnprocessedStatementRow}
    (hT : s.db.unprocessed.insert?
      (awaitingInstrumentRow (uuid s.nextUuid) c.fileHash c.filename c.password) = some T) :
    r ∈ (c.blockedDesk s T).unprocessed ↔ r ∈ s.db.unprocessed ∨
      r = awaitingInstrumentRow (uuid s.nextUuid) c.fileHash c.filename c.password :=
  Table.mem_of_insert? hT

omit [Documents] in
theorem StagingCall.bears_blockedDesk {hash : String}
    (hT : s.db.unprocessed.insert?
      (awaitingInstrumentRow (uuid s.nextUuid) c.fileHash c.filename c.password) = some T) :
    (c.blockedDesk s T).Bears hash ↔
      c.fileHash = hash ∨ (s.db.dropQueued c.stmtId).Bears hash := by
  have hunprocessed : (∃ r ∈ (c.blockedDesk s T).unprocessed, r.source.fileHash = some hash) ↔
      c.fileHash = hash ∨ ∃ r ∈ s.db.unprocessed, r.source.fileHash = some hash := by
    constructor
    · rintro ⟨r, hr, hhash⟩
      rcases (mem_blockedDesk hT).mp hr with hr | rfl
      · exact .inr ⟨r, hr, hhash⟩
      · exact .inl (Option.some.inj hhash)
    · rintro (rfl | ⟨r, hr, hhash⟩)
      · exact ⟨_, (mem_blockedDesk hT).mpr (.inr rfl), rfl⟩
      · exact ⟨r, (mem_blockedDesk hT).mpr (.inl hr), hhash⟩
  exact (or_congr_right hunprocessed).trans or_left_comm

/-- The file that is blocked is the only one to come. -/
theorem StagingCall.of_represents_blockedDesk {hash : String} (hT : s.db.unprocessed.insert?
      (awaitingInstrumentRow (uuid s.nextUuid) c.fileHash c.filename c.password) = some T)
    (hne : hash ≠ sha256 c.bytes) (h : (c.blockedDesk s T).Represents hash) :
    s.db.Represents hash := by
  obtain ⟨x, bytes, hstands, hfile, hsha⟩ := h
  by_cases hx : x = uuid s.nextUuid
  · subst hx
    have : some c.bytes = some bytes := by
      rw [← hfile]
      exact (Function.update_self (uuid s.nextUuid) (some c.bytes) s.db.file).symm
    exact absurd (hsha.symm.trans (congrArg sha256 (Option.some.inj this).symm)) hne
  · have hold : s.db.file x = some bytes := by
      rw [← hfile]
      exact (Function.update_of_ne hx (some c.bytes) s.db.file).symm
    refine ⟨x, bytes, ?_, hold, hsha⟩
    rw [← @Desk.standsFor_dropQueued s.db c.stmtId]
    rcases hstands with h | ⟨r, hr, hid, hstatus⟩ | h
    · exact .inl h
    · rcases (mem_blockedDesk hT).mp hr with hr | rfl
      · exact .inr (.inl ⟨r, hr, hid, hstatus⟩)
      · exact absurd hid.symm hx
    · exact .inr (.inr h)

/-- The blocked file is represented, also once the row it was resumed from is
gone. -/
theorem StagingCall.represents_blockedDesk (hT : s.db.unprocessed.insert?
      (awaitingInstrumentRow (uuid s.nextUuid) c.fileHash c.filename c.password) = some T) :
    (c.blockedDesk s T).Represents (sha256 c.bytes) :=
  ⟨uuid s.nextUuid, c.bytes, .inr (.inl ⟨_, (mem_blockedDesk hT).mpr (.inr rfl), rfl, rfl⟩),
    Function.update_self _ _ _, rfl⟩

theorem StagingCall.blockedDesk_sound (hd : s.db.Sound s.nextUuid)
    (hT : s.db.unprocessed.insert?
      (awaitingInstrumentRow (uuid s.nextUuid) c.fileHash c.filename c.password) = some T) :
    (c.blockedDesk s T).Sound (s.nextUuid + 1) :=
  Desk.Sound.insertUnprocessed (hd.dropQueued.noteFile c.bytes) hT (Function.update_self _ _ _)

theorem StagingCall.recognises_blockedDesk (hd : s.db.Sound s.nextUuid)
    (hrec : s.db.Recognises) (hfile : s.db.file c.stmtId = some c.bytes)
    (hT : s.db.unprocessed.insert?
      (awaitingInstrumentRow (uuid s.nextUuid) c.fileHash c.filename c.password) = some T) :
    (c.blockedDesk s T).Recognises ↔ c.Keeps s.db .blocked := by
  rw [recognises_iff_of_one hrec (fun h hne => of_represents_blockedDesk hT hne)
    (fun h hne hold => (bears_blockedDesk hT).mpr (.inr (hold.dropQueued hd hfile hne))),
    bears_blockedDesk hT]
  exact ⟨fun h => h (represents_blockedDesk hT), fun h _ => h⟩

/-- The row a blocked file was resumed from is removed: the new one bears its
hash. -/
theorem StagingCall.recognises_removed (hd : s.db.Sound s.nextUuid)
    (hrec : s.db.Recognises) (hfile : s.db.file c.stmtId = some c.bytes)
    (hT : s.db.unprocessed.insert?
      (awaitingInstrumentRow (uuid s.nextUuid) c.fileHash c.filename c.password) = some T)
    (hsource : ∀ r ∈ s.db.unprocessed, r.id = c.stmtId →
      c.fileHash = r.source.fileHash.getD "") :
    ((c.blockedDesk s T).dropUnprocessed c.stmtId).Recognises ↔ c.Keeps s.db .blocked := by
  have hne : uuid s.nextUuid ≠ c.stmtId := fun h => by
    have hfresh := hd.fresh s.nextUuid le_rfl
    rw [h, hfile] at hfresh
    exact absurd hfresh nofun
  have hrow : awaitingInstrumentRow (uuid s.nextUuid) c.fileHash c.filename c.password ∈
      ((c.blockedDesk s T).dropUnprocessed c.stmtId).unprocessed :=
    Desk.mem_dropUnprocessed.mpr ⟨(mem_blockedDesk hT).mpr (.inr rfl), hne⟩
  have hbears : ∀ hash, (c.blockedDesk s T).Bears hash →
      ((c.blockedDesk s T).dropUnprocessed c.stmtId).Bears hash := by
    rintro hash (h | ⟨r, hr, hhash⟩)
    · exact .inl h
    · by_cases hid : r.id = c.stmtId
      · rcases (mem_blockedDesk hT).mp hr with hr | rfl
        · refine .inr ⟨_, hrow, ?_⟩
          have := hsource r hr hid
          rw [hhash] at this
          exact congrArg some this
        · exact absurd hid hne
      · exact .inr ⟨r, Desk.mem_dropUnprocessed.mpr ⟨hr, hid⟩, hhash⟩
  rw [recognises_iff_of_one hrec
    (fun h hne' hrep => of_represents_blockedDesk hT hne' (by
      obtain ⟨x, bytes, hstands, hrest⟩ := hrep
      exact ⟨x, bytes, hstands.of_dropUnprocessed, hrest⟩))
    (fun h hne' hold =>
      hbears h ((bears_blockedDesk hT).mpr (.inr (hold.dropQueued hd hfile hne'))))]
  constructor
  · intro h
    have hrep : ((c.blockedDesk s T).dropUnprocessed c.stmtId).Represents (sha256 c.bytes) :=
      ⟨uuid s.nextUuid, c.bytes, .inr (.inl ⟨_, hrow, rfl, rfl⟩), Function.update_self _ _ _,
        rfl⟩
    exact (bears_blockedDesk hT).mp (h hrep).of_dropUnprocessed
  · exact fun h _ => hbears _ ((bears_blockedDesk hT).mpr h)

end Blocked

variable {c : StagingCall} {s s' : Store Desk} {e : StagingEnd}
  {r : Except SqlError PipelineOutcome}

theorem StagingCall.Leaves.sound (h : c.Leaves s s' e r) (hd : s.db.Sound s.nextUuid)
    (hfile : s.db.file c.stmtId = some c.bytes) : s'.db.Sound s'.nextUuid := by
  cases h with
  | stopped e hnext hdb => exact (Desk.Sound.congr hdb hd).mono hnext
  | dropped e hnext hdb => exact (Desk.Sound.congr hdb hd.dropQueued).mono hnext
  | blocked T hnext hT hdb =>
    rw [hdb, hnext]
    exact blockedDesk_sound hd hT
  | staged r T hnext hid hstatus hT hdb =>
    have hdrafts : (c.stagedDesk s.db T).Sound s.nextUuid :=
      hd.dropQueued.insertDraft hT (hid ▸ hfile)
    exact (Desk.Sound.congr hdb hdrafts).mono hnext

theorem StagingCall.Leaves.recognises (h : c.Leaves s s' e r) (hd : s.db.Sound s.nextUuid)
    (hrec : s.db.Recognises) (hfile : s.db.file c.stmtId = some c.bytes) :
    s'.db.Recognises ↔ c.Keeps s.db e := by
  cases h with
  | stopped e hnext hdb => exact (recognises_congr hdb).trans (iff_of_true hrec trivial)
  | dropped e hnext hdb =>
    rw [recognises_congr hdb, recognises_iff_of_one hrec
      (fun h _ => Desk.represents_dropQueued.mp) (fun h hne hold => hold.dropQueued hd hfile hne),
      Desk.represents_dropQueued]
    exact Iff.rfl
  | blocked T hnext hT hdb =>
    rw [hdb]
    exact recognises_blockedDesk hd hrec hfile hT
  | staged r T hnext hid hstatus hT hdb =>
    have hmem : ∀ x, x ∈ T ↔ x ∈ s.db.drafts ∨ x = r := fun x => Table.mem_of_insert? hT
    have hrep : (c.stagedDesk s.db T).Represents (sha256 c.bytes) :=
      ⟨c.stmtId, c.bytes, .inl ⟨r, (hmem r).mpr (.inr rfl), hid, hstatus⟩, hfile, rfl⟩
    have hone : (c.stagedDesk s.db T).Recognises ↔ ((c.stagedDesk s.db T).Represents
        (sha256 c.bytes) → (s.db.dropQueued c.stmtId).Bears (sha256 c.bytes)) := by
      refine recognises_iff_of_one hrec ?_ fun h hne hold => hold.dropQueued hd hfile hne
      rintro h hne ⟨x, bytes, hstands, hx, hsha⟩
      rw [← @Desk.represents_dropQueued _ s.db c.stmtId]
      rcases hstands with ⟨r', hr', hid', hstatus'⟩ | hstands
      · rcases (hmem r').mp hr' with hold | rfl
        · exact ⟨x, bytes, .inl ⟨r', hold, hid', hstatus'⟩, hx, hsha⟩
        · have hbytes : some c.bytes = some bytes := by
            rw [← hfile, ← hid, hid']
            exact hx
          exact absurd (hsha.symm.trans (congrArg sha256 (Option.some.inj hbytes).symm)) hne
      · exact ⟨x, bytes, .inr hstands, hx, hsha⟩
    rw [recognises_congr hdb, hone]
    exact ⟨fun h => h hrep, fun h _ => h⟩

end Files

end Dinero
