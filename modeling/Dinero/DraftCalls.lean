import Dinero.BillingCycles
import Dinero.Commit
import Dinero.Runs
import Dinero.Turn

/-!
# Dinero.DraftCalls

The user commits and discards a draft, any number of times, and the statements
of the calls may come in any order.

A commit asks for the status of the draft first and changes it last, and all it
writes is in between; a discard asks for nothing.  So a call may get between the
two ends of a commit.  Runs in which no call gets between a commit's first row
and its change of the status (`DraftEvent.Sound`) take the draft like a `Turn`.
-/

namespace Dinero

open Sql

/-! ## the calls -/

/-- The statement the call has written. -/
def CommitStage.created : CommitStage → Option String
  | .refreshingInstrument c | .insertingEntries c _ _ | .ingesting c _ | .classifying c
  | .retaining c | .resolving c | .committing c => some c.stmtId
  | .returned (.ok stmtId) => some stmtId
  | _ => none

def CommitStage.isOver : CommitStage → Bool
  | .returned _ => true
  | _ => false

inductive DraftCall
  | commit (edited : DraftMetadataUpdate) (rows : List StatementRow) (stage : CommitStage)
  | discard (stage : DiscardStage)

def DraftCall.created : DraftCall → Option String
  | .commit _ _ stage => stage.created
  | .discard _ => none

def DraftCall.isOver : DraftCall → Bool
  | .commit _ _ stage => stage.isOver
  | .discard stage => stage = .returned

/-- The call has written a statement. -/
def DraftCall.Created (a : DraftCall) : Prop := a.created.isSome = true

/-- It has written a statement, and has still to change the status. -/
def DraftCall.Inside (a : DraftCall) : Prop := a.Created ∧ a.isOver = false

instance decidableCreated (a : DraftCall) : Decidable a.Created :=
  inferInstanceAs (Decidable (_ = true))

instance decidableInsideDraft (a : DraftCall) : Decidable a.Inside :=
  inferInstanceAs (Decidable (_ ∧ _))

structure DraftWorld where
  office : Office
  calls : List DraftCall := []

inductive DraftEvent
  | commit (edited : DraftMetadataUpdate) (rows : List StatementRow)
  | discard
  /-- The next statement of the `i`th call. -/
  | step (i : Nat) (now : Int)

section Steps

variable [Extern] (cal : Calendar) (draftId : String)

def DraftCall.step (now : Int) (w : Office) : DraftCall → Office × DraftCall
  | .commit edited rows stage =>
    let r := stage.step cal ⟨draftId, edited, rows⟩ none now w
    (r.1, .commit edited rows r.2)
  | .discard stage =>
    let r := stage.step draftId w
    (r.1, .discard r.2)

def DraftEvent.apply (w : DraftWorld) : DraftEvent → DraftWorld
  | .commit edited rows => { w with calls := w.calls ++ [.commit edited rows .reading] }
  | .discard => { w with calls := w.calls ++ [.discard .deletingPdf] }
  | .step i now =>
    match w.calls[i]? with
    | none => w
    | some a =>
      let r := a.step cal draftId now w.office
      ⟨r.1, w.calls.set i r.2⟩

def runDrafts (w : DraftWorld) (es : List DraftEvent) : DraftWorld :=
  es.foldl (DraftEvent.apply cal draftId) w

/-! ## what is asked of a run -/

/-- The status of the draft, while it is there. -/
def Office.draftStatus (w : Office) : Option DraftStatus :=
  (w.desk.db.drafts.find? draftId).map (·.status)

/-- The `i`th call has written a statement. -/
def DraftWorld.Created (w : DraftWorld) (i : Nat) : Prop :=
  ∃ a, w.calls[i]? = some a ∧ a.Created

/-- The `i`th call has returned. -/
def DraftWorld.Over (w : DraftWorld) (i : Nat) : Prop :=
  ∃ a, w.calls[i]? = some a ∧ a.isOver = true

/-- One call at most takes effect. -/
structure TakesEffectOnce (w : Office) (es : List DraftEvent) : Prop where
  once : ∀ i j, (runDrafts cal draftId ⟨w, []⟩ es).Created i →
    (runDrafts cal draftId ⟨w, []⟩ es).Created j → i = j
  statements : ∀ r ∈ (runDrafts cal draftId ⟨w, []⟩ es).office.desk.db.statements,
    ∀ r' ∈ (runDrafts cal draftId ⟨w, []⟩ es).office.desk.db.statements,
      r.id ∉ w.desk.db.statements.keys → r'.id ∉ w.desk.db.statements.keys → r = r'
  entries : ∀ r ∈ (runDrafts cal draftId ⟨w, []⟩ es).office.entries,
    ∀ r' ∈ (runDrafts cal draftId ⟨w, []⟩ es).office.entries,
      r.id ∉ w.entries.keys → r'.id ∉ w.entries.keys → r.statementId = r'.statementId
  observations : ∀ o ∈ (runDrafts cal draftId ⟨w, []⟩ es).office.ledger.db.observations,
    ∀ o' ∈ (runDrafts cal draftId ⟨w, []⟩ es).office.ledger.db.observations,
      o.id ∉ w.ledger.db.observations.keys → o'.id ∉ w.ledger.db.observations.keys →
        o.statementId = o'.statementId
  /-- Once it is committed, or marked as discarded, it stays so. -/
  kept : ∀ pre post status, es = pre ++ post →
    (runDrafts cal draftId ⟨w, []⟩ pre).office.draftStatus draftId = some status →
      status ≠ .pendingReview →
        (runDrafts cal draftId ⟨w, []⟩ es).office.draftStatus draftId = some status
  /-- Once it is gone it stays gone, and only a commit that was over has written anything. -/
  discarded : ∀ pre post, es = pre ++ post →
    (runDrafts cal draftId ⟨w, []⟩ pre).office.draftStatus draftId = none →
      (runDrafts cal draftId ⟨w, []⟩ es).office.draftStatus draftId = none ∧
        ∀ i, (runDrafts cal draftId ⟨w, []⟩ es).Created i →
          (runDrafts cal draftId ⟨w, []⟩ pre).Created i ∧
            (runDrafts cal draftId ⟨w, []⟩ pre).Over i

/-- The call's next statement writes the row of a statement. -/
def DraftCall.aboutToCreate (w : Office) : DraftCall → Bool
  | .commit _ _ (.insertingStatement _) => true
  | .commit _ _ (.updatingStatement c) => w.desk.db.statements.contains c.stmtId
  | _ => false

/-- The call's next statement deletes the draft. -/
def DraftCall.aboutToDelete : DraftCall → Bool
  | .discard .deletingDraft => true
  | _ => false

/-- A statement row is written while the draft is to be reviewed; the draft is deleted while
it is, or when it is gone; and either with no commit between its first row and its change of
the status. -/
def DraftEvent.Sound (w : DraftWorld) : DraftEvent → Prop
  | .step i _ => ∀ a ∈ w.calls[i]?,
    (a.aboutToCreate w.office = true →
      w.office.draftStatus draftId = some .pendingReview ∧ ∀ b ∈ w.calls, ¬ b.Inside) ∧
    (a.aboutToDelete = true → w.office.draftStatus draftId ≠ some .committed ∧
      w.office.draftStatus draftId ≠ some .discarded ∧ ∀ b ∈ w.calls, ¬ b.Inside)
  | _ => True

instance decidableSoundDraftEvent (w : DraftWorld) (e : DraftEvent) :
    Decidable (e.Sound draftId w) := by
  cases e with
  | step i now =>
    unfold DraftEvent.Sound
    infer_instance
  | _ => exact isTrue trivial

end Steps

/-! ## what one statement does -/

/-- Of the draft and the statement, a statement of a call does one of four things: nothing;
it writes the statement; it changes the status; it deletes the draft. -/
inductive DraftCall.Does (draftId : String) (w : Office) (a : DraftCall) :
    Office → DraftCall → Prop
  | nothing {w' a'} (hstatus : w'.draftStatus draftId = w.draftStatus draftId)
      (hcreated : a'.created = a.created) (hover : a.Created → a'.isOver = a.isOver) :
      Does draftId w a w' a'
  | creates {w' a'} (habout : a.aboutToCreate w = true)
      (hstatus : w'.draftStatus draftId = w.draftStatus draftId) (hnone : a.created = none)
      (hinside : a'.Inside) : Does draftId w a w' a'
  | finishes {w' a'} (hinside : a.Inside) (hcreated : a'.created = a.created)
      (hover : a'.isOver = true)
      (hstatus : w'.draftStatus draftId = (w.draftStatus draftId).map fun _ => .committed) :
      Does draftId w a w' a'
  | deletes {w' a'} (habout : a.aboutToDelete = true) (hnone : a.created = none)
      (hnone' : a'.created = none) (hstatus : w'.draftStatus draftId = none) :
      Does draftId w a w' a'

section Does

variable [Extern] {cal : Calendar} {draftId : String}

variable (cal) in
/-- Where a stage that has not written the statement leads. -/
theorem CommitStage.step_early (call : CommitCall) (now : Int) (w : Office) {stage : CommitStage}
    (h : stage.created = none) (hover : stage.isOver = false) :
    (stage.step cal call none now w).2.created = none ∨
      ∃ c, (stage.step cal call none now w).2 = .refreshingInstrument c ∧
        (stage = .insertingStatement c ∨
          stage = .updatingStatement c ∧ w.desk.db.statements.contains c.stmtId = true) := by
  cases stage with
  | reading =>
    left
    simp only [CommitStage.step, orReturn]
    split
    · rfl
    · split <;> rfl
  | creatingInstrument draft => exact .inl rfl
  | findingInstrument draft =>
    left
    simp only [CommitStage.step, orReturn]
    split <;> rfl
  | updatingStatement c =>
    simp only [CommitStage.step, orReturn]
    split
    · next hstored => exact .inr ⟨c, rfl, .inr ⟨rfl, hstored⟩⟩
    · exact .inl rfl
  | insertingStatement c =>
    simp only [CommitStage.step, orReturn]
    split
    · exact .inr ⟨c, rfl, .inl rfl⟩
    · exact .inl rfl
  | returned r => cases hover
  | _ => cases h

variable (cal) in
/-- Where a stage that has written it leads, before the change of the status. -/
theorem CommitStage.step_late (call : CommitCall) (now : Int) (w : Office) {stage : CommitStage}
    (h : stage.created.isSome = true) (hover : stage.isOver = false)
    (hne : ∀ c, stage ≠ .committing c) :
    (stage.step cal call none now w).2.created = stage.created ∧
      (stage.step cal call none now w).2.isOver = false := by
  cases stage with
  | committing c => exact absurd rfl (hne c)
  | returned r => cases hover
  | insertingEntries c rows entryIds =>
    cases rows with
    | nil => exact ⟨rfl, rfl⟩
    | cons row rows =>
      simp only [CommitStage.step]
      split <;> exact ⟨rfl, rfl⟩
  | ingesting c observations => cases observations <;> exact ⟨rfl, rfl⟩
  | classifying c =>
    simp only [CommitStage.step, orReturn]
    split <;> exact ⟨rfl, rfl⟩
  | refreshingInstrument c | retaining c | resolving c => exact ⟨rfl, rfl⟩
  | _ => cases h

theorem DraftCall.does_commit (edited : DraftMetadataUpdate) (rows : List StatementRow)
    (stage : CommitStage) (now : Int) (w : Office) :
    (DraftCall.commit edited rows stage).Does draftId w
      ((DraftCall.commit edited rows stage).step cal draftId now w).1
      ((DraftCall.commit edited rows stage).step cal draftId now w).2 := by
  by_cases hend : ∃ c, stage = .committing c
  · obtain ⟨c, rfl⟩ := hend
    refine .finishes ⟨rfl, rfl⟩ rfl rfl ?_
    simp only [DraftCall.step, CommitStage.step, orReturn, Office.draftStatus]
    rw [Table.find?_modify, if_pos rfl, Option.map_map, Option.map_map]
    rfl
  have hne : ∀ c, stage ≠ .committing c := fun c hc => hend ⟨c, hc⟩
  have hstatus : (stage.step cal ⟨draftId, edited, rows⟩ none now w).1.draftStatus draftId =
      w.draftStatus draftId := by
    unfold Office.draftStatus
    rw [CommitStage.step_drafts none now w hne]
  by_cases hover : stage.isOver = true
  · cases stage with
    | returned r => exact .nothing rfl rfl fun _ => rfl
    | _ => cases hover
  rw [Bool.not_eq_true] at hover
  by_cases hcreated : stage.created.isSome = true
  · have hlate := CommitStage.step_late cal ⟨draftId, edited, rows⟩ now w hcreated hover hne
    exact .nothing hstatus hlate.1 fun _ => hlate.2.trans hover.symm
  rw [Option.not_isSome_iff_eq_none] at hcreated
  rcases CommitStage.step_early cal ⟨draftId, edited, rows⟩ now w hcreated hover with
    hsame | ⟨c, hc, hstage⟩
  · refine .nothing hstatus (hsame.trans hcreated.symm) fun hin => ?_
    have hsome : stage.created.isSome = true := hin
    rw [hcreated] at hsome
    cases hsome
  · have hinside : (DraftCall.commit edited rows (.refreshingInstrument c)).Inside := ⟨rfl, rfl⟩
    refine .creates ?_ hstatus hcreated ?_
    · rcases hstage with rfl | ⟨rfl, hstored⟩
      · rfl
      · exact hstored
    · show (DraftCall.commit edited rows _).Inside
      rw [hc]
      exact hinside

theorem DraftCall.does_step (a : DraftCall) (now : Int) (w : Office) :
    a.Does draftId w (a.step cal draftId now w).1 (a.step cal draftId now w).2 := by
  cases a with
  | commit edited rows stage => exact does_commit edited rows stage now w
  | discard stage =>
    have hnot : ∀ st, ¬ (DraftCall.discard st).Created := fun _ => Bool.false_ne_true
    cases stage with
    | deletingPdf => exact .nothing rfl rfl fun h => absurd h (hnot _)
    | deletingDraft =>
      refine .deletes rfl rfl rfl ?_
      simp only [DraftCall.step, DiscardStage.step, Office.draftStatus, Option.map_eq_none_iff]
      rw [Table.find?_eq_none]
      intro r hr
      have hne := (Table.mem_keep.mp hr).2
      exact of_decide_eq_true hne
    | returned => exact .nothing rfl rfl fun h => absurd h (hnot _)

/-! ### where the rows come from -/

/-- The rows that are new belong to the statement `created`. -/
structure Office.Adds (w w' : Office) (created : Option String) : Prop where
  statements : ∀ r ∈ w'.desk.db.statements,
    r.id ∈ w.desk.db.statements.keys ∨ created = some r.id
  entries : ∀ r ∈ w'.entries, r ∈ w.entries ∨ created = some r.statementId
  observations : ∀ o ∈ w'.ledger.db.observations,
    (∃ o₀ ∈ w.ledger.db.observations, o₀.id = o.id ∧ o₀.statementId = o.statementId) ∨
      ∃ stmtId, created = some stmtId ∧ o.statementId = some stmtId

omit [Extern] in
/-- Nothing is new. -/
theorem Office.Adds.of_eq {w w' : Office} {created : Option String}
    (hstatements : w'.desk.db.statements = w.desk.db.statements) (hentries : w'.entries = w.entries)
    (hobservations : w'.ledger.db.observations = w.ledger.db.observations) :
    w.Adds w' created where
  statements r hr := .inl (Table.mem_keys.mpr ⟨r, hstatements ▸ hr, rfl⟩)
  entries _ hr := .inl (hentries ▸ hr)
  observations o ho := .inl ⟨o, hobservations ▸ ho, rfl, rfl⟩

/-- An observation there after an ingestion was there before, or is the row. -/
theorem Op.ingest_origin (row : TransactionObservationsRow) (shouldReconcile : Bool) (now : Int)
    (s : Store Database) {o : TransactionObservationsRow}
    (ho : o ∈ ((Op.ingest row shouldReconcile).run now s).db.observations) :
    ∃ o₀, (o₀ ∈ s.db.observations ∨ o₀ = row) ∧ o₀.unlinked = o.unlinked := by
  have hins : ∀ {db₁ o₁}, s.db.insertObservation row = .ok ((), db₁) → o₁ ∈ db₁.observations →
      o₁ ∈ s.db.observations ∨ o₁ = row := by
    intro db₁ o₁ h ho₁
    obtain ⟨-, -, -, T, hT, rfl⟩ := Database.insertObservation_eq_ok.mp h
    exact (Table.mem_of_insert? hT).mp ho₁
  cases Op.ingest_effect row shouldReconcile now s with
  | unchanged h => exact ⟨o, .inl (h ▸ ho), rfl⟩
  | stored h => exact ⟨o, hins h ho, rfl⟩
  | acted db₁ instrumentId dt d hstored _ _ hacted =>
    obtain ⟨o₁, ho₁, heq⟩ := Table.exists_of_map_eq hacted.unlinked ho
    exact ⟨o₁, hins hstored ho₁, heq⟩

/-- What an ingestion adds is the row. -/
theorem Office.adds_ingest (w : Office) (now : Int) (obs : IncomingObservation) (stmtId : String) :
    w.Adds (w.ingest none now (obs.storedAs stmtId)) (some stmtId) where
  statements r hr := .inl (Table.mem_keys.mpr ⟨r, hr, rfl⟩)
  entries _ hr := .inl hr
  observations o ho := by
    obtain ⟨o₀, horigin, heq⟩ := Op.ingest_origin (obs.storedAs stmtId) true now
      { w.ledger with skip := none } ho
    have hid : o₀.unlinked.id = o.unlinked.id := by rw [heq]
    have hstmt : o₀.unlinked.statementId = o.unlinked.statementId := by rw [heq]
    rcases horigin with hold | rfl
    · exact .inl ⟨o₀, hold, hid, hstmt⟩
    · exact .inr ⟨stmtId, rfl, hstmt.symm⟩

omit [Extern] in
theorem Office.adds_insertEntry {w w' : Office} {r : StatementEntriesRow}
    (h : w.insertEntry r = some w') : w.Adds w' (some r.statementId) := by
  unfold insertEntry at h
  split at h
  · obtain ⟨T, hT, rfl⟩ := Option.map_eq_some_iff.mp h
    refine ⟨fun r' hr' => .inl (Table.mem_keys.mpr ⟨r', hr', rfl⟩), fun r' hr' => ?_,
      fun o ho => .inl ⟨o, ho, rfl, rfl⟩⟩
    rcases (Table.mem_of_insert? hT).mp hr' with hold | rfl
    · exact .inl hold
    · exact .inr rfl
  · cases h

omit [Extern] in
theorem Office.adds_insertStatement {w w' : Office} {r : StatementsRow} {file : Option Bytes}
    (h : w.insertStatement r file = some w') : w.Adds w' (some r.id) := by
  obtain ⟨T, hT, rfl⟩ := Option.map_eq_some_iff.mp h
  refine ⟨fun r' hr' => ?_, fun _ hr' => .inl hr', fun o ho => .inl ⟨o, ho, rfl, rfl⟩⟩
  rcases (Table.mem_of_insert? hT).mp hr' with hold | rfl
  · exact .inl (Table.mem_keys.mpr ⟨r', hold, rfl⟩)
  · exact .inr rfl

/-- What a statement of a commit adds belongs to the statement it has written. -/
theorem CommitStage.step_adds (call : CommitCall) (now : Int) (w : Office) (stage : CommitStage) :
    w.Adds (stage.step cal call none now w).1 (stage.step cal call none now w).2.created := by
  cases stage with
  | insertingStatement c =>
    simp only [CommitStage.step, orReturn]
    split
    · next hw' => exact Office.adds_insertStatement hw'
    · exact .of_eq rfl rfl rfl
  | updatingStatement c =>
    simp only [CommitStage.step, orReturn]
    split
    · refine ⟨fun r hr => .inl ?_, fun _ hr => .inl hr, fun o ho => .inl ⟨o, ho, rfl, rfl⟩⟩
      rw [← Table.keys_modify w.desk.db.statements c.stmtId (metadataPatch (call.statementRow c))]
      exact Table.mem_keys.mpr ⟨r, hr, rfl⟩
    · exact .of_eq rfl rfl rfl
  | insertingEntries c rows entryIds =>
    cases rows with
    | nil => exact .of_eq rfl rfl rfl
    | cons row rows =>
      simp only [CommitStage.step]
      split
      · next hw' =>
        have hadds := Office.adds_insertEntry hw'
        exact ⟨hadds.statements, hadds.entries, hadds.observations⟩
      · exact .of_eq rfl rfl rfl
  | ingesting c observations =>
    cases observations with
    | nil => exact .of_eq rfl rfl rfl
    | cons obs observations => exact w.adds_ingest now obs c.stmtId
  | reading =>
    simp only [CommitStage.step, orReturn]
    split
    · exact .of_eq rfl rfl rfl
    · split <;> exact .of_eq rfl rfl rfl
  | findingInstrument draft =>
    simp only [CommitStage.step, orReturn]
    split
    · exact .of_eq rfl rfl rfl
    · next instrumentId _ =>
      obtain ⟨I, hdb⟩ := learnInstrument_eq w.ledger.db (some instrumentId)
      refine .of_eq rfl rfl ?_
      rw [hdb]
  | classifying c =>
    simp only [CommitStage.step, orReturn]
    split <;> exact .of_eq rfl rfl rfl
  | creatingInstrument draft => exact .of_eq rfl rfl rfl
  | _ => exact .of_eq rfl rfl rfl

theorem DraftCall.step_adds (now : Int) (w : Office) (a : DraftCall) :
    w.Adds (a.step cal draftId now w).1 (a.step cal draftId now w).2.created := by
  cases a with
  | commit edited rows stage => exact stage.step_adds _ now w
  | discard stage => cases stage <;> exact .of_eq rfl rfl rfl

/-- What a call has written it keeps. -/
theorem DraftCall.created_step {a : DraftCall} {stmtId : String} (now : Int) (w : Office)
    (h : a.created = some stmtId) : (a.step cal draftId now w).2.created = some stmtId := by
  have hdoes : a.Does draftId w (a.step cal draftId now w).1 (a.step cal draftId now w).2 :=
    DraftCall.does_step a now w
  cases hdoes with
  | nothing _ hcreated _ => exact hcreated.trans h
  | creates _ _ hnone _ =>
    rw [hnone] at h
    cases h
  | finishes _ hcreated _ _ => exact hcreated.trans h
  | deletes _ hnone _ _ =>
    rw [hnone] at h
    cases h

/-- A call has written the statement. -/
def DraftWorld.Wrote (w : DraftWorld) (stmtId : String) : Prop :=
  ∃ (i : Nat) (a : DraftCall), w.calls[i]? = some a ∧ a.created = some stmtId

/-- What is new since `w₀` belongs to statements that the calls have written. -/
structure DraftWorld.Traces (w₀ : Office) (w : DraftWorld) : Prop where
  statements : ∀ r ∈ w.office.desk.db.statements,
    r.id ∈ w₀.desk.db.statements.keys ∨ w.Wrote r.id
  entries : ∀ r ∈ w.office.entries, r ∈ w₀.entries ∨ w.Wrote r.statementId
  observations : ∀ o ∈ w.office.ledger.db.observations,
    o.id ∈ w₀.ledger.db.observations.keys ∨ ∃ stmtId, o.statementId = some stmtId ∧ w.Wrote stmtId

omit [Extern] in
theorem DraftWorld.Traces.of_adds {w₀ : Office} {w w' : DraftWorld} {created : Option String}
    (h : w.Traces w₀) (hadds : w.office.Adds w'.office created)
    (hold : ∀ stmtId, w.Wrote stmtId → w'.Wrote stmtId)
    (hnew : ∀ stmtId, created = some stmtId → w'.Wrote stmtId) : w'.Traces w₀ where
  statements r hr := by
    rcases hadds.statements r hr with hmem | hcreated
    · obtain ⟨r₀, hr₀, hid⟩ := Table.mem_keys.mp hmem
      have htrace := h.statements r₀ hr₀
      rw [show r₀.id = r.id from hid] at htrace
      exact htrace.imp_right (hold _)
    · exact .inr (hnew _ hcreated)
  entries r hr := by
    rcases hadds.entries r hr with hmem | hcreated
    · exact (h.entries r hmem).imp_right (hold _)
    · exact .inr (hnew _ hcreated)
  observations o ho := by
    rcases hadds.observations o ho with ⟨o₀, ho₀, hid, hstmt⟩ | ⟨stmtId, hcreated, hstmt⟩
    · have htrace := h.observations o₀ ho₀
      rw [hid, hstmt] at htrace
      exact htrace.imp_right fun ⟨stmtId, ho, hwrote⟩ => ⟨stmtId, ho, hold _ hwrote⟩
    · exact .inr ⟨stmtId, hstmt, hnew _ hcreated⟩

/-- Every event, sound or not. -/
theorem DraftWorld.Traces.apply {w₀ : Office} {w : DraftWorld} (h : w.Traces w₀)
    (e : DraftEvent) : (e.apply cal draftId w).Traces w₀ := by
  have hspawn : ∀ a, DraftWorld.Traces w₀ { w with calls := w.calls ++ [a] } := by
    intro a
    have hadds : w.office.Adds w.office none := .of_eq rfl rfl rfl
    refine h.of_adds hadds ?_ nofun
    rintro stmtId ⟨i, b, hb, hcreated⟩
    refine ⟨i, b, ?_, hcreated⟩
    show (w.calls ++ [a])[i]? = some b
    rw [List.getElem?_append_left (List.getElem?_eq_some_iff.mp hb).1]
    exact hb
  cases e with
  | commit edited rows => exact hspawn _
  | discard => exact hspawn _
  | step i now =>
    cases hi : w.calls[i]? with
    | none => simpa [DraftEvent.apply, hi] using h
    | some a =>
      have happly : (DraftEvent.step i now).apply cal draftId w =
          ⟨(a.step cal draftId now w.office).1,
            w.calls.set i (a.step cal draftId now w.office).2⟩ := by
        simp [DraftEvent.apply, hi]
      have hlt : i < w.calls.length := (List.getElem?_eq_some_iff.mp hi).1
      rw [happly]
      refine h.of_adds (a.step_adds now w.office) ?_ ?_
      · rintro stmtId ⟨j, b, hb, hcreated⟩
        by_cases hj : j = i
        · subst hj
          obtain rfl := Option.some.inj (hi.symm.trans hb)
          exact ⟨j, (a.step cal draftId now w.office).2, by simp [hlt],
            DraftCall.created_step now w.office hcreated⟩
        · exact ⟨j, b, by simp [Ne.symm hj, hb], hcreated⟩
      · intro stmtId hcreated
        exact ⟨i, _, by simp [hlt], hcreated⟩

theorem DraftWorld.Traces.run {w₀ : Office} {w : DraftWorld} (h : w.Traces w₀)
    (es : List DraftEvent) : (runDrafts cal draftId w es).Traces w₀ := by
  induction es generalizing w with
  | nil => exact h
  | cons e es ih => exact ih (h.apply e)

/-! ## the draft as a turn -/

/-- The calls see the draft as a thing taken once. -/
abbrev DraftWorld.Reflects (draftId : String) (w : DraftWorld) (t : Turn.State Nat) : Prop :=
  Turn.Mirrors DraftCall.Created DraftCall.Inside
    (w.office.draftStatus draftId = some .pendingReview) w.calls t

omit [Extern] in
/-- Whoever is inside holds the turn. -/
theorem DraftWorld.Reflects.alone {w : DraftWorld} {t : Turn.State Nat} (h : w.Reflects draftId t)
    {i : Nat} {a : DraftCall} (hi : w.calls[i]? = some a) (hinside : a.Inside) (j : Nat)
    (b : DraftCall) (hj : w.calls[j]? = some b) (hb : b.Inside) : j = i := by
  have hphase := (h.inside i).mp ⟨a, hi, hinside⟩
  have hphase' := (h.inside j).mp ⟨b, hj, hb⟩
  rw [hphase] at hphase'
  injection hphase' with heq
  exact heq.symm

/-- **A sound event is a step of the turn**, and a turn that is closed leaves the status
alone. -/
theorem DraftWorld.Reflects.apply {w : DraftWorld} {t : Turn.State Nat}
    (h : w.Reflects draftId t) {e : DraftEvent} (hsound : e.Sound draftId w) :
    ∃ t', Turn.Step t t' ∧ (e.apply cal draftId w).Reflects draftId t' ∧
      (t.phase = .closed → (e.apply cal draftId w).office.draftStatus draftId =
        w.office.draftStatus draftId) := by
  cases e with
  | commit edited rows => exact ⟨t, .idle t, h.spawn nofun nofun, fun _ => rfl⟩
  | discard => exact ⟨t, .idle t, h.spawn nofun nofun, fun _ => rfl⟩
  | step i now =>
    cases hi : w.calls[i]? with
    | none =>
      have happly : (DraftEvent.step i now).apply cal draftId w = w := by
        simp [DraftEvent.apply, hi]
      rw [happly]
      exact ⟨t, .idle t, h, fun _ => rfl⟩
    | some a =>
      obtain ⟨hcreate, hdelete⟩ := hsound a hi
      have hdoes : a.Does draftId w.office (a.step cal draftId now w.office).1
          (a.step cal draftId now w.office).2 := DraftCall.does_step a now w.office
      have happly : (DraftEvent.step i now).apply cal draftId w =
          ⟨(a.step cal draftId now w.office).1,
            w.calls.set i (a.step cal draftId now w.office).2⟩ := by
        simp [DraftEvent.apply, hi]
      rw [happly]
      generalize a.step cal draftId now w.office = r at hdoes ⊢
      obtain ⟨w', a'⟩ := r
      cases hdoes with
      | nothing hstatus hcreated hover =>
        have htook : a'.Created ↔ a.Created := by
          unfold DraftCall.Created
          rw [hcreated]
        have hinside : a'.Inside ↔ a.Inside := by
          unfold DraftCall.Inside
          rw [htook]
          exact and_congr_right fun ha => by rw [hover ha]
        exact ⟨t, .idle t, h.nothing hi htook hinside (by rw [hstatus]), fun _ => hstatus⟩
      | creates habout hstatus hnone hinside =>
        obtain ⟨hpending, hfree⟩ := hcreate habout
        have hnot : ¬ a.Inside := hfree a (List.mem_of_getElem? hi)
        have hsame : w'.draftStatus draftId = some .pendingReview ↔
            w.office.draftStatus draftId = some .pendingReview := by rw [hstatus]
        obtain ⟨t', hstep, hmirrors⟩ := h.takes hi hnot hinside.1 hinside hpending
          (fun j b hj hb => absurd hb (hfree b (List.mem_of_getElem? hj))) hsame
        exact ⟨t', hstep, hmirrors, fun _ => hstatus⟩
      | finishes hinside hcreated hover hstatus =>
        have htook : a'.Created ↔ a.Created := by
          unfold DraftCall.Created
          rw [hcreated]
        have hnot : ¬ a'.Inside := by
          rintro ⟨-, hin⟩
          rw [hover] at hin
          cases hin
        have hshut : ¬ w'.draftStatus draftId = some .pendingReview := by
          rw [hstatus]
          cases w.office.draftStatus draftId <;> simp
        obtain ⟨t', hstep, hmirrors⟩ := h.closes hi htook hnot hshut (h.alone hi hinside)
        refine ⟨t', hstep, hmirrors, fun hclosed => ?_⟩
        have hphase := (h.inside i).mp ⟨a, hi, hinside⟩
        rw [hclosed] at hphase
        cases hphase
      | deletes habout hnone hnone' hstatus =>
        obtain ⟨hcommitted, hdiscarded, hfree⟩ := hdelete habout
        have hnot : ∀ {b : DraftCall}, b.created = none → ¬ b.Created := by
          intro b hb hc
          unfold DraftCall.Created at hc
          rw [hb] at hc
          cases hc
        have hshut : ¬ w'.draftStatus draftId = some .pendingReview := by
          rw [hstatus]
          exact nofun
        obtain ⟨t', hstep, hmirrors⟩ := h.closes hi (iff_of_false (hnot hnone') (hnot hnone))
          (fun hin => hnot hnone' hin.1) hshut
          (fun j b hj hb => absurd hb (hfree b (List.mem_of_getElem? hj)))
        refine ⟨t', hstep, hmirrors, fun hclosed => ?_⟩
        -- closed, and neither committed nor discarded: it is gone already
        have hne : w.office.draftStatus draftId ≠ some .pendingReview := fun hp =>
          h.isOpen.mp hp hclosed
        rw [hstatus]
        cases hcur : w.office.draftStatus draftId with
        | none => rfl
        | some status =>
          rw [hcur] at hcommitted hdiscarded hne
          cases status <;> simp_all

theorem DraftWorld.Reflects.run {w : DraftWorld} {t : Turn.State Nat} (h : w.Reflects draftId t)
    {es : List DraftEvent}
    (hsound : Runs.Guarded (DraftEvent.apply cal draftId) (DraftEvent.Sound draftId) w es) :
    ∃ t', Turn.Reach t t' ∧ (runDrafts cal draftId w es).Reflects draftId t' ∧
      (t.phase = .closed → (runDrafts cal draftId w es).office.draftStatus draftId =
        w.office.draftStatus draftId) := by
  induction es generalizing w t with
  | nil => exact ⟨t, .refl, h, fun _ => rfl⟩
  | cons e es ih =>
    obtain ⟨t₁, hstep, h₁, hstatus₁⟩ : ∃ t₁, Turn.Step t t₁ ∧
        (e.apply cal draftId w).Reflects draftId t₁ ∧
        (t.phase = .closed → (e.apply cal draftId w).office.draftStatus draftId =
          w.office.draftStatus draftId) := h.apply hsound.1
    obtain ⟨t₂, hreach, h₂, hstatus₂⟩ := ih h₁ hsound.2
    refine ⟨t₂, .head hstep hreach, h₂, fun hclosed => ?_⟩
    have hsame : t₁ = t := Turn.Reach.taken_closed (.single hstep) hclosed
    rw [← hstatus₁ hclosed]
    exact hstatus₂ (hsame ▸ hclosed)

/-! ## every run -/

omit [Extern] in
/-- One call wrote whatever was written. -/
theorem DraftWorld.wrote_unique {w : DraftWorld} (honce : ∀ i j, w.Created i → w.Created j → i = j)
    {stmtId stmtId' : String} (h : w.Wrote stmtId) (h' : w.Wrote stmtId') : stmtId = stmtId' := by
  obtain ⟨i, a, hi, ha⟩ := h
  obtain ⟨j, b, hj, hb⟩ := h'
  have hcreated : ∀ {k : Nat} {x : DraftCall} {id : String}, w.calls[k]? = some x →
      x.created = some id → w.Created k := by
    intro k x id hk hx
    refine ⟨x, hk, ?_⟩
    unfold DraftCall.Created
    rw [hx]
    rfl
  obtain rfl := honce i j (hcreated hi ha) (hcreated hj hb)
  obtain rfl := Option.some.inj (hi.symm.trans hj)
  rw [ha] at hb
  exact Option.some.inj hb

/-- **A draft takes effect once**, in every run in which a statement is written while the draft
is to be reviewed, the draft is deleted while it is, and no call gets between a commit's first
row and its change of the status. -/
theorem draft_takes_effect_once (w : Office) (es : List DraftEvent)
    (hsound : Runs.Guarded (DraftEvent.apply cal draftId) (DraftEvent.Sound draftId) ⟨w, []⟩ es) :
    TakesEffectOnce cal draftId w es := by
  have hstart : DraftWorld.Reflects draftId ⟨w, []⟩ _ := Turn.Mirrors.start _ _ _
  have htraces : (runDrafts cal draftId ⟨w, []⟩ es).Traces w := by
    have hnothing : DraftWorld.Traces w ⟨w, []⟩ :=
      ⟨fun r hr => .inl (Table.mem_keys.mpr ⟨r, hr, rfl⟩), fun _ hr => .inl hr,
        fun o ho => .inl (Table.mem_keys.mpr ⟨o, ho, rfl⟩)⟩
    exact hnothing.run es
  have honce : ∀ i j, (runDrafts cal draftId ⟨w, []⟩ es).Created i →
      (runDrafts cal draftId ⟨w, []⟩ es).Created j → i = j := by
    obtain ⟨t, hreach, hend, -⟩ := hstart.run hsound
    intro i j hi hj
    exact hreach.taken_unique (Turn.State.orderly_start _) ((hend.taken i).mp hi) ((hend.taken j).mp hj)
  -- what a prefix has settled, the rest leaves alone
  have hsettled : ∀ pre post, es = pre ++ post →
      (runDrafts cal draftId ⟨w, []⟩ pre).office.draftStatus draftId ≠ some .pendingReview →
      (runDrafts cal draftId ⟨w, []⟩ es).office.draftStatus draftId =
        (runDrafts cal draftId ⟨w, []⟩ pre).office.draftStatus draftId ∧
      ∀ i, (runDrafts cal draftId ⟨w, []⟩ es).Created i →
        (runDrafts cal draftId ⟨w, []⟩ pre).Created i ∧
          (runDrafts cal draftId ⟨w, []⟩ pre).Over i := by
    rintro before after rfl hne
    obtain ⟨hbefore, hafter⟩ := Runs.guarded_append.mp hsound
    obtain ⟨t₁, -, h₁, -⟩ := hstart.run hbefore
    have hclosed : t₁.phase = .closed := by
      by_contra hopen
      exact hne (h₁.isOpen.mpr hopen)
    obtain ⟨t₂, hreach₂, h₂, hstatus₂⟩ := h₁.run hafter
    have happend : runDrafts cal draftId ⟨w, []⟩ (before ++ after) =
        runDrafts cal draftId (runDrafts cal draftId ⟨w, []⟩ before) after := List.foldl_append
    rw [happend]
    refine ⟨hstatus₂ hclosed, fun i hi => ?_⟩
    have hmem := (h₂.taken i).mp hi
    rw [hreach₂.taken_closed hclosed] at hmem
    obtain ⟨a, ha, hcreated⟩ := (h₁.taken i).mpr hmem
    refine ⟨⟨a, ha, hcreated⟩, a, ha, ?_⟩
    by_contra hover
    have hphase := (h₁.inside i).mp ⟨a, ha, hcreated, by simpa using hover⟩
    rw [hclosed] at hphase
    cases hphase
  refine ⟨honce, ?_, ?_, ?_, ?_, ?_⟩
  · intro r hr r' hr' hnew hnew'
    have hw := (htraces.statements r hr).resolve_left hnew
    have hw' := (htraces.statements r' hr').resolve_left hnew'
    exact Table.eq_of_key_eq hr hr' (DraftWorld.wrote_unique honce hw hw')
  · intro r hr r' hr' hnew hnew'
    have hnot : ∀ {x : StatementEntriesRow}, x.id ∉ w.entries.keys → x ∉ w.entries :=
      fun hx hmem => hx (Table.mem_keys.mpr ⟨_, hmem, rfl⟩)
    have hw := (htraces.entries r hr).resolve_left (hnot hnew)
    have hw' := (htraces.entries r' hr').resolve_left (hnot hnew')
    exact DraftWorld.wrote_unique honce hw hw'
  · intro o ho o' ho' hnew hnew'
    obtain ⟨stmtId, hstmt, hw⟩ := (htraces.observations o ho).resolve_left hnew
    obtain ⟨stmtId', hstmt', hw'⟩ := (htraces.observations o' ho').resolve_left hnew'
    rw [hstmt, hstmt', DraftWorld.wrote_unique honce hw hw']
  · intro pre post status heq hstatus hne
    have hsame := (hsettled pre post heq (by simp [hstatus, hne])).1
    rw [hsame, hstatus]
  · intro pre post heq hgone
    obtain ⟨hsame, hcreated⟩ := hsettled pre post heq (by simp [hgone])
    exact ⟨hsame.trans hgone, hcreated⟩

end Does

/-! ## a run that is not sound -/

/-- A draft that waits for its review. -/
def waitingDraft : StatementDraftRow where
  id := "d"
  origin := "upload"
  fileHash := smallPdfHash
  instrumentId := none
  issuerName := some "HDFC"
  maskedIdentifier := some "1234"
  instrumentType := some "credit_card"
  billingPeriodStart := none
  billingPeriodEnd := none
  dueDate := none
  statementDate := none
  currentBalance := none
  minimumDue := none
  rowsJson := "[]"
  status := .pendingReview
  updatedAt := 0

def reviewOffice : Office where
  desk := ⟨{ Desk.start .empty with drafts := ⟨[waitingDraft], by decide⟩ }, 0, none⟩
  entries := .empty
  ledger := firstLedger

/-- No date can be read. -/
def undated : Calendar := ⟨fun _ => none, fun _ => (1970, 1, 1)⟩

/-- A commit with one row, from its first statement to its last. -/
def committedFirst : List DraftEvent :=
  .commit january [lunch 500 0] :: (List.range 15).map fun k => .step 0 (2000000 + k)

/-- A second commit afterwards, and a discard that stops before the draft. -/
theorem draft_takes_effect_once_committed :
    letI := Extern.ascii
    TakesEffectOnce undated "d" reviewOffice
      (committedFirst ++ [.commit january [], .step 1 2000100, .discard, .step 2 2000101]) := by
  let := Extern.ascii
  exact draft_takes_effect_once reviewOffice _ (by decide +kernel)

/-- Two commits that both read the status before either has changed it. -/
def bothReadPending : List DraftEvent :=
  [.commit january [lunch 500 0], .commit january [lunch 500 0], .step 0 2000000, .step 1 2000001,
    .step 0 2000002, .step 0 2000003, .step 0 2000004, .step 0 2000005,
    .step 1 2000006, .step 1 2000007, .step 1 2000008, .step 1 2000009]

/-- Both write a statement. -/
theorem draft_committed_twice :
    letI := Extern.ascii
    ¬ TakesEffectOnce undated "d" reviewOffice bothReadPending := by
  let := Extern.ascii
  intro h
  have honce := h.statements
  have hrows : (runDrafts undated "d" ⟨reviewOffice, []⟩
      bothReadPending).office.desk.db.statements.keys = ["u-", "uuu-"] := by decide +kernel
  generalize runDrafts undated "d" ⟨reviewOffice, []⟩ bothReadPending = w at honce hrows
  have hfirst : "u-" ∈ w.office.desk.db.statements.keys := by simp [hrows]
  have hsecond : "uuu-" ∈ w.office.desk.db.statements.keys := by simp [hrows]
  obtain ⟨r, hr, hid⟩ := Table.mem_keys.mp hfirst
  obtain ⟨r', hr', hid'⟩ := Table.mem_keys.mp hsecond
  have hsame := honce r hr r' hr' List.not_mem_nil List.not_mem_nil
  rw [hsame] at hid
  have hids := hid.symm.trans hid'
  revert hids
  decide

end Dinero
