import Dinero.BillingCycles
import Dinero.Commit
import Dinero.Numerals

/-!
# Dinero.UpcomingBills

What a committed statement leaves on its instrument.

The classifier writes the bill of a statement to the instrument, and only if it
is the upcoming one.  The writer of the statement row has written what there is
of it by then.
-/

namespace Dinero

open Sql

/-! ## figures -/

/-- The figures of a bill. -/
structure Figures where
  statementDueDate : Option String
  minimumDue : Option Int
  currentBalance : Option Int
deriving DecidableEq, Repr

namespace Figures

/-- `COALESCE`, column by column. -/
def refresh (old new : Figures) : Figures where
  statementDueDate := new.statementDueDate.or old.statementDueDate
  minimumDue := new.minimumDue.or old.minimumDue
  currentBalance := new.currentBalance.or old.currentBalance

/-- Each figure of `new` is absent or the one of `old`. -/
def Repeats (new old : Figures) : Prop :=
  (new.statementDueDate = none ∨ new.statementDueDate = old.statementDueDate) ∧
    (new.minimumDue = none ∨ new.minimumDue = old.minimumDue) ∧
    (new.currentBalance = none ∨ new.currentBalance = old.currentBalance)

instance decidableRepeats (new old : Figures) : Decidable (Repeats new old) :=
  inferInstanceAs (Decidable (_ ∧ _ ∧ _))

theorem refresh_eq_self_iff {new old : Figures} : old.refresh new = old ↔ new.Repeats old := by
  have hor : ∀ {α : Type} (a b : Option α), a.or b = b ↔ a = none ∨ a = b := by
    intro α a b
    cases a <;> simp
  obtain ⟨d, m, c⟩ := old
  simp only [refresh, mk.injEq, hor, Repeats]

theorem refresh_refresh (old new : Figures) : (old.refresh new).refresh new = old.refresh new := by
  rw [refresh_eq_self_iff, Repeats]
  simp only [refresh]
  refine ⟨?_, ?_, ?_⟩
  · cases new.statementDueDate <;> simp
  · cases new.minimumDue <;> simp
  · cases new.currentBalance <;> simp

/-- What a statement does to the figures: the upcoming one replaces them, any other one those it
has. -/
def act (old : Figures) (upcoming : Bool) (new : Figures) : Figures :=
  if upcoming then new else old.refresh new

section Orders

variable {α : Type} (upcoming : α → Bool) (figures : α → Figures)

/-- The figures after some statements. -/
def after (b : Figures) (l : List α) : Figures :=
  l.foldl (fun f i => f.act (upcoming i) (figures i)) b

/-- The upcoming ones agree, and no other one has anything else to say. -/
def Settled (b : Figures) (l : List α) : Prop :=
  (∀ i ∈ l, ∀ j ∈ l, upcoming i = true → upcoming j = true → figures i = figures j) ∧
    ∀ i ∈ l, upcoming i = false → (figures i).Repeats b ∧
      ∀ j ∈ l, upcoming j = true → (figures i).Repeats (figures j)

/-- In whatever order, the statements that are not upcoming change nothing, and the end is the
same. -/
def OrderFree (b : Figures) (l : List α) : Prop :=
  (∀ o : List α, o.Perm l → ∀ pre i post, o = pre ++ i :: post → upcoming i = false →
    after upcoming figures b (pre ++ [i]) = after upcoming figures b pre) ∧
  ∀ o : List α, o.Perm l → after upcoming figures b o = after upcoming figures b l

variable {upcoming figures} {b : Figures} {l : List α}

theorem after_concat (b : Figures) (o : List α) (i : α) : after upcoming figures b (o ++ [i]) =
    (after upcoming figures b o).act (upcoming i) (figures i) := by
  rw [after, List.foldl_append]
  rfl

theorem after_concat_upcoming {i : α} (h : upcoming i = true) (o : List α) :
    after upcoming figures b (o ++ [i]) = figures i := by
  rw [after_concat, h]
  rfl

theorem after_concat_old {i : α} (h : upcoming i = false) (o : List α) :
    after upcoming figures b (o ++ [i]) = after upcoming figures b o ↔
      (figures i).Repeats (after upcoming figures b o) := by
  rw [after_concat, h, ← refresh_eq_self_iff]
  rfl

/-- The figures are those of before, until the upcoming bill is in. -/
theorem Settled.after (h : Settled upcoming figures b l) {o : List α} (ho : ∀ i ∈ o, i ∈ l) :
    after upcoming figures b o = b ∧ (∀ i ∈ o, upcoming i = false) ∨
      ∃ u ∈ o, upcoming u = true ∧ after upcoming figures b o = figures u := by
  induction o using List.reverseRecOn with
  | nil => exact .inl ⟨rfl, by simp⟩
  | append_singleton o i ih =>
    have hi : i ∈ l := ho i (by simp)
    cases hup : upcoming i with
    | true => exact .inr ⟨i, by simp, hup, after_concat_upcoming hup o⟩
    | false =>
      obtain ⟨hb, hother⟩ := h.2 i hi hup
      obtain ⟨hsame, hall⟩ | ⟨u, hu, hupu, hsame⟩ := ih fun j hj => ho j (by simp [hj])
      · left
        rw [(after_concat_old hup o).mpr (by rwa [hsame])]
        refine ⟨hsame, fun j hj => ?_⟩
        obtain hj | hj := List.mem_append.mp hj
        · exact hall j hj
        · rwa [List.mem_singleton.mp hj]
      · right
        have hrepeats := hother u (ho u (by simp [hu])) hupu
        rw [(after_concat_old hup o).mpr (by rwa [hsame])]
        exact ⟨u, by simp [hu], hupu, hsame⟩

theorem Settled.orderFree (h : Settled upcoming figures b l) : OrderFree upcoming figures b l := by
  constructor
  · rintro o ho pre i post rfl hold
    have hmem : ∀ j ∈ pre ++ i :: post, j ∈ l := fun j hj => ho.mem_iff.mp hj
    obtain ⟨hb, hother⟩ := h.2 i (hmem i (by simp)) hold
    rw [after_concat_old hold]
    obtain ⟨hsame, -⟩ | ⟨u, hu, hup, hsame⟩ := h.after (o := pre) fun j hj => hmem j (by simp [hj])
    · rwa [hsame]
    · rw [hsame]
      exact hother u (hmem u (by simp [hu])) hup
  · intro o ho
    obtain ⟨hsame, hall⟩ | ⟨u, hu, hup, hsame⟩ := h.after fun j hj => ho.mem_iff.mp hj
    · obtain ⟨hsame', -⟩ | ⟨u, hu, hup, -⟩ := h.after fun j hj => hj
      · rw [hsame, hsame']
      · rw [hall u (ho.mem_iff.mpr hu)] at hup
        cases hup
    · obtain ⟨-, hall⟩ | ⟨u', hu', hup', hsame'⟩ := h.after fun j hj => hj
      · rw [hall u (ho.mem_iff.mp hu)] at hup
        cases hup
      · rw [hsame, hsame']
        exact h.1 u (ho.mem_iff.mp hu) u' hu' hup hup'

theorem orderFree_iff [DecidableEq α] :
    OrderFree upcoming figures b l ↔ Settled upcoming figures b l := by
  refine ⟨fun ⟨hquiet, hend⟩ => ⟨fun i hi j hj hup hup' => ?_, fun i hi hold => ⟨?_, ?_⟩⟩,
    Settled.orderFree⟩
  · have hlast : ∀ k ∈ l, upcoming k = true → Figures.after upcoming figures b l = figures k := by
      intro k hk hupk
      have hperm : (l.erase k ++ [k]).Perm l :=
        (List.perm_append_singleton k _).trans (List.perm_cons_erase hk).symm
      rw [← hend _ hperm, after_concat_upcoming hupk]
    rw [← hlast i hi hup, hlast j hj hup']
  · exact (after_concat_old hold []).mp
      (hquiet (i :: l.erase i) (List.perm_cons_erase hi).symm [] i _ rfl hold)
  · intro j hj hup
    have hne : i ≠ j := by
      rintro rfl
      rw [hold] at hup
      cases hup
    have hperm : (j :: i :: (l.erase j).erase i).Perm l :=
      ((List.perm_cons_erase ((List.mem_erase_of_ne hne).mpr hi)).symm.cons j).trans
        (List.perm_cons_erase hj).symm
    have hsecond := (after_concat_old hold [j]).mp (hquiet _ hperm [j] i _ rfl hold)
    rwa [← List.nil_append [j], after_concat_upcoming hup] at hsecond

end Orders

end Figures

/-! ## the columns -/

/-- The columns a commit refreshes on an instrument, as they are stored. -/
structure Bill extends Figures where
  rewardsSummary : Option String
  billingCycleDay : Option Nat
deriving DecidableEq, Repr

/-- The desk with the bill columns of each instrument; they are blank where there is no row. -/
structure BilledDesk where
  desk : Desk
  bills : String → Bill

abbrev BillProg := Prog Empty BilledDesk

/-- The desk by itself. -/
def deskOf (s : Store BilledDesk) : Store Desk := ⟨s.db.desk, s.nextUuid, s.skip⟩

def onDesk (x : DeskProg α) : BillProg α :=
  zoom BilledDesk.desk (fun d b => { b with desk := d }) x

theorem onDesk_apply (x : DeskProg α) (ctx : Ctx Empty) (s : Store BilledDesk) :
    onDesk x ctx s = ((x ctx (deskOf s)).1,
      ⟨⟨(x ctx (deskOf s)).2.db, s.db.bills⟩, (x ctx (deskOf s)).2.nextUuid,
        (x ctx (deskOf s)).2.skip⟩) := rfl

/-- `UPDATE instruments SET … WHERE id = ?` on the bill columns. -/
def updateBill (instrumentId : String) (f : Bill → Bill) : BillProg Unit := update fun _ b =>
  .ok ((), { b with bills := Function.update b.bills instrumentId (f (b.bills instrumentId)) })

/-- `parse::<u8>()`. -/
def parseU8 (s : List Char) : Option Nat :=
  let digits := if s.head? = some '+' then s.drop 1 else s
  if digits ≠ [] ∧ digits.all Char.isDigit ∧ Numerals.number digits ≤ 255 then
    some (Numerals.number digits)
  else none

/-- The day in a date `YYYY-MM-DD`. -/
def cycleDay (billingPeriodEnd : String) : Option Nat :=
  if billingPeriodEnd ≠ unknownDate then
    (billingPeriodEnd.toList.splitOn '-')[2]?.bind parseU8
  else none

def StatementMetadata.figures (m : StatementMetadata) : Figures :=
  ⟨m.dueDate, m.minimumDue, m.currentBalance⟩

/-- The `UPDATE` of `write_statement_row`. -/
def Bill.refreshed (m : StatementMetadata) (b : Bill) : Bill where
  toFigures := b.toFigures.refresh m.figures
  rewardsSummary := m.rewardsSummary.or b.rewardsSummary
  billingCycleDay := b.billingCycleDay.or (cycleDay (m.billingPeriodEnd.getD unknownDate))

/-- The `UPDATE` of `update_instrument_bill_fields`. -/
def Bill.replaced (m : StatementMetadata) (b : Bill) : Bill := { b with toFigures := m.figures }

/-- What a statement makes of a bill. -/
def Bill.committed (cal : Calendar) (now : Int) (m : StatementMetadata) (b : Bill) : Bill :=
  if evaluateUpcomingBill cal now m then (b.refreshed m).replaced m else b.refreshed m

namespace Billed

variable [Extern]

/-- Writes the statement row derived from extracted metadata. -/
def writeStatementRow (stmtId instrumentId instrumentType : String) (m : StatementMetadata)
    (sourceMessageId : Option String) : BillProg Unit := do
  onDesk (Dinero.writeStatementRow
    (m.statementRow stmtId instrumentId instrumentType sourceMessageId))
  updateBill instrumentId (.refreshed m)

/-- Writes due-date and amount fields onto the instrument. -/
def updateInstrumentBillFields (instrumentId : String) (m : StatementMetadata) : BillProg Unit :=
  updateBill instrumentId (.replaced m)

/-- Classifies a statement as a bill and updates its instrument. -/
def classifyAndUpdate (cal : Calendar) (instrumentId : String) (m : StatementMetadata) :
    BillProg Bool := do
  let isUpcoming := evaluateUpcomingBill cal (← utcNow) m
  if isUpcoming then
    updateInstrumentBillFields instrumentId m
    return isUpcoming
  else return isUpcoming

/-- `commit_staged_draft`, less the rows of the statement. -/
def commitStagedDraft (cal : Calendar) (draftId : String) (edited : DraftMetadataUpdate) :
    BillProg String := do
  match ← onDesk (look (·.drafts.find? draftId)) with
  | none => Eff.fail (.anyhow ("draft not found: " ++ draftId))
  | some draft =>
    if draft.status ≠ .pendingReview then
      Eff.fail (.anyhow ("draft '" ++ draftId ++ "' is not pending_review (status='" ++
        draft.status.text ++ "') — already committed or discarded"))
    else do
      let instrumentId ← onDesk (onInstruments (resolveOrCreateInstrument edited.request))
      let stmtId ← newUuid uuid
      writeStatementRow stmtId instrumentId edited.instrumentType edited.metadata
        (some draft.fileHash)
      onDesk (change fun d =>
        { d with file := Function.update d.file stmtId (d.file draft.id) })
      let _ ← classifyAndUpdate cal instrumentId edited.metadata
      onDesk (insertUnprocessedOrIgnore (retentionRow draft.id))
      onDesk (change fun d => { d with
        unprocessed := d.unprocessed.modify draft.id (unprocessedPatch .resolved (some stmtId)) })
      let now ← utcNow
      onDesk (change fun d => { d with
        drafts := d.drafts.modify draft.id (draftPatch .committed now) })
      return stmtId

omit [Extern] in
/-- The row is there or it is free. -/
theorem writeStatementRow_stores (r : StatementsRow) (ctx : Ctx Empty) (s : Store Desk) :
    ∃ T, Dinero.writeStatementRow r ctx s =
      (.ok (), { s with db := { s.db with statements := T } }) := by
  cases hT : s.db.statements.insert? r with
  | some T => exact ⟨T, writeStatementRow_new hT ctx⟩
  | none =>
    obtain ⟨x, hx, hkey⟩ := Table.insert?_eq_none.mp hT
    have hthere : s.db.statements.contains r.id = true := Table.contains_iff.mpr ⟨x, hx, hkey⟩
    refine ⟨s.db.statements.modify r.id (metadataPatch r), ?_⟩
    rw [Dinero.writeStatementRow, Eff.bind_of_ok (look_apply _ _ _), if_pos hthere]
    rfl

omit [Extern] in
theorem writeStatementRow_apply (stmtId i instrumentType : String) (m : StatementMetadata)
    (sourceMessageId : Option String) (ctx : Ctx Empty) (s : Store BilledDesk) :
    ∃ T, Dinero.writeStatementRow (m.statementRow stmtId i instrumentType sourceMessageId) ctx
          (deskOf s) = (.ok (), ⟨{ s.db.desk with statements := T }, s.nextUuid, s.skip⟩) ∧
      writeStatementRow stmtId i instrumentType m sourceMessageId ctx s =
        (.ok (), ⟨⟨{ s.db.desk with statements := T },
          Function.update s.db.bills i ((s.db.bills i).refreshed m)⟩, s.nextUuid, s.skip⟩) := by
  obtain ⟨T, hT⟩ := writeStatementRow_stores
    (m.statementRow stmtId i instrumentType sourceMessageId) ctx (deskOf s)
  refine ⟨T, hT, ?_⟩
  have hdesk : onDesk (Dinero.writeStatementRow
      (m.statementRow stmtId i instrumentType sourceMessageId)) ctx s =
      (.ok (), ⟨⟨{ s.db.desk with statements := T }, s.db.bills⟩, s.nextUuid, s.skip⟩) := by
    rw [onDesk_apply, hT]
    rfl
  rw [writeStatementRow, Eff.bind_of_ok hdesk]
  rfl

omit [Extern] in
theorem classifyAndUpdate_apply (cal : Calendar) (i : String) (m : StatementMetadata) (now : Int)
    (s : Store BilledDesk) :
    classifyAndUpdate cal i m (.quiet now) s = (.ok (evaluateUpcomingBill cal now m),
      ⟨⟨s.db.desk, if evaluateUpcomingBill cal now m then
          Function.update s.db.bills i ((s.db.bills i).replaced m)
        else s.db.bills⟩, s.nextUuid, s.skip⟩) := by
  rw [classifyAndUpdate, Eff.bind_of_ok (utcNow_apply _ _)]
  by_cases hup : evaluateUpcomingBill cal now m = true
  · have hctx : evaluateUpcomingBill cal (Ctx.quiet now : Ctx Empty).now m = true := hup
    simp only [hctx, hup, if_true]
    rfl
  · have hctx : ¬ evaluateUpcomingBill cal (Ctx.quiet now : Ctx Empty).now m = true := hup
    simp only [hctx, hup]
    rfl

omit [Extern] in
/-- The two writers one after the other. -/
theorem classified_bills (cal : Calendar) (now : Int) (m : StatementMetadata) (i : String)
    (bills : String → Bill) :
    (if evaluateUpcomingBill cal now m then
      Function.update (Function.update bills i ((bills i).refreshed m)) i
        ((Function.update bills i ((bills i).refreshed m) i).replaced m)
      else Function.update bills i ((bills i).refreshed m)) =
        Function.update bills i ((bills i).committed cal now m) := by
  rw [Bill.committed]
  split
  · rw [Function.update_self, Function.update_idem]
  · rfl

/-- A draft in review is committed, and its instrument has the bill it makes. -/
theorem commit_pending (cal : Calendar) {s : Store BilledDesk} {draftId i : String}
    {draft : StatementDraftRow} {edited : DraftMetadataUpdate} {now : Int}
    (hfind : s.db.desk.drafts.find? draftId = some draft) (hreview : draft.status = .pendingReview)
    (hinst : s.db.desk.instrumentFor edited.request (uuid s.nextUuid) now = some i) :
    ∃ s', commitStagedDraft cal draftId edited (.quiet now) s = (.ok (uuid (s.nextUuid + 1)), s') ∧
      deskOf s' = (Dinero.commitStagedDraft draftId edited (.quiet now) (deskOf s)).2 ∧
      s'.db.desk.drafts = s.db.desk.drafts.modify draft.id (draftPatch .committed now) ∧
      s'.db.desk.instruments = (afterResolve edited.request now (deskOf s)).db.instruments ∧
      s'.db.bills = Function.update s.db.bills i
        ((s.db.bills i).committed cal now edited.metadata) := by
  have hfor : (deskOf s).db.instrumentFor edited.request (uuid (deskOf s).nextUuid) now =
      some i := hinst
  have hlook : onDesk (look (·.drafts.find? draftId)) (.quiet now) s = (.ok (some draft), s) := by
    rw [onDesk_apply, look_apply, ← hfind]
    rfl
  have hresolve : onDesk (onInstruments (resolveOrCreateInstrument edited.request)) (.quiet now) s =
      (.ok i, ⟨⟨(afterResolve edited.request now (deskOf s)).db, s.db.bills⟩, s.nextUuid + 1,
        s.skip⟩) := by
    rw [onDesk_apply, onInstruments_resolve, hfor]
    rfl
  obtain ⟨T, hT, hwrite⟩ := writeStatementRow_apply (uuid (s.nextUuid + 1)) i edited.instrumentType
    edited.metadata (some draft.fileHash) (.quiet now)
    ⟨⟨(afterResolve edited.request now (deskOf s)).db, s.db.bills⟩, s.nextUuid + 2, s.skip⟩
  have hdesk : (Dinero.commitStagedDraft draftId edited (.quiet now) (deskOf s)).2 =
      (writeCommitted draft edited i (.quiet now)
        (afterResolve edited.request now (deskOf s))).2 := by
    rw [commitStagedDraft_pending hfind hreview, hfor]
  have hrow : Dinero.writeStatementRow (edited.metadata.statementRow
      (uuid (afterResolve edited.request now (deskOf s)).nextUuid) i edited.instrumentType
      (some draft.fileHash)) (.quiet now) { afterResolve edited.request now (deskOf s) with
        nextUuid := (afterResolve edited.request now (deskOf s)).nextUuid + 1 } =
      (.ok (), ⟨{ (afterResolve edited.request now (deskOf s)).db with statements := T },
        s.nextUuid + 2, s.skip⟩) := hT
  rw [hdesk, writeCommitted, Eff.bind_of_ok (newUuid_apply _ _ _), Eff.bind_of_ok hrow]
  rw [commitStagedDraft, Eff.bind_of_ok hlook]
  dsimp only
  rw [if_neg (not_not.mpr hreview), Eff.bind_of_ok hresolve, Eff.bind_of_ok (newUuid_apply _ _ _),
    Eff.bind_of_ok hwrite, Eff.bind_of_ok (onDesk_apply _ _ _), Eff.bind_of_ok
    (classifyAndUpdate_apply _ _ _ _ _)]
  exact ⟨_, rfl, rfl, rfl, rfl, classified_bills cal now edited.metadata i s.db.bills⟩

/-! ## a set of statements -/

/-- The commit of one statement. -/
structure Import where
  now : Int
  draftId : String
  edited : DraftMetadataUpdate
deriving DecidableEq, Repr

namespace Import

variable (cal : Calendar)

/-- The classifier's decision. -/
def upcoming (i : Import) : Bool := evaluateUpcomingBill cal i.now i.edited.metadata

def figures (i : Import) : Figures := i.edited.metadata.figures

def run (i : Import) (s : Store BilledDesk) : Store BilledDesk :=
  (commitStagedDraft cal i.draftId i.edited (.quiet i.now) s).2

def runAll (l : List Import) (s : Store BilledDesk) : Store BilledDesk :=
  l.foldl (fun s i => i.run cal s) s

end Import

/-- The draft waits for its review, and its instrument is, or will be, the one with this id. -/
def Awaits (s : Store BilledDesk) (instrumentId : String) (i : Import) : Prop :=
  (∃ draft, s.db.desk.drafts.find? i.draftId = some draft ∧ draft.status = .pendingReview) ∧
    s.db.desk.instrumentFor i.edited.request (uuid s.nextUuid) i.now = some instrumentId

/-- The statements wait, each for itself, and are of one instrument. -/
structure AwaitsAll (s : Store BilledDesk) (instrumentId : String) (q : InstrumentRequest)
    (l : List Import) : Prop where
  awaits : ∀ i ∈ l, Awaits s instrumentId i
  request : ∀ i ∈ l, i.edited.request = q
  drafts : (l.map (·.draftId)).Nodup

variable {cal : Calendar} {s : Store BilledDesk} {instrumentId : String} {q : InstrumentRequest}
  {l : List Import} {i : Import}

omit [Extern] in
theorem findAny_insertOrIgnore {T : Instruments} {k : NaturalKey} {id : String}
    (h : T.findAny k = some id) (r : Instrument) : (T.insertOrIgnore r).findAny k = some id := by
  obtain ⟨-, hT⟩ | ⟨hT, -⟩ := T.insertOrIgnore_cases r
  · obtain ⟨x, hx, hid⟩ := Option.map_eq_some_iff.mp h
    rw [Instruments.findAny, (Indexed.insert?_eq_some.mp hT).2.2, List.find?_append, hx]
    exact congrArg some hid
  · rwa [hT]

theorem Awaits.run (h : Awaits s instrumentId i) :
    (commitStagedDraft cal i.draftId i.edited (.quiet i.now) s).1 = .ok (uuid (s.nextUuid + 1)) ∧
      (i.run cal s).db.bills instrumentId =
        (s.db.bills instrumentId).committed cal i.now i.edited.metadata := by
  obtain ⟨⟨draft, hfind, hreview⟩, hinst⟩ := h
  obtain ⟨s', hcommit, -, -, -, hbills⟩ := commit_pending cal hfind hreview hinst
  rw [Import.run, hcommit]
  exact ⟨rfl, by rw [hbills, Function.update_self]⟩

variable (cal) in
/-- The others still wait. -/
theorem AwaitsAll.run (h : AwaitsAll s instrumentId q (i :: l)) :
    AwaitsAll (i.run cal s) instrumentId q l := by
  obtain ⟨⟨draft, hfind, hreview⟩, hinst⟩ := h.awaits i (.head l)
  obtain ⟨s', hcommit, -, hdrafts, hinstruments, -⟩ := commit_pending cal hfind hreview hinst
  have hid : draft.id = i.draftId := (Table.find?_eq_some.mp hfind).2
  have hnodup := List.nodup_cons.mp h.drafts
  rw [Import.run, hcommit]
  refine ⟨fun j hj => ⟨?_, ?_⟩, fun j hj => h.request j (.tail i hj), hnodup.2⟩
  · obtain ⟨draft', hfind', hreview'⟩ := (h.awaits j (.tail i hj)).1
    refine ⟨draft', ?_, hreview'⟩
    have hne : j.draftId ≠ draft.id := by
      rw [hid]
      intro heq
      have hmem : j.draftId ∈ l.map (·.draftId) := List.mem_map_of_mem hj
      rw [heq] at hmem
      exact hnodup.1 hmem
    rw [hdrafts, Table.find?_modify, if_neg hne, hfind']
  · rw [Desk.instrumentFor, hinstruments]
    apply findAny_insertOrIgnore
    rw [h.request j (.tail i hj), ← h.request i (.head l)]
    exact hinst

/-- The figures of the instrument. -/
def figuresOf (s : Store BilledDesk) (instrumentId : String) : Figures :=
  (s.db.bills instrumentId).toFigures

omit [Extern] in
theorem committed_figures (i : Import) (b : Bill) :
    (b.committed cal i.now i.edited.metadata).toFigures =
      b.toFigures.act (i.upcoming cal) i.figures := by
  unfold Bill.committed Figures.act Import.upcoming
  split <;> rfl

/-- After commits of waiting statements, in their order. -/
theorem figuresOf_runAll (h : AwaitsAll s instrumentId q l) :
    figuresOf (Import.runAll cal l s) instrumentId =
      Figures.after (Import.upcoming cal) Import.figures (figuresOf s instrumentId) l := by
  induction l generalizing s with
  | nil => rfl
  | cons i l ih =>
    have hfirst : figuresOf (i.run cal s) instrumentId =
        (figuresOf s instrumentId).act (i.upcoming cal) i.figures := by
      rw [figuresOf, (h.awaits i (.head l)).run.2, committed_figures]
      rfl
    have hrest := ih (h.run cal)
    rw [hfirst] at hrest
    exact hrest

theorem AwaitsAll.perm (h : AwaitsAll s instrumentId q l) {o : List Import} (ho : o.Perm l) :
    AwaitsAll s instrumentId q o where
  awaits i hi := h.awaits i (ho.mem_iff.mp hi)
  request i hi := h.request i (ho.mem_iff.mp hi)
  drafts := (ho.map _).nodup_iff.mpr h.drafts

theorem AwaitsAll.front {pre post : List Import} (h : AwaitsAll s instrumentId q (pre ++ post)) :
    AwaitsAll s instrumentId q pre where
  awaits i hi := h.awaits i (List.mem_append_left _ hi)
  request i hi := h.request i (List.mem_append_left _ hi)
  drafts := by
    have hdrafts := h.drafts
    rw [List.map_append] at hdrafts
    exact hdrafts.of_append_left

/-- Commits of statements of one instrument, in whatever order: one that is not upcoming leaves
the figures alone, and the figures in the end do not depend on the order. -/
def BillsOrderFree (cal : Calendar) (s : Store BilledDesk) (instrumentId : String)
    (l : List Import) : Prop :=
  (∀ o : List Import, o.Perm l → ∀ pre i post, o = pre ++ i :: post → i.upcoming cal = false →
    figuresOf (i.run cal (Import.runAll cal pre s)) instrumentId =
      figuresOf (Import.runAll cal pre s) instrumentId) ∧
  ∀ o : List Import, o.Perm l → figuresOf (Import.runAll cal o s) instrumentId =
    figuresOf (Import.runAll cal l s) instrumentId

theorem BillsOrderFree.iff_orderFree (h : AwaitsAll s instrumentId q l) :
    BillsOrderFree cal s instrumentId l ↔
      Figures.OrderFree (Import.upcoming cal) Import.figures (figuresOf s instrumentId) l := by
  have hrun : ∀ {o pre post : List Import}, o.Perm l → o = pre ++ post →
      figuresOf (Import.runAll cal pre s) instrumentId =
        Figures.after (Import.upcoming cal) Import.figures (figuresOf s instrumentId) pre := by
    rintro o pre post ho rfl
    exact figuresOf_runAll (h.perm ho).front
  have hnext : ∀ {o pre post : List Import} {i : Import}, o.Perm l → o = pre ++ i :: post →
      figuresOf (i.run cal (Import.runAll cal pre s)) instrumentId =
        Figures.after (Import.upcoming cal) Import.figures (figuresOf s instrumentId)
          (pre ++ [i]) := by
    intro o pre post i ho hsplit
    have hconcat : i.run cal (Import.runAll cal pre s) = Import.runAll cal (pre ++ [i]) s := by
      rw [Import.runAll, Import.runAll, List.foldl_append]
      rfl
    rw [hconcat]
    exact hrun ho (by rw [hsplit, List.append_assoc, List.singleton_append])
  unfold BillsOrderFree Figures.OrderFree
  refine and_congr (forall_congr' fun o => forall_congr' fun ho => forall_congr' fun pre =>
    forall_congr' fun i => forall_congr' fun post => forall_congr' fun hsplit =>
      imp_congr_right fun _ => ?_) (forall_congr' fun o => forall_congr' fun ho => ?_)
  · rw [hnext ho hsplit, hrun ho hsplit]
  · rw [hrun ho (List.append_nil o).symm, hrun (.refl l) (List.append_nil l).symm]

/-- Exactly if the upcoming statements have the same figures, and every other one has none but
those of the instrument and of the upcoming ones. -/
theorem bills_order_free_iff (h : AwaitsAll s instrumentId q l) :
    BillsOrderFree cal s instrumentId l ↔
      (∀ i ∈ l, ∀ j ∈ l, i.upcoming cal = true → j.upcoming cal = true → i.figures = j.figures) ∧
        ∀ i ∈ l, i.upcoming cal = false → i.figures.Repeats (figuresOf s instrumentId) ∧
          ∀ j ∈ l, j.upcoming cal = true → i.figures.Repeats j.figures := by
  rw [BillsOrderFree.iff_orderFree h, Figures.orderFree_iff]
  rfl

/-! ## two statements -/

/-- The dates below, and a day of February. -/
def february : Calendar where
  parse s := match s with
    | "2026-01-31" => some (2026, 1, 31)
    | "2026-02-20" => some (2026, 2, 20)
    | "2025-01-31" => some (2025, 1, 31)
    | "2025-02-20" => some (2025, 2, 20)
    | _ => none
  today _ := (2026, 2, 10)

/-- A statement of one card. -/
def cardStatement (draftId start stop : String) (f : Figures) : Import where
  now := 1770681600
  draftId := draftId
  edited := ⟨"HDFC", "1234", "credit_card", some start, some stop, f.statementDueDate, none,
    f.currentBalance, f.minimumDue⟩

/-- A draft that waits for its review. -/
def pendingDraft (id : String) : StatementDraftRow where
  id := id
  origin := "upload"
  fileHash := id
  instrumentId := none
  issuerName := some "HDFC"
  maskedIdentifier := some "1234"
  instrumentType := some "credit_card"
  billingPeriodStart := none
  billingPeriodEnd := none
  dueDate := none
  statementDate := none
  currentBalance := none
  minimumDue := none
  rowsJson := "[]"
  status := .pendingReview
  updatedAt := 0

def dueInFebruary : Figures := ⟨some "2026-02-20", some 25000, some 500000⟩

def dueLastYear : Figures := ⟨some "2025-02-20", some 35000, some 700000⟩

/-- Their drafts, before anything is committed. -/
def twoWaiting : Store BilledDesk where
  db := ⟨{ Desk.start .empty with drafts := ⟨[pendingDraft "d", pendingDraft "e"], by decide⟩ },
    fun _ => ⟨⟨none, none, none⟩, none, none⟩⟩
  nextUuid := 0
  skip := none

omit [Extern] in
theorem awaits_two (f : Figures) :
    letI := Extern.ascii
    AwaitsAll twoWaiting "-" ⟨"credit_card", "HDFC", "1234", none⟩
      [cardStatement "d" "2026-01-01" "2026-01-31" dueInFebruary,
        cardStatement "e" "2025-01-01" "2025-01-31" f] := by
  let := Extern.ascii
  have hinst : twoWaiting.db.desk.instrumentFor ⟨"credit_card", "HDFC", "1234", none⟩ (uuid 0)
      1770681600 = some "-" := by decide +kernel
  have hids : ["d", "e"].Nodup := by decide
  refine ⟨fun i hi => ?_, fun i hi => ?_, hids⟩
  · obtain rfl | rfl : i = _ ∨ i = _ := by simpa using hi
    · exact ⟨⟨pendingDraft "d", rfl, rfl⟩, hinst⟩
    · exact ⟨⟨pendingDraft "e", rfl, rfl⟩, hinst⟩
  · obtain rfl | rfl : i = _ ∨ i = _ := by simpa using hi
    · rfl
    · rfl

omit [Extern] in
/-- A statement without figures goes with the upcoming one. -/
theorem silent_statement_order_free :
    letI := Extern.ascii
    BillsOrderFree february twoWaiting "-"
      [cardStatement "d" "2026-01-01" "2026-01-31" dueInFebruary,
        cardStatement "e" "2025-01-01" "2025-01-31" ⟨none, none, none⟩] := by
  let := Extern.ascii
  exact (bills_order_free_iff (awaits_two _)).mpr (by decide +kernel)

omit [Extern] in
/-- Last year's bill, if it comes last. -/
theorem old_statement_overwrites :
    letI := Extern.ascii
    let upcoming := cardStatement "d" "2026-01-01" "2026-01-31" dueInFebruary
    let old := cardStatement "e" "2025-01-01" "2025-01-31" dueLastYear
    old.upcoming february = false ∧
      figuresOf (Import.runAll february [old, upcoming] twoWaiting) "-" = dueInFebruary ∧
      figuresOf (Import.runAll february [upcoming, old] twoWaiting) "-" = dueLastYear ∧
      ¬ BillsOrderFree february twoWaiting "-" [upcoming, old] := by
  let := Extern.ascii
  intro upcoming old
  have hfirst : figuresOf (Import.runAll february [old, upcoming] twoWaiting) "-" =
      dueInFebruary := by decide +kernel
  have hlast : figuresOf (Import.runAll february [upcoming, old] twoWaiting) "-" =
      dueLastYear := by decide +kernel
  refine ⟨by decide +kernel, hfirst, hlast, fun h => ?_⟩
  have hsame := h.2 [old, upcoming] (.swap _ _ _)
  rw [hfirst, hlast] at hsame
  exact absurd hsame (by decide)

end Billed

end Dinero
