import Dinero.Commit
import Mathlib.Data.List.ReduceOption

/-!
# Dinero.EntryPairing

Rows and the entries they were stored as.

The loop that stores the rows leaves out those it cannot store, and the
observations are made by laying its ids beside the rows again, by position.
Nothing moves as long as what is left out comes last.
-/

namespace Dinero

open Sql

/-! ## lists with gaps -/

section Gaps

variable {α : Type}

/-- Closing the gaps of a list moves nothing just if nothing stands behind a gap. -/
theorem reduceOption_stays_iff (l : List (Option α)) :
    (∀ (k : Nat) (x : α), l.reduceOption[k]? = some x ↔ l[k]? = some (some x)) ↔
      ∀ (i j : Nat) (x : α), i < j → l[j]? = some (some x) → l[i]? ≠ some none := by
  induction l with
  | nil => simp
  | cons o l ih =>
    cases o with
    | some a =>
      rw [List.reduceOption_cons_of_some]
      constructor
      · intro h i j x hij hj
        have hrest := ih.mp fun k y => by simpa using h (k + 1) y
        cases i with
        | zero => simp
        | succ i =>
          obtain ⟨j, rfl⟩ := Nat.exists_eq_add_of_lt hij
          have hne := hrest i (i + j + 1) x (by omega) (by simpa [Nat.add_right_comm] using hj)
          simpa using hne
      · intro h k x
        have hrest := ih.mpr fun i j y hij hj => by
          simpa using h (i + 1) (j + 1) y (by omega) (by simpa using hj)
        cases k with
        | zero => simp
        | succ k => simpa using hrest k x
    | none =>
      rw [List.reduceOption_cons_of_none]
      constructor
      · intro h i j x hij hj
        exfalso
        have hmem : x ∈ l.reduceOption := by
          obtain ⟨j, rfl⟩ := Nat.exists_eq_add_of_lt hij
          rw [List.reduceOption_mem_iff]
          exact List.mem_of_getElem? (by simpa using hj)
        obtain ⟨y, rest, hrest⟩ := List.exists_cons_of_ne_nil (List.ne_nil_of_mem hmem)
        simpa using (h 0 y).mp (by rw [hrest]; rfl)
      · intro h k x
        have hgap : ∀ (j : Nat) (y : α), l[j]? ≠ some (some y) := by
          intro j y hj
          exact h 0 (j + 1) y (by omega) (by simpa using hj) rfl
        have hnil : l.reduceOption = [] := by
          rw [List.eq_nil_iff_forall_not_mem]
          intro y hy
          obtain ⟨j, hj⟩ := List.mem_iff_getElem?.mp (List.reduceOption_mem_iff.mp hy)
          exact hgap j y hj
        rw [hnil]
        cases k with
        | zero => simp
        | succ k => simpa using hgap k x

end Gaps

variable [Extern]

/-! ## the loop -/

/-- One turn of `map_rows_to_statement_entries`: the id drawn for the row, if its entry could be
inserted. -/
def Office.createEntry (statementId : String) (fails : Bool) (now : Int) (w : Office)
    (row : StatementRow) : Office × Option String :=
  let id := uuid w.desk.nextUuid
  match if fails then none else w.draw.insertEntry (row.entry id statementId now) with
  | some w' => (w', some id)
  | none => (w.draw, none)

/-- What becomes of the rows from position `i` on.  The insert at position `k` is one that fails
if `fails k`. -/
def Office.createEntries (statementId : String) (fails : Nat → Bool) (clock : Nat → Int) :
    Office → Nat → List StatementRow → Office × List (Option String)
  | w, _, [] => (w, [])
  | w, i, row :: rows =>
    let created := w.createEntry statementId (fails i) (clock i) row
    let rest := createEntries statementId fails clock created.1 (i + 1) rows
    (rest.1, created.2 :: rest.2)

/-- Maps extracted rows onto statement entries for reconciliation. -/
def mapRowsToStatementEntries (statementId : String) (fails : Nat → Bool) (clock : Nat → Int)
    (rows : List StatementRow) (w : Office) : Office × List String :=
  let created := w.createEntries statementId fails clock 0 rows
  (created.1, created.2.reduceOption)

/-- The statement is there and no entry has the id. -/
def Office.Takes (w : Office) (statementId id : String) : Prop :=
  statementId ∈ w.ledger.db.statements ∧ ∀ r ∈ w.entries, r.id ≠ id

variable {statementId : String} {fails : Nat → Bool} {clock : Nat → Int} {w w' : Office}

/-- What one turn does. -/
inductive Office.Turn (statementId : String) (fails : Bool) (now : Int) (w : Office)
    (row : StatementRow) : Office × Option String → Prop
  | created (T : Table StatementEntriesRow) (hok : fails = false)
      (hrow : statementId ∈ w.ledger.db.statements)
      (hT : w.entries.insert? (row.entry (uuid w.desk.nextUuid) statementId now) = some T) :
      Turn statementId fails now w row
        ({ w.draw with
            entries := T
            ledger := { w.ledger with
              db := { w.ledger.db with
                statementEntries := uuid w.desk.nextUuid :: w.ledger.db.statementEntries } } },
          some (uuid w.desk.nextUuid))
  | skipped (hnot : ¬ (fails = false ∧ w.Takes statementId (uuid w.desk.nextUuid))) :
      Turn statementId fails now w row (w.draw, none)

theorem Office.createEntry_turn (statementId : String) (fails : Bool) (now : Int) (w : Office)
    (row : StatementRow) :
    Turn statementId fails now w row (w.createEntry statementId fails now row) := by
  unfold createEntry
  cases fails with
  | true => exact .skipped (by simp)
  | false =>
    simp only [Bool.false_eq_true, if_false]
    unfold insertEntry
    by_cases hrow : statementId ∈ w.ledger.db.statements
    · have hthere : (row.entry (uuid w.desk.nextUuid) statementId now).statementId ∈
          w.draw.ledger.db.statements := hrow
      rw [if_pos hthere]
      cases hT : w.draw.entries.insert? (row.entry (uuid w.desk.nextUuid) statementId now) with
      | some T => exact .created T rfl hrow hT
      | none =>
        obtain ⟨r, hr, hkey⟩ := Table.insert?_eq_none.mp hT
        exact .skipped fun htakes => htakes.2.2 r hr hkey
    · have hmissing : ¬ (row.entry (uuid w.desk.nextUuid) statementId now).statementId ∈
          w.draw.ledger.db.statements := hrow
      rw [if_neg hmissing]
      exact .skipped fun htakes => hrow htakes.2.1

/-- An id but the one drawn is as free as before. -/
theorem Office.Turn.takes_iff {fails : Bool} {now : Int} {row : StatementRow}
    {r : Office × Option String} (h : Turn statementId fails now w row r) {m : Nat}
    (hm : m ≠ w.desk.nextUuid) :
    r.1.Takes statementId (uuid m) ↔ w.Takes statementId (uuid m) := by
  cases h with
  | skipped => exact Iff.rfl
  | created T hok hrow hT =>
    have hne : uuid w.desk.nextUuid ≠ uuid m := fun heq => hm (Extern.uuid_injective heq).symm
    unfold Takes
    refine and_congr_right fun _ => ?_
    constructor
    · intro hfree r hr
      exact hfree r ((Table.mem_of_insert? hT).mpr (.inl hr))
    · intro hfree r hr
      obtain hr | rfl := (Table.mem_of_insert? hT).mp hr
      · exact hfree r hr
      · exact hne

theorem Office.Turn.nextUuid {fails : Bool} {now : Int} {row : StatementRow}
    {r : Office × Option String} (h : Turn statementId fails now w row r) :
    r.1.desk.nextUuid = w.desk.nextUuid + 1 := by
  cases h <;> rfl

theorem Office.Turn.snd {fails : Bool} {now : Int} {row : StatementRow}
    {r : Office × Option String} (h : Turn statementId fails now w row r) :
    r.2 = some (uuid w.desk.nextUuid) ∧ fails = false ∧
        w.Takes statementId (uuid w.desk.nextUuid) ∨
      r.2 = none ∧ ¬ (fails = false ∧ w.Takes statementId (uuid w.desk.nextUuid)) := by
  cases h with
  | created T hok hrow hT => exact .inl ⟨rfl, hok, hrow, (Table.insert?_eq_some.mp hT).1⟩
  | skipped hnot => exact .inr ⟨rfl, hnot⟩

/-- The entry of the `k`th row goes in. -/
def Office.GoesIn (w : Office) (statementId : String) (fails : Nat → Bool) (k : Nat) : Prop :=
  fails k = false ∧ w.Takes statementId (uuid (w.desk.nextUuid + k))

/-- What becomes of a row depends on that row alone. -/
theorem Office.createEntries_some_iff (statementId : String) (fails : Nat → Bool)
    (clock : Nat → Int) (rows : List StatementRow) (w : Office) (i k : Nat) (id : String) :
    (w.createEntries statementId fails clock i rows).2[k]? = some (some id) ↔
      k < rows.length ∧ w.GoesIn statementId (fun k => fails (i + k)) k ∧
        id = uuid (w.desk.nextUuid + k) := by
  induction rows generalizing w i k with
  | nil => simp [createEntries]
  | cons row rows ih =>
    have hturn := createEntry_turn statementId (fails i) (clock i) w row
    simp only [createEntries]
    generalize w.createEntry statementId (fails i) (clock i) row = r at hturn ⊢
    cases k with
    | zero =>
      have hzero : ((r.2 :: (createEntries statementId fails clock r.1 (i + 1) rows).2)[0]? =
          some (some id)) ↔ r.2 = some id := by simp
      rw [hzero]
      obtain ⟨hid, hok, htakes⟩ | ⟨hnone, hnot⟩ := hturn.snd
      · rw [hid, Option.some_inj, eq_comm]
        simp [GoesIn, hok, htakes]
      · rw [hnone]
        simpa [GoesIn] using fun hok htakes => absurd ⟨hok, htakes⟩ hnot
    | succ k =>
      rw [List.getElem?_cons_succ, ih, hturn.nextUuid]
      unfold GoesIn
      rw [hturn.nextUuid, hturn.takes_iff (by omega)]
      simp [Nat.add_assoc, Nat.add_comm 1]

theorem Office.length_createEntries (statementId : String) (fails : Nat → Bool)
    (clock : Nat → Int) (rows : List StatementRow) (w : Office) (i : Nat) :
    (w.createEntries statementId fails clock i rows).2.length = rows.length := by
  induction rows generalizing w i with
  | nil => rfl
  | cons row rows ih => simp [createEntries, ih]

theorem Office.createEntries_none_iff (statementId : String) (fails : Nat → Bool)
    (clock : Nat → Int) (rows : List StatementRow) (w : Office) (i k : Nat) :
    (w.createEntries statementId fails clock i rows).2[k]? = some none ↔
      k < rows.length ∧ ¬ w.GoesIn statementId (fun k => fails (i + k)) k := by
  have hsome := createEntries_some_iff statementId fails clock rows w i k
  have hlength := length_createEntries statementId fails clock rows w i
  cases hk : (w.createEntries statementId fails clock i rows).2[k]? with
  | none =>
    rw [List.getElem?_eq_none_iff, hlength] at hk
    simp [hk]
  | some o =>
    have hlt : k < rows.length := by
      rw [← hlength]
      exact (List.getElem?_eq_some_iff.mp hk).1
    rw [hk] at hsome
    cases o with
    | none => simpa [hlt] using hsome
    | some id =>
      have hid := (hsome id).mp rfl
      simp [hid.2.1]

theorem Office.Turn.find?_of_some {fails : Bool} {now : Int} {row : StatementRow}
    {r : Office × Option String} (h : Turn statementId fails now w row r) {id : String}
    {e : StatementEntriesRow} (he : w.entries.find? id = some e) :
    r.1.entries.find? id = some e := by
  cases h with
  | skipped => exact he
  | created T hok hrow hT =>
    have hne : id ≠ uuid w.desk.nextUuid := by
      obtain ⟨hmem, hkey⟩ := Table.find?_eq_some.mp he
      intro hid
      exact (Table.insert?_eq_some.mp hT).1 e hmem (hkey.trans hid)
    exact ((Table.find?_insert? hT id).trans (if_neg hne)).trans he

/-- Entries stay while others are created. -/
theorem Office.createEntries_find?_of_some (statementId : String) (fails : Nat → Bool)
    (clock : Nat → Int) (rows : List StatementRow) {w : Office} (i : Nat) {id : String}
    {e : StatementEntriesRow} (he : w.entries.find? id = some e) :
    (w.createEntries statementId fails clock i rows).1.entries.find? id = some e := by
  induction rows generalizing w i with
  | nil => exact he
  | cons row rows ih =>
    exact ih (i + 1) ((createEntry_turn statementId (fails i) (clock i) w row).find?_of_some he)

/-- The entry of a row is stored with what the row says. -/
theorem Office.createEntries_find? (statementId : String) (fails : Nat → Bool)
    (clock : Nat → Int) {rows : List StatementRow} {w : Office} {i k : Nat} {id : String}
    {row : StatementRow} (hrow : rows[k]? = some row)
    (h : (w.createEntries statementId fails clock i rows).2[k]? = some (some id)) :
    (w.createEntries statementId fails clock i rows).1.entries.find? id =
      some (row.entry id statementId (clock (i + k))) := by
  induction rows generalizing w i k with
  | nil => simp at hrow
  | cons first rows ih =>
    have hturn := createEntry_turn statementId (fails i) (clock i) w first
    simp only [createEntries] at h ⊢
    generalize w.createEntry statementId (fails i) (clock i) first = r at hturn h ⊢
    cases k with
    | zero =>
      obtain rfl : first = row := by simpa using hrow
      have hid : r.2 = some id := by simpa using h
      apply createEntries_find?_of_some
      cases hturn with
      | skipped => cases hid
      | created T hok hthere hT =>
        obtain rfl : uuid w.desk.nextUuid = id := by simpa using hid
        exact (Table.find?_insert? hT (uuid w.desk.nextUuid)).trans (if_pos rfl)
    | succ k =>
      have hrest := ih (by simpa using hrow) (by simpa using h)
      rwa [Nat.add_assoc, Nat.add_comm 1] at hrest

/-! ## the observations -/

theorem buildAllObservations_getElem? {instrumentId : String} {rows : List StatementRow}
    {ids : List String} {drawn k : Nat} {obs : IncomingObservation} :
    (buildAllObservations instrumentId rows ids drawn)[k]? = some obs ↔
      ∃ row id, rows[k]? = some row ∧ ids[k]? = some id ∧
        obs = buildObservation id instrumentId row (uuid (drawn + k)) := by
  rw [buildAllObservations, List.getElem?_map, List.getElem?_zipIdx, Option.map_map,
    Option.map_eq_some_iff]
  constructor
  · rintro ⟨⟨row, id⟩, hzip, rfl⟩
    obtain ⟨hrow, hid⟩ := List.getElem?_zip_eq_some.mp hzip
    exact ⟨row, id, hrow, hid, rfl⟩
  · rintro ⟨row, id, hrow, hid, rfl⟩
    exact ⟨(row, id), List.getElem?_zip_eq_some.mpr ⟨hrow, hid⟩, rfl⟩

/-- Every observation carries the id of the entry that its own row was stored as, and every row
that was stored has an observation.  The row of the `k`th observation is the `k`th. -/
structure EntriesPaired (statementId instrumentId : String) (fails : Nat → Bool)
    (clock : Nat → Int) (rows : List StatementRow) (drawn : Nat) (w : Office) : Prop where
  entry : ∀ (k : Nat) (obs : IncomingObservation), (buildAllObservations instrumentId rows
      (mapRowsToStatementEntries statementId fails clock rows w).2 drawn)[k]? = some obs →
    ∃ row, rows[k]? = some row ∧
      (w.createEntries statementId fails clock 0 rows).2[k]? = some (some obs.sourceRecordId) ∧
      (mapRowsToStatementEntries statementId fails clock rows w).1.entries.find?
        obs.sourceRecordId = some (row.entry obs.sourceRecordId statementId (clock k)) ∧
      obs = buildObservation obs.sourceRecordId instrumentId row (uuid (drawn + k))
  observed : ∀ (k : Nat) (id : String),
    (w.createEntries statementId fails clock 0 rows).2[k]? = some (some id) → ∃ obs, (buildAllObservations instrumentId rows
      (mapRowsToStatementEntries statementId fails clock rows w).2 drawn)[k]? = some obs

theorem EntriesPaired.iff_stays {statementId instrumentId : String} {fails : Nat → Bool}
    {clock : Nat → Int} {rows : List StatementRow} {drawn : Nat} {w : Office} :
    EntriesPaired statementId instrumentId fails clock rows drawn w ↔ ∀ (k : Nat) (id : String),
      (w.createEntries statementId fails clock 0 rows).2.reduceOption[k]? = some id ↔
        (w.createEntries statementId fails clock 0 rows).2[k]? = some (some id) := by
  have hlength := w.length_createEntries statementId fails clock rows 0
  have hle := List.reduceOption_length_le (w.createEntries statementId fails clock 0 rows).2
  constructor
  · intro h k id
    have hforward : ∀ x,
        (w.createEntries statementId fails clock 0 rows).2.reduceOption[k]? = some x →
          (w.createEntries statementId fails clock 0 rows).2[k]? = some (some x) := by
      intro x hx
      have hlt := (List.getElem?_eq_some_iff.mp hx).1
      have hrow := List.getElem?_eq_getElem (show k < rows.length by omega)
      obtain ⟨row, -, hout, -⟩ := h.entry k _
        (buildAllObservations_getElem?.mpr ⟨_, x, hrow, hx, rfl⟩)
      exact hout
    refine ⟨hforward id, fun hout => ?_⟩
    obtain ⟨obs, hobs⟩ := h.observed k id hout
    obtain ⟨row, x, -, hx, -⟩ := buildAllObservations_getElem?.mp hobs
    have hsame := hforward x hx
    rw [hout, Option.some_inj, Option.some_inj] at hsame
    rwa [hsame]
  · intro h
    refine ⟨fun k obs hobs => ?_, fun k id hid => ?_⟩
    · obtain ⟨row, id, hrow, hid, rfl⟩ := buildAllObservations_getElem?.mp hobs
      have hout := (h k id).mp hid
      have hfind := w.createEntries_find? statementId fails clock hrow hout
      rw [Nat.zero_add] at hfind
      exact ⟨row, hrow, hout, hfind, rfl⟩
    · have hlt : k < rows.length := by
        rw [← hlength]
        exact (List.getElem?_eq_some_iff.mp hid).1
      exact ⟨_, buildAllObservations_getElem?.mpr
        ⟨_, id, List.getElem?_eq_getElem hlt, (h k id).mpr hid, rfl⟩⟩

theorem entries_paired_iff (statementId instrumentId : String) (fails : Nat → Bool)
    (clock : Nat → Int) (rows : List StatementRow) (drawn : Nat) (w : Office) :
    EntriesPaired statementId instrumentId fails clock rows drawn w ↔
      ∀ i j, i < j → j < rows.length → w.GoesIn statementId fails j →
        w.GoesIn statementId fails i := by
  have hsome := w.createEntries_some_iff statementId fails clock rows 0
  have hnone := w.createEntries_none_iff statementId fails clock rows 0
  simp only [Nat.zero_add] at hsome hnone
  rw [EntriesPaired.iff_stays, reduceOption_stays_iff]
  constructor
  · intro h i j hij hj hin
    by_contra hout
    exact h i j _ hij ((hsome j _).mpr ⟨hj, hin, rfl⟩) ((hnone i).mpr ⟨by omega, hout⟩)
  · intro h i j id hij hj hi
    obtain ⟨hlt, hin, -⟩ := (hsome j id).mp hj
    exact ((hnone i).mp hi).2 (h i j hij hlt hin)

/-! ## the call -/

section Call

variable {cal : Calendar} {call : CommitCall} {c : CommitFrame}

theorem CommitStage.step_insertingEntries (fault : Option Fault) (now : Int) (w : Office)
    (row : StatementRow) (rows : List StatementRow) (ids : List String) :
    (CommitStage.insertingEntries c (row :: rows) ids).step cal call fault now w =
      ((w.createEntry c.stmtId fault.isSome now row).1, .insertingEntries c rows
        (ids ++ (w.createEntry c.stmtId fault.isSome now row).2.toList)) := by
  simp only [CommitStage.step, Office.createEntry]
  cases fault with
  | some f => simp
  | none =>
    simp only [Option.isSome_none, Bool.false_eq_true, if_false]
    cases w.draw.insertEntry (row.entry (uuid w.desk.nextUuid) c.stmtId now) <;> simp

/-- A commit stores its rows the way the loop does, whichever of its statements fail. -/
theorem CommitStage.steps_insertingEntries (faults : Nat → Option Fault) (clock : Nat → Int)
    (rows : List StatementRow) (w : Office) (i : Nat) (ids : List String) :
    (List.range' i rows.length).foldl
        (fun s k => s.2.step cal call (faults k) (clock k) s.1)
        (w, CommitStage.insertingEntries c rows ids) =
      ((w.createEntries c.stmtId (fun k => (faults k).isSome) clock i rows).1,
        .insertingEntries c []
          (ids ++
            (w.createEntries c.stmtId (fun k => (faults k).isSome) clock i
              rows).2.reduceOption)) := by
  induction rows generalizing w i ids with
  | nil => simp [Office.createEntries]
  | cons row rows ih =>
    rw [List.length_cons, List.range'_succ, List.foldl_cons, step_insertingEntries, ih]
    simp only [Office.createEntries]
    cases (w.createEntry c.stmtId (faults i).isSome (clock i) row).2 with
    | none => simp [List.reduceOption_cons_of_none]
    | some id => simp [List.reduceOption_cons_of_some]

/-- Its observations are made from what the loop returns. -/
theorem CommitStage.steps_ingesting (faults : Nat → Option Fault) (clock : Nat → Int)
    (w : Office) : ∃ w' drawn,
    (List.range (call.rows.length + 1)).foldl
        (fun s k => s.2.step cal call (faults k) (clock k) s.1)
        (w, CommitStage.insertingEntries c call.rows []) =
      (w', .ingesting c (buildAllObservations c.instrumentId call.rows
        (mapRowsToStatementEntries c.stmtId (fun k => (faults k).isSome) clock call.rows w).2
        drawn)) := by
  rw [List.range_succ, List.foldl_append, List.range_eq_range', steps_insertingEntries]
  exact ⟨_, _, rfl⟩

end Call

/-! ## a row left out -/

/-- Two purchases of one day. -/
def lunchAndDinner : List StatementRow :=
  [⟨.date 20000, "CAFE", 10000, "INR", "debit", none, 0⟩,
    ⟨.date 20000, "GRILL", 25000, "INR", "debit", none, 1⟩]

/-- The desk of somebody with one statement. -/
def oneStatement : Office where
  desk := ⟨Desk.start .empty, 0, none⟩
  entries := .empty
  ledger := { firstLedger with db := { firstLedger.db with statements := ["s"] } }

omit [Extern] in
/-- Without an entry for lunch, lunch is observed under the entry of dinner. -/
theorem lunch_takes_dinner :
    letI := Extern.ascii
    let stored := mapRowsToStatementEntries "s" (· = 0) (fun _ => 0) lunchAndDinner oneStatement
    stored.1.entries.rows.map (fun e => (e.id, e.merchantRaw)) = [("u-", "GRILL")] ∧
      (buildAllObservations "account" lunchAndDinner stored.2 0).map
        (fun o => (o.sourceRecordId, o.merchantRaw)) = [("u-", some "CAFE")] ∧
      ¬ EntriesPaired "s" "account" (· = 0) (fun _ => 0) lunchAndDinner 0 oneStatement := by
  let := Extern.ascii
  refine ⟨by decide +kernel, by decide +kernel, fun h => ?_⟩
  have hfirst := (EntriesPaired.iff_stays.mp h 0 "u-").mp (by decide +kernel)
  exact absurd hfirst (by decide +kernel)

end Dinero
