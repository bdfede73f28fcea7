import Dinero.Floats
import Dinero.Instruments

/-!
# Dinero.InstrumentCommands

The commands that write `instruments`, and the form of the identifiers they
leave there.

Ingestion and the edit form clean an identifier before they store it; the
entry form and the statement import store what they are given.
`canonical_step` says, command by command, when a table of clean identifiers
stays one.
-/

namespace Dinero

open Sql Relation

/-! ## errors and checks -/

inductive AppError
  | db (text : String)
  | validation (text : String)
  | conflict (text : String)
  | licenseLocked (text : String)
deriving DecidableEq, Repr

/-- The text a database error is reported with. -/
def errorText : SqlError → String
  | .sqliteFailure _ msg => msg.getD "disk I/O error"
  | .queryReturnedNoRows => "Query returned no rows"
  | .anyhow text => text

/-- Translate a unique-constraint violation into a domain-level conflict. -/
def mapInsertConflict (e : SqlError) (conflictMessage : String) : AppError :=
  match e with
  | .sqliteFailure .constraintViolation _ => .conflict conflictMessage
  | e => .db (errorText e)

/-- `value.trim().is_empty()`. -/
def isBlank (value : String) : Bool := trimText value.toList = []

def validateInstrumentType (instrumentType : String) : Except AppError Unit :=
  if instrumentType ∈ validInstrumentTypes then .ok ()
  else .error (.validation
    ("instrument_type '" ++ instrumentType ++ "' is not a recognized instrument type"))

def validateNonEmpty (fieldName value : String) : Except AppError Unit :=
  if isBlank value then .error (.validation (fieldName ++ " must not be empty")) else .ok ()

/-- `validate_uuid`, given what `Uuid::parse_str` says. -/
def validateUuid (parses : Bool) (fieldName value : String) : Except AppError Unit :=
  if parses then .ok ()
  else .error (.validation (fieldName ++ " must be a valid UUID, got '" ++ value ++ "'"))

/-- A `CHECK` of the table. -/
def checkFailed : SqlError := constraintFailed "CHECK constraint failed: instruments"

/-- The natural key, or the id, of another row. -/
def keyTaken : SqlError :=
  uniqueFailed "instruments.type, instruments.issuer_name, instruments.masked_identifier"

/-! ## instruments_create -/

structure InstrumentCreatePayload where
  instrumentType : String
  issuerName : String
  maskedIdentifier : String
  fullIdentifier : Option String
  billingCycleDay : Option Nat
  bankIfsc : Option String
deriving DecidableEq, Repr

structure InstrumentRecord where
  id : String
  instrumentType : String
  issuerName : String
  maskedIdentifier : String
  status : String
  currentBalance : Option ℚ
  creditLimit : Option ℚ
  fullIdentifier : Option String
  billingCycleDay : Option Nat
  bankIfsc : Option String
deriving DecidableEq, Repr

/-- The checks before the `INSERT`; `writeAllowed` is the licence's say. -/
def InstrumentCreatePayload.check (p : InstrumentCreatePayload)
    (writeAllowed : Except AppError Unit) : Except AppError Unit := do
  validateInstrumentType p.instrumentType
  validateNonEmpty "issuer_name" p.issuerName
  validateNonEmpty "masked_identifier" p.maskedIdentifier
  writeAllowed

/-- The row of a new instrument; its identifier is stored as it was typed. -/
def InstrumentCreatePayload.row (p : InstrumentCreatePayload) (id : String) (now : Int) :
    Instrument :=
  { ingestedInstrument (p.instrumentType, p.issuerName, p.maskedIdentifier) none id now with
    bankIfsc := p.bankIfsc
    fullIdentifier := p.fullIdentifier
    billingCycleDay := p.billingCycleDay }

/-- `insert_instrument`, with the two times defaulted. -/
def insertInstrument (row : Int → Instrument) : InstrumentsDb Unit :=
  update fun now T =>
    if (row now).allowed then
      match T.insert? (row now) with
      | some T' => .ok ((), T')
      | none => .error keyTaken
    else .error checkFailed

section Commands

variable [Extern]

def instrumentsCreate (writeAllowed : Except AppError Unit) (p : InstrumentCreatePayload) :
    InstrumentsDb (Except AppError InstrumentRecord) := do
  match p.check writeAllowed with
  | .error e => return .error e
  | .ok () =>
    let id ← newUuid uuid
    match ← Eff.attempt (insertInstrument (p.row id)) with
    | .error e => return .error (mapInsertConflict e
        "An instrument with this type, issuer, and masked identifier already exists")
    | .ok () => return .ok {
        id := id
        instrumentType := p.instrumentType
        issuerName := p.issuerName
        maskedIdentifier := p.maskedIdentifier
        status := "active"
        currentBalance := none
        creditLimit := none
        fullIdentifier := p.fullIdentifier
        billingCycleDay := p.billingCycleDay
        bankIfsc := p.bankIfsc }

/-! ## instruments_update and instruments_archive -/

structure InstrumentUpdatePayload where
  id : String
  fullIdentifier : Option String
  billingCycleDay : Option Nat
  bankIfsc : Option String
  nickname : Option String
  creditLimit : Option ℚ
  accountType : Option String
  network : Option String
  status : Option String
  upiVpa : Option String
  rewardsSummary : Option String
  instrumentType : Option String
  issuerName : Option String
  maskedIdentifier : Option String
  currentBalance : Option ℚ
  statementDueDate : Option TimeText
  minimumDue : Option ℚ
deriving DecidableEq, Repr

/-- `(x * 100.0) as i64`: the product is rounded, then cut towards zero, held within 64 bits. -/
def toMinor (x : ℚ) : Int :=
  let product := nearestSigned (x * 100)
  max (-2 ^ 63) (min (2 ^ 63 - 1) (if 0 ≤ product then ⌊product⌋ else ⌈product⌉))

/-- A column that a blank text empties. -/
def editOptional (old : Option String) : Option String → Option String
  | none => old
  | some text => if isBlank text then none else some text

/-- A column that a blank text leaves alone. -/
def editRequired (old : String) : Option String → String
  | none => old
  | some text => if isBlank text then old else text

/-- The row with the edits of the form; its identifier is cleaned. -/
def InstrumentUpdatePayload.edit (p : InstrumentUpdatePayload) (row : Instrument) : Instrument :=
  { row with
    fullIdentifier := p.fullIdentifier
    billingCycleDay := p.billingCycleDay
    bankIfsc := p.bankIfsc
    nickname := editOptional row.nickname p.nickname
    creditLimit := (p.creditLimit.map toMinor).or row.creditLimit
    accountType := editOptional row.accountType p.accountType
    network := editOptional row.network p.network
    status := editRequired row.status p.status
    upiVpa := editOptional row.upiVpa p.upiVpa
    rewardsSummary := editOptional row.rewardsSummary p.rewardsSummary
    type := editRequired row.type p.instrumentType
    issuerName := editRequired row.issuerName p.issuerName
    maskedIdentifier := match p.maskedIdentifier with
      | none => row.maskedIdentifier
      | some mask =>
        if isBlank mask then row.maskedIdentifier else cleanMaskedIdentifier mask
    currentBalance := (p.currentBalance.map toMinor).or row.currentBalance
    minimumDue := (p.minimumDue.map toMinor).or row.minimumDue
    statementDueDate := match p.statementDueDate with
      | none => row.statementDueDate
      | some (.date d) => some d
      | some _ => none }

/-- The `UPDATE` of `update_instrument`, the trigger on `updated_at` included. -/
def instrumentPatch (r : Instrument) (now : Int) : Patch Instrument where
  run old := { r with id := old.id, createdAt := old.createdAt, updatedAt := now }
  key_run _ := rfl

/-- Update an instrument's editable fields. -/
def updateInstrument (r : Instrument) : InstrumentsDb Unit :=
  update fun now T =>
    if !T.contains r.id then .error (.anyhow "Instrument not found")
    else if r.allowed then
      match T.modify? r.id (instrumentPatch r now) with
      | some T' => .ok ((), T')
      | none => .error keyTaken
    else .error checkFailed

/-- `SELECT * FROM instruments WHERE id = ?1 AND is_deleted = 0`. -/
def Instruments.getInstrument (T : Instruments) (id : String) : Option Instrument :=
  (T.find? id).filter (!·.isDeleted)

def instrumentsUpdate (idParses : Bool) (writeAllowed : Except AppError Unit)
    (p : InstrumentUpdatePayload) : InstrumentsDb (Except AppError String) := do
  match validateUuid idParses "id" p.id >>= fun _ => writeAllowed with
  | .error e => return .error e
  | .ok () =>
    match ← readInstruments (·.getInstrument p.id) with
    | none => return .error (.validation "instrument not found")
    | some row =>
      match ← Eff.attempt (updateInstrument (p.edit row)) with
      | .error e => return .error (.db (errorText e))
      | .ok () => return .ok "updated"

def archivePatch (now : Int) : Patch Instrument where
  run r := { r with isDeleted := true, updatedAt := now }
  key_run _ := rfl

def instrumentsArchive (idParses : Bool) (writeAllowed : Except AppError Unit) (id : String) :
    InstrumentsDb (Except AppError String) := do
  match validateUuid idParses "id" id >>= fun _ => writeAllowed with
  | .error e => return .error e
  | .ok () =>
    update fun now T => match T.modify? id (archivePatch now) with
      | some T' => .ok ((), T')
      | none => .error keyTaken
    return .ok "deleted"

/-! ## runs of calls -/

/-- A call of one of the five writers, with the verdicts of the checks that
look elsewhere. -/
inductive InstrumentCall
  | create (writeAllowed : Except AppError Unit) (p : InstrumentCreatePayload)
  | update (idParses : Bool) (writeAllowed : Except AppError Unit) (p : InstrumentUpdatePayload)
  | archive (idParses : Bool) (writeAllowed : Except AppError Unit) (id : String)
  | getOrCreate (q : InstrumentRequest)
  | resolveOrCreate (q : InstrumentRequest)

/-- The store after a call. -/
def InstrumentCall.run (now : Int) (s : Store Instruments) : InstrumentCall → Store Instruments
  | create writeAllowed p => (instrumentsCreate writeAllowed p (.quiet now) s).2
  | update idParses writeAllowed p =>
    (instrumentsUpdate idParses writeAllowed p (.quiet now) s).2
  | archive idParses writeAllowed id =>
    (instrumentsArchive idParses writeAllowed id (.quiet now) s).2
  | getOrCreate q => (getOrCreateInstrument q (.quiet now) s).2
  | resolveOrCreate q => (resolveOrCreateInstrument q (.quiet now) s).2

end Commands

/-! ## clean identifiers -/

/-- Every live identifier is as the cleaner leaves it. -/
def AllClean (T : Instruments) : Prop :=
  ∀ r ∈ T, r.isDeleted = false → cleanMaskedIdentifier r.maskedIdentifier = r.maskedIdentifier

/-- No two live rows of an issuer clean to one identifier. -/
theorem AllClean.eq_of_clean_eq {T : Instruments} (h : AllClean T) {a b : Instrument}
    (ha : a ∈ T) (hb : b ∈ T) (hla : a.isDeleted = false) (hlb : b.isDeleted = false)
    (htype : a.type = b.type) (hissuer : a.issuerName = b.issuerName)
    (hclean : cleanMaskedIdentifier a.maskedIdentifier =
      cleanMaskedIdentifier b.maskedIdentifier) : a = b := by
  rw [h a ha hla, h b hb hlb] at hclean
  exact Indexed.eq_of_index_eq ha hb rfl (by rw [Instrument.naturalKey, htype, hissuer, hclean])

/-- A row, live or archived, has the key. -/
def Instruments.Taken (T : Instruments) (k : NaturalKey) : Prop := ∃ r ∈ T, r.naturalKey = some k

theorem allClean_insert {T T' : Instruments} {r : Instrument} (h : AllClean T)
    (hT : T.insert? r = some T') (hlive : r.isDeleted = false) :
    AllClean T' ↔ cleanMaskedIdentifier r.maskedIdentifier = r.maskedIdentifier := by
  constructor
  · exact fun h' => h' r ((Indexed.mem_of_insert? hT).mpr (.inr rfl)) hlive
  · intro hclean x hx hlivex
    rcases (Indexed.mem_of_insert? hT).mp hx with hx | rfl
    · exact h x hx hlivex
    · exact hclean

/-- An ingestion keeps the form unless it stores an identifier that is not in
it. -/
theorem allClean_ingest {T : Instruments} (h : AllClean T) {k : NaturalKey}
    {network : Option String} {id : String} {now : Int} (hid : ∀ r ∈ T, r.id ≠ id) :
    AllClean (T.insertOrIgnore (ingestedInstrument k network id now)) ↔
      k.1 ∉ validInstrumentTypes ∨ T.Taken k ∨ cleanMaskedIdentifier k.2.2 = k.2.2 := by
  have hcases := T.insertOrIgnore_cases (ingestedInstrument k network id now)
  rcases hcases with ⟨hallowed, hT⟩ | ⟨hT, hrefused⟩
  · rw [allClean_insert h hT rfl]
    have htype := ingestedInstrument_allowed.mp hallowed
    have hfree : ¬T.Taken k := fun ⟨r, hr, hk⟩ => (Indexed.insert?_eq_some.mp hT).2.1 r hr k hk rfl
    simp only [htype, not_true_eq_false, hfree, false_or]
    rfl
  · rw [hT]
    refine iff_of_true h ?_
    rcases hrefused with htype | hnone
    · rw [← Bool.not_eq_true, ingestedInstrument_allowed] at htype
      exact .inl htype
    · rcases Indexed.insert?_eq_none.mp hnone with ⟨x, hx, hkey⟩ | ⟨x, hx, i, hi, hr⟩
      · exact absurd hkey (hid x hx)
      · exact .inr (.inl ⟨x, hx, hi.trans hr.symm⟩)

/-- The edit is refused: by a check, because there is no such row, or because
another row has the key it would get. -/
def InstrumentUpdatePayload.Refused (p : InstrumentUpdatePayload) (idParses : Bool)
    (writeAllowed : Except AppError Unit) (T : Instruments) : Prop :=
  (validateUuid idParses "id" p.id >>= fun _ => writeAllowed) ≠ .ok () ∨
    ∀ row, T.getInstrument p.id = some row → (p.edit row).allowed = false ∨
      T.clashes (fun x => Keyed.key x = p.id) (p.edit row) = true

/-- The identifier a call stores, if it stores one, is in clean form. -/
def InstrumentCall.StoresClean (T : Instruments) : InstrumentCall → Prop
  | create writeAllowed p => p.check writeAllowed ≠ .ok () ∨
      T.Taken (p.instrumentType, p.issuerName, p.maskedIdentifier) ∨
      cleanMaskedIdentifier p.maskedIdentifier = p.maskedIdentifier
  | update idParses writeAllowed p => p.Refused idParses writeAllowed T ∨
      ∀ mask, p.maskedIdentifier = some mask → isBlank mask = true ∨ ShortMask mask.toList
  | archive _ _ _ => True
  | getOrCreate q => q.type ∉ validInstrumentTypes ∨ T.Taken q.key ∨
      ShortMask q.maskedIdentifier.toList
  | resolveOrCreate q => q.type ∉ validInstrumentTypes ∨
      T.Taken (q.type, q.issuerName, q.maskedIdentifier) ∨
      cleanMaskedIdentifier q.maskedIdentifier = q.maskedIdentifier

theorem InstrumentCreatePayload.type_of_check {p : InstrumentCreatePayload}
    {writeAllowed : Except AppError Unit} (h : p.check writeAllowed = .ok ()) :
    p.instrumentType ∈ validInstrumentTypes := by
  by_contra htype
  simp [check, validateInstrumentType, htype, bind, Except.bind] at h

section Runs

variable [Extern]

theorem instrumentsCreate_db {p : InstrumentCreatePayload} {writeAllowed : Except AppError Unit}
    (h : p.check writeAllowed = .ok ()) (now : Int) (s : Store Instruments) :
    (instrumentsCreate writeAllowed p (.quiet now) s).2.db =
      (s.db.insert? (p.row (uuid s.nextUuid) now)).getD s.db := by
  have hallowed : (p.row (uuid s.nextUuid) now).allowed = true := by
    rw [Instrument.allowed, decide_eq_true_iff]
    exact ⟨InstrumentCreatePayload.type_of_check h, List.mem_cons_self⟩
  unfold instrumentsCreate
  rw [h]
  dsimp only
  rw [Eff.bind_of_ok (newUuid_apply _ _ _), Eff.bind_of_ok (Eff.attempt_apply _ _ _)]
  simp only [insertInstrument, update, Ctx.quiet, hallowed, if_true]
  rcases s.db.insert? (p.row (uuid s.nextUuid) now) with _ | T'
  · rfl
  · rfl

theorem allClean_create {s : Store Instruments} (h : AllClean s.db) (hunused : UnusedIds s)
    (writeAllowed : Except AppError Unit) (p : InstrumentCreatePayload) (now : Int) :
    AllClean (instrumentsCreate writeAllowed p (.quiet now) s).2.db ↔
      (InstrumentCall.create writeAllowed p).StoresClean s.db := by
  by_cases hcheck : p.check writeAllowed = .ok ()
  · simp only [InstrumentCall.StoresClean, hcheck, ne_eq, not_true_eq_false, false_or]
    rw [instrumentsCreate_db hcheck]
    rcases hT : s.db.insert? (p.row (uuid s.nextUuid) now) with _ | T'
    · refine iff_of_true h (.inl ?_)
      rcases Indexed.insert?_eq_none.mp hT with ⟨x, hx, hkey⟩ | ⟨x, hx, i, hi, hr⟩
      · exact absurd hkey (hunused s.nextUuid (Nat.le_refl _) x hx)
      · exact ⟨x, hx, hi.trans hr.symm⟩
    · have hfree : ¬s.db.Taken (p.instrumentType, p.issuerName, p.maskedIdentifier) :=
        fun ⟨r, hr, hk⟩ => (Indexed.insert?_eq_some.mp hT).2.1 r hr _ hk rfl
      rw [Option.getD_some, allClean_insert h hT rfl]
      simp only [hfree, false_or]
      rfl
  · have hrun : (instrumentsCreate writeAllowed p (.quiet now) s).2 = s := by
      unfold instrumentsCreate
      rcases hresult : p.check writeAllowed with e | u
      · rfl
      · exact absurd hresult hcheck
    rw [hrun]
    exact iff_of_true h (.inl hcheck)

omit [Extern] in
theorem updateInstrument_quiet {r : Instrument} {s : Store Instruments}
    (h : s.db.contains r.id = true) (now : Int) :
    updateInstrument r (.quiet now) s =
      if r.allowed = true then
        match s.db.modify? r.id (instrumentPatch r now) with
        | some T' => (.ok (), { s with db := T' })
        | none => (.error keyTaken, s)
      else (.error checkFailed, s) := by
  simp only [updateInstrument, update, Ctx.quiet, h]
  by_cases hallowed : r.allowed = true
  · simp only [hallowed]
    rcases s.db.modify? r.id (instrumentPatch r now) with _ | T'
    · rfl
    · rfl
  · simp [hallowed]

omit [Extern] in
/-- What an edit leaves of the table. -/
theorem instrumentsUpdate_db {p : InstrumentUpdatePayload} {idParses : Bool}
    {writeAllowed : Except AppError Unit} (now : Int) (s : Store Instruments) {row : Instrument}
    (hcheck : (validateUuid idParses "id" p.id >>= fun _ => writeAllowed) = .ok ())
    (hrow : s.db.getInstrument p.id = some row) :
    (instrumentsUpdate idParses writeAllowed p (.quiet now) s).2.db =
      if (p.edit row).allowed = true then
        (s.db.modify? p.id (instrumentPatch (p.edit row) now)).getD s.db
      else s.db := by
  obtain ⟨hfind, -⟩ := Option.filter_eq_some_iff.mp hrow
  have hid : (p.edit row).id = p.id := (Table.find?_eq_some.mp hfind).2
  have hcontains : s.db.contains (p.edit row).id = true := by
    rw [hid, Table.contains, hfind]
    rfl
  unfold instrumentsUpdate
  rw [hcheck]
  dsimp only
  rw [Eff.bind_of_ok (show readInstruments _ (.quiet now) s = (.ok _, s) from rfl), hrow]
  dsimp only
  rw [Eff.bind_of_ok (Eff.attempt_apply _ _ _), updateInstrument_quiet hcontains, hid]
  by_cases hallowed : (p.edit row).allowed = true
  · rw [if_pos hallowed, if_pos hallowed]
    rcases s.db.modify? p.id (instrumentPatch (p.edit row) now) with _ | T'
    · rfl
    · rfl
  · rw [if_neg hallowed, if_neg hallowed]
    rfl

omit [Extern] in
/-- The identifier after an edit is clean unless the new text is not. -/
theorem edit_clean {row : Instrument}
    (h : cleanMaskedIdentifier row.maskedIdentifier = row.maskedIdentifier)
    (p : InstrumentUpdatePayload) :
    cleanMaskedIdentifier (p.edit row).maskedIdentifier = (p.edit row).maskedIdentifier ↔
      ∀ mask, p.maskedIdentifier = some mask → isBlank mask = true ∨ ShortMask mask.toList := by
  rcases hmask : p.maskedIdentifier with _ | mask
  · simp only [InstrumentUpdatePayload.edit, hmask, reduceCtorEq, false_implies, implies_true,
      iff_true]
    exact h
  · simp only [InstrumentUpdatePayload.edit, hmask, Option.some.injEq, forall_eq']
    by_cases hblank : isBlank mask = true
    · simp only [hblank, if_true, true_or, iff_true]
      exact h
    · simp only [hblank, if_false, false_or, clean_clean_iff, Bool.false_eq_true]

omit [Extern] in
/-- The table with one live row edited. -/
theorem allClean_modify {T T' : Instruments} (h : AllClean T) {id : String} {row : Instrument}
    (hfind : T.find? id = some row) (hlive : row.isDeleted = false) {u : Patch Instrument}
    (hT : T.modify? id u = some T') (hkeep : (u.run row).isDeleted = row.isDeleted) :
    AllClean T' ↔ cleanMaskedIdentifier (u.run row).maskedIdentifier =
      (u.run row).maskedIdentifier := by
  have htable := Indexed.modify?_eq_some hT
  obtain ⟨hmem, hid⟩ := Table.find?_eq_some.mp hfind
  constructor
  · intro h'
    have hnew : u.run row ∈ T'.toTable := htable ▸ Table.mem_modify_of_mem hmem hid
    exact h' _ hnew (hkeep.trans hlive)
  · intro hclean r hr hliver
    have hr' : r ∈ T.toTable.modify id u := htable ▸ hr
    rcases Table.mem_modify_cases hr' with ⟨hr, -⟩ | ⟨q, hq, hqid, rfl⟩
    · exact h r hr hliver
    · rw [Table.eq_of_key_eq hq hmem (hqid.trans hid.symm)]
      exact hclean

omit [Extern] in
theorem allClean_update {s : Store Instruments} (h : AllClean s.db) (idParses : Bool)
    (writeAllowed : Except AppError Unit) (p : InstrumentUpdatePayload) (now : Int) :
    AllClean (instrumentsUpdate idParses writeAllowed p (.quiet now) s).2.db ↔
      (InstrumentCall.update idParses writeAllowed p).StoresClean s.db := by
  by_cases hcheck : (validateUuid idParses "id" p.id >>= fun _ => writeAllowed) = .ok ()
  · rcases hrow : s.db.getInstrument p.id with _ | row
    · have hrun : (instrumentsUpdate idParses writeAllowed p (.quiet now) s).2 = s := by
        unfold instrumentsUpdate
        rw [hcheck]
        dsimp only
        rw [Eff.bind_of_ok (show readInstruments _ (.quiet now) s = (.ok _, s) from rfl), hrow]
        rfl
      rw [hrun]
      exact iff_of_true h (.inl (.inr fun row hrow' => by simp [hrow] at hrow'))
    · obtain ⟨hfind, hlive⟩ := Option.filter_eq_some_iff.mp hrow
      have hmem := (Table.find?_eq_some.mp hfind).1
      have hrowclean := h row hmem (by simpa using hlive)
      have hrefused : p.Refused idParses writeAllowed s.db ↔ (p.edit row).allowed = false ∨
          s.db.clashes (fun x => Keyed.key x = p.id) (p.edit row) = true := by
        simp [InstrumentUpdatePayload.Refused, hcheck, hrow]
      rw [instrumentsUpdate_db now s hcheck hrow, InstrumentCall.StoresClean, hrefused]
      by_cases hallowed : (p.edit row).allowed = true
      · rw [if_pos hallowed]
        rcases hT : s.db.modify? p.id (instrumentPatch (p.edit row) now) with _ | T'
        · obtain ⟨r, hr, hclash⟩ := Indexed.modify?_eq_none.mp hT
          exact iff_of_true h (.inl (.inr hclash))
        · have hfree : ¬s.db.clashes (fun x => Keyed.key x = p.id) (p.edit row) = true := by
            intro hclash
            have hnone : s.db.modify? p.id (instrumentPatch (p.edit row) now) = none :=
              Indexed.modify?_eq_none.mpr ⟨row, hfind, hclash⟩
            rw [hnone] at hT
            simp at hT
          rw [Option.getD_some, allClean_modify h hfind (by simpa using hlive) hT rfl]
          simp only [hallowed, hfree, Bool.true_eq_false, Bool.false_eq_true, false_or]
          exact edit_clean hrowclean p
      · rw [if_neg hallowed]
        exact iff_of_true h (.inl (.inl (Bool.eq_false_iff.mpr hallowed)))
  · have hrun : (instrumentsUpdate idParses writeAllowed p (.quiet now) s).2 = s := by
      unfold instrumentsUpdate
      rcases hresult : validateUuid idParses "id" p.id >>= fun _ => writeAllowed with e | u
      · rfl
      · exact absurd hresult hcheck
    rw [hrun]
    exact iff_of_true h (.inl (.inl hcheck))

omit [Extern] in
theorem allClean_archive {s : Store Instruments} (h : AllClean s.db) (idParses : Bool)
    (writeAllowed : Except AppError Unit) (id : String) (now : Int) :
    AllClean (instrumentsArchive idParses writeAllowed id (.quiet now) s).2.db := by
  unfold instrumentsArchive
  rcases validateUuid idParses "id" id >>= fun _ => writeAllowed with e | u
  · exact h
  · dsimp only
    rw [Eff.bind_apply]
    simp only [update, Ctx.quiet]
    rcases hT : s.db.modify? id (archivePatch now) with _ | T'
    · exact h
    · intro r hr hlive
      have hmem : r ∈ s.db.toTable.modify id (archivePatch now) := Indexed.modify?_eq_some hT ▸ hr
      rcases Table.mem_modify_cases hmem with ⟨hr, -⟩ | ⟨r', -, -, rfl⟩
      · exact h r hr hlive
      · simp [archivePatch] at hlive

theorem allClean_getOrCreate {s : Store Instruments} (h : AllClean s.db) (hunused : UnusedIds s)
    (q : InstrumentRequest) (now : Int) :
    AllClean (getOrCreateInstrument q (.quiet now) s).2.db ↔
      (InstrumentCall.getOrCreate q).StoresClean s.db := by
  have hingest : AllClean (afterIngest q.key q.network now s).db ↔
      (InstrumentCall.getOrCreate q).StoresClean s.db := by
    refine (allClean_ingest h (hunused s.nextUuid (Nat.le_refl _))).trans ?_
    simp only [InstrumentCall.StoresClean, ← clean_clean_iff]
    rfl
  rw [getOrCreateInstrument_quiet]
  rcases hfirst : s.db.findLive q.key with _ | id
  · rcases (afterIngest q.key q.network now s).db.findLive q.key with _ | id
    · exact hingest
    · exact hingest
  · obtain ⟨r, hr, hk, -⟩ := Instruments.findLive_eq_some.mp hfirst
    exact iff_of_true h (.inr (.inl ⟨r, hr, hk⟩))

theorem allClean_resolveOrCreate {s : Store Instruments} (h : AllClean s.db)
    (hunused : UnusedIds s) (q : InstrumentRequest) (now : Int) :
    AllClean (resolveOrCreateInstrument q (.quiet now) s).2.db ↔
      (InstrumentCall.resolveOrCreate q).StoresClean s.db := by
  rw [resolveOrCreateInstrument_store]
  exact allClean_ingest h (hunused s.nextUuid (Nat.le_refl _))

/-- A command keeps the identifiers clean exactly when what it stores is. -/
theorem allClean_step {s : Store Instruments} (h : AllClean s.db) (hunused : UnusedIds s)
    (call : InstrumentCall) (now : Int) :
    AllClean (call.run now s).db ↔ call.StoresClean s.db := by
  cases call with
  | create writeAllowed p => exact allClean_create h hunused writeAllowed p now
  | update idParses writeAllowed p => exact allClean_update h idParses writeAllowed p now
  | archive idParses writeAllowed id =>
    exact iff_of_true (allClean_archive h idParses writeAllowed id now) trivial
  | getOrCreate q => exact allClean_getOrCreate h hunused q now
  | resolveOrCreate q => exact allClean_resolveOrCreate h hunused q now

/-! ## runs -/

/-- `UnusedIds`, of a table and the number of ids drawn. -/
def Undrawn (T : Instruments) (n : Nat) : Prop := ∀ m, n ≤ m → ∀ r ∈ T, r.id ≠ uuid m

/-- The same, with one drawn id at hand. -/
def UndrawnBut (id : String) (T : Instruments) (n : Nat) : Prop :=
  Undrawn T n ∧ ∀ m, n ≤ m → id ≠ uuid m

omit [Extern] in
theorem keeps_readInstruments {I : Instruments → Nat → Prop} {α : Type} (f : Instruments → α) :
    Keeps I (readInstruments f) :=
  .update fun _ _ _ _ _ hI hf => (Prod.mk.inj (Except.ok.inj hf)).2 ▸ hI

/-- A new row has the id at hand. -/
theorem UndrawnBut.insert {id : String} {T T' : Instruments} {n : Nat} {r : Instrument}
    (h : UndrawnBut id T n) (hid : r.id = id) (hT : ∀ x ∈ T', x ∈ T ∨ x = r) :
    UndrawnBut id T' n := by
  refine ⟨fun m hm x hx => ?_, h.2⟩
  rcases hT x hx with hx | rfl
  · exact h.1 m hm x hx
  · rw [hid]
    exact h.2 m hm

/-- A change to a row does not touch its id. -/
theorem Undrawn.modify {T T' : Instruments} {n : Nat} {k : String} {u : Patch Instrument}
    (h : Undrawn T n) (hT : T.modify? k u = some T') : Undrawn T' n := by
  intro m hm x hx
  have hx' : x ∈ T.toTable.modify k u := Indexed.modify?_eq_some hT ▸ hx
  rcases Table.mem_modify_cases hx' with ⟨hx, -⟩ | ⟨r, hr, -, rfl⟩
  · exact h m hm x hx
  · have hkey : (u.run r).id = r.id := u.key_run r
    rw [hkey]
    exact h m hm r hr

/-- Drawing an id, then a program that writes no other new one. -/
theorem keeps_newUuid {α : Type} {f : String → InstrumentsDb α}
    (h : ∀ id, Keeps (UndrawnBut id) (f id)) : Keeps Undrawn (newUuid uuid >>= f) :=
  .newUuid_bind
    (fun _ _ hT => ⟨fun m hm => hT m (Nat.le_of_succ_le hm),
      fun _ hm heq => absurd (Extern.uuid_injective heq) (Nat.ne_of_lt hm)⟩)
    (fun _ _ _ hT => hT.1) h

theorem keeps_ingestInstrument (k : NaturalKey) (network : Option String) :
    Keeps Undrawn (ingestInstrument k network) := by
  refine keeps_newUuid fun id => .update fun now n T _ T' hT hf => ?_
  obtain ⟨-, rfl⟩ := Prod.mk.inj (Except.ok.inj hf)
  exact hT.insert rfl fun x hx => Instruments.mem_of_mem_insertOrIgnore hx

theorem keeps_insertInstrument (id : String) (row : Int → Instrument) (hid : ∀ now, (row now).id = id) :
    Keeps (UndrawnBut id) (insertInstrument row) := by
  refine .update fun now n T _ T' hT hf => ?_
  split at hf
  · split at hf
    · next T₁ hins =>
        obtain ⟨-, rfl⟩ := Prod.mk.inj (Except.ok.inj hf)
        exact hT.insert (hid now) fun x hx => (Indexed.mem_of_insert? hins).mp hx
    · simp at hf
  · simp at hf

theorem keeps_updateInstrument (r : Instrument) : Keeps Undrawn (updateInstrument r) := by
  refine .update fun now n T _ T' hT hf => ?_
  split at hf
  · simp at hf
  · split at hf
    · split at hf
      · next T₁ hmod =>
          obtain ⟨-, rfl⟩ := Prod.mk.inj (Except.ok.inj hf)
          exact hT.modify hmod
      · simp at hf
    · simp at hf

theorem UnusedIds.run {s : Store Instruments} (h : UnusedIds s) (call : InstrumentCall)
    (now : Int) : UnusedIds (call.run now s) := by
  cases call with
  | create writeAllowed p =>
    have hkeeps : Keeps Undrawn (instrumentsCreate writeAllowed p) := by
      unfold instrumentsCreate
      split
      · exact .pure _
      · refine keeps_newUuid fun id => .bind (.attempt (keeps_insertInstrument id _ fun _ => rfl)) ?_
        intro result
        split <;> exact .pure _
    exact hkeeps _ s h
  | update idParses writeAllowed p =>
    have hkeeps : Keeps Undrawn (instrumentsUpdate idParses writeAllowed p) := by
      unfold instrumentsUpdate
      split
      · exact .pure _
      · refine .bind (keeps_readInstruments _) fun found => ?_
        split
        · exact .pure _
        · refine .bind (.attempt (keeps_updateInstrument _)) fun result => ?_
          split <;> exact .pure _
    exact hkeeps _ s h
  | archive idParses writeAllowed id =>
    have hkeeps : Keeps Undrawn (instrumentsArchive idParses writeAllowed id) := by
      unfold instrumentsArchive
      split
      · exact .pure _
      · refine .bind (.update fun now n T _ T' hT hf => ?_) fun _ => .pure _
        split at hf
        · next T₁ hmod =>
            obtain ⟨-, rfl⟩ := Prod.mk.inj (Except.ok.inj hf)
            exact hT.modify hmod
        · simp at hf
    exact hkeeps _ s h
  | getOrCreate q =>
    have hkeeps : Keeps Undrawn (getOrCreateInstrument q) := by
      refine .bind (keeps_readInstruments _) fun found => ?_
      split
      · exact .pure _
      · refine .bind (keeps_ingestInstrument _ _) fun _ => .bind (keeps_readInstruments _) fun again => ?_
        split
        · exact .pure _
        · exact .fail _
    exact hkeeps _ s h
  | resolveOrCreate q =>
    have hkeeps : Keeps Undrawn (resolveOrCreateInstrument q) := by
      refine .bind (keeps_ingestInstrument _ _) fun _ => .bind (keeps_readInstruments _) fun found => ?_
      split
      · exact .pure _
      · exact .fail _
    exact hkeeps _ s h

/-- One command after the other, each storing clean identifiers. -/
def CleanStep (s s' : Store Instruments) : Prop :=
  ∃ (call : InstrumentCall) (now : Int), call.StoresClean s.db ∧ s' = call.run now s

/-- The cleaner is idempotent but for long digits after a mask, and the table
stays clean as long as the commands store clean identifiers; the first that
does not ends it. -/
theorem cleanMaskedIdentifier_iff :
    (∀ raw, cleanMaskedIdentifier (cleanMaskedIdentifier raw) = cleanMaskedIdentifier raw ↔
      ShortMask raw.toList) ∧
    ∀ s s' : Store Instruments, AllClean s.db → UnusedIds s → ReflTransGen CleanStep s s' →
      AllClean s'.db ∧
      (∀ a ∈ s'.db, ∀ b ∈ s'.db, a.isDeleted = false → b.isDeleted = false → a.type = b.type →
        a.issuerName = b.issuerName →
        cleanMaskedIdentifier a.maskedIdentifier = cleanMaskedIdentifier b.maskedIdentifier →
        a = b) ∧
      ∀ (call : InstrumentCall) (now : Int),
        AllClean (call.run now s').db ↔ call.StoresClean s'.db := by
  refine ⟨clean_clean_iff, fun s s' hclean hunused hrun => ?_⟩
  have hboth : AllClean s'.db ∧ UnusedIds s' := by
    induction hrun with
    | refl => exact ⟨hclean, hunused⟩
    | tail _ hstep ih =>
      obtain ⟨call, now, hstores, rfl⟩ := hstep
      exact ⟨(allClean_step ih.1 ih.2 call now).mpr hstores, ih.2.run call now⟩
  exact ⟨hboth.1, fun a ha b hb => hboth.1.eq_of_clean_eq ha hb,
    allClean_step hboth.1 hboth.2⟩

omit [Extern] in
/-- Ingesting a card from an empty table. -/
theorem ingested_clean :
    letI := Extern.ascii
    let call := InstrumentCall.getOrCreate ⟨"credit_card", "HDFC", "XX1234", none⟩
    AllClean (call.run 0 ⟨.empty, 0, none⟩).db := by
  let := Extern.ascii
  intro call
  exact (cleanMaskedIdentifier_iff.2 ⟨.empty, 0, none⟩ (call.run 0 ⟨.empty, 0, none⟩)
    (fun r hr => absurd hr (Indexed.not_mem_empty r))
    (fun _ _ r hr => absurd hr (Indexed.not_mem_empty r))
    (.single ⟨call, 0, .inr (.inr (by decide)), rfl⟩)).1

omit [Extern] in
/-- A card typed in as the bank prints it, then seen in a mail: two live rows,
one of them not clean.  And a text the cleaner cuts twice. -/
theorem typed_not_clean :
    letI := Extern.ascii
    let typed := InstrumentCall.create (.ok ())
      ⟨"credit_card", "HDFC", "XX1234", none, none, none⟩
    let seen := InstrumentCall.getOrCreate ⟨"credit_card", "HDFC", "XX1234", none⟩
    let s := seen.run 1 (typed.run 0 ⟨.empty, 0, none⟩)
    (∃ a ∈ s.db, a.isDeleted = false ∧
      cleanMaskedIdentifier a.maskedIdentifier ≠ a.maskedIdentifier) ∧
    (∃ a ∈ s.db, ∃ b ∈ s.db, a.isDeleted = false ∧ b.isDeleted = false ∧ a ≠ b ∧
      a.type = b.type ∧ a.issuerName = b.issuerName ∧
      cleanMaskedIdentifier a.maskedIdentifier = cleanMaskedIdentifier b.maskedIdentifier) ∧
    cleanMaskedIdentifier (cleanMaskedIdentifier "X123456") ≠
      cleanMaskedIdentifier "X123456" := by
  let := Extern.ascii
  intro typed seen s
  let first := ingestedInstrument ("credit_card", "HDFC", "XX1234") none (uuid 0) 0
  let second := ingestedInstrument ("credit_card", "HDFC", "1234") none (uuid 1) 1
  have hrows : s.db.rows = [first, second] := by
    decide +kernel
  have hfirst : first ∈ s.db := by
    rw [Indexed.mem_def, hrows]
    exact List.mem_cons_self
  have hsecond : second ∈ s.db := by
    rw [Indexed.mem_def, hrows]
    exact List.mem_cons_of_mem _ List.mem_cons_self
  exact ⟨⟨first, hfirst, rfl, by decide⟩,
    ⟨first, hfirst, second, hsecond, rfl, rfl, by decide, rfl, rfl, by decide⟩, by decide⟩

end Runs

end Dinero
