import Dinero.Ledger

/-!
# Dinero.Recurring

The two writers of `recurring_payments`: detection, which infers a
subscription from the history, and mandates, which declare one.

Each looks its row up with a filter of its own.  Detection takes any row of
the pair, a declared one too; a mandate takes a declared row only, and leaves
an inferred one standing beside it.
-/

namespace Dinero

open Sql Relation

variable [Extern]

/-! ## upsert_explicit -/

/-- A row of the pair. -/
def RecurringPaymentsRow.isFor (r : RecurringPaymentsRow) (instrumentId merchantEntityId : String) :
    Bool :=
  r.instrumentId = some instrumentId && r.merchantEntityId = some merchantEntityId

/-- The row `find_by_instrument_and_merchant` returns. -/
def Database.recurringFor (db : Database) (instrumentId merchantEntityId : String) :
    Option RecurringPaymentsRow :=
  (scan (db.recurringPayments.rows.filter (·.isFor instrumentId merchantEntityId))).head?

/-- The row the `SELECT` of `upsert_explicit` returns. -/
def Database.explicitFor (db : Database) (instrumentId merchantEntityId : String) :
    Option RecurringPaymentsRow :=
  (scan (db.recurringPayments.rows.filter fun r =>
    r.isFor instrumentId merchantEntityId && r.source = "explicit")).head?

/-- The arguments of `upsert_explicit`. -/
structure Mandate where
  instrumentId : String
  merchantEntityId : String
  amountMinor : Option Int
  currency : String
  cadence : Option String
  externalMandateId : Option String
deriving DecidableEq, Repr

/-- The columns the `UPDATE` sets. -/
def Mandate.patch (m : Mandate) (now : Int) : Patch RecurringPaymentsRow where
  run r := { r with
    amountMinor := m.amountMinor
    currency := some m.currency
    cadence := m.cadence.map .ofText
    status := some "active"
    externalMandateId := m.externalMandateId
    updatedAt := now }
  key_run _ := rfl

/-- The row the `INSERT` stores. -/
def Mandate.row (m : Mandate) (id : String) (now : Int) : RecurringPaymentsRow where
  id := id
  merchantEntityId := some m.merchantEntityId
  instrumentId := some m.instrumentId
  amountMinor := m.amountMinor
  cadence := m.cadence.map .ofText
  nextPredictedDate := none
  nextPredictedAmount := none
  confidence := none
  status := some "active"
  source := "explicit"
  createdAt := now
  updatedAt := now
  currency := some m.currency
  externalMandateId := m.externalMandateId

/-- Inserts or updates a user-declared recurring payment. -/
def upsertExplicit (m : Mandate) : Db String := do
  match ← update fun _ db => .ok (db.explicitFor m.instrumentId m.merchantEntityId, db) with
  | some r =>
    update fun now db => .ok ((), { db with
      recurringPayments := db.recurringPayments.modify r.id (m.patch now) })
    return r.id
  | none =>
    let id ← newUuid uuid
    update fun now db => db.insertRecurring (m.row id now) now
    return id

/-! ## what the writers do to the table -/

/-- The arguments of `detect_and_update_recurring`. -/
structure Detection where
  instrumentId : String
  merchantEntityId : Option String
  transactionId : String
  amountMinor : Int
  direction : String
  eventTime : Int
deriving DecidableEq, Repr

def Detection.prog (d : Detection) : Db Unit :=
  detectAndUpdateRecurring d.instrumentId d.merchantEntityId d.transactionId d.amountMinor
    d.direction d.eventTime

inductive RecurringCall
  | detect (d : Detection)
  | declare (m : Mandate)

/-- The store after a call. -/
def RecurringCall.run (now : Int) (s : Store Database) : RecurringCall → Store Database
  | detect d => (d.prog (.quiet now) s).2
  | declare m => (upsertExplicit m (.quiet now) s).2

/-- The history detection reads. -/
def Database.priorOccurrences (db : Database) (instrumentId merchantEntityId excludeId : String) :
    List TransactionsRow :=
  orderBy (fun a b => nullsFirst a.bestEventTime b.bestEventTime) (scan
    (db.transactions.rows.filter fun t =>
      t.instrumentId = some instrumentId && t.merchantEntityId = some merchantEntityId &&
        t.direction = some "debit" && !t.isDeleted && t.id != excludeId &&
        t.bestEventTime.isSome))

/-- Detection gets as far as looking its row up, for this merchant. -/
def Detection.Reaches (d : Detection) (db : Database) (merchantEntityId : String) : Prop :=
  d.direction = "debit" ∧ d.merchantEntityId = some merchantEntityId ∧
    minOccurrences ≤ (occurrences (db.priorOccurrences d.instrumentId merchantEntityId
      d.transactionId) d.amountMinor d.eventTime).length

/-- The columns of a row that detection leaves alone. -/
structure SameDeclaration (r r' : RecurringPaymentsRow) : Prop where
  id : r'.id = r.id
  instrumentId : r'.instrumentId = r.instrumentId
  merchantEntityId : r'.merchantEntityId = r.merchantEntityId
  status : r'.status = r.status
  source : r'.source = r.source

/-- What a write for the pair leaves of the table: nothing is new, the row it
found has another schedule, or there is a first row of the pair. -/
inductive Recorded (db : Database) (instrumentId merchantEntityId : String)
    (T' : Table RecurringPaymentsRow) : Prop
  | unchanged (hT : T' = db.recurringPayments)
  | rescheduled (r : RecurringPaymentsRow) (u : Patch RecurringPaymentsRow)
      (hfound : db.recurringFor instrumentId merchantEntityId = some r)
      (hsame : SameDeclaration r (u.run r)) (hT : T' = db.recurringPayments.modify r.id u)
  | added (r : RecurringPaymentsRow)
      (hnone : db.recurringFor instrumentId merchantEntityId = none)
      (hpair : r.isFor instrumentId merchantEntityId = true)
      (hT : db.recurringPayments.insert? r = some T')

theorem recordRecurring_recorded (instrumentId merchantEntityId : String)
    (amountMinor eventTime : Int) (occ : List (Int × Int)) (now : Int) (s : Store Database) :
    Recorded s.db instrumentId merchantEntityId
      (recordRecurring instrumentId merchantEntityId amountMinor eventTime occ
        (.quiet now) s).2.db.recurringPayments := by
  unfold recordRecurring
  rw [Eff.bind_of_ok (show findRecurring instrumentId merchantEntityId (.quiet now) s =
    (.ok (s.db.recurringFor instrumentId merchantEntityId), s) from query_quiet _ _ _ _)]
  rcases hfound : s.db.recurringFor instrumentId merchantEntityId with _ | row
  · dsimp only
    rw [Eff.bind_of_ok (utcNow_apply _ _), Eff.bind_of_ok (newUuid_apply _ _ _), insertRecurring,
      exec_quiet]
    split
    · next a db hdb =>
        obtain ⟨T', hT, -, rfl⟩ := insertInto_eq_ok.mp hdb
        exact .added _ hfound (by simp [RecurringPaymentsRow.isFor]) hT
    · exact .unchanged rfl
  · dsimp only
    rw [updateRecurring, exec_quiet]
    split
    · next a db hdb =>
        unfold Database.updateRecurring at hdb
        split at hdb
        · obtain ⟨-, rfl⟩ := Prod.mk.inj (Except.ok.inj hdb)
          exact .rescheduled row _ hfound ⟨rfl, rfl, rfl, rfl, rfl⟩ rfl
        · simp at hdb
    · exact .unchanged rfl

theorem detect_recorded (d : Detection) (now : Int) (s : Store Database) :
    (d.prog (.quiet now) s).2.db.recurringPayments = s.db.recurringPayments ∨
      ∃ m, d.Reaches s.db m ∧ Recorded s.db d.instrumentId m
        (d.prog (.quiet now) s).2.db.recurringPayments := by
  unfold Detection.prog detectAndUpdateRecurring
  by_cases hdebit : d.direction = "debit"
  · rw [if_neg (show ¬d.direction ≠ "debit" from not_not.mpr hdebit)]
    rcases hmerchant : d.merchantEntityId with _ | m
    · exact .inl rfl
    · dsimp only
      rw [Eff.bind_of_ok (show findPriorOccurrencesForMerchant d.instrumentId m d.transactionId
        (.quiet now) s = (.ok (s.db.priorOccurrences d.instrumentId m d.transactionId), s) from
        query_quiet _ _ _ _)]
      split
      · exact .inl rfl
      · next hfew =>
          exact .inr ⟨m, ⟨hdebit, hmerchant, not_lt.mp hfew⟩, recordRecurring_recorded _ _ _ _ _ _ _⟩
  · rw [if_pos hdebit]
    exact .inl rfl

/-! ## one active row for a pair -/

/-- No pair has two active rows. -/
def OneActive (T : Table RecurringPaymentsRow) : Prop :=
  ∀ i m, ∀ a ∈ T, ∀ b ∈ T, a.isFor i m = true → b.isFor i m = true →
    a.status = some "active" → b.status = some "active" → a = b

/-- The amounts and cadences of declared rows stay. -/
def KeepsDeclared (T T' : Table RecurringPaymentsRow) : Prop :=
  ∀ r ∈ T, r.source = "explicit" → ∃ r' ∈ T', r'.id = r.id ∧ r'.source = r.source ∧
    r'.amountMinor = r.amountMinor ∧ r'.cadence = r.cadence

/-- Detection does not find a declared row; a declaration finds no active row
of the pair but the declared one it updates. -/
def RecurringCall.Separate (db : Database) : RecurringCall → Prop
  | detect d => ∀ m, d.Reaches db m → ∀ r, db.recurringFor d.instrumentId m = some r →
      r.source ≠ "explicit"
  | declare d => ∀ r ∈ db.recurringPayments, r.isFor d.instrumentId d.merchantEntityId = true →
      r.status = some "active" → db.explicitFor d.instrumentId d.merchantEntityId = some r

theorem recurringFor_some {db : Database} {i m : String} {r : RecurringPaymentsRow}
    (h : db.recurringFor i m = some r) : r ∈ db.recurringPayments ∧ r.isFor i m = true := by
  have hmem := mem_scan.mp (List.mem_of_head? h)
  exact List.mem_filter.mp hmem

theorem recurringFor_none {db : Database} {i m : String} (h : db.recurringFor i m = none) :
    ∀ r ∈ db.recurringPayments, r.isFor i m = false := by
  intro r hr
  have hempty := List.head?_eq_none_iff.mp h
  by_contra hpair
  have hmem : r ∈ scan (db.recurringPayments.rows.filter (·.isFor i m)) :=
    mem_scan.mpr (List.mem_filter.mpr ⟨hr, by simpa using hpair⟩)
  rw [hempty] at hmem
  exact List.not_mem_nil hmem

theorem explicitFor_some {db : Database} {i m : String} {r : RecurringPaymentsRow}
    (h : db.explicitFor i m = some r) : r ∈ db.recurringPayments ∧ r.isFor i m = true := by
  obtain ⟨hmem, hp⟩ := List.mem_filter.mp (mem_scan.mp (List.mem_of_head? h))
  exact ⟨hmem, (Bool.and_eq_true_iff.mp hp).1⟩

omit [Extern] in
/-- A row names one pair. -/
theorem isFor_unique {r : RecurringPaymentsRow} {i m i' m' : String} (h : r.isFor i m = true)
    (h' : r.isFor i' m' = true) : i' = i ∧ m' = m := by
  simp only [RecurringPaymentsRow.isFor, Bool.and_eq_true, decide_eq_true_eq] at h h'
  exact ⟨Option.some.inj (h'.1.symm.trans h.1), Option.some.inj (h'.2.symm.trans h.2)⟩

omit [Extern] in
/-- Rows that keep their id, pair and status keep the pairs apart. -/
theorem OneActive.of_counterparts {T T' : Table RecurringPaymentsRow} (h : OneActive T)
    (hT : ∀ x ∈ T', ∃ y ∈ T, SameDeclaration y x) : OneActive T' := by
  intro i m a ha b hb hpa hpb hactivea hactiveb
  obtain ⟨y, hy, hya⟩ := hT a ha
  obtain ⟨z, hz, hzb⟩ := hT b hb
  have hpy : y.isFor i m = true := by
    simpa only [RecurringPaymentsRow.isFor, hya.instrumentId, hya.merchantEntityId] using hpa
  have hpz : z.isFor i m = true := by
    simpa only [RecurringPaymentsRow.isFor, hzb.instrumentId, hzb.merchantEntityId] using hpb
  have hyz : y = z := h i m y hy z hz hpy hpz (hya.status ▸ hactivea) (hzb.status ▸ hactiveb)
  exact Table.eq_of_key_eq ha hb (hya.id.trans ((congrArg (·.id) hyz).trans hzb.id.symm))

omit [Extern] in
/-- A first row of a pair is alone. -/
theorem OneActive.insert {T T' : Table RecurringPaymentsRow} (h : OneActive T)
    {r : RecurringPaymentsRow} (hT : T.insert? r = some T') {i m : String}
    (hpair : r.isFor i m = true)
    (halone : ∀ x ∈ T, x.isFor i m = true → x.status ≠ some "active") : OneActive T' := by
  intro i' m' a ha b hb hpa hpb hactivea hactiveb
  rcases (Table.mem_of_insert? hT).mp ha with ha | rfl
  · rcases (Table.mem_of_insert? hT).mp hb with hb | rfl
    · exact h i' m' a ha b hb hpa hpb hactivea hactiveb
    · obtain ⟨rfl, rfl⟩ := isFor_unique hpair hpb
      exact absurd hactivea (halone a ha hpa)
  · rcases (Table.mem_of_insert? hT).mp hb with hb | rfl
    · obtain ⟨rfl, rfl⟩ := isFor_unique hpair hpa
      exact absurd hactiveb (halone b hb hpb)
    · rfl

omit [Extern] in
theorem SameDeclaration.refl (r : RecurringPaymentsRow) : SameDeclaration r r :=
  ⟨rfl, rfl, rfl, rfl, rfl⟩

/-- Detection gives no pair a second active row. -/
theorem Recorded.oneActive {db : Database} {i m : String} {T' : Table RecurringPaymentsRow}
    (hrec : Recorded db i m T') (h : OneActive db.recurringPayments) : OneActive T' := by
  cases hrec with
  | unchanged hT => exact hT ▸ h
  | rescheduled r u hfound hsame hT =>
    subst hT
    refine h.of_counterparts fun x hx => ?_
    rcases Table.mem_modify_cases hx with ⟨hx, -⟩ | ⟨y, hy, hid, rfl⟩
    · exact ⟨x, hx, .refl x⟩
    · have hyr : y = r := Table.eq_of_key_eq hy (recurringFor_some hfound).1 hid
      exact ⟨y, hy, hyr ▸ hsame⟩
  | added r hnone hpair hT =>
    exact h.insert hT hpair fun x hx hxpair => by simp [recurringFor_none hnone x hx] at hxpair

/-- Detection that finds no declared row changes none. -/
theorem Recorded.keepsDeclared {db : Database} {i m : String} {T' : Table RecurringPaymentsRow}
    (hrec : Recorded db i m T')
    (hfree : ∀ r, db.recurringFor i m = some r → r.source ≠ "explicit") :
    KeepsDeclared db.recurringPayments T' := by
  intro x hx hexplicit
  cases hrec with
  | unchanged hT => exact ⟨x, hT ▸ hx, rfl, rfl, rfl, rfl⟩
  | rescheduled r u hfound hsame hT =>
    have hother : Keyed.key x ≠ r.id := by
      intro hid
      have hxr : x = r := Table.eq_of_key_eq hx (recurringFor_some hfound).1 hid
      exact hfree r hfound (hxr ▸ hexplicit)
    exact ⟨x, hT ▸ (Table.mem_modify_of_ne hother).mpr hx, rfl, rfl, rfl, rfl⟩
  | added r hnone hpair hT => exact ⟨x, (Table.mem_of_insert? hT).mpr (.inl hx), rfl, rfl, rfl, rfl⟩

/-- A declaration updates the declared row of its pair, or adds one. -/
theorem upsertExplicit_table (d : Mandate) (now : Int) (s : Store Database) :
    let T := s.db.recurringPayments
    let T' := (upsertExplicit d (.quiet now) s).2.db.recurringPayments
    (∃ r, s.db.explicitFor d.instrumentId d.merchantEntityId = some r ∧
      T' = T.modify r.id (d.patch now)) ∨
    (s.db.explicitFor d.instrumentId d.merchantEntityId = none ∧
      (T' = T ∨ T.insert? (d.row (uuid s.nextUuid) now) = some T')) := by
  unfold upsertExplicit
  rw [Eff.bind_of_ok (show update (fun _ db => .ok (db.explicitFor d.instrumentId
    d.merchantEntityId, db)) (.quiet now) s = (.ok (s.db.explicitFor d.instrumentId
    d.merchantEntityId), s) from rfl)]
  rcases hfound : s.db.explicitFor d.instrumentId d.merchantEntityId with _ | r
  · refine .inr ⟨rfl, ?_⟩
    dsimp only
    rw [Eff.bind_of_ok (newUuid_apply _ _ _), Eff.bind_apply]
    simp only [update, Ctx.quiet]
    rcases hins : s.db.insertRecurring (d.row (uuid s.nextUuid) now) now with e | ⟨u, db⟩
    · exact .inl rfl
    · obtain ⟨T', hT, -, rfl⟩ := insertInto_eq_ok.mp hins
      exact .inr hT
  · exact .inl ⟨r, rfl, rfl⟩

/-- A declaration that finds no other active row of its pair makes the only
one. -/
theorem declare_oneActive {d : Mandate} {s : Store Database} (now : Int)
    (h : OneActive s.db.recurringPayments)
    (hseparate : (RecurringCall.declare d).Separate s.db) :
    OneActive ((RecurringCall.declare d).run now s).db.recurringPayments := by
  change OneActive (upsertExplicit d (.quiet now) s).2.db.recurringPayments
  rcases upsertExplicit_table d now s with ⟨r, hfound, hT⟩ | ⟨hnone, hT | hT⟩
  · rw [hT]
    obtain ⟨hr, hpr⟩ := explicitFor_some hfound
    -- whoever else is active is a row of another pair
    have hother : ∀ x ∈ s.db.recurringPayments, Keyed.key x ≠ r.id → ∀ i m,
        r.isFor i m = true → x.isFor i m = true → x.status ≠ some "active" := by
      intro x hx hid i m hri hxi hactive
      obtain ⟨rfl, rfl⟩ := isFor_unique hpr hri
      have hxr := hseparate x hx hxi hactive
      rw [hfound] at hxr
      exact hid (congrArg (·.id) (Option.some.inj hxr).symm)
    intro i m a ha b hb hpa hpb hactivea hactiveb
    rcases Table.mem_modify_cases ha with ⟨ha, hida⟩ | ⟨y, hy, hidy, rfl⟩
    · rcases Table.mem_modify_cases hb with ⟨hb, hidb⟩ | ⟨z, hz, hidz, rfl⟩
      · exact h i m a ha b hb hpa hpb hactivea hactiveb
      · have hzr : z = r := Table.eq_of_key_eq hz hr hidz
        exact absurd hactivea (hother a ha hida i m (hzr ▸ hpb) hpa)
    · have hyr : y = r := Table.eq_of_key_eq hy hr hidy
      rcases Table.mem_modify_cases hb with ⟨hb, hidb⟩ | ⟨z, hz, hidz, rfl⟩
      · exact absurd hactiveb (hother b hb hidb i m (hyr ▸ hpa) hpb)
      · rw [hyr, Table.eq_of_key_eq hz hr hidz]
  · rw [hT]
    exact h
  · have hpair : (d.row (uuid s.nextUuid) now).isFor d.instrumentId d.merchantEntityId = true := by
      simp [Mandate.row, RecurringPaymentsRow.isFor]
    refine h.insert hT hpair fun x hx hpx hactive => ?_
    have hfound := hseparate x hx hpx hactive
    rw [hnone] at hfound
    simp at hfound

/-! ## runs -/

/-- A call of one of the two that meets no row of the other, or whatever the
rest of the program does to other tables. -/
def SeparateStep (s s' : Store Database) : Prop :=
  (∃ (call : RecurringCall) (now : Int), call.Separate s.db ∧ s' = call.run now s) ∨
    s'.db.recurringPayments = s.db.recurringPayments

theorem detect_step (d : Detection) (now : Int) {s : Store Database}
    (h : OneActive s.db.recurringPayments) (hseparate : (RecurringCall.detect d).Separate s.db) :
    OneActive ((RecurringCall.detect d).run now s).db.recurringPayments ∧
      KeepsDeclared s.db.recurringPayments
        ((RecurringCall.detect d).run now s).db.recurringPayments := by
  change OneActive (d.prog (.quiet now) s).2.db.recurringPayments ∧
    KeepsDeclared _ (d.prog (.quiet now) s).2.db.recurringPayments
  rcases detect_recorded d now s with hT | ⟨m, hreaches, hrec⟩
  · rw [hT]
    exact ⟨h, fun x hx _ => ⟨x, hx, rfl, rfl, rfl, rfl⟩⟩
  · exact ⟨hrec.oneActive h, hrec.keepsDeclared (hseparate m hreaches)⟩

/-- As long as neither writer meets a row of the other, a pair has one active
row, and detection leaves what was declared. -/
theorem recurring_run {s s' : Store Database} (h : OneActive s.db.recurringPayments)
    (hrun : ReflTransGen SeparateStep s s') :
    OneActive s'.db.recurringPayments ∧
      ∀ (d : Detection) (now : Int), (RecurringCall.detect d).Separate s'.db →
        KeepsDeclared s'.db.recurringPayments
          ((RecurringCall.detect d).run now s').db.recurringPayments := by
  have hone : OneActive s'.db.recurringPayments := by
    induction hrun with
    | refl => exact h
    | tail _ hstep ih =>
      rcases hstep with ⟨call, now, hseparate, rfl⟩ | hT
      · cases call with
        | detect d => exact (detect_step d now ih hseparate).1
        | declare d => exact declare_oneActive now ih hseparate
      · rw [hT]
        exact ih
  exact ⟨hone, fun d now hseparate => (detect_step d now hone hseparate).2⟩

/-- Two purchases at one merchant, a week apart. -/
def weeklyRun : List (Int × Op) :=
  [(1001, .ingest (purchase "o1" 1000 (some "UTR111")) true),
    (605801, .ingest (purchase "o2" 605800 (some "UTR222")) true)]

omit [Extern] in
/-- A mandate for the merchant, and nothing inferred yet. -/
theorem declared_once :
    letI := Extern.ascii
    let monthly : Mandate := ⟨"account", "u-", some 700, "INR", some "monthly", some "M1"⟩
    OneActive ((RecurringCall.declare monthly).run 605802
      (runAll firstLedger weeklyRun)).db.recurringPayments := by
  let := Extern.ascii
  intro monthly
  have hnone : (runAll firstLedger weeklyRun).db.recurringPayments.rows = [] := by decide +kernel
  generalize runAll firstLedger weeklyRun = s at hnone
  have hempty : ∀ r, r ∉ s.db.recurringPayments := by
    intro r hr
    rw [Table.mem_def, hnone] at hr
    exact List.not_mem_nil hr
  exact (recurring_run (fun _ _ a ha => absurd ha (hempty a))
    (.single (.inl ⟨.declare monthly, 605802, fun r hr => absurd hr (hempty r), rfl⟩))).1

omit [Extern] in
/-- A monthly mandate over 700 and the third weekly charge of 500: detection
rewrites the declared row.  The other way round there are two active rows. -/
theorem declared_overwritten :
    letI := Extern.ascii
    let monthly : Mandate := ⟨"account", "u-", some 700, "INR", some "monthly", some "M1"⟩
    let third : Detection := ⟨"account", some "u-", "t3", 500, "debit", 1210600⟩
    let s := runAll firstLedger weeklyRun
    (((RecurringCall.detect third).run 1210601
        ((RecurringCall.declare monthly).run 605802 s)).db.recurringPayments.rows.map fun r =>
      (r.source, r.amountMinor, r.cadence)) = [("explicit", some 500, some .weekly)] ∧
    (((RecurringCall.declare monthly).run 1210602
        ((RecurringCall.detect third).run 1210601 s)).db.recurringPayments.rows.map fun r =>
      (r.instrumentId, r.merchantEntityId, r.source, r.status)) =
        [(some "account", some "u-", "inferred", some "active"),
          (some "account", some "u-", "explicit", some "active")] := by
  let := Extern.ascii
  decide +kernel

end Dinero
