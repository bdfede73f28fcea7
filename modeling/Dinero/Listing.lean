import Dinero.Alerts
import Dinero.Edits
import Dinero.Runs
import Mathlib.Data.List.Dedup

/-!
# Dinero.Listing

The ledger as it is listed, and the spend trend drawn from it.

The list takes the time of a transaction from one column and the trend from
another.  A new transaction has one time in both, and only an edit by the user
parts them; `list_agrees_iff` says which edits do no harm.

Times are stored as texts that sort like the times, and are compared as times
here.  Amounts are exact quotients.
-/

namespace Dinero

open Sql

/-! ## sums by group -/

section Groups

variable {α κ : Type} [DecidableEq κ]

/-- `SELECT key, SUM(value) .. GROUP BY key ORDER BY key`. -/
def groupSums (r : κ → κ → Prop) [DecidableRel r] (key : α → κ) (value : α → Int) (l : List α) :
    List (κ × Int) :=
  (orderBy r (l.map key).dedup).map fun k => (k, ((l.filter (key · = k)).map value).sum)

/-- The sum of a group, and zero if there is no such group. -/
theorem groupSums_find? (r : κ → κ → Prop) [DecidableRel r] (key : α → κ) (value : α → Int)
    (l : List α) (k : κ) :
    ((((groupSums r key value l).find? (·.1 = k)).map (·.2)).getD 0) =
      ((l.filter (key · = k)).map value).sum := by
  unfold groupSums
  rw [List.find?_map]
  cases hfind : (orderBy r (l.map key).dedup).find? _ with
  | some k' =>
    have hk : k' = k := by simpa using List.find?_some hfind
    rw [hk]
    rfl
  | none =>
    have hnone : ∀ a ∈ l, ¬ key a = k := by
      intro a ha hkey
      have hmem : k ∈ orderBy r (l.map key).dedup := by
        rw [mem_orderBy, List.mem_dedup]
        exact List.mem_map.mpr ⟨a, ha, hkey⟩
      have := List.find?_eq_none.mp hfind k hmem
      simp at this
    have hempty : l.filter (key · = k) = [] := by
      rw [List.filter_eq_nil_iff]
      intro a ha
      simpa using hnone a ha
    rw [hempty]
    rfl

end Groups

/-! ## the list -/

structure TransactionListFilters where
  fromDate : Option Int := none
  toDate : Option Int := none
  instrumentId : Option String := none
  direction : Option String := none
  categoryId : Option String := none
  status : Option TransactionStatus := none
deriving DecidableEq, Repr

/-- Builds the condition from the supplied filters.  Dates are widened to whole-day bounds. -/
def buildFilterClause (filters : TransactionListFilters) (t : TransactionsRow) : Bool :=
  filters.fromDate.all (fun d => t.authorizationTime.any (d * 86400 ≤ ·)) &&
  filters.toDate.all (fun d => t.authorizationTime.any (· ≤ d * 86400 + 86399)) &&
  filters.instrumentId.all (t.instrumentId = some ·) &&
  filters.direction.all (t.direction = some ·) &&
  filters.categoryId.all (t.categoryId = some ·) &&
  filters.status.all (t.status = some ·)

/-- The rows of `WHERE is_deleted = 0 AND ..`. -/
def Database.filtered (db : Database) (filters : TransactionListFilters) : List TransactionsRow :=
  db.transactions.rows.filter fun t => !t.isDeleted && buildFilterClause filters t

structure TransactionRecord where
  id : String
  date : String
  merchant : String
  amount : ℚ
  direction : Option String
  category : String
  status : String
  sourceMix : Option SourceMix
  instrumentId : Option String
deriving DecidableEq, Repr

def TransactionStatus.text : TransactionStatus → String
  | posted => "posted"
  | refunded => "refunded"

/-- The generated column `amount`. -/
def TransactionsRow.amount (t : TransactionsRow) : Option ℚ :=
  t.amountMinor.map fun minor => minor / 100

/-- `LIMIT ? OFFSET ?`; without a limit if it is negative. -/
def page {α : Type} (limit offset : Int) (l : List α) : List α :=
  if limit < 0 then l.drop offset.toNat else (l.drop offset.toNat).take limit.toNat

section Read

variable [Extern]

def TransactionsRow.toRecord (t : TransactionsRow) : TransactionRecord where
  id := t.id
  date := (t.authorizationTime.map formatDateTime).getD "Unknown"
  merchant := t.merchantDisplayName.getD "Unknown"
  amount := t.amount.getD 0
  direction := t.direction
  category := t.categoryId.getD "UNCATEGORIZED"
  status := (t.status.map (·.text)).getD "PENDING"
  sourceMix := t.sourceMix
  instrumentId := t.instrumentId

/-- Fetches a filtered page of transactions. -/
def doFetchTransactions (filters : TransactionListFilters) (limit offset : Int) (db : Database) :
    List TransactionRecord :=
  (page limit offset (orderBy (fun a b => nullsFirst b.authorizationTime a.authorizationTime)
    (scan (db.filtered filters)))).map (·.toRecord)

end Read

/-- Counts transactions matching the filters, for pagination. -/
def countTransactionsFiltered (filters : TransactionListFilters) (db : Database) : Int :=
  (db.filtered filters).length

/-! ## the spend trend -/

/-- What `strftime` makes of a time. -/
inductive Period
  /-- `%Y-%m-%d` -/
  | day (date : Int)
  /-- `%Y-%W` -/
  | week (year number : Int)
  /-- `%Y-%m` -/
  | month (m : Month)
deriving DecidableEq, Repr

/-- The week of the year, weeks beginning on Mondays. -/
def weekOf (t : Int) : Period :=
  let year := (civil (dateOf t)).1
  let ofYear := dateOf t - firstDay (Month.serial ⟨year, 1⟩)
  .week year ((ofYear + 7 - (dateOf t + 3) % 7) / 7)

/-- Periods of a kind in the order of their texts. -/
def Period.order : Period → Int × Int
  | day date => (date, 0)
  | week year number => (year, number)
  | month m => (m.year, m.month)

def Period.le (p q : Period) : Prop :=
  p.order.1 < q.order.1 ∨ p.order.1 = q.order.1 ∧ p.order.2 ≤ q.order.2

instance : DecidableRel Period.le := fun _ _ => inferInstanceAs (Decidable (_ ∨ _))

structure SpendTrendPoint where
  period : Period
  totalSpend : ℚ
deriving DecidableEq, Repr

/-- The rows the trend sums: live debits since then, without those of open clusters. -/
def Database.spends (db : Database) (since : Int) (t : TransactionsRow) (time : Int) : Bool :=
  t.direction = some "debit" && !t.isDeleted && decide (since ≤ time) && !db.inOpenCluster t.id

def Database.spendRows (db : Database) (since : Int) : List (Int × TransactionsRow) :=
  db.transactions.rows.filterMap fun t =>
    (t.bestEventTime.filter (db.spends since t)).map fun time => (time, t)

def doFetchSpendTrend (granularity : String) (now : Int) (db : Database) :
    Except String (List SpendTrendPoint) := do
  let (strftime, since) ← match granularity with
    | "daily" => pure (fun t => Period.day (dateOf t), now - 30 * 86400)
    | "weekly" => pure (weekOf, now - 12 * 7 * 86400)
    | "monthly" => pure (fun t => Period.month (monthOf t), now - 365 * 86400)
    | other => throw ("invalid granularity '" ++ other ++ "': must be daily, weekly, or monthly")
  return (groupSums Period.le (fun row => strftime row.1) (fun row => row.2.amountMinor.getD 0)
    (db.spendRows since)).map fun p => ⟨p.1, p.2 / 100⟩

/-! ## their agreement -/

/-- The whole days of a month. -/
def Month.filters (m : Month) : TransactionListFilters :=
  { fromDate := some (firstDay m.serial), toDate := some (firstDay (m.serial + 1) - 1) }

/-- The month lies in the window of the monthly trend. -/
def Month.InWindow (m : Month) (now : Int) : Prop := now - 365 * 86400 ≤ firstDay m.serial * 86400

/-- The point of a month, no point meaning zero. -/
def trendPoint (m : Month) (points : List SpendTrendPoint) : ℚ :=
  ((points.find? (·.period = .month m)).map (·.totalSpend)).getD 0

section Agreement

variable [Extern]

/-- The debits a list of the month shows that are in no open cluster. -/
def Database.listedDebits (db : Database) (m : Month) (limit : Int) : List TransactionRecord :=
  (doFetchTransactions m.filters limit 0 db).filter fun r =>
    r.direction = some "debit" && !db.inOpenCluster r.id

/-- List and trend agree on a month: they are about the same transactions, and so have the
same sum. -/
structure Database.AgreesOn (db : Database) (m : Month) (limit now : Int) : Prop where
  selects : ∀ t ∈ db.transactions, (∃ r ∈ db.listedDebits m limit, r.id = t.id) ↔
    ∃ row ∈ db.spendRows (now - 365 * 86400), monthOf row.1 = m ∧ row.2.id = t.id
  total : ∃ points, doFetchSpendTrend "monthly" now db = .ok points ∧
    ((db.listedDebits m limit).map (·.amount)).sum = trendPoint m points

/-- They agree on every month of the window, the list being long enough. -/
def Database.ListAgrees (db : Database) : Prop :=
  ∀ m : Month, m.Valid → ∀ now, m.InWindow now →
    ∀ limit, countTransactionsFiltered m.filters db ≤ limit → db.AgreesOn m limit now

/-! ## one state -/

/-- A transaction that is a debit, live and in no open cluster. -/
def Database.Counts (db : Database) (t : TransactionsRow) : Prop :=
  t.direction = some "debit" ∧ t.isDeleted = false ∧ db.inOpenCluster t.id = false

instance (db : Database) (t : TransactionsRow) : Decidable (db.Counts t) :=
  inferInstanceAs (Decidable (_ ∧ _ ∧ _))

/-- The transactions that count and have that time in the month. -/
def Database.countedIn (db : Database) (time : TransactionsRow → Option Int) (m : Month) :
    List TransactionsRow :=
  db.transactions.rows.filter fun t => db.Counts t ∧ (time t).map monthOf = some m

omit [Extern] in
theorem Database.mem_countedIn {db : Database} {time : TransactionsRow → Option Int} {m : Month}
    {t : TransactionsRow} : t ∈ db.countedIn time m ↔
      t ∈ db.transactions ∧ db.Counts t ∧ (time t).map monthOf = some m := by
  rw [countedIn, List.mem_filter, decide_eq_true_iff]
  rfl

/-- Both times of the transaction are in one month. -/
def TransactionsRow.SameMonth (t : TransactionsRow) : Prop :=
  t.authorizationTime.map monthOf = t.bestEventTime.map monthOf

instance (t : TransactionsRow) : Decidable t.SameMonth :=
  inferInstanceAs (Decidable (_ = _))

omit [Extern] in
/-- The filter for a month's days admits the month. -/
theorem buildFilterClause_month {m : Month} (hm : m.Valid) (t : TransactionsRow) :
    buildFilterClause m.filters t = true ↔ t.authorizationTime.map monthOf = some m := by
  cases ht : t.authorizationTime with
  | none => simp [buildFilterClause, Month.filters, ht]
  | some a =>
    have hdays : (firstDay m.serial * 86400 ≤ a ∧
        a ≤ (firstDay (m.serial + 1) - 1) * 86400 + 86399) ↔
          firstDay m.serial ≤ dateOf a ∧ dateOf a < firstDay (m.serial + 1) := by
      unfold dateOf
      omega
    simp only [buildFilterClause, Month.filters, ht, Option.all_some, Option.any_some,
      Option.all_none, Bool.and_true, Bool.and_eq_true, decide_eq_true_eq, Option.map_some,
      Option.some.injEq]
    rw [hdays, monthOf_eq_iff hm]

omit [Extern] in
/-- Only the rows of a month count for its point. -/
theorem spendRows_month (db : Database) {m : Month} (hm : m.Valid) {since : Int}
    (hwindow : since ≤ firstDay m.serial * 86400) :
    ((db.spendRows since).filter fun row => monthOf row.1 = m).map (·.2) =
      db.countedIn (·.bestEventTime) m := by
  unfold Database.spendRows Database.countedIn
  rw [List.filter_filterMap, List.map_filterMap, ← List.filterMap_eq_filter]
  refine List.filterMap_congr fun t _ => ?_
  cases hbest : t.bestEventTime with
  | none => simp [Option.guard, hbest]
  | some time =>
    have hselect : monthOf time = m → db.spends since t time = decide (db.Counts t) := by
      intro hmonth
      have hfirst := ((monthOf_eq_iff hm).mp hmonth).1
      have hsince : since ≤ time := by
        unfold dateOf at hfirst
        omega
      rw [Bool.eq_iff_iff, decide_eq_true_iff]
      simp only [Database.spends, decide_eq_true hsince, Bool.and_true, Bool.and_eq_true,
        decide_eq_true_eq, Bool.not_eq_true', Database.Counts, and_assoc]
    by_cases hmonth : monthOf time = m
    · by_cases hcounts : db.Counts t <;>
        simp [Option.guard, hbest, hmonth, hselect hmonth, hcounts]
    · cases hspends : db.spends since t time <;>
        simp [Option.guard, hbest, hmonth, hspends]

/-- The debits listed, up to order. -/
theorem listedDebits_perm (db : Database) {m : Month} (hm : m.Valid) {limit : Int}
    (hlimit : countTransactionsFiltered m.filters db ≤ limit) :
    (db.listedDebits m limit).Perm ((db.countedIn (·.authorizationTime) m).map (·.toRecord)) := by
  have hwhole : doFetchTransactions m.filters limit 0 db =
      (orderBy (fun a b => nullsFirst b.authorizationTime a.authorizationTime)
        (scan (db.filtered m.filters))).map (·.toRecord) := by
    have hlength : (orderBy (fun a b => nullsFirst b.authorizationTime a.authorizationTime)
        (scan (db.filtered m.filters))).length = (db.filtered m.filters).length :=
      ((List.perm_insertionSort _ _).trans (Extern.scan_perm _)).length_eq
    unfold countTransactionsFiltered at hlimit
    unfold doFetchTransactions page
    rw [if_neg (by omega), List.take_of_length_le]
    · rfl
    · rw [List.length_drop, hlength]
      omega
  have hrows : (orderBy (fun a b => nullsFirst b.authorizationTime a.authorizationTime)
      (scan (db.filtered m.filters))).Perm (db.filtered m.filters) :=
    (List.perm_insertionSort _ _).trans (Extern.scan_perm _)
  have hfiltered : (db.filtered m.filters).filter (fun t => t.direction = some "debit" &&
      !db.inOpenCluster t.id) = db.countedIn (·.authorizationTime) m := by
    unfold Database.filtered Database.countedIn
    rw [List.filter_filter]
    refine List.filter_congr fun t _ => ?_
    rw [Bool.eq_iff_iff, decide_eq_true_iff]
    simp only [Bool.and_eq_true, buildFilterClause_month hm, decide_eq_true_eq, Bool.not_eq_true',
      Database.Counts]
    constructor
    · rintro ⟨⟨hdebit, hopen⟩, hlive, hmonth⟩
      exact ⟨⟨hdebit, hlive, hopen⟩, hmonth⟩
    · rintro ⟨⟨hdebit, hlive, hopen⟩, hmonth⟩
      exact ⟨⟨hdebit, hopen⟩, hlive, hmonth⟩
  unfold Database.listedDebits
  rw [hwhole, List.filter_map, ← hfiltered]
  exact (hrows.filter _).map _

/-- The rows that count have both their times in one month. -/
def Database.TimesAgree (db : Database) : Prop :=
  ∀ t ∈ db.transactions, db.Counts t → t.SameMonth

/-- Who is listed. -/
theorem mem_listedDebits (db : Database) {m : Month} (hm : m.Valid) {limit : Int}
    (hlimit : countTransactionsFiltered m.filters db ≤ limit) {t : TransactionsRow}
    (ht : t ∈ db.transactions) : (∃ r ∈ db.listedDebits m limit, r.id = t.id) ↔
      db.Counts t ∧ t.authorizationTime.map monthOf = some m := by
  have hperm := listedDebits_perm db hm hlimit
  constructor
  · rintro ⟨r, hr, hid⟩
    obtain ⟨t', ht', rfl⟩ := List.mem_map.mp (hperm.mem_iff.mp hr)
    obtain ⟨hmem, hselected⟩ := Database.mem_countedIn.mp ht'
    have hsame : t' = t := Table.eq_of_key_eq hmem ht hid
    exact hsame ▸ hselected
  · intro h
    have hrow := Database.mem_countedIn.mpr ⟨ht, h⟩
    exact ⟨_, hperm.mem_iff.mpr (List.mem_map.mpr ⟨t, hrow, rfl⟩), rfl⟩

omit [Extern] in
/-- Who is counted. -/
theorem mem_spendRows (db : Database) {m : Month} (hm : m.Valid) {since : Int}
    (hwindow : since ≤ firstDay m.serial * 86400) {t : TransactionsRow}
    (ht : t ∈ db.transactions) :
    (∃ row ∈ db.spendRows since, monthOf row.1 = m ∧ row.2.id = t.id) ↔
      db.Counts t ∧ t.bestEventTime.map monthOf = some m := by
  have hrows := spendRows_month db hm hwindow
  constructor
  · rintro ⟨row, hrow, hmonth, hid⟩
    have hmapped : row.2 ∈ db.countedIn (·.bestEventTime) m := by
      rw [← hrows]
      exact List.mem_map.mpr ⟨row, List.mem_filter.mpr ⟨hrow, decide_eq_true hmonth⟩, rfl⟩
    obtain ⟨hmem, hselected⟩ := Database.mem_countedIn.mp hmapped
    have hsame : row.2 = t := Table.eq_of_key_eq hmem ht hid
    exact hsame ▸ hselected
  · intro h
    have hmapped : t ∈ db.countedIn (·.bestEventTime) m := Database.mem_countedIn.mpr ⟨ht, h⟩
    rw [← hrows] at hmapped
    obtain ⟨row, hrow, hsame⟩ := List.mem_map.mp hmapped
    obtain ⟨hmem, hmonth⟩ := List.mem_filter.mp hrow
    exact ⟨row, hmem, of_decide_eq_true hmonth, congrArg (·.id) hsame⟩

omit [Extern] in
/-- The point of a month is the sum of its rows. -/
theorem trendPoint_monthly (db : Database) {m : Month} (hm : m.Valid) {now : Int}
    (hwindow : m.InWindow now) : ∃ points, doFetchSpendTrend "monthly" now db = .ok points ∧
      trendPoint m points =
        ((((db.countedIn (·.bestEventTime) m).map fun t => t.amountMinor.getD 0).sum : Int) : ℚ) /
          100 := by
  refine ⟨_, rfl, ?_⟩
  have hsum := groupSums_find? Period.le (fun row => Period.month (monthOf row.1))
    (fun row => row.2.amountMinor.getD 0) (db.spendRows (now - 365 * 86400)) (.month m)
  have hrows : (db.spendRows (now - 365 * 86400)).filter (fun row =>
      Period.month (monthOf row.1) = .month m) =
        (db.spendRows (now - 365 * 86400)).filter fun row => monthOf row.1 = m := by
    simp only [Period.month.injEq]
  rw [hrows] at hsum
  rw [← spendRows_month db hm hwindow, List.map_map]
  unfold trendPoint
  rw [List.find?_map, Option.map_map]
  have hscaled : ∀ found : Option (Period × Int),
      (found.map ((·.totalSpend) ∘ fun p => SpendTrendPoint.mk p.1 (p.2 / 100))).getD 0 =
        (((found.map (·.2)).getD 0 : Int) : ℚ) / 100 := by
    intro found
    cases found <;> simp
  rw [hscaled]
  exact congrArg (fun n : Int => (n : ℚ) / 100) hsum

omit [Extern] in
/-- Minor units add up as the amounts do. -/
theorem sum_amounts (l : List TransactionsRow) :
    (l.map fun t => t.amount.getD 0).sum =
      (((l.map fun t => t.amountMinor.getD 0).sum : Int) : ℚ) / 100 := by
  induction l with
  | nil => simp
  | cons t rest ih =>
    rw [List.map_cons, List.sum_cons, ih, List.map_cons, List.sum_cons, Int.cast_add, add_div]
    cases ht : t.amountMinor <;> simp [TransactionsRow.amount, ht]

/-- **One state.**  List and trend agree on every month just if the times do. -/
theorem listAgrees_iff (db : Database) : db.ListAgrees ↔ db.TimesAgree := by
  constructor
  · intro h t ht hcounts
    have hmonth : ∀ m : Month, m.Valid → (t.authorizationTime.map monthOf = some m ↔
        t.bestEventTime.map monthOf = some m) := by
      intro m hm
      obtain ⟨now, hnow⟩ : ∃ now, now = firstDay m.serial * 86400 + 365 * 86400 := ⟨_, rfl⟩
      have hwindow : m.InWindow now := by
        unfold Month.InWindow
        omega
      have hagrees := (h m hm now hwindow _ (le_refl _)).selects t ht
      rw [mem_listedDebits db hm (le_refl _) ht, mem_spendRows db hm hwindow ht] at hagrees
      simpa [hcounts] using hagrees
    unfold TransactionsRow.SameMonth
    cases hauth : t.authorizationTime with
    | some a => 
      have := (hmonth (monthOf a) (civil_spec a).1).mp (by rw [hauth]; rfl)
      rw [this]
      rfl
    | none =>
      cases hbest : t.bestEventTime with
      | none => rfl
      | some b =>
        have := (hmonth (monthOf b) (civil_spec b).1).mpr (by rw [hbest]; rfl)
        rw [hauth] at this
        cases this
  · intro h m hm now hwindow limit hlimit
    constructor
    · intro t ht
      rw [mem_listedDebits db hm hlimit ht, mem_spendRows db hm hwindow ht]
      exact and_congr_right fun hcounts => by rw [h t ht hcounts]
    · obtain ⟨points, hpoints, htotal⟩ := trendPoint_monthly db hm hwindow
      refine ⟨points, hpoints, ?_⟩
      have hsame : db.countedIn (·.authorizationTime) m = db.countedIn (·.bestEventTime) m := by
        refine List.filter_congr fun t ht => ?_
        rw [decide_eq_decide]
        exact and_congr_right fun hcounts => by rw [h t ht hcounts]
      have hperm := (listedDebits_perm db hm hlimit).map (·.amount)
      rw [hperm.sum_eq, htotal, ← hsame, ← sum_amounts, List.map_map]
      rfl

/-! ## runs -/

/-- The event leaves both times in one month: an update of what will be a counted debit. -/
def Database.KeepsMonths (db : Database) : LedgerEvent → Prop
  | .transactionsUpdate id payload =>
    refersInto db.instruments payload.instrumentId = true →
      ∀ old ∈ db.getTransaction id, payload.direction.or old.direction = some "debit" →
        db.inOpenCluster id = false → old.authorizationTime.map monthOf =
          ((payload.eventTime.bind EnteredTime.parse).or old.bestEventTime).map monthOf
  | _ => True

instance (db : Database) : (e : LedgerEvent) → Decidable (db.KeepsMonths e)
  | .transactionsUpdate id payload =>
    inferInstanceAs (Decidable (refersInto db.instruments payload.instrumentId = true →
      ∀ old ∈ db.getTransaction id, payload.direction.or old.direction = some "debit" →
        db.inOpenCluster id = false → old.authorizationTime.map monthOf =
          ((payload.eventTime.bind EnteredTime.parse).or old.bestEventTime).map monthOf))
  | .ingest _ _ => isTrue trivial
  | .deleteTransaction _ => isTrue trivial

/-- What the trend and the list look at in a row. -/
structure TransactionsRow.SameTimes (t t' : TransactionsRow) : Prop where
  id : t'.id = t.id
  direction : t'.direction = t.direction
  isDeleted : t'.isDeleted = t.isDeleted
  authorizationTime : t'.authorizationTime = t.authorizationTime
  bestEventTime : t'.bestEventTime = t.bestEventTime

omit [Extern] in
theorem TransactionsRow.SameTimes.of_settled {t t' : TransactionsRow}
    (h : t'.settled = t.settled) : t.SameTimes t' where
  id := congrArg (·.id) h
  direction := congrArg (·.direction) h
  isDeleted := congrArg (·.isDeleted) h
  authorizationTime := congrArg (·.authorizationTime) h
  bestEventTime := congrArg (·.bestEventTime) h

omit [Extern] in
theorem TransactionsRow.SameTimes.trans {a b c : TransactionsRow} (h : a.SameTimes b)
    (h' : b.SameTimes c) : a.SameTimes c where
  id := h'.id.trans h.id
  direction := h'.direction.trans h.direction
  isDeleted := h'.isDeleted.trans h.isDeleted
  authorizationTime := h'.authorizationTime.trans h.authorizationTime
  bestEventTime := h'.bestEventTime.trans h.bestEventTime

omit [Extern] in
theorem TransactionsRow.SameTimes.sameMonth {t t' : TransactionsRow} (h : t.SameTimes t')
    (hmonth : t.SameMonth) : t'.SameMonth := by
  unfold SameMonth
  rw [h.authorizationTime, h.bestEventTime]
  exact hmonth

omit [Extern] in
theorem mergePatch_sameTimes (obs : IncomingObservation) (mix : Option SourceMix)
    (overwrite : Bool) (now : Int) (t : TransactionsRow) :
    t.SameTimes ((mergePatch obs mix overwrite now).run t) := by
  unfold mergePatch
  split
  · exact ⟨rfl, rfl, rfl, rfl, rfl⟩
  split
  · exact ⟨rfl, rfl, rfl, rfl, rfl⟩
  split <;> exact ⟨rfl, rfl, rfl, rfl, rfl⟩

omit [Extern] in
/-- Rows with the times of rows that count. -/
theorem Database.TimesAgree.of_rows {db db' : Database} (h : db.TimesAgree)
    (hopen : ∀ id, db.inOpenCluster id = true → db'.inOpenCluster id = true)
    (hrows : ∀ t' ∈ db'.transactions, db'.Counts t' →
      t'.SameMonth ∨ ∃ t ∈ db.transactions, t.SameTimes t') : db'.TimesAgree := by
  intro t' ht' hcounts
  rcases hrows t' ht' hcounts with hsame | ⟨t, ht, hsame⟩
  · exact hsame
  · obtain ⟨hdebit, hlive, hclosed⟩ := hcounts
    have hnot : db.inOpenCluster t.id = false := by
      rw [Bool.eq_false_iff]
      intro hc
      rw [hsame.id, hopen _ hc] at hclosed
      cases hclosed
    exact hsame.sameMonth (h t ht ⟨hsame.direction ▸ hdebit, hsame.isDeleted ▸ hlive, hnot⟩)

omit [Extern] in
/-- A transaction in an open cluster stays in it. -/
theorem Raised.inOpenCluster {obs : IncomingObservation} {dt : Int} {viable : List ScoredCandidate}
    {db db' : Database} (h : Raised obs dt viable db db') {id : String}
    (hid : db.inOpenCluster id = true) : db'.inOpenCluster id = true := by
  unfold Database.inOpenCluster at hid ⊢
  obtain ⟨m₀, hm₀, hmember⟩ := List.any_eq_true.mp hid
  cases h with
  | extend c m M hc hover hm hM hdb =>
    rw [hdb]
    have hkept : m₀ ∈ M := (Table.mem_of_insert? hM).mpr (.inl hm₀)
    exact List.any_eq_true.mpr ⟨m₀, hkept, hmember⟩
  | found c C m ms M hnone hc hC hm hms hids hM hdb =>
    rw [hdb]
    obtain ⟨hcanonical, hopen⟩ := Bool.and_eq_true_iff.mp hmember
    obtain ⟨c₀, hc₀, hstatus⟩ := (Option.any_eq_true _ _).mp hopen
    have hne : m₀.clusterId ≠ Keyed.key c := by
      intro heq
      obtain ⟨hmem, hkey⟩ := Table.find?_eq_some.mp hc₀
      exact (Table.insert?_eq_some.mp hC).1 c₀ hmem (hkey.trans heq)
    have hkept : m₀ ∈ M.rows := by
      rw [hM]
      exact List.mem_append_left _ hm₀
    refine List.any_eq_true.mpr ⟨m₀, hkept, Bool.and_eq_true_iff.mpr ⟨hcanonical, ?_⟩⟩
    rw [Table.find?_insert? hC, if_neg hne]
    exact hopen

/-- Acting on an observation gives a new transaction one time, and moves no old one. -/
theorem Acted.timesAgree {obs : IncomingObservation} {dt now : Int} {d : DecisionType}
    {db db' : Database} (h : Acted obs dt now db db' d) (hagree : db.TimesAgree) :
    db'.TimesAgree := by
  have hlinks : ∀ {id T}, LinkedTo obs.id id now T db db' → ∀ k, db.inOpenCluster k = true →
      db'.inOpenCluster k = true := by
    intro id T hlinked k hk
    unfold Database.inOpenCluster at hk ⊢
    rwa [hlinked.clusters, hlinked.clusterMembers]
  cases h with
  | merged d t overwrite ht hverdict htarget hlinked hlogged =>
    refine hagree.of_rows (hlinks hlinked) fun t' ht' _ => .inr ?_
    obtain ⟨t₁, ht₁, hsettled⟩ := Table.exists_of_map_eq hlinked.settled ht'
    have hsame := TransactionsRow.SameTimes.of_settled hsettled.symm
    rcases Table.mem_modify_cases ht₁ with ⟨hold, -⟩ | ⟨t₀, ht₀, -, rfl⟩
    · exact ⟨t₁, hold, hsame⟩
    · exact ⟨t₀, ht₀, (mergePatch_sameTimes _ _ _ _ _).trans hsame⟩
  | created id merchant T hT hlinked hlogged =>
    refine hagree.of_rows (hlinks hlinked) fun t' ht' _ => ?_
    obtain ⟨t₁, ht₁, hsettled⟩ := Table.exists_of_map_eq hlinked.settled ht'
    have hsame := TransactionsRow.SameTimes.of_settled hsettled.symm
    rcases (Table.mem_of_insert? hT).mp ht₁ with hold | rfl
    · exact .inr ⟨t₁, hold, hsame⟩
    · exact .inl (hsame.sameMonth rfl)
  | raised clusterId db₁ D hraised hdb hlogged =>
    have hrows : db'.transactions = db.transactions := by
      rw [hdb]
      exact hraised.payments.2.1
    refine hagree.of_rows (fun id hid => ?_) fun t' ht' _ =>
      .inr ⟨t', hrows ▸ ht', rfl, rfl, rfl, rfl, rfl⟩
    rw [hdb]
    exact hraised.inOpenCluster hid

/-- An ingestion. -/
theorem ingest_timesAgree {s : Store Database} (h : s.db.TimesAgree) (now : Int)
    (row : TransactionObservationsRow) (shouldReconcile : Bool) :
    ((Op.ingest row shouldReconcile).run now s).db.TimesAgree := by
  have hstored : ∀ {db}, s.db.insertObservation row = .ok ((), db) → db.TimesAgree := by
    intro db hins
    obtain ⟨-, -, -, T, -, rfl⟩ := Database.insertObservation_eq_ok.mp hins
    exact h
  cases Op.ingest_effect row shouldReconcile now s with
  | unchanged hsame => rwa [hsame]
  | stored hins => exact hstored hins
  | acted db₁ instrumentId dt d hins hinst htime hacted => exact hacted.timesAgree (hstored hins)

omit [Extern] in
/-- A deletion. -/
theorem delete_timesAgree {s : Store Database} (h : s.db.TimesAgree) (now : Int) (id : String) :
    (deleteTransaction id (.quiet now) s).2.db.TimesAgree := by
  rcases Deletion.program_cases .deleteTransaction id now s with ⟨hsame, -⟩ | hdeleted
  · have hrun : (deleteTransaction id (.quiet now) s).2 = s := hsame
    rwa [hrun]
  · have hrun : (deleteTransaction id (.quiet now) s).2 =
        { s with db := s.db.updateTransaction id (deletionPatch now) } := hdeleted
    rw [hrun]
    refine h.of_rows (fun _ hid => hid) fun t' ht' hcounts => .inr ?_
    rcases Table.mem_modify_cases ht' with ⟨hold, -⟩ | ⟨t₀, -, -, rfl⟩
    · exact ⟨t', hold, rfl, rfl, rfl, rfl, rfl⟩
    · have hdead := hcounts.2.1
      simp [deletionPatch] at hdead

/-- An update keeps the agreement just if it keeps the months together. -/
theorem update_timesAgree_iff {s : Store Database} (h : s.db.TimesAgree) (now : Int) (id : String)
    (payload : TransactionUpdatePayload) :
    (applyTransactionFieldUpdate id payload (.quiet now) s).2.db.TimesAgree ↔
      s.db.KeepsMonths (.transactionsUpdate id payload) := by
  have heffect := transactionsUpdate_effect id payload now s
  generalize (applyTransactionFieldUpdate id payload (.quiet now) s).1 = answer at heffect
  generalize (applyTransactionFieldUpdate id payload (.quiet now) s).2.db = db' at heffect ⊢
  cases heffect with
  | refused e db hlearn hrefused =>
    obtain ⟨m, a, rfl⟩ := hlearn
    refine iff_of_true h fun hinst old hold => absurd ⟨?_, hinst⟩ hrefused
    rw [Option.mem_def.mp hold]
    rfl
  | stored old m db hold hrename hdb hlearn hname hinst =>
    clear hdb
    obtain ⟨m', a, rfl⟩ := hlearn
    obtain ⟨hmem, hid, hlive⟩ := Database.getTransaction_eq_some.mp hold
    have hclusters : ∀ k, (Database.updateTransaction id (updatePatch old payload m now)
        { s.db with merchants := m', merchantAliases := a }).inOpenCluster k =
          s.db.inOpenCluster k := fun _ => rfl
    constructor
    · intro hagree hinst' old' hold' hdebit hclosed
      have hsame : old' = old := Option.some.inj ((Option.mem_def.mp hold').symm.trans hold)
      rw [hsame] at hdebit ⊢
      have hrow := Table.mem_modify_of_mem (u := updatePatch old payload m now) hmem hid
      exact hagree _ hrow ⟨hdebit, hlive, by rw [← hclosed, ← hid]; rfl⟩
    · intro hkeeps
      refine h.of_rows (fun _ hk => hk) fun t' ht' hcounts => ?_
      rcases Table.mem_modify_cases ht' with ⟨hother, -⟩ | ⟨t₀, ht₀, hkey, rfl⟩
      · exact .inr ⟨t', hother, rfl, rfl, rfl, rfl, rfl⟩
      · have hsame : t₀ = old := Table.eq_of_key_eq ht₀ hmem (hkey.trans hid.symm)
        subst hsame
        left
        exact hkeeps hinst t₀ (Option.mem_def.mpr hold) hcounts.1 (by rw [← hcounts.2.2, ← hid]; rfl)

/-- **The ledger list and the totals.**  In every state of a run the list of a month and its
point in the trend agree, for every month of the window, just if no update moves the one
time of a counted debit out of the month of the other. -/
theorem list_agrees_iff {s : Store Database} (h₀ : Initial s) (es : List (Int × LedgerEvent)) :
    (∀ pre, pre <+: es → (runLedger s pre).db.ListAgrees) ↔
      Runs.Guarded (fun (s : Store Database) e => e.2.run e.1 s)
        (fun s e => s.db.KeepsMonths e.2) s es := by
  have hstart : s.db.ListAgrees := by
    rw [listAgrees_iff]
    intro t ht
    rw [h₀.empty.transactions] at ht
    exact absurd ht (Table.not_mem_empty t)
  rw [Runs.guarded_iff_prefixes]
  refine Runs.prefixes_iff (f := fun (s : Store Database) (e : Int × LedgerEvent) => e.2.run e.1 s)
    (G := fun s e => s.db.KeepsMonths e.2) (I := fun _ => True) (P := fun s => s.db.ListAgrees)
    (fun s e _ hP => ⟨trivial, ?_⟩) trivial hstart es
  rw [listAgrees_iff] at hP ⊢
  obtain ⟨now, event⟩ := e
  cases event with
  | ingest row shouldReconcile =>
    exact iff_of_true (ingest_timesAgree hP now row shouldReconcile) trivial
  | transactionsUpdate id payload => exact update_timesAgree_iff hP now id payload
  | deleteTransaction id => exact iff_of_true (delete_timesAgree hP now id) trivial

/-- A debit of January 1970, moved by the user to another day. -/
def movedDebit (date : Int) : List (Int × LedgerEvent) :=
  [(1001, .ingest (observed "o1" "gmail_transaction" "debit" 500 1000) true),
    (1002, .transactionsUpdate (uuid 0) { eventTime := some (.date date) })]

omit [Extern] in
/-- To another day of January. -/
theorem list_agrees_movedWithin :
    letI := Extern.ascii
    (runLedger firstLedger (movedDebit 20)).db.transactions.rows.map (·.bestEventTime) =
      [some (20 * 86400)] ∧
    ∀ pre, pre <+: movedDebit 20 → (runLedger firstLedger pre).db.ListAgrees := by
  let := Extern.ascii
  exact ⟨by decide +kernel, (list_agrees_iff initial_firstLedger _).mpr (by decide +kernel)⟩

omit [Extern] in
/-- To February: January's list still has the debit, January's point has not. -/
theorem list_and_trend_part :
    letI := Extern.ascii
    Month.Valid ⟨1970, 1⟩ ∧ Month.InWindow ⟨1970, 1⟩ 5000000 ∧
    ∃ points, doFetchSpendTrend "monthly" 5000000 (runLedger firstLedger (movedDebit 40)).db =
        .ok points ∧
      trendPoint ⟨1970, 1⟩ points = 0 ∧
      (((runLedger firstLedger (movedDebit 40)).db.listedDebits ⟨1970, 1⟩ 10).map
        (·.amount)).sum = 5 := by
  let := Extern.ascii
  refine ⟨by decide, by unfold Month.InWindow; decide, _, rfl, ?_, ?_⟩
  · decide +kernel
  · decide +kernel

end Agreement

end Dinero
