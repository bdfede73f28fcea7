import Dinero.Listing
import Dinero.SortedGroups

/-!
# Dinero.Paging

The ledger read page by page.

Each page is a query of its own, sorted by a column that many rows share, and
nothing says in which order the rows of one time come.  `pages_partition_iff`
says when the pages fit together all the same.
-/

namespace Dinero

open Sql

/-! ## sorted answers -/

section Pages

variable {α : Type} {L : List α} {i : Nat}

theorem lt_countP {p : α → Bool} (h : i < L.length)
    (hp : ∀ j (hj : j < L.length), j ≤ i → p L[j] = true) : i < L.countP p := by
  have hfront : (L.take (i + 1)).countP p = (L.take (i + 1)).length := by
    rw [List.countP_eq_length]
    intro b hb
    obtain ⟨j, hj, rfl⟩ := List.mem_iff_getElem.mp hb
    rw [List.length_take] at hj
    rw [List.getElem_take]
    exact hp j (by omega) (by omega)
  have hsplit : L.countP p = (L.take (i + 1)).countP p + (L.drop (i + 1)).countP p := by
    rw [← List.countP_append, List.take_append_drop]
  rw [hsplit, hfront, List.length_take]
  omega

theorem countP_le {p : α → Bool} (hp : ∀ j (hj : j < L.length), i ≤ j → ¬ p L[j] = true) :
    L.countP p ≤ i := by
  have hback : (L.drop i).countP p = 0 := by
    rw [List.countP_eq_zero]
    intro b hb
    obtain ⟨j, hj, rfl⟩ := List.mem_iff_getElem.mp hb
    rw [List.getElem_drop]
    exact hp _ _ (by omega)
  have hfront := List.countP_le_length (p := p) (l := L.take i)
  have hsplit : L.countP p = (L.take i).countP p + (L.drop i).countP p := by
    rw [← List.countP_append, List.take_append_drop]
  rw [List.length_take] at hfront
  omega

/-- Page by page, each page from an answer of its own. -/
def pagesOf (size : Nat) (answers : Nat → List α) (count : Nat) : List α :=
  (List.range count).flatMap fun k => ((answers k).drop (k * size)).take size

variable {size count : Nat} {answers : Nat → List α}

/-- One answer read page by page is that answer. -/
theorem pagesOf_const (L : List α) : pagesOf size (fun _ => L) count = L.take (count * size) := by
  induction count with
  | zero => simp [pagesOf]
  | succ n ih =>
    rw [Nat.succ_mul, List.take_add, ← ih]
    rw [pagesOf, List.range_succ, List.flatMap_append, List.flatMap_singleton]
    rfl

theorem length_pagesOf_le : (pagesOf size answers count).length ≤ count * size := by
  induction count with
  | zero => simp [pagesOf]
  | succ n ih =>
    rw [pagesOf, List.range_succ, List.flatMap_append, List.flatMap_singleton, List.length_append,
      List.length_take, Nat.succ_mul]
    rw [pagesOf] at ih
    omega

/-- The pages up to a change of order and those behind it. -/
theorem pagesOf_switch (L L' : List α) {k : Nat} (hk : k ≤ count) :
    pagesOf size (fun i => if i < k then L else L') count =
      L.take (k * size) ++ (L'.drop (k * size)).take ((count - k) * size) := by
  obtain ⟨m, rfl⟩ := Nat.exists_eq_add_of_le hk
  have hfront : pagesOf size (fun i => if i < k then L else L') k = L.take (k * size) := by
    rw [← pagesOf_const L]
    refine List.flatMap_congr fun i hi => ?_
    dsimp only
    rw [if_pos (List.mem_range.mp hi)]
  have hback : ((List.range m).map (k + ·)).flatMap (fun i =>
      ((if i < k then L else L').drop (i * size)).take size) =
      (L'.drop (k * size)).take (m * size) := by
    rw [← pagesOf_const, List.flatMap_map]
    refine List.flatMap_congr fun i hi => ?_
    rw [if_neg (by omega), List.drop_drop, Nat.add_mul]
  rw [← hfront, Nat.add_sub_cancel_left, ← hback]
  rw [pagesOf, List.range_add, List.flatMap_append]
  rfl

end Pages

section Sorted

variable {α : Type} (r : α → α → Prop) [DecidableRel r]

/-- How many rows of `l` sort strictly before `a`. -/
def before (l : List α) (a : α) : Nat := l.countP fun b => ¬ r a b

/-- How many rows of `l` do not sort behind `a`. -/
def upTo (l : List α) (a : α) : Nat := l.countP fun b => r b a

/-- Rows that sort alike stand on both sides of position `n`. -/
def Straddled (l : List α) (n : Nat) : Prop := ∃ a ∈ l, before r l a < n ∧ n < upTo r l a

instance decidableStraddled (l : List α) (n : Nat) : Decidable (Straddled r l n) :=
  inferInstanceAs (Decidable (∃ a ∈ l, before r l a < n ∧ n < upTo r l a))

variable {r} {l L : List α} {a : α} {i n : Nat}

theorem perm_orderBy (l : List α) : (orderBy r l).Perm l := List.perm_insertionSort r l

theorem before_perm (h : L.Perm l) (a : α) : before r L a = before r l a := h.countP_eq _

theorem upTo_perm (h : L.Perm l) (a : α) : upTo r L a = upTo r l a := h.countP_eq _

section Order

variable [Std.Total r]

omit [DecidableRel r] in
theorem pairwise_le (hsort : L.Pairwise r) {i j : Nat} (hi : i < L.length) (hj : j < L.length)
    (h : i ≤ j) : r L[i] L[j] := by
  obtain rfl | hlt := Nat.eq_or_lt_of_le h
  · exact refl_of r _
  · exact List.pairwise_iff_getElem.mp hsort i j hi hj hlt

theorem before_getElem_le (hsort : L.Pairwise r) (h : i < L.length) : before r L L[i] ≤ i := by
  apply countP_le
  intro j hj hle
  simpa using pairwise_le hsort h hj hle

theorem lt_upTo_getElem (hsort : L.Pairwise r) (h : i < L.length) : i < upTo r L L[i] := by
  apply lt_countP h
  intro j hj hle
  simpa using pairwise_le hsort hj h hle

/-- A cut between rows that do not sort alike keeps those that sort early enough. -/
theorem take_eq_filter (hsort : L.Pairwise r) (hcut : ¬ Straddled r L n) :
    L.take n = L.filter fun a => before r L a < n := by
  have hfront : ∀ a ∈ L.take n, decide (before r L a < n) = true := by
    intro a ha
    obtain ⟨i, hi, rfl⟩ := List.mem_iff_getElem.mp ha
    rw [List.length_take] at hi
    have hle := before_getElem_le hsort (show i < L.length by omega)
    rw [List.getElem_take, decide_eq_true_eq]
    omega
  have hback : ∀ a ∈ L.drop n, ¬ decide (before r L a < n) = true := by
    intro a ha hlt
    obtain ⟨i, hi, rfl⟩ := List.mem_iff_getElem.mp ha
    rw [List.length_drop] at hi
    have hup := lt_upTo_getElem hsort (show n + i < L.length by omega)
    rw [List.getElem_drop, decide_eq_true_eq] at hlt
    exact hcut ⟨L[n + i], List.getElem_mem _, hlt, by omega⟩
  have hsplit : ∀ p : α → Bool, L.filter p = (L.take n).filter p ++ (L.drop n).filter p := by
    intro p
    rw [← List.filter_append, List.take_append_drop]
  rw [hsplit, List.filter_eq_self.mpr hfront, List.filter_eq_nil_iff.mpr hback, List.append_nil]

/-- The rows of the first `n` places, whatever order those that sort alike come in. -/
theorem take_perm (hsort : L.Pairwise r) (hperm : L.Perm l) (hcut : ¬ Straddled r l n) :
    (L.take n).Perm (l.filter fun a => before r l a < n) := by
  have hcut' : ¬ Straddled r L n := by
    rintro ⟨a, ha, hlt⟩
    rw [before_perm hperm, upTo_perm hperm] at hlt
    exact hcut ⟨a, hperm.mem_iff.mp ha, hlt⟩
  have hsame : (fun a => decide (before r L a < n)) = fun a => decide (before r l a < n) := by
    funext a
    rw [before_perm hperm]
  rw [take_eq_filter hsort hcut', hsame]
  exact hperm.filter _

variable {size count : Nat} {answers : Nat → List α}

/-- Where no page boundary parts rows that sort alike, the pages so far are the first rows. -/
theorem pagesOf_perm (hsort : ∀ k, (answers k).Pairwise r) (hperm : ∀ k, (answers k).Perm l)
    (hcut : ∀ k, ¬ Straddled r l (k * size)) :
    (pagesOf size answers count).Perm (l.filter fun a => before r l a < count * size) := by
  induction count with
  | zero => simp [pagesOf]
  | succ n ih =>
    have hpages : pagesOf size answers (n + 1) =
        pagesOf size answers n ++ ((answers n).drop (n * size)).take size := by
      rw [pagesOf, List.range_succ, List.flatMap_append, List.flatMap_singleton]
      rfl
    have hfront := take_perm (hsort n) (hperm n) (hcut n)
    have hnext := take_perm (hsort n) (hperm n) (hcut (n + 1))
    have htake : (answers n).take ((n + 1) * size) =
        (answers n).take (n * size) ++ ((answers n).drop (n * size)).take size := by
      rw [Nat.succ_mul, List.take_add]
    rw [hpages]
    rw [htake] at hnext
    exact ((ih.trans hfront.symm).append_right _).trans hnext

/-- Pages that reach the last row hold every row once. -/
theorem pagesOf_perm_all (hsort : ∀ k, (answers k).Pairwise r) (hperm : ∀ k, (answers k).Perm l)
    (hcut : ∀ k, ¬ Straddled r l (k * size)) (hlength : l.length ≤ count * size) :
    (pagesOf size answers count).Perm l := by
  have hall : (l.filter fun a => before r l a < count * size) = l := by
    rw [List.filter_eq_self]
    intro a ha
    have hlt : before r l a < l.length := by
      apply Nat.lt_of_le_of_ne List.countP_le_length
      intro heq
      simpa [refl_of r a] using List.countP_eq_length.mp heq a ha
    rw [decide_eq_true_eq]
    omega
  have hpages : (pagesOf size answers count).Perm (l.filter fun a => before r l a < count * size) :=
    pagesOf_perm hsort hperm hcut
  rwa [hall] at hpages

end Order

variable [IsTrans α r]

/-- Sorting keeps the order of rows that sort alike. -/
theorem filter_alike_orderBy (l : List α) (a : α) :
    (orderBy r l).filter (fun b => r a b ∧ r b a) = l.filter fun b => r a b ∧ r b a :=
  SortedGroups.filter_alike_insertionSort l a

variable [Std.Total r]

theorem pairwise_orderBy (l : List α) : (orderBy r l).Pairwise r := List.pairwise_insertionSort r l

/-- Which rows stand where those that sort like `a` have to. -/
theorem alike_getElem (hsort : L.Pairwise r) (h : i < L.length) (hbefore : before r L a ≤ i)
    (hupTo : i < upTo r L a) : r a L[i] ∧ r L[i] a := by
  constructor
  · by_contra hnot
    have hlt : i < before r L a := by
      apply lt_countP h
      intro j hj hle
      simpa using fun haj => hnot (trans_of r haj (pairwise_le hsort hj h hle))
    omega
  · by_contra hnot
    have hle : upTo r L a ≤ i := by
      apply countP_le
      intro j hj hle
      simpa using fun haj => hnot (trans_of r (pairwise_le hsort h hj hle) haj)
    omega

theorem exists_alike_take (hsort : L.Pairwise r) (hbefore : before r L a < n)
    (hupTo : n < upTo r L a) : ((L.take n).filter fun b => r a b ∧ r b a) ≠ [] := by
  have hlength : n - 1 < L.length := by
    have hle : upTo r L a ≤ L.length := List.countP_le_length
    omega
  have halike := alike_getElem (a := a) hsort hlength (by omega) (by omega)
  apply List.ne_nil_of_mem
  exact List.mem_filter.mpr
    ⟨List.mem_take_iff_getElem.mpr ⟨n - 1, by omega, rfl⟩, by simpa using halike⟩

theorem exists_alike_drop (hsort : L.Pairwise r) (hbefore : before r L a < n)
    (hupTo : n < upTo r L a) : ((L.drop n).filter fun b => r a b ∧ r b a) ≠ [] := by
  have hlength : n < L.length := hupTo.trans_le List.countP_le_length
  have halike := alike_getElem (a := a) hsort hlength (by omega) hupTo
  apply List.ne_nil_of_mem
  exact List.mem_filter.mpr
    ⟨List.mem_drop_iff_getElem.mpr ⟨0, by omega, rfl⟩, by simpa using halike⟩

/-- Where a page boundary parts rows that sort alike, one of them can be on both sides. -/
theorem exists_both_sides (h : Straddled r l n) :
    ∃ x ∈ (orderBy r l).take n, x ∈ (orderBy r l.reverse).drop n := by
  obtain ⟨a, ha, hbefore, hupTo⟩ := h
  have hperm : (orderBy r l).Perm l := perm_orderBy l
  have hperm' : (orderBy r l.reverse).Perm l := (perm_orderBy _).trans (List.reverse_perm l)
  -- the two answers hold the rows like `a` in opposite orders
  have hfront := filter_alike_orderBy (r := r) l a
  have hback := filter_alike_orderBy (r := r) l.reverse a
  rw [← List.take_append_drop n (orderBy r l), List.filter_append] at hfront
  rw [← List.take_append_drop n (orderBy r l.reverse), List.filter_append, List.filter_reverse]
    at hback
  have hlast : ((orderBy r l).take n).filter (fun b => r a b ∧ r b a) ≠ [] :=
    exists_alike_take (pairwise_orderBy l) (by rwa [before_perm hperm])
      (by rwa [upTo_perm hperm])
  have hnext : ((orderBy r l.reverse).drop n).filter (fun b => r a b ∧ r b a) ≠ [] :=
    exists_alike_drop (pairwise_orderBy _) (by rwa [before_perm hperm'])
      (by rwa [upTo_perm hperm'])
  obtain ⟨x, rest, hx⟩ := List.exists_cons_of_ne_nil hlast
  obtain ⟨front, y, hy⟩ := (List.eq_nil_or_concat _).resolve_left hnext
  rw [List.concat_eq_append] at hy
  rw [hx, List.cons_append] at hfront
  rw [hy, ← hfront, List.reverse_cons, ← List.append_assoc] at hback
  obtain rfl : y = x := by simpa using (List.append_inj' hback rfl).2
  have hleft : y ∈ ((orderBy r l).take n).filter fun b => r a b ∧ r b a := by
    rw [hx]
    exact .head rest
  have hright : y ∈ ((orderBy r l.reverse).drop n).filter fun b => r a b ∧ r b a := by
    rw [hy]
    simp
  exact ⟨y, List.mem_of_mem_filter hleft, List.mem_of_mem_filter hright⟩

end Sorted

/-! ## the ledger -/

variable [Extern]

def transactionsPageSize : Int := 50

structure TransactionsPage where
  records : List TransactionRecord
  total : Int
deriving DecidableEq, Repr

def transactionsList (pageNo : Option UInt32) (filters : Option TransactionListFilters)
    (db : Database) : TransactionsPage :=
  let pageNo : Int := max (pageNo.getD 1).toNat 1
  let offset := (pageNo - 1) * transactionsPageSize
  let filters := filters.getD {}
  { records := doFetchTransactions filters transactionsPageSize offset db
    total := countTransactionsFiltered filters db }

/-- An order in which a query may come across rows. -/
structure RowOrder where
  rows : {α : Type} → List α → List α
  perm : ∀ {α : Type} (l : List α), (rows l).Perm l

/-- The same world with rows coming in the order `o`. -/
@[reducible] def Extern.inOrder (o : RowOrder) : Extern :=
  { (inferInstance : Extern) with scan := o.rows, scan_perm := o.perm }

/-- `ORDER BY authorization_time DESC`. -/
def laterFirst (a b : TransactionsRow) : Prop := nullsFirst b.authorizationTime a.authorizationTime

instance : DecidableRel laterFirst := fun a b =>
  inferInstanceAs (Decidable (nullsFirst b.authorizationTime a.authorizationTime))

instance : Std.Total laterFirst := by
  refine ⟨fun a b => ?_⟩
  unfold laterFirst
  cases a.authorizationTime <;> cases b.authorizationTime <;> simp [nullsFirst]
  omega

instance : IsTrans TransactionsRow laterFirst := by
  refine ⟨fun a b c => ?_⟩
  unfold laterFirst
  cases a.authorizationTime <;> cases b.authorizationTime <;> cases c.authorizationTime <;>
    simp [nullsFirst]
  omega

/-- The last page a `u32` can ask for. -/
def lastPage : Nat := 4294967295

/-- What all the pages hold, the `k`th query coming across rows in the order `orders k`. -/
def allPages (orders : Nat → RowOrder) (filters : Option TransactionListFilters) (db : Database) :
    List TransactionRecord :=
  (List.range lastPage).flatMap fun k =>
    (@transactionsList (Extern.inOrder (orders k)) (some (UInt32.ofNat (k + 1))) filters
      db).records

theorem transactionsList_records {k : Nat} (hk : k < lastPage)
    (filters : Option TransactionListFilters) (db : Database) :
    (transactionsList (some (UInt32.ofNat (k + 1))) filters db).records =
      (((orderBy laterFirst (scan (db.filtered (filters.getD {})))).drop (k * 50)).take 50).map
        (·.toRecord) := by
  have hpage : (UInt32.ofNat (k + 1)).toNat = k + 1 := by
    apply UInt32.toNat_ofNat_of_lt
    unfold lastPage at hk
    simp only [UInt32.size]
    omega
  have hmax : max ((k + 1 : Nat) : Int) 1 - 1 = k := by omega
  have hoffset : ((k : Int) * 50).toNat = k * 50 := by omega
  unfold transactionsList
  simp only [Option.getD_some, hpage, hmax]
  unfold doFetchTransactions page transactionsPageSize
  rw [if_neg (by decide), hoffset]
  rfl

theorem allPages_eq (orders : Nat → RowOrder) (filters : Option TransactionListFilters)
    (db : Database) : allPages orders filters db =
      (pagesOf 50 (fun k => orderBy laterFirst ((orders k).rows (db.filtered (filters.getD {}))))
        lastPage).map (·.toRecord) := by
  rw [allPages, pagesOf, List.map_flatMap]
  refine List.flatMap_congr fun k hk => ?_
  exact @transactionsList_records (Extern.inOrder (orders k)) k (List.mem_range.mp hk) filters db

/-- The rows as a query comes across them, or the other way round. -/
def RowOrder.asStored : RowOrder := ⟨id, fun l => .refl l⟩

def RowOrder.backwards : RowOrder := ⟨List.reverse, List.reverse_perm⟩

theorem nodup_records (filters : TransactionListFilters) (db : Database) :
    ((db.filtered filters).map (·.toRecord)).Nodup := by
  have hids : ((db.filtered filters).map (·.id)).Nodup :=
    db.transactions.nodup.sublist (List.filter_sublist.map _)
  have hmap : (db.filtered filters).map (·.id) =
      ((db.filtered filters).map (·.toRecord)).map (·.id) := by
    rw [List.map_map]
    rfl
  rw [hmap] at hids
  exact hids.of_map

/-- The pages hold every matching row once, and as many as each page says there are. -/
def PagesPartition (filters : Option TransactionListFilters) (db : Database) : Prop :=
  ∀ orders : Nat → RowOrder,
    (allPages orders filters db).Perm ((db.filtered (filters.getD {})).map (·.toRecord)) ∧
      ∀ o pageNo, (@transactionsList (Extern.inOrder o) pageNo filters db).total =
        (allPages orders filters db).length

section Partition

variable {filters : Option TransactionListFilters} {db : Database}

theorem allPages_records_length (orders : Nat → RowOrder) :
    (allPages orders filters db).length ≤ lastPage * 50 := by
  rw [allPages_eq, List.length_map]
  exact length_pagesOf_le

theorem PagesPartition.length_le (h : PagesPartition filters db) :
    (db.filtered (filters.getD {})).length ≤ lastPage * 50 := by
  have hperm := (h fun _ => .asStored).1
  rw [← List.length_map (f := (·.toRecord)), ← hperm.length_eq]
  exact allPages_records_length _

theorem PagesPartition.not_straddled (h : PagesPartition filters db) (k : Nat) :
    ¬ Straddled laterFirst (db.filtered (filters.getD {})) (k * 50) := by
  intro hcut
  have hlength := h.length_le
  have hnodup := nodup_records (filters.getD {}) db
  -- the pages behind the boundary are read in the opposite order
  have hperm := (h fun i => if i < k then .asStored else .backwards).1
  rw [allPages_eq] at hperm
  generalize db.filtered (filters.getD {}) = rows at *
  have hanswers : (fun i => orderBy laterFirst
      ((if i < k then RowOrder.asStored else RowOrder.backwards).rows rows)) =
      fun i => if i < k then orderBy laterFirst rows else orderBy laterFirst rows.reverse := by
    funext i
    split <;> rfl
  obtain ⟨x, hfront, hback⟩ := exists_both_sides hcut
  obtain ⟨a, -, -, hupTo⟩ := hcut
  have hk : k ≤ lastPage := by
    have hle : upTo laterFirst rows a ≤ rows.length := List.countP_le_length
    omega
  have hlast : ((orderBy laterFirst rows.reverse).drop (k * 50)).length ≤ (lastPage - k) * 50 := by
    rw [List.length_drop, (perm_orderBy _).length_eq, List.length_reverse]
    omega
  rw [hanswers, pagesOf_switch _ _ hk, List.take_of_length_le hlast, List.map_append] at hperm
  have hboth := hperm.nodup_iff.mpr hnodup
  exact List.disjoint_of_nodup_append hboth (List.mem_map_of_mem hfront)
    (List.mem_map_of_mem hback)

theorem pages_partition_iff : PagesPartition filters db ↔
    (db.filtered (filters.getD {})).length ≤ lastPage * 50 ∧
      ∀ k, ¬ Straddled laterFirst (db.filtered (filters.getD {})) (k * 50) := by
  refine ⟨fun h => ⟨h.length_le, h.not_straddled⟩, ?_⟩
  rintro ⟨hlength, hcut⟩ orders
  have hperm : (pagesOf 50 (fun k => orderBy laterFirst
      ((orders k).rows (db.filtered (filters.getD {})))) lastPage).Perm _ := pagesOf_perm_all
    (fun k => pairwise_orderBy ((orders k).rows (db.filtered (filters.getD {}))))
    (fun k => (perm_orderBy _).trans ((orders k).perm _)) hcut hlength
  rw [allPages_eq]
  refine ⟨hperm.map _, fun _ _ => ?_⟩
  rw [List.length_map, hperm.length_eq]
  rfl

end Partition

/-- As many statement rows of one day as a page holds, and one more. -/
def oneDayLedger : Database :=
  { firstLedger.db with
    transactions := ⟨(List.range 51).map fun i =>
      { debited (toString i) 100 1767225600 with authorizationTime := some 1767225600 },
      by decide +kernel⟩ }

omit [Extern] in
/-- Their second page can repeat a row of the first. -/
theorem one_day_parted :
    letI := Extern.ascii
    ¬ PagesPartition none oneDayLedger := by
  let := Extern.ascii
  exact fun h => h.not_straddled 1 (by decide +kernel)

end Dinero
