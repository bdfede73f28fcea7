import Dinero.Alerts
import Dinero.TimeTexts
import Mathlib.Tactic.IntervalCases

/-!
# Dinero.Dashboard

The figures of the month to date.

Times of the ledger are local times, five and a half hours ahead of the clock
the window of the month is made of.  `month_to_date_iff` says which times make
the two months differ.
-/

namespace Dinero

open Sql Strftime Numerals

/-! ## the month as a window of texts -/

theorem firstDay_fields {m : Month} (hm : m.Valid) (hyear : 1000 ≤ m.year ∧ m.year ≤ 9999) :
    civil (dateOf (86400 * firstDay m.serial)) = (m.year, m.month, 1) := by
  have hlong := firstDay_lt_succ m.serial
  have hdate : dateOf (86400 * firstDay m.serial) = firstDay m.serial := by
    unfold dateOf
    omega
  have hymd : fromYmd m.year m.month 1 = some (firstDay m.serial) := by
    have hsame : firstDay m.serial + 1 - 1 = firstDay m.serial := by omega
    rw [fromYmd, hsame, if_pos ⟨by omega, by omega, hm, by omega, hlong⟩]
  rw [hdate]
  exact (fromYmd_eq_some_iff.mp hymd).2.2

theorem toString_eq_toDigits {y : Int} (h : 0 ≤ y) :
    (toString y).toList = Nat.toDigits 10 y.toNat := by
  obtain ⟨n, rfl⟩ := Int.eq_ofNat_of_zero_le h
  rw [Int.toNat_natCast]
  show (Nat.repr n).toList = _
  rw [Nat.repr_eq_ofList_toDigits, String.toList_ofList]

theorem twoDigits_eq {n : Int} (h : 1 ≤ n ∧ n ≤ 12) :
    (twoDigits n).toList = padded 2 n.toNat := by
  obtain ⟨hlow, hhigh⟩ := h
  interval_cases n <;> decide +kernel

/-- The text the window begins with is that of the first second of the month. -/
theorem Month.start_eq {m : Month} (hm : m.Valid) (hyear : 1000 ≤ m.year ∧ m.year ≤ 9999) :
    m.start.toList = timeText (86400 * firstDay m.serial) := by
  have hsecond : 86400 * firstDay m.serial % 86400 = 0 := by omega
  have hlength : (Nat.toDigits 10 m.year.toNat).length = 4 := by
    have hle := (@Nat.length_toDigits_le_iff 10 m.year.toNat 4 (by decide) (by decide)).mpr
      (by omega)
    have hnot := mt (@Nat.length_toDigits_le_iff 10 m.year.toNat 3 (by decide) (by decide)).mp
      (by omega)
    omega
  have hpadded : padded 4 m.year.toNat = Nat.toDigits 10 m.year.toNat := by
    rw [padded, hlength]
    rfl
  have hzero : padded 2 ((0 : Int) / 3600).toNat ++ ':' :: (padded 2 ((0 : Int) / 60 % 60).toNat ++
      ':' :: padded 2 ((0 : Int) % 60).toNat) = "00:00:00".toList := by decide +kernel
  have hone : padded 2 (1 : Int).toNat = "01".toList := by decide +kernel
  simp only [timeText, firstDay_fields hm hyear, hsecond, hzero, hone]
  rw [printedYear, if_pos (by omega), hpadded, Month.start]
  simp only [String.toList_append, toString_eq_toDigits (show 0 ≤ m.year by omega), twoDigits_eq hm]
  simp

/-- A digit sorts behind the sign of a year. -/
theorem sign_lt {c d : Char} {r s : List Char} (hc : c = '-' ∨ c = '+') (hd : d.isDigit = true) :
    c :: r < d :: s := by
  have hrange := isDigit_range hd
  have hlt : c.toNat < d.toNat := by
    obtain rfl | rfl := hc
    · exact Nat.lt_of_lt_of_le (by decide) hrange.1
    · exact Nat.lt_of_lt_of_le (by decide) hrange.1
  rw [List.cons_lt_cons_iff]
  exact .inl hlt

/-- Years that have not four digits have a sign. -/
theorem exists_sign {t : Int} (h : ¬ (0 ≤ (monthOf t).year ∧ (monthOf t).year ≤ 9999)) :
    ∃ c r, timeText t = c :: r ∧ (c = '-' ∨ c = '+') := by
  obtain ⟨y, m, d, hour, i, s, hf⟩ := exists_fields t
  rw [hf.monthOf_eq] at h
  rw [hf.text, printedYear, if_neg h]
  split
  · exact ⟨'-', _, rfl, .inl rfl⟩
  · exact ⟨'+', _, rfl, .inr rfl⟩

theorem Month.exists_digit {m : Month} (h : 0 ≤ m.year) :
    ∃ c r, m.start.toList = c :: r ∧ c.isDigit = true := by
  have hne : Nat.toDigits 10 m.year.toNat ≠ [] := Nat.toDigits_ne_nil
  obtain ⟨c, r, hcr⟩ := List.exists_cons_of_ne_nil hne
  refine ⟨c, r ++ ("-" ++ twoDigits m.month ++ "-01 00:00:00").toList, ?_, ?_⟩
  · rw [Month.start]
    simp only [String.toList_append, toString_eq_toDigits h, hcr, List.cons_append,
      List.append_assoc]
  · exact Nat.isDigit_of_mem_toDigits (by decide) (by decide) (hcr ▸ List.mem_cons_self)

section Window

variable {now b : Int}

/-- **The window of texts is the month up to now**, as long as its year has four digits. -/
theorem mem_window_iff (hnow : 1000 ≤ (monthOf now).year ∧ (monthOf now).year ≤ 9999) :
    (¬ timeText b < (monthOf now).start.toList ∧ ¬ timeText now < timeText b) ↔
      monthOf b = monthOf now ∧ b ≤ now := by
  obtain ⟨hvalid, hfirst, hlast⟩ := civil_spec now
  have hmonth : monthOf (86400 * firstDay (monthOf now).serial) = monthOf now := by
    rw [monthOf, firstDay_fields hvalid hnow]
  by_cases hb : 0 ≤ (monthOf b).year ∧ (monthOf b).year ≤ 9999
  · rw [Month.start_eq hvalid hnow, timeText_lt_iff hb (by rw [hmonth]; omega),
      timeText_lt_iff (by omega) hb, monthOf_eq_iff hvalid]
    unfold dateOf at hfirst hlast ⊢
    omega
  · obtain ⟨c, r, htext, hsign⟩ := exists_sign hb
    obtain ⟨d, r', hstart, hdigit⟩ := Month.exists_digit (show 0 ≤ (monthOf now).year by omega)
    have hbefore : timeText b < (monthOf now).start.toList := by
      rw [htext, hstart]
      exact sign_lt hsign hdigit
    constructor
    · intro h
      exact absurd hbefore h.1
    · intro h
      rw [h.1] at hb
      omega

/-- No text is in the window when the year has more digits. -/
theorem window_empty (hnow : 9999 < (monthOf now).year) (s : List Char) :
    ¬ (¬ s < (monthOf now).start.toList ∧ ¬ timeText now < s) := by
  obtain ⟨c, r, htext, hsign⟩ := exists_sign (show ¬ (0 ≤ (monthOf now).year ∧ _) by omega)
  obtain ⟨d, r', hstart, hdigit⟩ := Month.exists_digit (show 0 ≤ (monthOf now).year by omega)
  intro h
  have hbefore : timeText now < (monthOf now).start.toList := by
    rw [htext, hstart]
    exact sign_lt hsign hdigit
  exact absurd hbefore (List.le_trans h.1 h.2)

end Window

/-! ## the summary -/

/-- What the summary is made of. -/
structure Dashboard where
  db : Database
  profile : Option LocalProfile
  /-- `statement_due_date` of the instruments that are not deleted. -/
  dueDates : List (Option String)

structure DashboardSummary where
  monthToDateSpend : ℚ
  limit : ℚ
  utilizationPct : ℚ
  recentTransactionsCount : Nat
  upcomingBillsCount : Nat
  income : ℚ
deriving DecidableEq, Repr

section Summary

variable [Extern]

/-- The sum of the month's credits, up to `t`. -/
def Database.getGlobalIncomeCurrentMonth (db : Database) (t : Int) : ℚ :=
  (((db.transactions.rows.filter fun x =>
    x.direction = some "credit" && !x.isDeleted &&
      x.bestEventTime.any (fun time =>
        (monthOf t).start ≤ formatDateTime time && formatDateTime time ≤ formatDateTime t) &&
      !db.inOpenCluster x.id).filterMap (·.amountMinor)).sum : Int) / 100

def Database.countTransactionsCurrentMonth (db : Database) (t : Int) : Nat :=
  (db.transactions.rows.filter fun x =>
    !x.isDeleted &&
      x.bestEventTime.any (fun time =>
        (monthOf t).start ≤ formatDateTime time && formatDateTime time ≤ formatDateTime t) &&
      !db.inOpenCluster x.id).length

/-- Computes the dashboard's headline figures. -/
def doFetchDashboardSummary (d : Dashboard) (now : Int) : DashboardSummary :=
  let spend := d.db.getGlobalSpendCurrentMonth now
  let limit := (d.profile.bind (·.spendingLimitMonthly)).getD 0
  {
    monthToDateSpend := spend
    limit := limit
    utilizationPct := if 0 < limit then spend / limit * 100 else 0
    recentTransactionsCount := d.db.countTransactionsCurrentMonth now
    upcomingBillsCount :=
      (d.dueDates.filter fun due => due.any (formatDate (dateOf now) ≤ ·)).length
    income := d.db.getGlobalIncomeCurrentMonth now
  }

/-! ## the month the figures are about -/

omit [Extern] in
/-- The live transactions in no open cluster whose time `p` admits. -/
def Database.liveAt (db : Database) (p : Int → Bool) : List TransactionsRow :=
  db.transactions.rows.filter fun x =>
    !x.isDeleted && x.bestEventTime.any p && !db.inOpenCluster x.id

omit [Extern] in
/-- The sum of the transactions of one direction. -/
def total (direction : String) (rows : List TransactionsRow) : ℚ :=
  (((rows.filter fun x => x.direction = some direction).filterMap (·.amountMinor)).sum : Int) / 100

omit [Extern] in
/-- The figures are those of `rows`. -/
structure DashboardSummary.Covers (f : DashboardSummary) (rows : List TransactionsRow) : Prop where
  spend : f.monthToDateSpend = total "debit" rows
  income : f.income = total "credit" rows
  count : f.recentTransactionsCount = rows.length

/-- `best_event_time >= ?1 AND best_event_time <= ?2`. -/
def inMonthToNow (now time : Int) : Bool :=
  (monthOf now).start ≤ formatDateTime time && formatDateTime time ≤ formatDateTime now

/-- How far local time is ahead of the clock. -/
def istOffset : Int := 5 * 3600 + 30 * 60

/-- The local time of something that happened in the current local month. -/
def inLocalMonth (now time : Int) : Bool :=
  monthOf time = monthOf (now + istOffset) && time - istOffset ≤ now

theorem doFetchDashboardSummary_covers (d : Dashboard) (now : Int) :
    (doFetchDashboardSummary d now).Covers (d.db.liveAt (inMonthToNow now)) := by
  have hdirection : ∀ direction, (d.db.transactions.rows.filter fun x =>
      x.direction = some direction && !x.isDeleted && x.bestEventTime.any (inMonthToNow now) &&
        !d.db.inOpenCluster x.id) =
      (d.db.liveAt (inMonthToNow now)).filter fun x => x.direction = some direction := by
    intro direction
    rw [Database.liveAt, List.filter_filter]
    simp only [Bool.and_assoc]
  constructor
  · rw [total, ← hdirection]
    simp only [doFetchDashboardSummary, Database.getGlobalSpendCurrentMonth, Database.spentInMonth,
      Bool.true_and]
    rfl
  · rw [total, ← hdirection]
    rfl
  · rfl

/-- A local time on which the window and the local month part.

Up to the year 9999 these are the last five and a half hours of local time and, when the local
month has begun before that of the clock, all times of either. -/
def Parted (now time : Int) : Prop :=
  if 9999 < (monthOf now).year then inLocalMonth now time = true
  else if monthOf (now + istOffset) = monthOf now then now < time ∧ time ≤ now + istOffset
  else monthOf time = monthOf now ∧ time ≤ now ∨ inLocalMonth now time = true

instance (now time : Int) : Decidable (Parted now time) := by
  unfold Parted
  infer_instance

omit [Extern] in
/-- The clock does not go back before 1970. -/
theorem year_pos (now : Nat) : 1000 ≤ (monthOf now).year := by
  obtain ⟨hvalid, -, hlast⟩ := civil_spec now
  by_contra hyear
  have hmono : firstDay ((monthOf now).serial + 1) ≤ firstDay (Month.serial ⟨1970, 1⟩) := by
    refine firstDay_mono ?_
    simp only [Month.Valid, Month.serial] at hvalid ⊢
    omega
  have hepoch : firstDay (Month.serial ⟨1970, 1⟩) = 0 := by decide
  unfold dateOf at hlast
  omega

theorem inMonthToNow_iff (htexts : ∀ t, formatDateTime t = String.ofList (timeText t))
    (now time : Int) : inMonthToNow now time = true ↔
      ¬ timeText time < (monthOf now).start.toList ∧ ¬ timeText now < timeText time := by
  have hle : ∀ s t : String, s ≤ t ↔ ¬ t.toList < s.toList := fun _ _ => Iff.rfl
  rw [inMonthToNow, Bool.and_eq_true, decide_eq_true_eq, decide_eq_true_eq, hle, hle, htexts,
    htexts, String.toList_ofList, String.toList_ofList]

theorem inMonthToNow_eq_iff (htexts : ∀ t, formatDateTime t = String.ofList (timeText t))
    (now : Nat) (time : Int) :
    inMonthToNow now time = inLocalMonth now time ↔ ¬ Parted now time := by
  have hist : istOffset = 19800 := rfl
  have hpos := year_pos now
  have htext := inMonthToNow_iff htexts now time
  have hlocal : inLocalMonth now time = true ↔
      monthOf time = monthOf (now + istOffset) ∧ time - istOffset ≤ now := by
    simp [inLocalMonth]
  rw [Parted, Bool.eq_iff_iff]
  by_cases hyear : 9999 < (monthOf now).year
  · have hnone := window_empty hyear (timeText time)
    rw [if_pos hyear]
    tauto
  · have hwindow := (htext.trans (mem_window_iff ⟨hpos, by omega⟩))
    rw [if_neg hyear, hwindow, hlocal]
    by_cases hsame : monthOf (now + istOffset) = monthOf now
    · -- one month, and the window ends before it should
      obtain ⟨hvalid, hfirst, -⟩ := civil_spec now
      have hlast := ((monthOf_eq_iff hvalid).mp hsame).2
      have hmonth : now < time ∧ time ≤ now + istOffset → monthOf time = monthOf now := by
        intro h
        rw [monthOf_eq_iff hvalid]
        unfold dateOf at hfirst hlast ⊢
        omega
      rw [if_pos hsame, hsame]
      constructor
      · intro h hbetween
        have hboth := h.mpr ⟨hmonth hbetween, by omega⟩
        omega
      · intro h
        constructor
        · exact fun hin => ⟨hin.1, by omega⟩
        · exact fun hin => ⟨hin.1, by omega⟩
    · -- two months
      have hother : ¬ (monthOf time = monthOf now ∧ monthOf time = monthOf (now + istOffset)) :=
        fun h => hsame (h.2.symm.trans h.1)
      rw [if_neg hsame]
      constructor
      · rintro h (hnow | hlocal)
        · exact hother ⟨hnow.1, (h.mp hnow).1⟩
        · exact hother ⟨(h.mpr hlocal).1, hlocal.1⟩
      · intro h
        constructor
        · exact fun hin => absurd (.inl hin) h
        · exact fun hin => absurd (.inr hin) h

/-- **The figures of the month to date** are those of the transactions in the window.  These are
the ones of the local month exactly when no live transaction has a time on which the two part. -/
theorem month_to_date_iff (htexts : ∀ t, formatDateTime t = String.ofList (timeText t))
    (d : Dashboard) (now : Nat) :
    (doFetchDashboardSummary d now).Covers (d.db.liveAt (inMonthToNow now)) ∧
    (d.db.liveAt (inMonthToNow now) = d.db.liveAt (inLocalMonth now) ↔
      ∀ x ∈ d.db.liveAt fun _ => true, ∀ time ∈ x.bestEventTime, ¬ Parted now time) := by
  refine ⟨doFetchDashboardSummary_covers d now, ?_⟩
  have hlive : ∀ p x, x ∈ d.db.liveAt p ↔ x ∈ d.db.liveAt (fun _ => true) ∧
      x.bestEventTime.any p = true := by
    intro p x
    cases htime : x.bestEventTime with
    | none => simp [Database.liveAt, htime]
    | some time =>
      simp only [Database.liveAt, List.mem_filter, htime, Option.any_some, Bool.and_eq_true]
      tauto
  constructor
  · intro h x hx time htime
    rw [← inMonthToNow_eq_iff htexts, Bool.eq_iff_iff]
    have hboth : ∀ p, x ∈ d.db.liveAt p ↔ p time = true := by
      intro p
      rw [hlive p, htime]
      simp [hx]
    rw [← hboth, ← hboth, h]
  · intro h
    refine List.filter_congr fun x hx => ?_
    by_cases hclear : x ∈ d.db.liveAt fun _ => true
    · have hsame : x.bestEventTime.any (inMonthToNow now) =
          x.bestEventTime.any (inLocalMonth now) := by
        cases htime : x.bestEventTime with
        | none => rfl
        | some time => exact (inMonthToNow_eq_iff htexts now time).mpr (h x hclear time htime)
      rw [hsame]
    · cases htime : x.bestEventTime with
      | none => simp
      | some time =>
        simp only [Database.liveAt, List.mem_filter, hx, htime, true_and, Option.any_some,
          Bool.and_true] at hclear
        simp only [Option.any_some]
        grind

end Summary

/-- `Extern.ascii` with times as `chrono` prints them. -/
@[reducible] def Extern.printed : Extern :=
  { Extern.ascii with formatDateTime := fun t => String.ofList (timeText t) }

/-- A ledger of one debit of 1000.00. -/
def oneDebit (time : Int) : Dashboard where
  db := { firstLedger.db with
    transactions := ⟨[debited "t1" 100000 time], by simp [Keyed.key, debited]⟩ }
  profile := none
  dueDates := []

/-- A debit of the morning, in the afternoon of 10 June. -/
theorem morning_counted :
    letI := Extern.printed
    let d := oneDebit 1781060400
    (doFetchDashboardSummary d 1781092800).Covers (d.db.liveAt (inMonthToNow 1781092800)) ∧
    d.db.liveAt (inMonthToNow 1781092800) = d.db.liveAt (inLocalMonth 1781092800) := by
  let := Extern.printed
  have h := month_to_date_iff (fun _ => rfl) (oneDebit 1781060400) 1781092800
  exact ⟨h.1, h.2.mpr (by decide +kernel)⟩

/-- Noon of 10 June by the clock, and a debit of the hour before, which is half past four in
the afternoon: it is left out.  A quarter past midnight on 1 July, local time, and a debit of
10 June: it is counted. -/
theorem last_hour_left_out :
    letI := Extern.printed
    let afternoon := oneDebit (1781092800 - 3600 + istOffset)
    let june := oneDebit 1781060400
    ((afternoon.db.liveAt (inLocalMonth 1781092800)).map (·.id) = ["t1"] ∧
      afternoon.db.liveAt (inMonthToNow 1781092800) = [] ∧
      (doFetchDashboardSummary afternoon 1781092800).monthToDateSpend = 0) ∧
    june.db.liveAt (inLocalMonth 1782845100) = [] ∧
      (june.db.liveAt (inMonthToNow 1782845100)).map (·.id) = ["t1"] ∧
      (doFetchDashboardSummary june 1782845100).monthToDateSpend = 1000 := by
  let := Extern.printed
  decide +kernel

end Dinero
