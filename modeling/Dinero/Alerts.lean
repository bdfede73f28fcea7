import Dinero.Calendar
import Dinero.Latch
import Dinero.Ledger

/-!
# Dinero.Alerts

Budget alerts: the thresholds a debit is found to have crossed, and the
crossings that are announced.

A threshold is to be announced once a month, the month being that of the debit.
The guard asks for something else: whether the threshold was announced since
that month began, by the clock of the announcement.  `alerts_run` says when the
two come to the same, in terms of `Latch`.

Amounts and percentages are exact quotients.
-/

namespace Dinero

open Sql

/-! ## times as texts -/

/-- `{:02}`. -/
def twoDigits (n : Int) : String := if n < 10 then "0" ++ toString n else toString n

/-- `format!("{}-{:02}-01 00:00:00", year, month)`. -/
def Month.start (m : Month) : String :=
  toString m.year ++ "-" ++ twoDigits m.month ++ "-01 00:00:00"

/-- `%Y-%m-%d %H:%M:%S`, for the years that have four digits. -/
def dateTimeText (t : Int) : String :=
  let (year, month, day) := civil (dateOf t)
  let second := t % 86400
  toString year ++ "-" ++ twoDigits month ++ "-" ++ twoDigits day ++ " " ++
    twoDigits (second / 3600) ++ ":" ++ twoDigits (second / 60 % 60) ++ ":" ++
    twoDigits (second % 60)

/-- `Extern.ascii` with readable times. -/
@[reducible] def Extern.gregorian : Extern :=
  { Extern.ascii with formatDateTime := dateTimeText }

example : dateTimeText 951827696 = "2000-02-29 12:34:56" := by decide +kernel

/-! ## budgets and alerts -/

/-- The row of `local_profile`.  Thresholds that are not a JSON array of
numbers count as absent. -/
structure LocalProfile where
  spendingLimitMonthly : Option ℚ
  limitThresholds : Option (List ℚ)
deriving DecidableEq, Repr

structure Alert where
  alertId : String
  alertType : String
  message : String
  relatedClusterId : Option String
  status : String
  createdAt : Int
deriving DecidableEq, Repr

instance : Keyed Alert String := ⟨(·.alertId)⟩

/-- The ledger, what the user allows for, and the alerts. -/
structure Budgets where
  db : Database
  categories : Table CategoriesRow
  profile : Option LocalProfile
  alerts : Table Alert

abbrev BudgetsProg := Prog Empty Budgets

/-- What is spent against a limit. -/
inductive Scope
  | category (id : String)
  | global
deriving DecidableEq, Repr

def Scope.key : Scope → String
  | category id => "category_budget_" ++ id
  | global => "global_budget"

def Scope.label : Scope → String
  | category id => "Category '" ++ id ++ "' monthly budget"
  | global => "Global monthly spending"

def Budgets.globalMonthlyLimit (b : Budgets) : Option ℚ :=
  (b.profile.bind (·.spendingLimitMonthly)).filter fun v => decide (0 < v)

def Budgets.categoryMonthlyLimit (b : Budgets) (categoryId : String) : Option ℚ :=
  (((b.categories.find? categoryId).bind (·.monthlyBudgetMinor)).map fun minor =>
    (minor : ℚ) / 100).filter fun v => decide (0 < v)

def Budgets.limit (b : Budgets) : Scope → Option ℚ
  | .category id => b.categoryMonthlyLimit id
  | .global => b.globalMonthlyLimit

/-- `v as i64`. -/
def asI64 (v : ℚ) : Int :=
  max (-2 ^ 63) (min (2 ^ 63 - 1) (if 0 ≤ v then ⌊v⌋ else ⌈v⌉))

/-- Which threshold levels the user has enabled. -/
def Budgets.enabledThresholdLevels (b : Budgets) : List Int :=
  (orderBy (· ≤ ·) (match b.profile.bind (·.limitThresholds) with
    | some levels => levels.map asI64
    | none => [80, 90, 100])).dedup

section Spend

variable [Extern]

/-- `id IN (..)` of `EXCLUDE_OPEN_CLUSTER_MEMBERS`. -/
def Database.inOpenCluster (db : Database) (id : String) : Bool :=
  db.clusterMembers.rows.any fun m => m.canonicalTransactionId = some id &&
    (db.clusters.find? m.clusterId).any (·.clusterStatus = .open)

/-- The sum of the month's debits `p` admits, up to `t`. -/
def Database.spentInMonth (db : Database) (p : TransactionsRow → Bool) (t : Int) : ℚ :=
  (((db.transactions.rows.filter fun x =>
    p x && x.direction = some "debit" && !x.isDeleted &&
      x.bestEventTime.any (fun time =>
        (monthOf t).start ≤ formatDateTime time && formatDateTime time ≤ formatDateTime t) &&
      !db.inOpenCluster x.id).filterMap (·.amountMinor)).sum : Int) / 100

def Database.getCategorySpendCurrentMonth (db : Database) (categoryId : String) (t : Int) : ℚ :=
  db.spentInMonth (fun x => x.categoryId = some categoryId) t

def Database.getGlobalSpendCurrentMonth (db : Database) (t : Int) : ℚ :=
  db.spentInMonth (fun _ => true) t

def Budgets.spend (b : Budgets) (t : Int) : Scope → ℚ
  | .category id => b.db.getCategorySpendCurrentMonth id t
  | .global => b.db.getGlobalSpendCurrentMonth t

/-- Average spend with a merchant over the trailing 30 days. -/
def Database.getTrailing30DayMerchantAverage (db : Database) (merchantEntityId : String)
    (t : Int) : ℚ :=
  let amounts := (db.transactions.rows.filter fun x =>
    x.merchantEntityId = some merchantEntityId && x.direction = some "debit" && !x.isDeleted &&
      x.bestEventTime.any fun time => formatDateTime time < formatDateTime t &&
        formatDateTime (t - 30 * 86400) ≤ formatDateTime time).filterMap (·.amountMinor)
  (amounts.sum : Int) / (amounts.length : ℚ)

/-! ## the guard -/

/-- Whether this threshold has already fired this month. -/
def Budgets.thresholdAlreadyFiredThisMonth (b : Budgets) (alertKey monthStart : String) : Bool :=
  b.alerts.rows.any fun a => a.alertType = alertKey && monthStart ≤ formatDateTime a.createdAt

end Spend

/-- `INSERT INTO alerts`; `created_at` is `CURRENT_TIMESTAMP`. -/
def insertAlert (a : Alert) : BudgetsProg Unit := update fun now b =>
  match b.alerts.insert? { a with createdAt := now } with
  | some T => .ok ((), { b with alerts := T })
  | none => .error (uniqueFailed "alerts.alert_id")

structure AlertPayload where
  transactionId : String
  alertType : String
  message : String
deriving DecidableEq, Repr

/-- `format!("{scope_key}_{level}")`. -/
def alertKey (scope : Scope) (level : Int) : String := scope.key ++ "_" ++ toString level

def thresholdMessage (scope : Scope) (level : Int) : String :=
  if 100 ≤ level then scope.label ++ " fully exhausted (100%+)"
  else scope.label ++ " at " ++ toString level ++ "% of limit"

/-- `pct + 1e-9 < level as f64`. -/
def below (spend limit : ℚ) (level : Int) : Bool :=
  decide (spend / limit * 100 + 1 / 1000000000 < (level : ℚ))

section Programs

variable [Extern]

/-- Records that a threshold fired, so it does not fire again this month. -/
def recordThresholdFired (key message : String) : BudgetsProg Unit := do
  let alertId ← newUuid uuid
  insertAlert {
    alertId := alertId, alertType := key, message := message
    relatedClusterId := none, status := "fired", createdAt := 0 }

/-- The loop over the enabled levels. -/
def checkLevels (txId : String) (scope : Scope) (spend limit : ℚ) (monthStart : String) :
    List Int → BudgetsProg (List AlertPayload)
  | [] => return []
  | level :: levels => do
    if below spend limit level then
      checkLevels txId scope spend limit monthStart levels
    else if ← fetch (·.thresholdAlreadyFiredThisMonth (alertKey scope level) monthStart) then
      checkLevels txId scope spend limit monthStart levels
    else
      recordThresholdFired (alertKey scope level) (thresholdMessage scope level)
      let fired ← checkLevels txId scope spend limit monthStart levels
      return ⟨txId, alertKey scope level, thresholdMessage scope level⟩ :: fired

/-- Evaluates spend against each enabled threshold; without a limit there is
nothing to cross. -/
def checkThresholdBands (txId : String) (scope : Scope) (eventTime : Int) :
    BudgetsProg (List AlertPayload) := do
  match ← fetch (·.limit scope) with
  | none => return []
  | some limit =>
    let spend ← fetch (·.spend eventTime scope)
    let thresholds ← fetch (·.enabledThresholdLevels)
    checkLevels txId scope spend limit (monthOf eventTime).start thresholds

omit [Extern] in
/-- The debit an observation is linked to, if it has not been announced. -/
def Database.alertTxInfo (db : Database) (obsId : String) : Option (TransactionsRow × Int) :=
  (db.observations.find? obsId).bind fun obs =>
    obs.canonicalTransactionId.bind fun id =>
      (db.transactions.find? id).bind fun t =>
        if t.alertFired = some false ∧ t.direction = some "debit" then
          t.amountMinor.map fun amount => (t, amount)
        else none

/-- An amount of more than three times what the merchant usually gets. -/
def Database.merchantSpike (db : Database) (t : TransactionsRow) (amount eventTime : Int) :
    Option AlertPayload :=
  t.merchantEntityId.bind fun merchant =>
    let average := db.getTrailing30DayMerchantAverage merchant eventTime
    if 0 < average ∧ average * 3 < amount then
      some ⟨t.id, "merchant_spike", "Unusual spend amount at " ++ merchant⟩
    else none

omit [Extern] in
/-- `UPDATE transactions SET alert_fired = 1`. -/
def alertFiredPatch (now : Int) : Patch TransactionsRow where
  run t := { t with alertFired := some true, updatedAt := some now }
  key_run _ := rfl

omit [Extern] in
def markAlertFired (id : String) : BudgetsProg Unit := update fun now b =>
  .ok ((), { b with db := b.db.updateTransaction id (alertFiredPatch now) })

/-- The loop body of `evaluate_alerts_internal`: the alerts the app is told
about. -/
def evaluateAlert (obsId : String) : BudgetsProg (List AlertPayload) := do
  match ← fetch (·.db.alertTxInfo obsId) with
  | none => return []
  | some (t, amount) =>
    let now ← utcNow
    let eventTime := t.bestEventTime.getD now
    let ofCategory ← t.categoryId.elim (pure []) fun id =>
      checkThresholdBands t.id (.category id) eventTime
    let ofAll ← checkThresholdBands t.id .global eventTime
    let spike ← fetch (·.db.merchantSpike t amount eventTime)
    let firedAlerts := ofCategory ++ ofAll ++ spike.toList
    if firedAlerts ≠ [] then markAlertFired t.id
    return firedAlerts

/-- Core alert evaluation over the current spending state. -/
def evaluateAlertsInternal : List String → BudgetsProg (List AlertPayload)
  | [] => return []
  | obsId :: observationIds => do
    let fired ← evaluateAlert obsId
    let more ← evaluateAlertsInternal observationIds
    return fired ++ more

end Programs

/-! ## crossings -/

/-- A scope found at a level or above: on account of which month, and when. -/
structure Crossing where
  scope : Scope
  level : Int
  month : Month
  time : Int
deriving DecidableEq, Repr

def Crossing.account (c : Crossing) : Scope × Int × Month := (c.scope, c.level, c.month)

variable [Extern]

/-- An alert about `d` is taken for one about `c`: the same threshold, and
since the month of `c` began. -/
def Crossing.Hushes (d c : Crossing) : Prop :=
  alertKey d.scope d.level = alertKey c.scope c.level ∧ c.month.start ≤ formatDateTime d.time

instance : DecidableRel Crossing.Hushes := fun _ _ => inferInstanceAs (Decidable (_ ∧ _))

/-- The levels the scope has reached at `eventTime`. -/
def Budgets.crossings (b : Budgets) (eventTime now : Int) (scope : Scope) : List Crossing :=
  match b.limit scope with
  | none => []
  | some limit =>
    (b.enabledThresholdLevels.filter fun level => !below (b.spend eventTime scope) limit level).map
      fun level => ⟨scope, level, monthOf eventTime, now⟩

/-- What the evaluation of an observation finds. -/
def Budgets.found (b : Budgets) (now : Int) (obsId : String) : List Crossing :=
  match b.db.alertTxInfo obsId with
  | none => []
  | some (t, _) =>
    let eventTime := t.bestEventTime.getD now
    t.categoryId.elim [] (fun id => b.crossings eventTime now (.category id)) ++
      b.crossings eventTime now .global

/-- What the evaluations of a call find, one after the other. -/
def foundByCall (now : Int) (s : Store Budgets) : List String → List Crossing
  | [] => []
  | obsId :: observationIds =>
    s.db.found now obsId ++
      foundByCall now (evaluateAlert obsId (.quiet now) s).2 observationIds

/-! ## one evaluation -/

/-- The alerts are those of the crossings in `log`, under ids that were drawn. -/
structure AlertLog (log : List Crossing) (s : Store Budgets) : Prop where
  rows : s.db.alerts.rows.map (fun a => (a.alertType, a.createdAt)) =
    log.map fun c => (alertKey c.scope c.level, c.time)
  drawn : ∀ a ∈ s.db.alerts, ∃ k < s.nextUuid, a.alertId = uuid k

variable {log : List Crossing} {s : Store Budgets}

/-- The guard answers what the log says. -/
theorem AlertLog.fired_iff (h : AlertLog log s) (c : Crossing) :
    s.db.thresholdAlreadyFiredThisMonth (alertKey c.scope c.level) c.month.start = true ↔
      ∃ d ∈ log, d.Hushes c := by
  have hrows : (∃ a ∈ s.db.alerts.rows, a.alertType = alertKey c.scope c.level ∧
      c.month.start ≤ formatDateTime a.createdAt) ↔
      ∃ p ∈ s.db.alerts.rows.map (fun a => (a.alertType, a.createdAt)),
        p.1 = alertKey c.scope c.level ∧ c.month.start ≤ formatDateTime p.2 := by
    simp [List.mem_map]
  rw [h.rows] at hrows
  simp only [Budgets.thresholdAlreadyFiredThisMonth, List.any_eq_true, Bool.and_eq_true,
    decide_eq_true_eq]
  rw [hrows]
  simp [List.mem_map, Crossing.Hushes]

/-- A threshold that fires gets its alert. -/
theorem recordThresholdFired_quiet (h : AlertLog log s) (c : Crossing) (message : String) :
    ∃ T, recordThresholdFired (alertKey c.scope c.level) message (.quiet c.time) s =
        (.ok (), { s with db := { s.db with alerts := T }, nextUuid := s.nextUuid + 1 }) ∧
      AlertLog (log ++ [c]) { s with db := { s.db with alerts := T }, nextUuid := s.nextUuid + 1 } := by
  let a : Alert := {
    alertId := uuid s.nextUuid, alertType := alertKey c.scope c.level, message := message
    relatedClusterId := none, status := "fired", createdAt := c.time }
  have hnew : ∀ x ∈ s.db.alerts, x.alertId ≠ a.alertId := by
    intro x hx hid
    obtain ⟨k, hk, hxk⟩ := h.drawn x hx
    have hkeq : k = s.nextUuid := Extern.uuid_injective (hxk.symm.trans hid)
    omega
  obtain ⟨T, hT⟩ : ∃ T, s.db.alerts.insert? a = some T := by
    rw [← Option.ne_none_iff_exists']
    intro hnone
    obtain ⟨x, hx, hkey⟩ := Table.insert?_eq_none.mp hnone
    exact hnew x hx hkey
  refine ⟨T, ?_, ?_, ?_⟩
  · rw [recordThresholdFired, Eff.bind_of_ok (newUuid_apply _ _ s)]
    refine update_apply ?_
    show (match s.db.alerts.insert? a with
      | some T => Except.ok ((), { s.db with alerts := T })
      | none => _) = _
    rw [hT]
  · show T.rows.map _ = _
    rw [(Table.insert?_eq_some.mp hT).2, List.map_append, h.rows]
    simp [a]
  · intro x hx
    rcases (Table.mem_of_insert? hT).mp hx with hold | rfl
    · obtain ⟨k, hk, hxk⟩ := h.drawn x hold
      exact ⟨k, Nat.lt_succ_of_lt hk, hxk⟩
    · exact ⟨s.nextUuid, Nat.lt_succ_self _, rfl⟩

omit [Extern] in
/-- The store with other alerts, some ids drawn. -/
def withAlerts (s : Store Budgets) (T : Table Alert) (n : Nat) : Store Budgets :=
  { s with db := { s.db with alerts := T }, nextUuid := n }

/-- `x` ends well and leaves everything but the alerts; of the crossings `cs`
it announces those the latch lets through. -/
def Announces (x : BudgetsProg α) (now : Int) (s : Store Budgets) (log cs : List Crossing) : Prop :=
  ∃ a T n, x (.quiet now) s = (.ok a, withAlerts s T n) ∧
    AlertLog (cs.foldl (Latch.enter Crossing.Hushes) log) (withAlerts s T n)

theorem Announces.pure (h : AlertLog log s) (a : α) (now : Int) :
    Announces (Pure.pure a) now s log [] := ⟨a, s.db.alerts, s.nextUuid, rfl, h⟩

theorem Announces.fetch {f : Budgets → α} {g : α → BudgetsProg β} {now : Int} {cs : List Crossing}
    (h : Announces (g (f s.db)) now s log cs) : Announces (Sql.fetch f >>= g) now s log cs := by
  unfold Announces
  rw [Eff.bind_of_ok (fetch_apply f _ s)]
  exact h

theorem Announces.bind {x : BudgetsProg α} {f : α → BudgetsProg β} {now : Int}
    {cs more : List Crossing} (hx : Announces x now s log cs)
    (hf : ∀ a T n, AlertLog (cs.foldl (Latch.enter Crossing.Hushes) log) (withAlerts s T n) →
      Announces (f a) now (withAlerts s T n) (cs.foldl (Latch.enter Crossing.Hushes) log) more) :
    Announces (x >>= f) now s log (cs ++ more) := by
  obtain ⟨a, T, n, hrun, hlog⟩ := hx
  obtain ⟨b, T', n', hrun', hlog'⟩ := hf a T n hlog
  refine ⟨b, T', n', ?_, ?_⟩
  · rw [Eff.bind_of_ok hrun]
    exact hrun'
  · rw [List.foldl_append]
    exact hlog'

/-- One level that is reached. -/
theorem Announces.level (h : AlertLog log s) (c : Crossing) (message : String)
    (hopen : ¬ ∃ d ∈ log, d.Hushes c) :
    Announces (recordThresholdFired (alertKey c.scope c.level) message) c.time s log [c] := by
  obtain ⟨T, hrun, hlog⟩ := recordThresholdFired_quiet h c message
  refine ⟨(), T, s.nextUuid + 1, hrun, ?_⟩
  rw [List.foldl_cons, List.foldl_nil, Latch.enter, if_neg hopen]
  exact hlog

theorem checkLevels_announces (txId : String) (scope : Scope) (spend limit : ℚ) (eventTime now : Int)
    (levels : List Int) (h : AlertLog log s) :
    Announces (checkLevels txId scope spend limit (monthOf eventTime).start levels) now s log
      ((levels.filter fun level => !below spend limit level).map
        fun level => ⟨scope, level, monthOf eventTime, now⟩) := by
  induction levels generalizing s log with
  | nil => exact .pure h [] now
  | cons level levels ih =>
    rw [checkLevels]
    by_cases hbelow : below spend limit level = true
    · simp only [hbelow, if_true, List.filter_cons, Bool.not_true, Bool.false_eq_true, if_false]
      exact ih h
    · let c : Crossing := ⟨scope, level, monthOf eventTime, now⟩
      simp only [hbelow, if_false, List.filter_cons, Bool.not_false, if_true, List.map_cons,
        Bool.false_eq_true]
      refine .fetch ?_
      by_cases hheld : ∃ d ∈ log, d.Hushes c
      · -- announced before: nothing happens
        have hfired := (h.fired_iff c).mpr hheld
        rw [if_pos hfired]
        obtain ⟨a, T, n, hrun, hlog⟩ := ih h
        refine ⟨a, T, n, hrun, ?_⟩
        rw [List.foldl_cons, Latch.enter, if_pos hheld]
        exact hlog
      · have hfired : ¬ _ = true := fun hyes => hheld ((h.fired_iff c).mp hyes)
        rw [if_neg hfired]
        have hrecord := Announces.level h c (thresholdMessage scope level) hheld
        refine hrecord.bind fun _ T n hlog => ?_
        have hrest := (ih hlog).bind fun fired T' n' hlog' =>
          Announces.pure hlog' (⟨txId, alertKey scope level, thresholdMessage scope level⟩ :: fired) now
        rw [List.append_nil] at hrest
        exact hrest

theorem checkThresholdBands_announces (txId : String) (scope : Scope) (eventTime now : Int)
    (h : AlertLog log s) :
    Announces (checkThresholdBands txId scope eventTime) now s log
      (s.db.crossings eventTime now scope) := by
  rw [checkThresholdBands, Budgets.crossings]
  refine .fetch ?_
  cases s.db.limit scope with
  | none => exact .pure h [] now
  | some limit => exact .fetch (.fetch (checkLevels_announces txId scope _ limit eventTime now _ h))

/-- The bands of the category, if there is one, and of the whole. -/
theorem evaluateAlert_announces (obsId : String) (now : Int) (h : AlertLog log s) :
    ∃ fired s', evaluateAlert obsId (.quiet now) s = (.ok fired, s') ∧
      AlertLog ((s.db.found now obsId).foldl (Latch.enter Crossing.Hushes) log) s' := by
  rw [evaluateAlert, Eff.bind_of_ok (fetch_apply _ _ s), Budgets.found]
  cases s.db.db.alertTxInfo obsId with
  | none => exact ⟨[], s, rfl, h⟩
  | some info =>
    obtain ⟨t, amount⟩ := info
    dsimp only
    have hnow : (utcNow : BudgetsProg Int) (.quiet now) s = (.ok now, s) := rfl
    rw [Eff.bind_of_ok hnow]
    have hcategory : Announces (t.categoryId.elim (Pure.pure []) fun id =>
          checkThresholdBands t.id (.category id) (t.bestEventTime.getD now)) now s log
        (t.categoryId.elim [] fun id =>
          s.db.crossings (t.bestEventTime.getD now) now (.category id)) := by
      cases t.categoryId with
      | none => exact .pure h [] now
      | some id => exact checkThresholdBands_announces t.id (.category id) _ now h
    obtain ⟨ofCategory, T, n, hrun, hlog⟩ := hcategory
    obtain ⟨ofAll, T', n', hrun', hlog'⟩ := checkThresholdBands_announces t.id .global
      (t.bestEventTime.getD now) now hlog
    rw [Eff.bind_of_ok hrun, Eff.bind_of_ok hrun', Eff.bind_of_ok (fetch_apply _ _ _),
      List.foldl_append]
    split
    · exact ⟨_, _, rfl, hlog'.rows, hlog'.drawn⟩
    · exact ⟨_, _, rfl, hlog'⟩

theorem evaluateAlertsInternal_announces (observationIds : List String) (now : Int)
    (h : AlertLog log s) :
    ∃ fired s', evaluateAlertsInternal observationIds (.quiet now) s = (.ok fired, s') ∧
      AlertLog ((foundByCall now s observationIds).foldl (Latch.enter Crossing.Hushes) log) s' := by
  induction observationIds generalizing s log with
  | nil => exact ⟨[], s, rfl, h⟩
  | cons obsId observationIds ih =>
    obtain ⟨fired, s', hrun, hlog⟩ := evaluateAlert_announces obsId now h
    obtain ⟨more, s'', hrun', hlog'⟩ := ih hlog
    refine ⟨fired ++ more, s'', ?_, ?_⟩
    · rw [evaluateAlertsInternal, Eff.bind_of_ok hrun, Eff.bind_of_ok hrun']
      rfl
    · rw [foundByCall, List.foldl_append, hrun]
      exact hlog'

/-! ## runs -/

/-- What happens to budgets: a call of `evaluate_alerts_internal`, or anything
that leaves the alerts alone. -/
inductive BudgetEvent
  | evaluate (now : Int) (observationIds : List String)
  | change (db : Database) (categories : Table CategoriesRow) (profile : Option LocalProfile)
      (draws : Nat)

def BudgetEvent.run (s : Store Budgets) : BudgetEvent → Store Budgets
  | .evaluate now observationIds => (evaluateAlertsInternal observationIds (.quiet now) s).2
  | .change db categories profile draws =>
    { s with
      db := { s.db with db := db, categories := categories, profile := profile }
      nextUuid := s.nextUuid + draws }

def runBudgets (s : Store Budgets) (events : List BudgetEvent) : Store Budgets :=
  events.foldl BudgetEvent.run s

/-- The crossings found by an event. -/
def BudgetEvent.found (s : Store Budgets) : BudgetEvent → List Crossing
  | .evaluate now observationIds => foundByCall now s observationIds
  | .change .. => []

/-- The crossings found in a run, in the order in which they are found. -/
def foundInRun (s : Store Budgets) : List BudgetEvent → List Crossing
  | [] => []
  | e :: events => e.found s ++ foundInRun (e.run s) events

theorem BudgetEvent.run_announces (h : AlertLog log s) (e : BudgetEvent) :
    AlertLog ((e.found s).foldl (Latch.enter Crossing.Hushes) log) (e.run s) := by
  cases e with
  | evaluate now observationIds =>
    obtain ⟨fired, s', hrun, hlog⟩ := evaluateAlertsInternal_announces observationIds now h
    rw [BudgetEvent.run, hrun]
    exact hlog
  | change db categories profile draws =>
    refine ⟨h.rows, fun a ha => ?_⟩
    obtain ⟨k, hk, hid⟩ := h.drawn a ha
    exact ⟨k, Nat.lt_add_right draws hk, hid⟩

theorem runBudgets_announces (h : AlertLog log s) (events : List BudgetEvent) :
    AlertLog ((foundInRun s events).foldl (Latch.enter Crossing.Hushes) log)
      (runBudgets s events) := by
  induction events generalizing s log with
  | nil => exact h
  | cons e events ih =>
    rw [foundInRun, List.foldl_append]
    exact ih (e.run_announces h)

omit [Extern] in
/-- Budgets before the first alert. -/
def Budgets.start (db : Database) (categories : Table CategoriesRow)
    (profile : Option LocalProfile) (nextUuid : Nat) : Store Budgets :=
  ⟨⟨db, categories, profile, .empty⟩, nextUuid, none⟩

/-- The alerts of a run are those of the crossings the guard lets through.
Every crossed threshold is announced, and once only for each month, just when
the crossings come in time: the first of a month finds no alert of its
threshold from after the month began, and a later one finds one. -/
theorem alerts_run (db : Database) (categories : Table CategoriesRow)
    (profile : Option LocalProfile) (nextUuid : Nat) (events : List BudgetEvent) :
    let s := Budgets.start db categories profile nextUuid
    let crossings := foundInRun s events
    (runBudgets s events).db.alerts.rows.map (fun a => (a.alertType, a.createdAt)) =
      (Latch.passed Crossing.Hushes crossings).map
        (fun c => (alertKey c.scope c.level, c.time)) ∧
    ((Latch.Once Crossing.Hushes Crossing.account crossings ∧
      Latch.Announced Crossing.Hushes Crossing.account crossings) ↔
      Latch.Timely Crossing.Hushes Crossing.account crossings) := by
  intro s crossings
  have hstart : AlertLog [] s := ⟨rfl, fun _ ha => absurd ha (Table.not_mem_empty _)⟩
  exact ⟨(runBudgets_announces hstart events).rows, Latch.once_and_announced_iff⟩

/-! ## crossings out of time -/

omit [Extern] in
/-- A limit of 1000.00 and two debits, either of which exhausts it. -/
def twoLargeDebits (first second : Int) : Store Budgets :=
  Budgets.start
    { firstLedger.db with
      transactions := ⟨[debited "t1" 100000 first, debited "t2" 100000 second],
        by simp [Keyed.key, debited]⟩
      observations := ⟨[
        { observed "o1" "gmail_transaction" "debit" 100000 first with
          canonicalTransactionId := some "t1" },
        { observed "o2" "gmail_transaction" "debit" 100000 second with
          canonicalTransactionId := some "t2" }], by simp [Keyed.key, observed]⟩ }
    .empty (some ⟨some 1000, some [100]⟩) 0

omit [Extern] in
/-- A debit of 10 June and, the day after, one of 10 May that was found late:
May is not announced.  Two debits of 1 July, local time, when the clock still
shows 30 June: July is announced twice. -/
theorem alerts_missed_and_repeated :
    letI := Extern.gregorian
    ¬ Latch.Announced Crossing.Hushes Crossing.account
        (foundInRun (twoLargeDebits 1781092800 1778414400)
          [.evaluate 1781096400 ["o1"], .evaluate 1781168400 ["o2"]]) ∧
    ¬ Latch.Once Crossing.Hushes Crossing.account
        (foundInRun (twoLargeDebits 1782864600 1782865200)
          [.evaluate 1782845100 ["o1"], .evaluate 1782845700 ["o2"]]) := by
  let := Extern.gregorian
  constructor
  · intro h
    have hmay := h [⟨.global, 100, ⟨2026, 6⟩, 1781096400⟩] ⟨.global, 100, ⟨2026, 5⟩, 1781168400⟩ []
      (by decide +kernel)
    revert hmay
    decide +kernel
  · unfold Latch.Once
    decide +kernel

end Dinero
