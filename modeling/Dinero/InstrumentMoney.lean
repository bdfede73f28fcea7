import Dinero.InstrumentCommands
import Dinero.Schema

/-!
# Dinero.InstrumentMoney

Amounts of money on their way into an instrument and back.

The edit form sends amounts as floats and the row keeps minor units; the list
of instruments turns them into floats again.  `money_round_trip_iff` says which
requests come back as they were sent.
-/

namespace Dinero

open Sql

/-! ## amounts -/

/-- An amount with at most two decimals and below 10¹², in minor units. -/
structure Amount where
  minor : Int
  bound : |minor| < 10 ^ 14

/-- The float the amount is sent as. -/
def Amount.value (a : Amount) : ℚ := nearestSigned (a.minor / 100)

/-- The cut towards zero, which 64 bits are enough for. -/
theorem toMinor_eq {x : ℚ} (h : 0 ≤ x) {n : Nat} (hn : n < 2 ^ 63)
    (hfloor : ⌊nearestF64 (x * 100)⌋ = n) : toMinor x = n ∧ toMinor (-x) = -n := by
  have hpos : 0 ≤ nearestF64 (x * 100) := nearestF64_nonneg (by linarith)
  have hprod : nearestSigned (x * 100) = nearestF64 (x * 100) :=
    nearestSigned_of_nonneg (by linarith)
  constructor
  · rw [toMinor, hprod]
    rw [if_pos hpos, hfloor]
    omega
  · have hneg : nearestSigned (-x * 100) = -nearestF64 (x * 100) := by
      rw [neg_mul, nearestSigned_neg, hprod]
    rw [toMinor, hneg]
    obtain heq | hlt := hpos.eq_or_lt
    · rw [← heq, Int.floor_zero] at hfloor
      rw [← heq, neg_zero, if_pos le_rfl, Int.floor_zero]
      omega
    · rw [if_neg (by linarith), Int.ceil_neg, hfloor]
      omega

/-- **Hundredths in minor units**: exact, or one too small. -/
theorem toMinor_hundredths {minor : Int} (hbound : |minor| < 10 ^ 14) :
    toMinor (nearestSigned (minor / 100)) =
      if Slips minor.natAbs then minor - minor.sign else minor := by
  obtain ⟨n, hn⟩ : ∃ n, minor.natAbs = n := ⟨_, rfl⟩
  have hsize : n < 10 ^ 14 := by
    rw [Int.abs_eq_natAbs] at hbound
    omega
  have hpos : Slips n → 0 < n := by
    intro h
    have hlead := h.1
    have hpow := Nat.two_pow_pos n.log2
    omega
  have hfloor : ⌊nearestF64 (nearestF64 ((n : ℚ) / 100) * 100)⌋ =
      ((if Slips n then n - 1 else n : Nat) : ℤ) := by
    rw [floor_hundredths hsize]
    split
    · have hone := hpos ‹_›
      omega
    · rfl
  have hvalue : (0 : ℚ) ≤ n / 100 := by positivity
  obtain ⟨hplus, hminus⟩ := toMinor_eq (nearestF64_nonneg hvalue) (by split <;> omega) hfloor
  obtain heq | heq : minor = n ∨ minor = -n := by omega
  · rw [heq, Int.cast_natCast, nearestSigned_of_nonneg hvalue, hplus, Int.natAbs_natCast]
    split
    · have hone := hpos ‹_›
      rw [Int.sign_eq_one_of_pos (by omega)]
      omega
    · rfl
  · rw [heq, Int.cast_neg, Int.cast_natCast, neg_div, nearestSigned_neg,
      nearestSigned_of_nonneg hvalue, hminus, Int.natAbs_neg, Int.natAbs_natCast]
    split
    · have hone := hpos ‹_›
      rw [Int.sign_neg, Int.sign_eq_one_of_pos (by omega)]
      omega
    · rfl

theorem toMinor_value_iff (a : Amount) : toMinor a.value = a.minor ↔ ¬ Slips a.minor.natAbs := by
  rw [Amount.value, toMinor_hundredths a.bound]
  split
  · have hzero : ¬ Slips 0 := by decide
    have hne : a.minor.sign ≠ 0 := by
      intro h
      rw [Int.sign_eq_zero_iff_zero] at h
      rename_i hslips
      rw [h] at hslips
      exact hzero hslips
    constructor
    · intro h
      omega
    · intro h
      exact absurd ‹_› h
  · simp [*]

theorem Amount.minor_float (a : Amount) : nearestSigned a.minor = a.minor := by
  have hbound := a.bound
  exact nearestSigned_intCast (by omega)

/-- Only nothing is as much in minor units. -/
theorem Amount.value_eq_minor_iff (a : Amount) : a.value = a.minor ↔ a.minor = 0 := by
  have hless : ∀ n : Nat, nearestF64 ((n : ℚ) / 100) = n → n = 0 := by
    intro n h
    by_contra hne
    have hpos : (0 : ℚ) < n := by exact_mod_cast Nat.pos_of_ne_zero hne
    have hle := nearestF64_le (show (0 : ℚ) < n / 100 by positivity)
    linarith
  constructor
  · rw [Amount.value]
    obtain ⟨n, hn | hn⟩ := Int.eq_nat_or_neg a.minor
    · rw [hn, Int.cast_natCast, nearestSigned_of_nonneg (by positivity)]
      intro h
      exact_mod_cast hless n h
    · rw [hn, Int.cast_neg, Int.cast_natCast, neg_div, nearestSigned_neg,
        nearestSigned_of_nonneg (by positivity), neg_inj]
      intro h
      rw [hless n h]
      rfl
  · intro h
    simp [Amount.value, h, nearestSigned]

/-! ## what is shown -/

/-- The subquery for `tx_balance_minor`; `amount` is generated from `amount_minor`. -/
def txBalanceMinor (transactions : Table TransactionsRow) (i : Instrument) : Int :=
  let outgoing := if i.type = "credit_card" then "debit" else "credit"
  ((transactions.rows.filter fun t => t.instrumentId = some i.id && !t.isDeleted).filterMap
    fun t => t.amountMinor.map fun v => if t.direction = some outgoing then v else -v).sum

/-- `effective_bal`. -/
def Instrument.effectiveBal (i : Instrument) (transactions : Table TransactionsRow) : ℚ :=
  match i.currentBalance with
  | some p => nearestSigned (nearestSigned p / 100)
  | none =>
    let txBalMinor := txBalanceMinor transactions i
    if i.type = "credit_card" ∨ 0 < txBalMinor then nearestSigned (nearestSigned txBalMinor / 100)
    else 0

/-- The record of a row.  The credit limit is read as a float at once, which succeeds. -/
def Instrument.record (i : Instrument) (transactions : Table TransactionsRow) :
    InstrumentRecord where
  id := i.id
  instrumentType := i.type
  issuerName := i.issuerName
  maskedIdentifier := i.maskedIdentifier
  status := i.status
  currentBalance := some (i.effectiveBal transactions)
  creditLimit := i.creditLimit.map fun minor : Int => nearestSigned minor
  fullIdentifier := i.fullIdentifier
  billingCycleDay := i.billingCycleDay
  bankIfsc := i.bankIfsc

/-- Lists instruments with their balances. -/
def doFetchInstruments [Extern] (transactions : Table TransactionsRow) (T : Instruments) :
    List InstrumentRecord :=
  (orderBy (fun a b => a.issuerName ≤ b.issuerName)
    (scan (T.rows.filter fun i => !i.isDeleted))).map (·.record transactions)

theorem mem_doFetchInstruments [Extern] {transactions : Table TransactionsRow} {T : Instruments}
    {r : InstrumentRecord} : r ∈ doFetchInstruments transactions T ↔
      ∃ i ∈ T, i.isDeleted = false ∧ i.record transactions = r := by
  simp only [doFetchInstruments, List.mem_map, mem_orderBy, mem_scan, List.mem_filter,
    Bool.not_eq_true', and_assoc]
  rfl

/-! ## the round trip -/

/-- A request with these amounts. -/
def InstrumentUpdatePayload.withAmounts (p : InstrumentUpdatePayload)
    (limit balance due : Option Amount) : InstrumentUpdatePayload :=
  { p with
    creditLimit := limit.map Amount.value
    currentBalance := balance.map Amount.value
    minimumDue := due.map Amount.value }

/-- A column without a field in the request. -/
def Untouched (field : Option α) (old new : β) : Prop := field = none → new = old

/-- The columns the request has no field for. -/
structure KeptColumns (p : InstrumentUpdatePayload) (old new : Instrument) : Prop where
  fullIdentifier : Untouched p.fullIdentifier old.fullIdentifier new.fullIdentifier
  billingCycleDay : Untouched p.billingCycleDay old.billingCycleDay new.billingCycleDay
  bankIfsc : Untouched p.bankIfsc old.bankIfsc new.bankIfsc
  nickname : Untouched p.nickname old.nickname new.nickname
  creditLimit : Untouched p.creditLimit old.creditLimit new.creditLimit
  accountType : Untouched p.accountType old.accountType new.accountType
  network : Untouched p.network old.network new.network
  status : Untouched p.status old.status new.status
  upiVpa : Untouched p.upiVpa old.upiVpa new.upiVpa
  rewardsSummary : Untouched p.rewardsSummary old.rewardsSummary new.rewardsSummary
  instrumentType : Untouched p.instrumentType old.type new.type
  issuerName : Untouched p.issuerName old.issuerName new.issuerName
  maskedIdentifier : Untouched p.maskedIdentifier old.maskedIdentifier new.maskedIdentifier
  currentBalance : Untouched p.currentBalance old.currentBalance new.currentBalance
  statementDueDate : Untouched p.statementDueDate old.statementDueDate new.statementDueDate
  minimumDue : Untouched p.minimumDue old.minimumDue new.minimumDue

/-- The amounts are stored exactly and shown as they were sent, and the rest is kept. -/
structure MoneyRoundTrip (p : InstrumentUpdatePayload) (limit balance due : Option Amount)
    (old new : Instrument) (records : List InstrumentRecord) : Prop where
  creditLimit : ∀ a ∈ limit, new.creditLimit = some a.minor
  currentBalance : ∀ a ∈ balance, new.currentBalance = some a.minor
  minimumDue : ∀ a ∈ due, new.minimumDue = some a.minor
  shown : ∃ r ∈ records, r.id = new.id ∧ (∀ a ∈ limit, r.creditLimit = some a.value) ∧
    ∀ a ∈ balance, r.currentBalance = some a.value
  kept : KeptColumns (p.withAmounts limit balance due) old new

/-- No credit limit but 0 is sent, no other amount slips, and the three fields the command does
not ask about are sent or have been empty. -/
structure Harmless (p : InstrumentUpdatePayload) (limit balance due : Option Amount)
    (old : Instrument) : Prop where
  creditLimit : ∀ a ∈ limit, a.minor = 0
  currentBalance : ∀ a ∈ balance, ¬ Slips a.minor.natAbs
  minimumDue : ∀ a ∈ due, ¬ Slips a.minor.natAbs
  fullIdentifier : p.fullIdentifier = none → old.fullIdentifier = none
  billingCycleDay : p.billingCycleDay = none → old.billingCycleDay = none
  bankIfsc : p.bankIfsc = none → old.bankIfsc = none

section Update

variable {p : InstrumentUpdatePayload} {limit balance due : Option Amount} {old : Instrument}

/-- The three columns that are written whatever the request says. -/
theorem keptColumns_iff (now : Int) :
    KeptColumns p old ((instrumentPatch (p.edit old) now).run old) ↔
      (p.fullIdentifier = none → old.fullIdentifier = none) ∧
      (p.billingCycleDay = none → old.billingCycleDay = none) ∧
      (p.bankIfsc = none → old.bankIfsc = none) := by
  constructor
  · intro h
    refine ⟨fun hnone => ?_, fun hnone => ?_, fun hnone => ?_⟩
    · rw [← h.fullIdentifier hnone]
      exact hnone
    · rw [← h.billingCycleDay hnone]
      exact hnone
    · rw [← h.bankIfsc hnone]
      exact hnone
  · intro ⟨hfull, hday, hifsc⟩
    constructor
    case fullIdentifier => exact fun hnone => hnone.trans (hfull hnone).symm
    case billingCycleDay => exact fun hnone => hnone.trans (hday hnone).symm
    case bankIfsc => exact fun hnone => hnone.trans (hifsc hnone).symm
    all_goals
      intro hnone
      simp [instrumentPatch, InstrumentUpdatePayload.edit, hnone, editOptional, editRequired]

/-- One amount: stored exactly, and, if it is a limit, shown as it was sent. -/
theorem storedLimit_iff (a : Amount) :
    toMinor a.value = a.minor ∧ nearestSigned (toMinor a.value) = a.value ↔ a.minor = 0 := by
  constructor
  · rintro ⟨hstored, hshown⟩
    rw [hstored, a.minor_float] at hshown
    exact a.value_eq_minor_iff.mp hshown.symm
  · intro h
    have hslips : ¬ Slips a.minor.natAbs := by
      rw [h]
      decide
    have hstored := (toMinor_value_iff a).mpr hslips
    rw [hstored, a.minor_float]
    exact ⟨rfl, (a.value_eq_minor_iff.mpr h).symm⟩

variable {records : List InstrumentRecord} {transactions : Table TransactionsRow}

/-- **What comes back of an edit**, given that the list has the record of the new row and no
other of its id. -/
theorem edit_roundTrip_iff {now : Int} {new : Instrument}
    (hnew : new = (instrumentPatch ((p.withAmounts limit balance due).edit old) now).run old)
    (hrecords : ∀ r, r ∈ records ∧ r.id = new.id ↔ r = new.record transactions) :
    MoneyRoundTrip p limit balance due old new records ↔ Harmless p limit balance due old := by
  have hlimit : ∀ a ∈ limit, new.creditLimit = some (toMinor a.value) := by
    intro a ha
    simp [hnew, instrumentPatch, InstrumentUpdatePayload.edit, InstrumentUpdatePayload.withAmounts,
      Option.mem_def.mp ha]
  have hbalance : ∀ a ∈ balance, new.currentBalance = some (toMinor a.value) := by
    intro a ha
    simp [hnew, instrumentPatch, InstrumentUpdatePayload.edit, InstrumentUpdatePayload.withAmounts,
      Option.mem_def.mp ha]
  have hdue : ∀ a ∈ due, new.minimumDue = some (toMinor a.value) := by
    intro a ha
    simp [hnew, instrumentPatch, InstrumentUpdatePayload.edit, InstrumentUpdatePayload.withAmounts,
      Option.mem_def.mp ha]
  have hkept : KeptColumns (p.withAmounts limit balance due) old new ↔
      (p.fullIdentifier = none → old.fullIdentifier = none) ∧
      (p.billingCycleDay = none → old.billingCycleDay = none) ∧
      (p.bankIfsc = none → old.bankIfsc = none) := by
    rw [hnew]
    exact keptColumns_iff now
  constructor
  · intro h
    obtain ⟨r, hr, hid, hrlimit, hrbalance⟩ := h.shown
    obtain rfl := (hrecords r).mp ⟨hr, hid⟩
    obtain ⟨hfull, hday, hifsc⟩ := hkept.mp h.kept
    refine ⟨fun a ha => ?_, fun a ha => ?_, fun a ha => ?_, hfull, hday, hifsc⟩
    · have hstored := (hlimit a ha).symm.trans (h.creditLimit a ha)
      have hshown := hrlimit a ha
      simp only [Instrument.record, hlimit a ha, Option.map_some, Option.some.injEq] at hshown
      exact (storedLimit_iff a).mp ⟨Option.some.inj hstored, hshown⟩
    · exact (toMinor_value_iff a).mp
        (Option.some.inj ((hbalance a ha).symm.trans (h.currentBalance a ha)))
    · exact (toMinor_value_iff a).mp
        (Option.some.inj ((hdue a ha).symm.trans (h.minimumDue a ha)))
  · intro h
    have hstored : ∀ a ∈ balance, toMinor a.value = a.minor :=
      fun a ha => (toMinor_value_iff a).mpr (h.currentBalance a ha)
    obtain ⟨hr, hid⟩ := (hrecords _).mpr rfl
    refine ⟨fun a ha => ?_, fun a ha => ?_, fun a ha => ?_, ⟨_, hr, hid, fun a ha => ?_,
      fun a ha => ?_⟩, hkept.mpr ⟨h.fullIdentifier, h.billingCycleDay, h.bankIfsc⟩⟩
    · rw [hlimit a ha, ((storedLimit_iff a).mpr (h.creditLimit a ha)).1]
    · rw [hbalance a ha, hstored a ha]
    · rw [hdue a ha, (toMinor_value_iff a).mpr (h.minimumDue a ha)]
    · simp only [Instrument.record, hlimit a ha, Option.map_some,
        ((storedLimit_iff a).mpr (h.creditLimit a ha)).2]
    · have hcolumn := hbalance a ha
      rw [hstored a ha] at hcolumn
      rw [Instrument.record, Instrument.effectiveBal, hcolumn]
      simp only [a.minor_float, Amount.value]

end Update

/-- An edit that was answered "updated" has changed the row. -/
theorem instrumentsUpdate_updated {p : InstrumentUpdatePayload} {idParses : Bool}
    {writeAllowed : Except AppError Unit} {now : Int} {s : Store Instruments} {row : Instrument}
    (hrow : s.db.getInstrument p.id = some row)
    (h : (instrumentsUpdate idParses writeAllowed p (.quiet now) s).1 = .ok (.ok "updated")) :
    s.db.modify? p.id (instrumentPatch (p.edit row) now) =
      some (instrumentsUpdate idParses writeAllowed p (.quiet now) s).2.db := by
  obtain ⟨hfind, -⟩ := Option.filter_eq_some_iff.mp hrow
  have hid : (p.edit row).id = p.id := (Table.find?_eq_some.mp hfind).2
  have hcontains : s.db.contains (p.edit row).id = true := by
    rw [hid, Table.contains, hfind]
    rfl
  unfold instrumentsUpdate at h ⊢
  cases hcheck : validateUuid idParses "id" p.id >>= fun _ => writeAllowed with
  | error e =>
    rw [hcheck] at h
    cases h
  | ok u =>
    rw [hcheck] at h
    dsimp only at h ⊢
    rw [Eff.bind_of_ok (show readInstruments _ (.quiet now) s = (.ok _, s) from rfl), hrow] at h ⊢
    dsimp only at h ⊢
    rw [Eff.bind_of_ok (Eff.attempt_apply _ _ _), updateInstrument_quiet hcontains, hid] at h ⊢
    by_cases hallowed : (p.edit row).allowed = true
    · rw [if_pos hallowed] at h ⊢
      cases hmodify : s.db.modify? p.id (instrumentPatch (p.edit row) now) with
      | none =>
        rw [hmodify] at h
        cases h
      | some T' => rfl
    · rw [if_neg hallowed] at h
      cases h

/-- **The round trip of an edit that succeeds**: it is one exactly when the request is harmless
for the row it finds. -/
theorem money_round_trip_iff [Extern] (transactions : Table TransactionsRow)
    {p : InstrumentUpdatePayload} {limit balance due : Option Amount} {idParses : Bool}
    {writeAllowed : Except AppError Unit} {now : Int} {s : Store Instruments} {old : Instrument}
    (hold : s.db.getInstrument p.id = some old)
    (h : (instrumentsUpdate idParses writeAllowed (p.withAmounts limit balance due)
      (.quiet now) s).1 = .ok (.ok "updated")) :
    let T := (instrumentsUpdate idParses writeAllowed (p.withAmounts limit balance due)
      (.quiet now) s).2.db
    ∃ new, T.getInstrument p.id = some new ∧
      (MoneyRoundTrip p limit balance due old new (doFetchInstruments transactions T) ↔
        Harmless p limit balance due old) := by
  intro T
  have hmodify := instrumentsUpdate_updated (p := p.withAmounts limit balance due) hold h
  obtain ⟨hfind, hlive⟩ := Option.filter_eq_some_iff.mp hold
  have htable := Indexed.modify?_eq_some hmodify
  obtain ⟨new, hnew⟩ : ∃ new, new = (instrumentPatch
      ((p.withAmounts limit balance due).edit old) now).run old := ⟨_, rfl⟩
  have hfind' : T.find? p.id = some new := by
    have hpatched := Table.find?_modify s.db.toTable p.id p.id
      (instrumentPatch ((p.withAmounts limit balance due).edit old) now)
    rw [if_pos rfl, hfind, Option.map_some, ← hnew] at hpatched
    exact (congrArg (Table.find? · p.id) htable).trans hpatched
  have hlive' : (!new.isDeleted) = true := by
    rw [hnew]
    exact hlive
  obtain ⟨hmem, -⟩ := Table.find?_eq_some.mp hfind'
  have hrecords : ∀ r, r ∈ doFetchInstruments transactions T ∧ r.id = new.id ↔
      r = new.record transactions := by
    intro r
    rw [mem_doFetchInstruments]
    constructor
    · rintro ⟨⟨i, hi, -, rfl⟩, hid⟩
      rw [Table.eq_of_key_eq hi hmem hid]
    · rintro rfl
      exact ⟨⟨new, hmem, by simpa using hlive', rfl⟩, rfl⟩
  exact ⟨new, Option.filter_eq_some_iff.mpr ⟨hfind', hlive'⟩, edit_roundTrip_iff hnew hrecords⟩

/-! ## a request that comes back, and two that do not -/

/-- A credit card with its number. -/
def heldCard : Instrument :=
  { ingestedInstrument ("credit_card", "HDFC", "1234") none "card" 0 with
    fullIdentifier := some "4111111111111111" }

def heldCards : Store Instruments := ⟨(Indexed.insert? .empty heldCard).getD .empty, 0, none⟩

/-- A request with nothing but the number of the card. -/
def resendNumber (number : Option String) : InstrumentUpdatePayload where
  id := "card"
  fullIdentifier := number
  billingCycleDay := none
  bankIfsc := none
  nickname := none
  creditLimit := none
  accountType := none
  network := none
  status := none
  upiVpa := none
  rewardsSummary := none
  instrumentType := none
  issuerName := none
  maskedIdentifier := none
  currentBalance := none
  statementDueDate := none
  minimumDue := none

/-- What the command makes of it, with these amounts. -/
def resend (number : Option String) (limit balance due : Option Amount) :
    Except SqlError (Except AppError String) × Store Instruments :=
  instrumentsUpdate true (.ok ()) ((resendNumber number).withAmounts limit balance due) (.quiet 1)
    heldCards

/-- A balance of 1250.50 with the number of the card. -/
theorem balance_comes_back :
    letI := Extern.ascii
    let a : Amount := ⟨125050, by decide⟩
    let number := some "4111111111111111"
    ∃ new, (resend number none (some a) none).2.db.getInstrument "card" = some new ∧
      MoneyRoundTrip (resendNumber number) none (some a) none heldCard new
        (doFetchInstruments .empty (resend number none (some a) none).2.db) := by
  let := Extern.ascii
  intro a number
  obtain ⟨new, hnew, hiff⟩ := @money_round_trip_iff _ .empty (resendNumber number) none (some a)
    none true (.ok ()) 1 heldCards heldCard (by decide +kernel) (by decide +kernel)
  refine ⟨new, hnew, hiff.mpr ⟨by simp, fun b hb => ?_, by simp, by decide, fun _ => rfl,
    fun _ => rfl⟩⟩
  rw [← Option.some.inj (Option.mem_def.mp hb)]
  decide +kernel

/-- A minimum due of 1.15 is stored as 1.14, and the number of the card is gone; a limit of
5000.00 is shown as 500000.00. -/
theorem due_and_limit_not_back :
    letI := Extern.ascii
    let due : Amount := ⟨115, by decide⟩
    let limit : Amount := ⟨500000, by decide⟩
    (resend none none none (some due)).1 = .ok (.ok "updated") ∧
    ((resend none none none (some due)).2.db.getInstrument "card").map
      (fun i => (i.minimumDue, i.fullIdentifier)) = some (some 114, none) ∧
    (resend none (some limit) none none).1 = .ok (.ok "updated") ∧
    limit.value = 5000 ∧
    (doFetchInstruments .empty (resend none (some limit) none none).2.db).map (·.creditLimit) =
      [some 500000] := by
  let := Extern.ascii
  decide +kernel

end Dinero
