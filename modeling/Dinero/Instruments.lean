import Dinero.Index
import Dinero.MaskedIdentifier
import Dinero.Schema

/-!
# Dinero.Instruments

The cards and accounts transactions belong to, with their unique natural key,
and the five places of the program that write the table.

Archiving a row keeps it in the table, and in the way of the unique key.  The
programs have no failing statements here; what they are exposed to is each
other: `Worker` runs `get_or_create_instrument` statement by statement, any
number of calls interleaved.
-/

namespace Dinero

open Sql Relation

/-! ## the table -/

/-- A whole row of `instruments`, of which reconciliation reads the id only. -/
structure Instrument where
  id : String
  type : String
  issuerName : String
  maskedIdentifier : String
  network : Option String
  creditLimit : Option Int
  currentBalance : Option Int
  statementDueDate : Option Int
  minimumDue : Option Int
  bankIfsc : Option String
  accountType : Option String
  upiVpa : Option String
  nickname : Option String
  rewardsSummary : Option String
  status : String
  createdAt : Int
  updatedAt : Int
  isDeleted : Bool
  fullIdentifier : Option String
  billingCycleDay : Option Nat
deriving DecidableEq, Repr

instance : Keyed Instrument String := ⟨(·.id)⟩

/-- Type, issuer and masked identifier. -/
abbrev NaturalKey := String × String × String

/-- `UNIQUE(type, issuer_name, masked_identifier)`. -/
def Instrument.naturalKey (r : Instrument) : Option NaturalKey :=
  some (r.type, r.issuerName, r.maskedIdentifier)

abbrev Instruments := Indexed Instrument Instrument.naturalKey

/-- Programs over the table whose statements do not fail by themselves. -/
abbrev InstrumentsDb := Prog Empty Instruments

def validInstrumentTypes : List String := [
  "credit_card", "debit_card", "bank_account", "UPI", "NEFT", "RTGS", "SWIFT", "upi_vpa",
  "wallet", "POS", "ATM", "cheque"]

/-- The `CHECK`s on `type` and `status`. -/
def Instrument.allowed (r : Instrument) : Bool :=
  decide (r.type ∈ validInstrumentTypes ∧ r.status ∈ ["active", "inactive", "closed"])

/-- `INSERT OR IGNORE INTO instruments`: a row that breaks a constraint is
left out. -/
def Instruments.insertOrIgnore (T : Instruments) (r : Instrument) : Instruments :=
  if r.allowed then (T.insert? r).getD T else T

/-- `… WHERE type = ?1 AND issuer_name = ?2 AND masked_identifier = ?3 AND
is_deleted = 0 LIMIT 1`. -/
def Instruments.findLive (T : Instruments) (k : NaturalKey) : Option String :=
  (T.rows.find? fun r => r.naturalKey = some k && !r.isDeleted).map (·.id)

/-- The same without the last condition. -/
def Instruments.findAny (T : Instruments) (k : NaturalKey) : Option String :=
  (T.rows.find? fun r => r.naturalKey = some k).map (·.id)

/-! ## get_or_create_instrument -/

/-- The arguments of the call. -/
structure InstrumentRequest where
  type : String
  issuerName : String
  maskedIdentifier : String
  network : Option String
deriving DecidableEq, Repr

/-- The key the call looks for: the identifier is cleaned first. -/
def InstrumentRequest.key (q : InstrumentRequest) : NaturalKey :=
  (q.type, q.issuerName, cleanMaskedIdentifier q.maskedIdentifier)

/-- The row an ingestion inserts. -/
def ingestedInstrument (k : NaturalKey) (network : Option String) (id : String) (now : Int) :
    Instrument where
  id := id
  type := k.1
  issuerName := k.2.1
  maskedIdentifier := k.2.2
  network := network
  creditLimit := none
  currentBalance := none
  statementDueDate := none
  minimumDue := none
  bankIfsc := none
  accountType := none
  upiVpa := none
  nickname := none
  rewardsSummary := none
  status := "active"
  createdAt := now
  updatedAt := now
  isDeleted := false
  fullIdentifier := none
  billingCycleDay := none

/-! ## what the statements find and leave -/

/-- A live row with the key. -/
def Instruments.HasLive (T : Instruments) (k : NaturalKey) (id : String) : Prop :=
  ∃ r ∈ T, r.naturalKey = some k ∧ r.isDeleted = false ∧ r.id = id

theorem Instruments.findLive_eq_some {T : Instruments} {k : NaturalKey} {id : String} :
    T.findLive k = some id ↔ T.HasLive k id := by
  unfold findLive HasLive
  constructor
  · intro h
    obtain ⟨r, hr, rfl⟩ := Option.map_eq_some_iff.mp h
    have hp := List.find?_some hr
    simp only [Bool.and_eq_true, decide_eq_true_eq, Bool.not_eq_true'] at hp
    exact ⟨r, List.mem_of_find?_eq_some hr, hp.1, hp.2, rfl⟩
  · rintro ⟨r, hr, hk, hlive, rfl⟩
    rcases hf : T.rows.find? (fun r => r.naturalKey = some k && !r.isDeleted) with _ | r'
    · have := List.find?_eq_none.mp hf r hr
      simp [hk, hlive] at this
    · have hp := List.find?_some hf
      simp only [Bool.and_eq_true, decide_eq_true_eq, Bool.not_eq_true'] at hp
      have hr' : r' ∈ T := List.mem_of_find?_eq_some hf
      rw [Indexed.eq_of_index_eq hr' hr hp.1 hk] at hf
      exact congrArg (Option.map (·.id)) hf

/-- One key has one live row. -/
theorem Instruments.HasLive.id_eq {T : Instruments} {k : NaturalKey} {id id' : String}
    (h : T.HasLive k id) (h' : T.HasLive k id') : id = id' := by
  obtain ⟨r, hr, hk, -, rfl⟩ := h
  obtain ⟨r', hr', hk', -, rfl⟩ := h'
  rw [Indexed.eq_of_index_eq hr hr' hk hk']

/-- A live row can be found, or a new one fits: no row, live or archived, has
the key, and its type is one the table takes. -/
def Instruments.Obtainable (T : Instruments) (k : NaturalKey) : Prop :=
  (∃ id, T.HasLive k id) ∨ k.1 ∈ validInstrumentTypes ∧ ∀ r ∈ T, r.naturalKey ≠ some k

/-- Either the table took the row, or nothing happened. -/
theorem Instruments.insertOrIgnore_cases (T : Instruments) (r : Instrument) :
    (r.allowed = true ∧ T.insert? r = some (T.insertOrIgnore r)) ∨
      (T.insertOrIgnore r = T ∧ (r.allowed = false ∨ T.insert? r = none)) := by
  unfold insertOrIgnore
  by_cases hallowed : r.allowed = true
  · rw [if_pos hallowed]
    rcases hT : T.insert? r with _ | T'
    · exact .inr ⟨rfl, .inr rfl⟩
    · exact .inl ⟨hallowed, rfl⟩
  · rw [if_neg hallowed]
    exact .inr ⟨rfl, .inl (Bool.eq_false_iff.mpr hallowed)⟩

theorem Instruments.mem_insertOrIgnore {T : Instruments} {r x : Instrument} (h : x ∈ T) :
    x ∈ T.insertOrIgnore r := by
  rcases T.insertOrIgnore_cases r with ⟨-, hT⟩ | ⟨hT, -⟩
  · exact (Indexed.mem_of_insert? hT).mpr (.inl h)
  · rw [hT]
    exact h

theorem Instruments.mem_of_mem_insertOrIgnore {T : Instruments} {r x : Instrument}
    (h : x ∈ T.insertOrIgnore r) : x ∈ T ∨ x = r := by
  rcases T.insertOrIgnore_cases r with ⟨-, hT⟩ | ⟨hT, -⟩
  · exact (Indexed.mem_of_insert? hT).mp h
  · exact .inl (by rwa [hT] at h)

theorem ingestedInstrument_allowed {k : NaturalKey} {network : Option String} {id : String}
    {now : Int} : (ingestedInstrument k network id now).allowed = true ↔
      k.1 ∈ validInstrumentTypes := by
  have hstatus : ("active" : String) ∈ ["active", "inactive", "closed"] := List.mem_cons_self
  rw [Instrument.allowed, decide_eq_true_iff]
  exact and_iff_left hstatus

/-- What an ingestion leaves for its key. -/
theorem Instruments.insertOrIgnore_obtains {T : Instruments} {k : NaturalKey}
    {network : Option String} {id : String} {now : Int} (hid : ∀ r ∈ T, r.id ≠ id) :
    (∃ id', (T.insertOrIgnore (ingestedInstrument k network id now)).HasLive k id') ↔
      T.Obtainable k := by
  have hcases := T.insertOrIgnore_cases (ingestedInstrument k network id now)
  rw [ingestedInstrument_allowed] at hcases
  constructor
  · intro h
    rcases hcases with ⟨htype, hT⟩ | ⟨hT, -⟩
    · have hfree := (Indexed.insert?_eq_some.mp hT).2.1
      exact .inr ⟨htype, fun r hr hk => hfree r hr k hk rfl⟩
    · exact .inl (hT ▸ h)
  · rintro (⟨id', r, hr, hk, hlive, rfl⟩ | ⟨htype, hfree⟩)
    · exact ⟨r.id, r, mem_insertOrIgnore hr, hk, hlive, rfl⟩
    · rcases hcases with ⟨-, hT⟩ | ⟨-, hrefused | hrefused⟩
      · exact ⟨id, _, (Indexed.mem_of_insert? hT).mpr (.inr rfl), rfl, rfl, rfl⟩
      · rw [← Bool.not_eq_true, ingestedInstrument_allowed] at hrefused
        exact absurd htype hrefused
      · rcases Indexed.insert?_eq_none.mp hrefused with ⟨x, hx, hkey⟩ | ⟨x, hx, i, hi, hr⟩
        · exact absurd hkey (hid x hx)
        · exact absurd (hi.trans hr.symm) (hfree x hx)

section Programs

variable [Extern]

/-- A `SELECT`. -/
def readInstruments {α : Type} (f : Instruments → α) : InstrumentsDb α :=
  update fun _ T => .ok (f T, T)

/-- The `INSERT OR IGNORE` under a new id. -/
def ingestInstrument (k : NaturalKey) (network : Option String) : InstrumentsDb Unit := do
  let newId ← newUuid uuid
  update fun now T => .ok ((), T.insertOrIgnore (ingestedInstrument k network newId now))

/-- Returns the id of a matching instrument, creating one if none exists. -/
def getOrCreateInstrument (q : InstrumentRequest) : InstrumentsDb String := do
  match ← readInstruments (·.findLive q.key) with
  | some id => return id
  | none =>
    ingestInstrument q.key q.network
    match ← readInstruments (·.findLive q.key) with
    | some id => return id
    | none => Eff.fail .queryReturnedNoRows

/-- Resolves the statement's instrument, creating one if warranted. -/
def resolveOrCreateInstrument (q : InstrumentRequest) : InstrumentsDb String := do
  let k := (q.type, q.issuerName, q.maskedIdentifier)
  ingestInstrument k q.network
  match ← readInstruments (·.findAny k) with
  | some id => return id
  | none => Eff.fail .queryReturnedNoRows


/-- The store after an ingestion under the key. -/
def afterIngest (k : NaturalKey) (network : Option String) (now : Int) (s : Store Instruments) :
    Store Instruments where
  db := s.db.insertOrIgnore (ingestedInstrument k network (uuid s.nextUuid) now)
  nextUuid := s.nextUuid + 1
  skip := s.skip

theorem ingestInstrument_quiet (k : NaturalKey) (network : Option String) (now : Int)
    (s : Store Instruments) :
    ingestInstrument k network (.quiet now) s = (.ok (), afterIngest k network now s) := rfl

theorem resolveOrCreateInstrument_quiet (q : InstrumentRequest) (now : Int)
    (s : Store Instruments) : resolveOrCreateInstrument q (.quiet now) s =
      match (afterIngest (q.type, q.issuerName, q.maskedIdentifier) q.network now s).db.findAny
          (q.type, q.issuerName, q.maskedIdentifier) with
      | some id =>
        (.ok id, afterIngest (q.type, q.issuerName, q.maskedIdentifier) q.network now s)
      | none => (.error .queryReturnedNoRows,
          afterIngest (q.type, q.issuerName, q.maskedIdentifier) q.network now s) := by
  unfold resolveOrCreateInstrument
  rw [Eff.bind_of_ok (show ingestInstrument _ _ (.quiet now) s = (.ok (), _) from rfl),
    Eff.bind_of_ok (show readInstruments _ (.quiet now) _ = (.ok _, _) from rfl)]
  change (match (afterIngest _ q.network now s).db.findAny _ with
    | some id => pure id
    | none => Eff.fail .queryReturnedNoRows : InstrumentsDb String) (.quiet now)
      (afterIngest _ q.network now s) = _
  rcases (afterIngest _ q.network now s).db.findAny _ with _ | id
  · rfl
  · rfl

theorem resolveOrCreateInstrument_store (q : InstrumentRequest) (now : Int)
    (s : Store Instruments) : (resolveOrCreateInstrument q (.quiet now) s).2 =
      afterIngest (q.type, q.issuerName, q.maskedIdentifier) q.network now s := by
  rw [resolveOrCreateInstrument_quiet]
  rcases (afterIngest _ q.network now s).db.findAny _ with _ | id
  · rfl
  · rfl

/-! ## calls that interleave -/

/-- How far a call has come: before its first `SELECT`, before its `INSERT`,
before its second `SELECT`, back with an answer. -/
inductive Phase
  | start | missed | inserted
  | done (answer : Except SqlError String)

/-- The next statement of a call. -/
def InstrumentRequest.step (q : InstrumentRequest) (now : Int) (s : Store Instruments) :
    Phase → Store Instruments × Phase
  | .start => match s.db.findLive q.key with
    | some id => (s, .done (.ok id))
    | none => (s, .missed)
  | .missed => (afterIngest q.key q.network now s, .inserted)
  | .inserted => match s.db.findLive q.key with
    | some id => (s, .done (.ok id))
    | none => (s, .done (.error .queryReturnedNoRows))
  | .done answer => (s, .done answer)

/-- A statement of a call reads, or it is the ingestion. -/
theorem step_store (q : InstrumentRequest) (now : Int) (s : Store Instruments) (p : Phase) :
    (q.step now s p).1 = s ∨
      (p = .missed ∧ (q.step now s p).1 = afterIngest q.key q.network now s) := by
  cases p with
  | start =>
    simp only [InstrumentRequest.step]
    split <;> exact .inl rfl
  | missed => exact .inr ⟨rfl, rfl⟩
  | inserted =>
    simp only [InstrumentRequest.step]
    split <;> exact .inl rfl
  | done answer => exact .inl rfl

theorem getOrCreateInstrument_quiet (q : InstrumentRequest) (now : Int) (s : Store Instruments) :
    getOrCreateInstrument q (.quiet now) s = match s.db.findLive q.key with
      | some id => (.ok id, s)
      | none => match (afterIngest q.key q.network now s).db.findLive q.key with
        | some id => (.ok id, afterIngest q.key q.network now s)
        | none => (.error .queryReturnedNoRows, afterIngest q.key q.network now s) := by
  unfold getOrCreateInstrument
  rw [Eff.bind_of_ok (show readInstruments _ (.quiet now) s = (.ok _, s) from rfl)]
  rcases s.db.findLive q.key with _ | id
  · dsimp only
    rw [Eff.bind_of_ok (show ingestInstrument _ _ (.quiet now) s = (.ok (), _) from rfl),
      Eff.bind_of_ok (show readInstruments _ (.quiet now) _ = (.ok _, _) from rfl)]
    change (match (afterIngest q.key q.network now s).db.findLive q.key with
      | some id => pure id
      | none => Eff.fail .queryReturnedNoRows : InstrumentsDb String) (.quiet now)
        (afterIngest q.key q.network now s) = _
    rcases (afterIngest q.key q.network now s).db.findLive q.key with _ | id
    · rfl
    · rfl
  · rfl

/-- A call left to itself is through after three statements. -/
theorem step_alone (q : InstrumentRequest) (now : Int) (s : Store Instruments) :
    let w₁ := q.step now s .start
    let w₂ := q.step now w₁.1 w₁.2
    let w₃ := q.step now w₂.1 w₂.2
    w₃.2 = .done (getOrCreateInstrument q (.quiet now) s).1 ∧
      w₃.1 = (getOrCreateInstrument q (.quiet now) s).2 := by
  rw [getOrCreateInstrument_quiet]
  rcases hfirst : s.db.findLive q.key with _ | id
  · rcases hsecond : (afterIngest q.key q.network now s).db.findLive q.key with _ | id
    · simp [InstrumentRequest.step, hfirst, hsecond]
    · simp [InstrumentRequest.step, hfirst, hsecond]
  · simp [InstrumentRequest.step, hfirst]

/-- Calls in progress on one table. -/
structure Workers (κ : Type) where
  store : Store Instruments
  phase : κ → Phase

/-- One of the calls issues its next statement. -/
def Workers.Step {κ : Type} (calls : κ → InstrumentRequest) (w w' : Workers κ) : Prop :=
  ∃ i now, w'.store = ((calls i).step now w.store (w.phase i)).1 ∧
    w'.phase i = ((calls i).step now w.store (w.phase i)).2 ∧
    ∀ j, j ≠ i → w'.phase j = w.phase j

/-- No row has an id that is still to be drawn. -/
def UnusedIds (s : Store Instruments) : Prop :=
  ∀ n, s.nextUuid ≤ n → ∀ r ∈ s.db, r.id ≠ uuid n

theorem UnusedIds.step {s : Store Instruments} (h : UnusedIds s) (q : InstrumentRequest)
    (now : Int) (p : Phase) : UnusedIds (q.step now s p).1 := by
  rcases step_store q now s p with hs | ⟨-, hs⟩
  · rw [hs]
    exact h
  · rw [hs]
    intro n hn r hr
    rcases Instruments.mem_of_mem_insertOrIgnore hr with hr | rfl
    · exact h n (Nat.le_of_succ_le hn) r hr
    · exact fun heq => absurd (Extern.uuid_injective heq) (Nat.ne_of_lt hn)

theorem Instruments.HasLive.step {s : Store Instruments} {k : NaturalKey} {id : String}
    (h : s.db.HasLive k id) (q : InstrumentRequest) (now : Int) (p : Phase) :
    (q.step now s p).1.db.HasLive k id := by
  rcases step_store q now s p with hs | ⟨-, hs⟩
  · rw [hs]
    exact h
  · rw [hs]
    obtain ⟨r, hr, hk, hlive, hid⟩ := h
    exact ⟨r, Instruments.mem_insertOrIgnore hr, hk, hlive, hid⟩

/-- Other calls do not get in the way: a row they insert is a live one. -/
theorem Instruments.Obtainable.step {s : Store Instruments} {k : NaturalKey}
    (h : s.db.Obtainable k) (q : InstrumentRequest) (now : Int) (p : Phase) :
    (q.step now s p).1.db.Obtainable k := by
  rcases h with ⟨id, hlive⟩ | ⟨htype, hfree⟩
  · exact .inl ⟨id, hlive.step q now p⟩
  · rcases step_store q now s p with hs | ⟨-, hs⟩
    · rw [hs]
      exact .inr ⟨htype, hfree⟩
    · rw [hs]
      by_cases hnew : ∃ r ∈ (afterIngest q.key q.network now s).db, r.naturalKey = some k
      · obtain ⟨r, hr, hk⟩ := hnew
        rcases Instruments.mem_of_mem_insertOrIgnore hr with hold | rfl
        · exact absurd hk (hfree r hold)
        · exact .inl ⟨_, _, hr, hk, rfl, rfl⟩
      · exact .inr ⟨htype, fun r hr hk => hnew ⟨r, hr, hk⟩⟩

/-- What a call for the key has come to: behind its `INSERT` there is a live
row, and its answer is one. -/
structure Serving (k : NaturalKey) (s : Store Instruments) (p : Phase) : Prop where
  inserted : p = .inserted → ∃ id, s.db.HasLive k id
  done : ∀ answer, p = .done answer → ∃ id, answer = .ok id ∧ s.db.HasLive k id

/-- Statements of other calls keep it. -/
theorem Serving.step {k : NaturalKey} {s : Store Instruments} {p : Phase} (h : Serving k s p)
    (q : InstrumentRequest) (now : Int) (p' : Phase) : Serving k (q.step now s p').1 p where
  inserted hp := by
    obtain ⟨id, hlive⟩ := h.inserted hp
    exact ⟨id, hlive.step q now p'⟩
  done answer hp := by
    obtain ⟨id, hok, hlive⟩ := h.done answer hp
    exact ⟨id, hok, hlive.step q now p'⟩

/-- Its own next statement does. -/
theorem Serving.advance {q : InstrumentRequest} {s : Store Instruments} {p : Phase}
    (h : Serving q.key s p) (hunused : UnusedIds s) (hobtain : s.db.Obtainable q.key)
    (now : Int) : Serving q.key (q.step now s p).1 (q.step now s p).2 := by
  cases p with
  | start =>
    rcases hfind : s.db.findLive q.key with _ | id
    · simp only [InstrumentRequest.step, hfind]
      exact ⟨fun hp => by simp at hp, fun answer hp => by simp at hp⟩
    · simp only [InstrumentRequest.step, hfind]
      refine ⟨fun hp => by simp at hp, fun answer hp => ?_⟩
      obtain rfl : Except.ok id = answer := by simpa using hp
      exact ⟨id, rfl, Instruments.findLive_eq_some.mp hfind⟩
  | missed =>
    have hleft : ∃ id, (afterIngest q.key q.network now s).db.HasLive q.key id :=
      (Instruments.insertOrIgnore_obtains (hunused s.nextUuid (Nat.le_refl _))).mpr hobtain
    exact ⟨fun _ => hleft, fun answer hp => by simp [InstrumentRequest.step] at hp⟩
  | inserted =>
    obtain ⟨id, hlive⟩ := h.inserted rfl
    have hfind := Instruments.findLive_eq_some.mpr hlive
    simp only [InstrumentRequest.step, hfind]
    refine ⟨fun hp => by simp at hp, fun answer hp => ?_⟩
    obtain rfl : Except.ok id = answer := by simpa using hp
    exact ⟨id, rfl, hlive⟩
  | done answer => exact h

/-- All of it, of calls that run at once. -/
structure Workers.Inv {κ : Type} (calls : κ → InstrumentRequest) (k : NaturalKey)
    (w : Workers κ) : Prop where
  unused : UnusedIds w.store
  obtainable : w.store.db.Obtainable k
  serving : ∀ i, (calls i).key = k → Serving k w.store (w.phase i)

theorem Workers.Inv.step {κ : Type} {calls : κ → InstrumentRequest} {k : NaturalKey}
    {w w' : Workers κ} (h : w.Inv calls k) (hstep : w.Step calls w') : w'.Inv calls k := by
  obtain ⟨i, now, hstore, hphase, hothers⟩ := hstep
  refine ⟨?_, ?_, fun j hj => ?_⟩
  · rw [hstore]
    exact h.unused.step _ _ _
  · rw [hstore]
    exact h.obtainable.step _ _ _
  · rw [hstore]
    by_cases hji : j = i
    · subst hji
      rw [hphase]
      have hserving := h.serving j hj
      subst hj
      exact hserving.advance h.unused h.obtainable now
    · rw [hothers j hji]
      exact (h.serving j hj).step _ _ _

theorem Workers.Inv.run {κ : Type} {calls : κ → InstrumentRequest} {k : NaturalKey}
    {w w' : Workers κ} (h : w.Inv calls k) (hrun : ReflTransGen (Workers.Step calls) w w') :
    w'.Inv calls k := by
  induction hrun with
  | refl => exact h
  | tail _ hstep ih => exact ih.step hstep

/-- A call on its own gets a live row exactly when its key can be had. -/
theorem getOrCreateInstrument_alone {s : Store Instruments} (hunused : UnusedIds s)
    (q : InstrumentRequest) (now : Int) :
    (∃ id s', getOrCreateInstrument q (.quiet now) s = (.ok id, s') ∧ s'.db.HasLive q.key id) ↔
      s.db.Obtainable q.key := by
  have hobtains : (∃ id, (afterIngest q.key q.network now s).db.HasLive q.key id) ↔
      s.db.Obtainable q.key :=
    Instruments.insertOrIgnore_obtains (hunused s.nextUuid (Nat.le_refl _))
  rw [getOrCreateInstrument_quiet]
  rcases hfirst : s.db.findLive q.key with _ | id
  · rcases hsecond : (afterIngest q.key q.network now s).db.findLive q.key with _ | id
    · rw [← hobtains]
      constructor
      · simp
      · rintro ⟨id, hlive⟩
        rw [Instruments.findLive_eq_some.mpr hlive] at hsecond
        simp at hsecond
    · have hlive := Instruments.findLive_eq_some.mp hsecond
      exact iff_of_true ⟨id, _, rfl, hlive⟩ (hobtains.mp ⟨id, hlive⟩)
  · have hlive := Instruments.findLive_eq_some.mp hfirst
    exact iff_of_true ⟨id, s, rfl, hlive⟩ (.inl ⟨id, hlive⟩)

/-- The two things asked of the call, from a table `s.db`: left to itself it
answers a live row with its key, and however calls for that key interleave,
with each other and with calls for other keys, they answer the same. -/
def GetsOne (s : Store Instruments) (q : InstrumentRequest) : Prop :=
  (∀ now, ∃ id s', getOrCreateInstrument q (.quiet now) s = (.ok id, s') ∧
    s'.db.HasLive q.key id) ∧
  ∀ (κ : Type) (calls : κ → InstrumentRequest) (w : Workers κ),
    ReflTransGen (Workers.Step calls) ⟨s, fun _ => .start⟩ w →
    ∀ i j a b, (calls i).key = q.key → (calls j).key = q.key →
      w.phase i = .done a → w.phase j = .done b → ∃ id, a = .ok id ∧ b = .ok id

/-- An archived row keeps its key: a request for it is refused, on its own and
among others.  Everything else is served. -/
theorem getOrCreateInstrument_iff (s : Store Instruments) (hunused : UnusedIds s)
    (q : InstrumentRequest) : GetsOne s q ↔ s.db.Obtainable q.key := by
  constructor
  · exact fun h => (getOrCreateInstrument_alone hunused q 0).mp (h.1 0)
  · intro hobtain
    refine ⟨fun now => (getOrCreateInstrument_alone hunused q now).mpr hobtain, ?_⟩
    intro κ calls w hrun i j a b hi hj ha hb
    have hstart : Workers.Inv calls q.key ⟨s, fun _ => .start⟩ :=
      ⟨hunused, hobtain, fun _ _ => ⟨fun hp => by simp at hp, fun _ hp => by simp at hp⟩⟩
    have hinv := hstart.run hrun
    obtain ⟨id, rfl, hid⟩ := (hinv.serving i hi).done a ha
    obtain ⟨id', rfl, hid'⟩ := (hinv.serving j hj).done b hb
    exact ⟨id, rfl, by rw [hid.id_eq hid']⟩

omit [Extern] in
/-- A table without rows: the first request is served. -/
theorem getOrCreateInstrument_first :
    letI := Extern.ascii
    GetsOne ⟨.empty, 0, none⟩ ⟨"credit_card", "HDFC", "XX1234", none⟩ := by
  let := Extern.ascii
  exact (getOrCreateInstrument_iff ⟨.empty, 0, none⟩ (fun _ _ r hr => absurd hr
    (Indexed.not_mem_empty r)) ⟨"credit_card", "HDFC", "XX1234", none⟩).mpr
    (.inr ⟨by decide, fun r hr => absurd hr (Indexed.not_mem_empty r)⟩)

omit [Extern] in
/-- A card that was archived and turns up again: no id, but an error. -/
theorem archived_not_obtained :
    letI := Extern.ascii
    let card : Instrument := { ingestedInstrument ("credit_card", "HDFC", "1234") none "old" 0 with
      isDeleted := true }
    let s : Store Instruments := ⟨⟨⟨[card], by simp⟩, by simp⟩, 0, none⟩
    UnusedIds s ∧ ¬ GetsOne s ⟨"credit_card", "HDFC", "XX1234", none⟩ := by
  let := Extern.ascii
  intro card s
  constructor
  · intro n _ r hr hid
    obtain rfl : r = card := by simpa [Indexed.mem_def, s] using hr
    have hlast := congrArg (fun text : String => text.toList.getLast?) hid
    simp [card, ingestedInstrument, Extern.uuid] at hlast
  · rintro ⟨hanswer, -⟩
    obtain ⟨id, s', hrun, -⟩ := hanswer 0
    have herror : (getOrCreateInstrument ⟨"credit_card", "HDFC", "XX1234", none⟩ (.quiet 0) s).1 =
        .error .queryReturnedNoRows := by
      decide +kernel
    rw [hrun] at herror
    simp at herror

end Programs

end Dinero
