import Mathlib.Logic.Relation
import Mathlib.Tactic.Common

/-!
# Dinero.Sql

Programs over a transactional SQL connection, with one failing statement.

A program runs in the monad `Eff`: it reads a `Ctx` (the clock and the fault
plan), threads a state, and ends in an `Except` that does *not* roll the
state back — an error leaves whatever the earlier statements wrote, which is
what a connection does until somebody issues `ROLLBACK`.  There are two
levels:

* `Prog` — sequences of single statements over a `Store`.  They cannot open
  or close a transaction, by type.
* `Session` — programs over a `Conn`, which may also `begin`, `commit` and
  `rollback`; `Session.lift` embeds the statement level.

The module is generic in the database image `σ` and in the names `ι` of the
statements.  Its rules: inversion of `bind`, the write relation `Within`
(what a program may do to the image, whatever fails), and the two fault
rules `Avoids` / `Propagates`.
-/

namespace Sql

open Relation

/-! ## errors, clock and fault plan -/

/-- The result codes the programs tell apart. -/
inductive ErrorCode
  | constraintViolation
  | systemIoFailure
deriving DecidableEq, Repr

/-- Errors a statement, or the code around it, can end in. -/
inductive SqlError
  | sqliteFailure (code : ErrorCode) (msg : Option String)
  | queryReturnedNoRows
  | anyhow (text : String)
deriving DecidableEq, Repr

/-- The error of a statement that fails for no fault of its own. -/
def ioFault : SqlError := .sqliteFailure .systemIoFailure (some "disk I/O error")

/-- What a call is given: `CURRENT_TIMESTAMP` and the name of the statement
that is to fail, if any. -/
structure Ctx (ι : Type) where
  now : Int
  fault : Option ι

/-- A call in which no statement fails by itself. -/
def Ctx.quiet (now : Int) : Ctx ι := ⟨now, none⟩

/-- What statements act on: the image, the supply of fresh ids, and how many
issues of the faulty statement still pass (`none` once it has failed). -/
structure Store (σ : Type) where
  db : σ
  nextUuid : Nat
  skip : Option Nat

/-- A connection: its store and, inside a transaction, the image `BEGIN` saw. -/
structure Conn (σ : Type) where
  store : Store σ
  saved : Option σ

/-- The tables a reader finds once the connection is gone: an open
transaction never happened. -/
def Conn.stored (c : Conn σ) : σ := c.saved.getD c.store.db

/-! ## the monad -/

/-- Programs with a clock, a fault plan, state and errors that keep the state. -/
def Eff (ι S α : Type) : Type := Ctx ι → S → Except SqlError α × S

namespace Eff

def pure (a : α) : Eff ι S α := fun _ s => (.ok a, s)

def bind (x : Eff ι S α) (f : α → Eff ι S β) : Eff ι S β := fun ctx s =>
  match x ctx s with
  | (.ok a, s') => f a ctx s'
  | (.error e, s') => (.error e, s')

instance : Monad (Eff ι S) where
  pure := Eff.pure
  bind := Eff.bind

/-- Stop with an error. -/
def fail (e : SqlError) : Eff ι S α := fun _ s => (.error e, s)

/-- Run `x` and look at its outcome instead of stopping on an error. -/
def attempt (x : Eff ι S α) : Eff ι S (Except SqlError α) := fun ctx s =>
  (.ok (x ctx s).1, (x ctx s).2)

@[simp] theorem pure_apply (a : α) (ctx : Ctx ι) (s : S) :
    (Pure.pure a : Eff ι S α) ctx s = (.ok a, s) := rfl

theorem bind_apply (x : Eff ι S α) (f : α → Eff ι S β) (ctx : Ctx ι) (s : S) :
    (x >>= f) ctx s = match x ctx s with
      | (.ok a, s') => f a ctx s'
      | (.error e, s') => (.error e, s') := rfl

@[simp] theorem fail_apply (e : SqlError) (ctx : Ctx ι) (s : S) :
    (fail e : Eff ι S α) ctx s = (.error e, s) := rfl

@[simp] theorem attempt_apply (x : Eff ι S α) (ctx : Ctx ι) (s : S) :
    attempt x ctx s = (.ok (x ctx s).1, (x ctx s).2) := rfl

theorem bind_of_ok {x : Eff ι S α} {f : α → Eff ι S β} {ctx : Ctx ι} {s s' : S} {a : α}
    (h : x ctx s = (.ok a, s')) : (x >>= f) ctx s = f a ctx s' := by
  rw [bind_apply, h]

theorem bind_of_error {x : Eff ι S α} {f : α → Eff ι S β} {ctx : Ctx ι} {s s' : S} {e : SqlError}
    (h : x ctx s = (.error e, s')) : (x >>= f) ctx s = (.error e, s') := by
  rw [bind_apply, h]

/-- A sequence succeeds exactly when both halves do. -/
theorem bind_eq_ok {x : Eff ι S α} {f : α → Eff ι S β} {ctx : Ctx ι} {s s' : S} {b : β} :
    (x >>= f) ctx s = (.ok b, s') ↔
      ∃ a s₁, x ctx s = (.ok a, s₁) ∧ f a ctx s₁ = (.ok b, s') := by
  rw [bind_apply]
  rcases x ctx s with ⟨_ | a, s₁⟩
  · simp
  · constructor
    · exact fun h => ⟨a, s₁, rfl, h⟩
    · rintro ⟨a', s₁', h, hf⟩
      obtain ⟨rfl, rfl⟩ : a = a' ∧ s₁ = s₁' := by simpa using h
      exact hf

theorem pure_eq_ok {a b : α} {ctx : Ctx ι} {s s' : S} :
    (Pure.pure a : Eff ι S α) ctx s = (.ok b, s') ↔ a = b ∧ s = s' := by
  simp

end Eff

/-! ## statements -/

/-- Sequences of single statements. -/
abbrev Prog (ι σ : Type) := Eff ι (Store σ)

/-- `Uuid::new_v4`, drawn from the supply. -/
def newUuid (mk : Nat → String) : Prog ι σ String := fun _ s =>
  (.ok (mk s.nextUuid), { s with nextUuid := s.nextUuid + 1 })

@[simp] theorem newUuid_apply (mk : Nat → String) (ctx : Ctx ι) (s : Store σ) :
    newUuid mk ctx s = (.ok (mk s.nextUuid), { s with nextUuid := s.nextUuid + 1 }) := rfl

/-- `Utc::now()`. -/
def utcNow : Prog ι σ Int := fun ctx s => (.ok ctx.now, s)

@[simp] theorem utcNow_apply (ctx : Ctx ι) (s : Store σ) :
    (utcNow : Prog ι σ Int) ctx s = (.ok ctx.now, s) := rfl

/-- Run a program on a part of the image. -/
def zoom (get : σ → τ) (set : τ → σ → σ) (x : Prog ι τ α) : Prog ι σ α := fun ctx s =>
  let r := x ctx ⟨get s.db, s.nextUuid, s.skip⟩
  (r.1, ⟨set r.2.db s.db, r.2.nextUuid, r.2.skip⟩)

section Statements

variable {ι σ : Type} [DecidableEq ι]

/-- The fault plan's say before statement `i` is run. -/
def gate (i : ι) : Prog ι σ Unit := fun ctx s =>
  if ctx.fault = some i then
    match s.skip with
    | none => (.ok (), s)
    | some 0 => (.error ioFault, { s with skip := none })
    | some (n + 1) => (.ok (), { s with skip := some n })
  else (.ok (), s)

/-- The effect of a statement that is let through: it answers and updates the
image, or it fails and leaves the image alone. -/
def update (f : Int → σ → Except SqlError (α × σ)) : Prog ι σ α := fun ctx s =>
  match f ctx.now s.db with
  | .ok (a, db) => (.ok a, { s with db := db })
  | .error e => (.error e, s)

/-- A `SELECT` no fault plan is asked about. -/
def fetch (f : σ → α) : Prog ι σ α := update fun _ db => .ok (f db, db)

omit [DecidableEq ι] in
@[simp] theorem fetch_apply (f : σ → α) (ctx : Ctx ι) (s : Store σ) :
    fetch f ctx s = (.ok (f s.db), s) := rfl

omit [DecidableEq ι] in
/-- An update that is not refused. -/
theorem update_apply {f : Int → σ → Except SqlError (α × σ)} {ctx : Ctx ι} {s : Store σ} {a : α}
    {db : σ} (h : f ctx.now s.db = .ok (a, db)) :
    update f ctx s = (.ok a, { s with db := db }) := by
  rw [update, h]

/-- Issue statement `i`. -/
def exec (i : ι) (f : Int → σ → Except SqlError (α × σ)) : Prog ι σ α :=
  gate i >>= fun _ => update f

/-- Issue a statement that only reads. -/
def query (i : ι) (f : σ → α) : Prog ι σ α := exec i fun _ db => .ok (f db, db)

@[simp] theorem gate_quiet (i : ι) (now : Int) (s : Store σ) :
    gate i (.quiet now) s = (.ok (), s) := by
  simp [gate, Ctx.quiet]

theorem exec_quiet (i : ι) (f : Int → σ → Except SqlError (α × σ)) (now : Int) (s : Store σ) :
    exec i f (.quiet now) s = match f now s.db with
      | .ok (a, db) => (.ok a, { s with db := db })
      | .error e => (.error e, s) := by
  rw [exec, Eff.bind_of_ok (gate_quiet i now s)]
  rfl

@[simp] theorem query_quiet (i : ι) (f : σ → α) (now : Int) (s : Store σ) :
    query i f (.quiet now) s = (.ok (f s.db), s) := by
  rw [query, exec_quiet]

theorem gate_db (i : ι) (ctx : Ctx ι) (s : Store σ) : (gate i ctx s).2.db = s.db := by
  unfold gate
  split
  · split <;> rfl
  · rfl

theorem gate_nextUuid (i : ι) (ctx : Ctx ι) (s : Store σ) :
    (gate i ctx s).2.nextUuid = s.nextUuid := by
  unfold gate
  split
  · split <;> rfl
  · rfl

/-- A statement that succeeded did what its update says. -/
theorem exec_ok {i : ι} {f : Int → σ → Except SqlError (α × σ)} {ctx : Ctx ι} {s s' : Store σ}
    {a : α} (h : exec i f ctx s = (.ok a, s')) :
    f ctx.now s.db = .ok (a, s'.db) ∧ s'.nextUuid = s.nextUuid := by
  obtain ⟨_, s₁, hg, hu⟩ := Eff.bind_eq_ok.mp h
  have hs₁ : s₁.db = s.db ∧ s₁.nextUuid = s.nextUuid := by
    have h₁ := gate_db i ctx s
    have h₂ := gate_nextUuid i ctx s
    rw [hg] at h₁ h₂
    exact ⟨h₁, h₂⟩
  simp only [update, hs₁.1] at hu
  split at hu
  · next a' db hf =>
      obtain ⟨rfl, rfl⟩ : a' = a ∧ { s₁ with db := db } = s' := by simpa using hu
      exact ⟨hf, hs₁.2⟩
  · simp at hu

/-- Reading leaves the store as it is, answer or not. -/
theorem query_store (i : ι) (f : σ → α) (ctx : Ctx ι) (s : Store σ) :
    (query i f ctx s).2.db = s.db ∧ (query i f ctx s).2.nextUuid = s.nextUuid := by
  have h₁ := gate_db i ctx s
  have h₂ := gate_nextUuid i ctx s
  rw [query, exec, Eff.bind_apply]
  rcases hr : gate i ctx s with ⟨_ | _, s'⟩
  · rw [hr] at h₁ h₂; exact ⟨h₁, h₂⟩
  · rw [hr] at h₁ h₂; exact ⟨h₁, h₂⟩

theorem query_ok {i : ι} {f : σ → α} {ctx : Ctx ι} {s s' : Store σ} {a : α}
    (h : query i f ctx s = (.ok a, s')) : a = f s.db ∧ s'.db = s.db := by
  have h' := (exec_ok h).1
  simp only [Except.ok.injEq, Prod.mk.injEq] at h'
  exact ⟨h'.1.symm, h'.2.symm⟩

end Statements

/-! ## what a program may write -/

/-- Every run of `x`, whatever it ends in and whatever fails on the way, takes
the image along a sequence of steps of `W`. -/
def Within (W : σ → σ → Prop) (x : Prog ι σ α) : Prop :=
  ∀ ctx s, ReflTransGen W s.db (x ctx s).2.db

namespace Within

variable {ι σ : Type} {W V : σ → σ → Prop}

theorem pure (a : α) : Within W (Pure.pure a : Prog ι σ α) := fun _ _ => .refl

theorem fail (e : SqlError) : Within W (Eff.fail e : Prog ι σ α) := fun _ _ => .refl

theorem newUuid (mk : Nat → String) : Within W (Sql.newUuid mk : Prog ι σ String) :=
  fun _ _ => .refl

theorem utcNow : Within W (Sql.utcNow : Prog ι σ Int) := fun _ _ => .refl

theorem bind {x : Prog ι σ α} {f : α → Prog ι σ β} (hx : Within W x) (hf : ∀ a, Within W (f a)) :
    Within W (x >>= f) := by
  intro ctx s
  have h := hx ctx s
  rw [Eff.bind_apply]
  rcases hr : x ctx s with ⟨_ | a, s'⟩
  · rw [hr] at h; exact h
  · rw [hr] at h; exact h.trans (hf a ctx s')

theorem attempt {x : Prog ι σ α} (hx : Within W x) : Within W (Eff.attempt x) :=
  fun ctx s => hx ctx s

theorem mono {x : Prog ι σ α} (hx : Within W x) (h : ∀ db db', W db db' → V db db') :
    Within V x := fun ctx s => ReflTransGen.mono h _ _ (hx ctx s)

/-- An image predicate that every step keeps survives the program. -/
theorem preserves {x : Prog ι σ α} (hx : Within W x) {I : σ → Prop}
    (hI : ∀ db db', W db db' → I db → I db') (ctx : Ctx ι) (s : Store σ) (hs : I s.db) :
    I (x ctx s).2.db := by
  have h := hx ctx s
  generalize (x ctx s).2.db = db at h
  induction h with
  | refl => exact hs
  | tail _ hstep ih => exact hI _ _ hstep ih

/-- A projection that every step keeps is the same after the program. -/
theorem keeps {x : Prog ι σ α} (hx : Within W x) {π : σ → β}
    (hπ : ∀ db db', W db db' → π db' = π db) (ctx : Ctx ι) (s : Store σ) :
    π (x ctx s).2.db = π s.db :=
  hx.preserves (I := fun db => π db = π s.db) (fun _ _ h hi => (hπ _ _ h).trans hi) ctx s rfl

/-- Along a preorder the steps add up to one. -/
theorem related {x : Prog ι σ α} (hx : Within W x) (hrefl : ∀ db, W db db)
    (htrans : ∀ a b c, W a b → W b c → W a c) (ctx : Ctx ι) (s : Store σ) :
    W s.db (x ctx s).2.db :=
  hx.preserves (I := fun db => W s.db db) (fun _ _ h hi => htrans _ _ _ hi h) ctx s (hrefl _)

variable [DecidableEq ι]

theorem exec {i : ι} {f : Int → σ → Except SqlError (α × σ)}
    (h : ∀ now db a db', f now db = .ok (a, db') → W db db') : Within W (Sql.exec i f) := by
  intro ctx s
  have hg := gate_db i ctx s
  rw [Sql.exec, Eff.bind_apply]
  rcases hr : gate i ctx s with ⟨_ | _, s'⟩
  · rw [hr] at hg; exact hg ▸ .refl
  · rw [hr] at hg
    simp only [update]
    split
    · next a db hf => exact .single (h _ _ _ _ (hg ▸ hf))
    · exact hg ▸ .refl

theorem query (i : ι) (f : σ → α) : Within W (Sql.query i f) := by
  intro ctx s
  have hg := gate_db i ctx s
  rw [Sql.query, Sql.exec, Eff.bind_apply]
  rcases hr : gate i ctx s with ⟨_ | _, s'⟩
  · rw [hr] at hg; exact hg ▸ .refl
  · rw [hr] at hg; exact hg ▸ .refl

end Within

/-! ## invariants of the store -/

/-- Every run of `x`, whatever fails, keeps `I` of the image and the number of
ids drawn. -/
def Keeps (I : σ → Nat → Prop) (x : Prog ι σ α) : Prop :=
  ∀ ctx s, I s.db s.nextUuid → I (x ctx s).2.db (x ctx s).2.nextUuid

namespace Keeps

variable {ι σ : Type} {I : σ → Nat → Prop}

theorem pure (a : α) : Keeps I (Pure.pure a : Prog ι σ α) := fun _ _ h => h

theorem fail (e : SqlError) : Keeps I (Eff.fail e : Prog ι σ α) := fun _ _ h => h

theorem utcNow : Keeps I (Sql.utcNow : Prog ι σ Int) := fun _ _ h => h

theorem bind {x : Prog ι σ α} {f : α → Prog ι σ β} (hx : Keeps I x) (hf : ∀ a, Keeps I (f a)) :
    Keeps I (x >>= f) := by
  intro ctx s h
  have h' := hx ctx s h
  rw [Eff.bind_apply]
  rcases hr : x ctx s with ⟨_ | a, s'⟩
  · rw [hr] at h'; exact h'
  · rw [hr] at h'; exact hf a ctx s' h'

theorem attempt {x : Prog ι σ α} (hx : Keeps I x) : Keeps I (Eff.attempt x) :=
  fun ctx s h => hx ctx s h

/-- Drawing an id: the rest may use that it has been drawn. -/
theorem newUuid_bind {mk : Nat → String} {f : String → Prog ι σ α} {J : String → σ → Nat → Prop}
    (hI : ∀ db n, I db n → J (mk n) db (n + 1)) (hJ : ∀ id db n, J id db n → I db n)
    (hf : ∀ id, Keeps (J id) (f id)) : Keeps I (Sql.newUuid mk >>= f) := by
  intro ctx s h
  rw [Eff.bind_of_ok (newUuid_apply mk ctx s)]
  exact hJ _ _ _ (hf _ ctx _ (hI _ _ h))

theorem update {f : Int → σ → Except SqlError (α × σ)}
    (h : ∀ now n db a db', I db n → f now db = .ok (a, db') → I db' n) :
    Keeps I (Sql.update f : Prog ι σ α) := by
  intro ctx s hs
  simp only [Sql.update]
  split
  · next a db hf => exact h _ _ _ _ _ hs hf
  · exact hs

variable [DecidableEq ι]

theorem exec {i : ι} {f : Int → σ → Except SqlError (α × σ)}
    (h : ∀ now n db a db', I db n → f now db = .ok (a, db') → I db' n) :
    Keeps I (Sql.exec i f) := by
  refine bind (fun ctx s hs => ?_) fun _ => update h
  rw [gate_db, gate_nextUuid]
  exact hs

theorem query (i : ι) (f : σ → α) : Keeps I (Sql.query i f) :=
  exec fun _ _ _ _ _ h hf => by
    obtain ⟨-, rfl⟩ := Prod.mk.inj (Except.ok.inj hf)
    exact h

end Keeps

/-! ## programs that end well -/

/-- From `s`, with no statement failing by itself, `x` ends well. -/
def Succeeds (now : Int) (x : Prog ι σ α) (s : Store σ) : Prop :=
  ∃ a s', x (.quiet now) s = (.ok a, s')

namespace Succeeds

variable {ι σ : Type} {now : Int} {s : Store σ}

theorem pure (a : α) : Succeeds now (Pure.pure a : Prog ι σ α) s := ⟨a, s, rfl⟩

theorem newUuid (mk : Nat → String) : Succeeds now (Sql.newUuid mk : Prog ι σ String) s :=
  ⟨_, _, rfl⟩

theorem attempt (x : Prog ι σ α) : Succeeds now (Eff.attempt x) s := ⟨_, _, rfl⟩

/-- The rest has to end well wherever the first part gets to. -/
theorem bind {x : Prog ι σ α} {f : α → Prog ι σ β} (hx : Succeeds now x s)
    (hf : ∀ a s', x (.quiet now) s = (.ok a, s') → Succeeds now (f a) s') :
    Succeeds now (x >>= f) s := by
  obtain ⟨a, s', h⟩ := hx
  obtain ⟨b, s'', h'⟩ := hf a s' h
  exact ⟨b, s'', by rw [Eff.bind_of_ok h, h']⟩

variable [DecidableEq ι]

theorem exec {i : ι} {f : Int → σ → Except SqlError (α × σ)} {a : α} {db : σ}
    (h : f now s.db = .ok (a, db)) : Succeeds now (Sql.exec i f) s :=
  ⟨a, { s with db := db }, by rw [exec_quiet, h]⟩

theorem query (i : ι) (f : σ → α) : Succeeds now (Sql.query i f) s :=
  ⟨_, _, query_quiet i f now s⟩

end Succeeds

/-! ## one failing statement -/

/-- Two stores a program cannot tell apart but for the fault plan. -/
def Store.Agree (s t : Store σ) : Prop := s.db = t.db ∧ s.nextUuid = t.nextUuid

theorem Store.Agree.refl (s : Store σ) : s.Agree s := ⟨rfl, rfl⟩

/-- Two runs that end alike. -/
def SameRun (r r' : Except SqlError α × Store σ) : Prop := r.1 = r'.1 ∧ r.2.Agree r'.2

/-- Statement `i` is no part of `x`: its failing is not noticed. -/
def Avoids (i : ι) (x : Prog ι σ α) : Prop :=
  ∀ now s t, s.Agree t → SameRun (x ⟨now, some i⟩ s) (x (.quiet now) t)

/-- `x` hands a failure of statement `i` to its caller: either it runs as if
nothing failed, or it ends in that failure. -/
def Propagates (i : ι) (x : Prog ι σ α) : Prop :=
  ∀ now s t, s.Agree t →
    SameRun (x ⟨now, some i⟩ s) (x (.quiet now) t) ∨ (x ⟨now, some i⟩ s).1 = .error ioFault

namespace Avoids

variable {ι σ : Type} {i : ι}

theorem pure (a : α) : Avoids i (Pure.pure a : Prog ι σ α) := fun _ _ _ h => ⟨rfl, h⟩

theorem fail (e : SqlError) : Avoids i (Eff.fail e : Prog ι σ α) := fun _ _ _ h => ⟨rfl, h⟩

theorem newUuid (mk : Nat → String) : Avoids i (Sql.newUuid mk : Prog ι σ String) := by
  intro now s t h
  exact ⟨by simp [h.2], h.1, by simp [h.2]⟩

theorem utcNow : Avoids i (Sql.utcNow : Prog ι σ Int) := fun _ _ _ h => ⟨rfl, h⟩

theorem bind {x : Prog ι σ α} {f : α → Prog ι σ β} (hx : Avoids i x) (hf : ∀ a, Avoids i (f a)) :
    Avoids i (x >>= f) := by
  intro now s t h
  obtain ⟨hres, hst⟩ := hx now s t h
  rw [Eff.bind_apply, Eff.bind_apply]
  rcases hr : x ⟨now, some i⟩ s with ⟨r, s'⟩
  rcases hq : x (.quiet now) t with ⟨q, t'⟩
  simp only [hr, hq] at hres hst
  subst hres
  cases r with
  | error e => exact ⟨rfl, hst⟩
  | ok a => exact hf a now s' t' hst

theorem attempt {x : Prog ι σ α} (hx : Avoids i x) : Avoids i (Eff.attempt x) := by
  intro now s t h
  obtain ⟨hres, hst⟩ := hx now s t h
  exact ⟨congrArg Except.ok hres, hst⟩

theorem propagates {x : Prog ι σ α} (hx : Avoids i x) : Propagates i x :=
  fun now s t h => .inl (hx now s t h)

variable [DecidableEq ι]

theorem exec {j : ι} (hj : i ≠ j) (f : Int → σ → Except SqlError (α × σ)) :
    Avoids i (Sql.exec j f) := by
  intro now s t h
  have hgate : gate j ⟨now, some i⟩ s = (.ok (), s) := by simp [gate, hj]
  rw [Sql.exec, Eff.bind_of_ok hgate, Eff.bind_of_ok (gate_quiet j now t)]
  simp only [update, Ctx.quiet, h.1]
  split
  · exact ⟨rfl, rfl, h.2⟩
  · exact ⟨rfl, h⟩

theorem query {j : ι} (hj : i ≠ j) (f : σ → α) : Avoids i (Sql.query j f) := exec hj _

end Avoids

namespace Propagates

variable {ι σ : Type} {i : ι}

theorem bind {x : Prog ι σ α} {f : α → Prog ι σ β} (hx : Propagates i x)
    (hf : ∀ a, Propagates i (f a)) : Propagates i (x >>= f) := by
  intro now s t h
  rw [Eff.bind_apply, Eff.bind_apply]
  rcases hx now s t h with ⟨hres, hst⟩ | herr
  · rcases hr : x ⟨now, some i⟩ s with ⟨r, s'⟩
    rcases hq : x (.quiet now) t with ⟨q, t'⟩
    simp only [hr, hq] at hres hst
    subst hres
    cases r with
    | error e => exact .inl ⟨rfl, hst⟩
    | ok a => exact hf a now s' t' hst
  · rcases hr : x ⟨now, some i⟩ s with ⟨r, s'⟩
    simp only [hr] at herr
    subst herr
    exact .inr rfl

variable [DecidableEq ι]

/-- The failing statement itself. -/
theorem exec (j : ι) (f : Int → σ → Except SqlError (α × σ)) : Propagates i (Sql.exec j f) := by
  by_cases hj : i = j
  · subst hj
    intro now s t h
    -- either the plan lets this issue pass, or it is the one that fails
    have hgate : (∃ s', gate i ⟨now, some i⟩ s = (.ok (), s') ∧ s'.Agree t) ∨
        ∃ s', gate i ⟨now, some i⟩ s = (.error ioFault, s') := by
      simp only [gate, if_true]
      split
      · exact .inl ⟨s, rfl, h⟩
      · exact .inr ⟨_, rfl⟩
      · exact .inl ⟨_, rfl, h⟩
    rcases hgate with ⟨s', hg, hst⟩ | ⟨s', hg⟩
    · refine .inl ?_
      rw [Sql.exec, Eff.bind_of_ok hg, Eff.bind_of_ok (gate_quiet i now t)]
      simp only [update, Ctx.quiet, hst.1]
      split
      · exact ⟨rfl, rfl, hst.2⟩
      · exact ⟨rfl, hst⟩
    · refine .inr ?_
      rw [Sql.exec, Eff.bind_of_error hg]
  · exact (Avoids.exec hj f).propagates

theorem query (j : ι) (f : σ → α) : Propagates i (Sql.query j f) := exec j _

end Propagates

/-! ## transactions -/

/-- Programs that also open and close transactions. -/
abbrev Session (ι σ : Type) := Eff ι (Conn σ)

/-- Statements issued on a connection, inside a transaction or on their own. -/
def Session.lift (x : Prog ι σ α) : Session ι σ α := fun ctx c =>
  ((x ctx c.store).1, { c with store := (x ctx c.store).2 })

@[simp] theorem Session.lift_apply (x : Prog ι σ α) (ctx : Ctx ι) (c : Conn σ) :
    Session.lift x ctx c = ((x ctx c.store).1, { c with store := (x ctx c.store).2 }) := rfl

section Transactions

variable {ι σ : Type} [DecidableEq ι]

/-- What `BEGIN IMMEDIATE` does once it is let through. -/
def openTx : Session ι σ Unit := fun _ c =>
  match c.saved with
  | none => (.ok (), { c with saved := some c.store.db })
  | some _ => (.error (.anyhow "cannot start a transaction within a transaction"), c)

/-- What `COMMIT` does once it is let through. -/
def closeTx : Session ι σ Unit := fun _ c =>
  match c.saved with
  | some _ => (.ok (), { c with saved := none })
  | none => (.error (.anyhow "cannot commit - no transaction is active"), c)

/-- What `ROLLBACK` does once it is let through. -/
def restoreTx : Session ι σ Unit := fun _ c =>
  match c.saved with
  | some db => (.ok (), ⟨{ c.store with db := db }, none⟩)
  | none => (.error (.anyhow "cannot rollback - no transaction is active"), c)

/-- `BEGIN IMMEDIATE`. -/
def beginImmediate (i : ι) : Session ι σ Unit := Session.lift (gate i) >>= fun _ => openTx

/-- `COMMIT`.  When it fails the transaction stays open. -/
def commit (i : ι) : Session ι σ Unit := Session.lift (gate i) >>= fun _ => closeTx

/-- `ROLLBACK`.  When it fails the transaction stays open. -/
def rollback (i : ι) : Session ι σ Unit := Session.lift (gate i) >>= fun _ => restoreTx

/-- A control statement the fault plan lets through acts as it should. -/
theorem lift_gate_bind {i : ι} {f : Unit → Session ι σ α} {ctx : Ctx ι} {c : Conn σ}
    {st : Store σ} (h : gate i ctx c.store = (.ok (), st)) :
    (Session.lift (gate i) >>= f) ctx c = f () ctx { c with store := st } := by
  rw [Eff.bind_apply, Session.lift_apply, h]

theorem beginImmediate_quiet {c : Conn σ} (h : c.saved = none) (i : ι) (now : Int) :
    beginImmediate i (.quiet now) c = (.ok (), { c with saved := some c.store.db }) := by
  rw [beginImmediate, lift_gate_bind (gate_quiet i now c.store)]
  simp [openTx, h]

theorem commit_quiet {c : Conn σ} {db : σ} (h : c.saved = some db) (i : ι) (now : Int) :
    commit i (.quiet now) c = (.ok (), { c with saved := none }) := by
  rw [commit, lift_gate_bind (gate_quiet i now c.store)]
  simp [closeTx, h]

theorem rollback_quiet {c : Conn σ} {db : σ} (h : c.saved = some db) (i : ι) (now : Int) :
    rollback i (.quiet now) c = (.ok (), ⟨{ c.store with db := db }, none⟩) := by
  rw [rollback, lift_gate_bind (gate_quiet i now c.store)]
  simp [restoreTx, h]

end Transactions

end Sql
