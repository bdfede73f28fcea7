import Dinero.Sql

/-!
# Dinero.Faults

The failing statement, counted.

The fault plan names a statement and says how many of its issues pass.  What a
program makes of it is one of three things: it does not issue the statement
(`Deaf`), it stops there, or it goes on as if the statement had been left out
(`each_exec`).
-/

namespace Sql

variable {ι σ : Type}

/-! ## the plan -/

/-- Issue `n` of statement `i`, counted from here, is the one that fails. -/
def Fails (i : ι) (n : Nat) (ctx : Ctx ι) (s : Store σ) : Prop :=
  ctx.fault = some i ∧ s.skip = some n

instance [DecidableEq ι] (i : ι) (n : Nat) (ctx : Ctx ι) (s : Store σ) :
    Decidable (Fails i n ctx s) := inferInstanceAs (Decidable (_ ∧ _))

/-- What is left of the plan once statement `i` is issued. -/
def advance [DecidableEq ι] (i : ι) (ctx : Ctx ι) (skip : Option Nat) : Option Nat :=
  if ctx.fault = some i then
    match skip with
    | some (n + 1) => some n
    | _ => none
  else skip

section Issue

variable [DecidableEq ι] {i : ι} {ctx : Ctx ι} {s : Store σ} {n : Nat}

theorem gate_eq (i : ι) (ctx : Ctx ι) (s : Store σ) :
    gate i ctx s = (if Fails i 0 ctx s then .error ioFault else .ok (),
      { s with skip := advance i ctx s.skip }) := by
  obtain ⟨db, nextUuid, skip⟩ := s
  by_cases hfault : ctx.fault = some i
  · match skip with
    | none => simp [gate, Fails, advance, hfault]
    | some 0 => simp [gate, Fails, advance, hfault]
    | some (n + 1) => simp [gate, Fails, advance, hfault]
  · simp [gate, Fails, advance, hfault]

theorem exec_fails (h : Fails i 0 ctx s) (f : Int → σ → Except SqlError (α × σ)) :
    exec i f ctx s = (.error ioFault, { s with skip := advance i ctx s.skip }) := by
  have hgate := gate_eq i ctx s
  rw [if_pos h] at hgate
  rw [exec, Eff.bind_of_error hgate]

theorem exec_passes (h : ¬ Fails i 0 ctx s) (f : Int → σ → Except SqlError (α × σ)) :
    exec i f ctx s = match f ctx.now s.db with
      | .ok (a, db) => (.ok a, { s with db := db, skip := advance i ctx s.skip })
      | .error e => (.error e, { s with skip := advance i ctx s.skip }) := by
  have hgate := gate_eq i ctx s
  rw [if_neg h] at hgate
  rw [exec, Eff.bind_of_ok hgate]
  rfl

theorem exec_ok_of_passes (h : ¬ Fails i 0 ctx s) {f : Int → σ → Except SqlError (α × σ)} {a : α}
    {db : σ} (hf : f ctx.now s.db = .ok (a, db)) :
    exec i f ctx s = (.ok a, ⟨db, s.nextUuid, advance i ctx s.skip⟩) := by
  rw [exec_passes h, hf]

theorem query_fails (h : Fails i 0 ctx s) (f : σ → α) :
    query i f ctx s = (.error ioFault, { s with skip := advance i ctx s.skip }) := exec_fails h _

theorem query_passes (h : ¬ Fails i 0 ctx s) (f : σ → α) :
    query i f ctx s = (.ok (f s.db), { s with skip := advance i ctx s.skip }) :=
  exec_ok_of_passes h rfl

/-- One issue less to wait for. -/
theorem fails_advance (h : ¬ Fails i 0 ctx s) {db : σ} {next : Nat} :
    Fails i n ctx ⟨db, next, advance i ctx s.skip⟩ ↔ Fails i (n + 1) ctx s := by
  obtain ⟨db', next', skip⟩ := s
  by_cases hfault : ctx.fault = some i
  · match skip with
    | none => simp [Fails, advance, hfault]
    | some 0 => exact absurd ⟨hfault, rfl⟩ h
    | some (m + 1) => simp [Fails, advance, hfault]
  · simp [Fails, hfault]

/-- Another statement is issued. -/
theorem fails_advance_of_ne {j : ι} (hne : i ≠ j) {db : σ} {next : Nat} :
    Fails i n ctx ⟨db, next, advance j ctx s.skip⟩ ↔ Fails i n ctx s := by
  by_cases hfault : ctx.fault = some j
  · have hother : ctx.fault ≠ some i := by
      rw [hfault]
      exact fun h => hne (Option.some.inj h).symm
    simp [Fails, hother]
  · simp [Fails, advance, hfault]

end Issue

/-! ## programs without the statement -/

/-- `x` does not issue statement `i`, nor use up the plan. -/
def Deaf (i : ι) (x : Prog ι σ α) : Prop :=
  ∀ now s, x ⟨now, some i⟩ s = x (.quiet now) s ∧ (x (.quiet now) s).2.skip = s.skip

namespace Deaf

variable {i : ι}

/-- The failure is still to come. -/
theorem fails_iff {x : Prog ι σ α} (h : Deaf i x) (n : Nat) (ctx : Ctx ι) (s : Store σ) :
    Fails i n ctx (x ctx s).2 ↔ Fails i n ctx s := by
  obtain ⟨now, fault⟩ := ctx
  by_cases hfault : fault = some i
  · subst hfault
    obtain ⟨hrun, hskip⟩ := h now s
    rw [hrun, Fails, Fails, hskip]
  · simp [Fails, hfault]

theorem pure (a : α) : Deaf i (Pure.pure a : Prog ι σ α) := fun _ _ => ⟨rfl, rfl⟩

theorem fail (e : SqlError) : Deaf i (Eff.fail e : Prog ι σ α) := fun _ _ => ⟨rfl, rfl⟩

theorem newUuid (mk : Nat → String) : Deaf i (Sql.newUuid mk : Prog ι σ String) :=
  fun _ _ => ⟨rfl, rfl⟩

theorem utcNow : Deaf i (Sql.utcNow : Prog ι σ Int) := fun _ _ => ⟨rfl, rfl⟩

theorem bind {x : Prog ι σ α} {f : α → Prog ι σ β} (hx : Deaf i x) (hf : ∀ a, Deaf i (f a)) :
    Deaf i (x >>= f) := by
  intro now s
  obtain ⟨hrun, hskip⟩ := hx now s
  rw [Eff.bind_apply, Eff.bind_apply, hrun]
  rcases hr : x (.quiet now) s with ⟨e | a, s'⟩
  · rw [hr] at hskip
    exact ⟨rfl, hskip⟩
  · rw [hr] at hskip
    obtain ⟨hrun', hskip'⟩ := hf a now s'
    exact ⟨hrun', hskip'.trans hskip⟩

theorem attempt {x : Prog ι σ α} (hx : Deaf i x) : Deaf i (Eff.attempt x) := by
  intro now s
  obtain ⟨hrun, hskip⟩ := hx now s
  exact ⟨by rw [Eff.attempt_apply, Eff.attempt_apply, hrun], hskip⟩

variable [DecidableEq ι]

theorem exec {j : ι} (hj : i ≠ j) (f : Int → σ → Except SqlError (α × σ)) :
    Deaf i (Sql.exec j f) := by
  intro now s
  have hgate : gate j ⟨now, some i⟩ s = (.ok (), s) := by simp [gate, hj]
  rw [Sql.exec, Eff.bind_of_ok hgate, Eff.bind_of_ok (gate_quiet j now s)]
  unfold update
  dsimp only [Ctx.quiet]
  cases f now s.db with
  | ok r => exact ⟨rfl, rfl⟩
  | error e => exact ⟨rfl, rfl⟩

theorem query {j : ι} (hj : i ≠ j) (f : σ → α) : Deaf i (Sql.query j f) := exec hj _

end Deaf

/-! ## ids drawn -/

/-- Ids from `N` on may be drawn: those below are, and no draw is taken back. -/
def Drawn (N : Nat) : σ → Nat → Prop := fun _ n => N ≤ n

theorem Keeps.newUuid {N : Nat} (mk : Nat → String) :
    Keeps (Drawn N) (Sql.newUuid mk : Prog ι σ String) :=
  fun _ _ h => Nat.le_succ_of_le h

theorem Keeps.exec_drawn [DecidableEq ι] {N : Nat} (i : ι)
    (f : Int → σ → Except SqlError (α × σ)) : Keeps (Drawn N) (Sql.exec i f) :=
  .exec fun _ _ _ _ _ h _ => h

/-! ## statements whose failure is ignored -/

/-- `let _ = f(a);` for each of the list. -/
def each (f : α → Prog ι σ Unit) : List α → Prog ι σ Unit
  | [] => return ()
  | a :: rest => do
    let _ ← Eff.attempt (f a)
    each f rest

theorem Deaf.each {i : ι} {f : α → Prog ι σ Unit} (hf : ∀ a, Deaf i (f a)) (l : List α) :
    Deaf i (Sql.each f l) := by
  induction l with
  | nil => exact .pure _
  | cons a l ih => exact .bind (.attempt (hf a)) fun _ => ih

/-- The image after a statement that may be refused. -/
def applied (f : Int → σ → Except SqlError (Unit × σ)) (now : Int) (db : σ) : σ :=
  match f now db with
  | .ok (_, db') => db'
  | .error _ => db

section Each

variable [DecidableEq ι]

/-- What a statement leaves, whether it fails or not. -/
theorem exec_store (i : ι) (f : Int → σ → Except SqlError (Unit × σ)) (ctx : Ctx ι)
    (s : Store σ) : (exec i f ctx s).2 =
      ⟨if Fails i 0 ctx s then s.db else applied f ctx.now s.db, s.nextUuid,
        advance i ctx s.skip⟩ := by
  by_cases hfail : Fails i 0 ctx s
  · rw [exec_fails hfail, if_pos hfail]
  · rw [exec_passes hfail, if_neg hfail, applied]
    cases f ctx.now s.db <;> rfl

/-- What is issued of a list of statements `i`: not the one that fails. -/
def issued (i : ι) (ctx : Ctx ι) (skip : Option Nat) (l : List α) : List α :=
  if ctx.fault = some i then
    match skip with
    | some n => l.eraseIdx n
    | none => l
  else l

variable {i : ι} {ctx : Ctx ι}

theorem issued_cons (a : α) (l : List α) (s : Store σ) :
    issued i ctx s.skip (a :: l) =
      if Fails i 0 ctx s then l else a :: issued i ctx (advance i ctx s.skip) l := by
  obtain ⟨db, next, skip⟩ := s
  by_cases hfault : ctx.fault = some i
  · match skip with
    | none => simp [issued, Fails, advance, hfault]
    | some 0 => simp [issued, Fails, hfault]
    | some (n + 1) => simp [issued, Fails, advance, hfault]
  · simp [issued, Fails, hfault]

/-- What is issued of a list stands where the plan has no failure. -/
theorem mem_issued {a : α} {l : List α} {s : Store σ} :
    a ∈ issued i ctx s.skip l ↔ ∃ m, l[m]? = some a ∧ ¬ Fails i m ctx s := by
  unfold issued
  by_cases hfault : ctx.fault = some i
  · cases hskip : s.skip with
    | none => simp [Fails, hfault, hskip, List.mem_iff_getElem?]
    | some n => simp [Fails, hfault, hskip, List.mem_eraseIdx_iff_getElem?, and_comm, eq_comm]
  · simp [Fails, hfault, List.mem_iff_getElem?]

/-- **A failure that is ignored** is as good as a statement left out. -/
theorem each_exec (i : ι) (ctx : Ctx ι) (f : α → Int → σ → Except SqlError (Unit × σ))
    (l : List α) (s : Store σ) :
    ∃ skip, each (fun a => exec i (f a)) l ctx s =
      (.ok (), ⟨(issued i ctx s.skip l).foldl (fun db a => applied (f a) ctx.now db) s.db,
        s.nextUuid, skip⟩) := by
  induction l generalizing s with
  | nil =>
    refine ⟨s.skip, ?_⟩
    have hnil : issued i ctx s.skip ([] : List α) = [] := by
      unfold issued
      split
      · split <;> simp
      · rfl
    rw [hnil]
    rfl
  | cons a l ih =>
    rw [each, Eff.bind_of_ok (Eff.attempt_apply _ _ _), exec_store, issued_cons]
    by_cases hfail : Fails i 0 ctx s
    · -- this one: from here on nothing fails
      have hall : issued i ctx (advance i ctx s.skip) l = l := by
        simp [issued, advance, hfail.1, hfail.2]
      obtain ⟨skip, hrun⟩ := ih ⟨s.db, s.nextUuid, advance i ctx s.skip⟩
      rw [hall] at hrun
      rw [if_pos hfail, if_pos hfail]
      exact ⟨skip, hrun⟩
    · obtain ⟨skip, hrun⟩ :=
        ih ⟨applied (f a) ctx.now s.db, s.nextUuid, advance i ctx s.skip⟩
      rw [if_neg hfail, if_neg hfail]
      exact ⟨skip, hrun⟩

end Each

end Sql
