import Mathlib.Tactic.Common

/-!
# Dinero.Sessions

Programs that make one call after the other, and services that run many of them
at once.

A `Routine` is a program seen from outside: it has ended, or makes a call and
goes on with the reply, which may be an error.  A `Service` runs one routine for
each request; between any two calls of a session, other sessions make theirs, and
any call may fail (`System.step`).

Two rules carry what a session has found out over the calls of the others.
`Within` bounds the calls a routine can make, whatever the replies are.  `Safe`
is relative to an order of the states that every call respects: what a session
relies on must be kept by going up that order.
-/

/-- A program that makes calls.  `Reply c` is what the call `c` is answered with; a call may be
answered with an error instead. -/
inductive Routine {Call : Type} (Reply : Call → Type) (ε α : Type) : Type where
  | done (a : α)
  | raise (e : ε)
  | call (c : Call) (next : Except ε (Reply c) → Routine Reply ε α)

namespace Routine

variable {Call : Type} {Reply : Call → Type} {ε α β σ : Type}

def bind : Routine Reply ε α → (α → Routine Reply ε β) → Routine Reply ε β
  | done a, f => f a
  | raise e, _ => raise e
  | call c next, f => call c fun r => (next r).bind f

/-- Go on with `handle` after an error. -/
def catching : Routine Reply ε α → (ε → Routine Reply ε α) → Routine Reply ε α
  | done a, _ => done a
  | raise e, handle => handle e
  | call c next, handle => call c fun r => (next r).catching handle

instance instMonad : Monad (Routine Reply ε) where
  pure := done
  bind := bind

instance instMonadExceptOf : MonadExceptOf ε (Routine Reply ε) where
  throw := raise
  tryCatch := catching

/-- One call; an error in reply ends the routine. -/
def perform (c : Call) : Routine Reply ε (Reply c) :=
  call c fun
    | .ok r => done r
    | .error e => raise e

@[simp] theorem pure_eq (a : α) : (pure a : Routine Reply ε α) = done a := rfl

@[simp] theorem throw_eq (e : ε) : (throw e : Routine Reply ε α) = raise e := rfl

@[simp] theorem done_bind (a : α) (f : α → Routine Reply ε β) : (done a >>= f) = f a := rfl

@[simp] theorem raise_bind (e : ε) (f : α → Routine Reply ε β) :
    (raise e >>= f : Routine Reply ε β) = raise e := rfl

theorem call_bind (c : Call) (next : Except ε (Reply c) → Routine Reply ε α)
    (f : α → Routine Reply ε β) : (call c next >>= f) = call c fun r => next r >>= f := rfl

/-! ## undisturbed -/

variable (exec : (c : Call) → σ → Except ε (Reply c) × σ)

/-- The routine is run with no other between its calls. -/
def run : Routine Reply ε α → σ → Except ε α × σ
  | done a, s => (.ok a, s)
  | raise e, s => (.error e, s)
  | call c next, s => (next (exec c s).1).run (exec c s).2

@[simp] theorem run_done (a : α) (s : σ) :
    (done a : Routine Reply ε α).run exec s = (.ok a, s) := rfl

@[simp] theorem run_raise (e : ε) (s : σ) :
    (raise e : Routine Reply ε α).run exec s = (.error e, s) := rfl

theorem run_bind (x : Routine Reply ε α) (f : α → Routine Reply ε β) (s : σ) :
    (x >>= f).run exec s = match x.run exec s with
      | (.ok a, s') => (f a).run exec s'
      | (.error e, s') => (.error e, s') := by
  induction x generalizing s with
  | done a => rfl
  | raise e => rfl
  | call c next ih => exact ih _ _

@[simp] theorem run_perform (c : Call) (s : σ) :
    (perform c : Routine Reply ε (Reply c)).run exec s = exec c s := by
  show (match (exec c s).1 with
    | .ok r => done r
    | .error e => raise e : Routine Reply ε (Reply c)).run exec (exec c s).2 = _
  rcases exec c s with ⟨_ | _, _⟩ <;> rfl

variable {exec}

/-- A sequence succeeds exactly when both halves do. -/
theorem bind_eq_ok {x : Routine Reply ε α} {f : α → Routine Reply ε β} {s s' : σ} {b : β} :
    (x >>= f).run exec s = (.ok b, s') ↔
      ∃ a s₁, x.run exec s = (.ok a, s₁) ∧ (f a).run exec s₁ = (.ok b, s') := by
  rw [run_bind]
  rcases x.run exec s with ⟨_ | a, s₁⟩
  · simp
  · constructor
    · exact fun h => ⟨a, s₁, rfl, h⟩
    · rintro ⟨a', s₁', h, hf⟩
      obtain ⟨rfl, rfl⟩ : a = a' ∧ s₁ = s₁' := by simpa using h
      exact hf

theorem bind_of_ok {x : Routine Reply ε α} {f : α → Routine Reply ε β} {s s' : σ} {a : α}
    (h : x.run exec s = (.ok a, s')) : (x >>= f).run exec s = (f a).run exec s' := by
  rw [run_bind, h]

theorem bind_of_error {x : Routine Reply ε α} {f : α → Routine Reply ε β} {s s' : σ} {e : ε}
    (h : x.run exec s = (.error e, s')) : (x >>= f).run exec s = (.error e, s') := by
  rw [run_bind, h]

/-- What every call keeps, a run keeps. -/
theorem run_invariant {I : σ → Prop} (hcall : ∀ c s, I s → I (exec c s).2)
    (x : Routine Reply ε α) {s : σ} (hs : I s) : I (x.run exec s).2 := by
  induction x generalizing s with
  | done a => exact hs
  | raise e => exact hs
  | call c next ih => exact ih _ (hcall c s hs)

/-! ## the calls a routine can make -/

/-- Every call the routine can make, whatever it is answered with. -/
def Within (P : Call → Prop) : Routine Reply ε α → Prop
  | done _ => True
  | raise _ => True
  | call c next => P c ∧ ∀ r, (next r).Within P

variable {P : Call → Prop}

@[simp] theorem within_done (a : α) : (done a : Routine Reply ε α).Within P := trivial

@[simp] theorem within_raise (e : ε) : (raise e : Routine Reply ε α).Within P := trivial

theorem Within.bind {x : Routine Reply ε α} {f : α → Routine Reply ε β} (hx : x.Within P)
    (hf : ∀ a, (f a).Within P) : (x >>= f).Within P := by
  induction x with
  | done a => exact hf a
  | raise e => trivial
  | call c next ih => exact ⟨hx.1, fun r => ih r (hx.2 r)⟩

theorem Within.catching {x : Routine Reply ε α} {handle : ε → Routine Reply ε α}
    (hx : x.Within P) (hhandle : ∀ e, (handle e).Within P) :
    (x.catching handle).Within P := by
  induction x with
  | done a => trivial
  | raise e => exact hhandle e
  | call c next ih => exact ⟨hx.1, fun r => ih r (hx.2 r)⟩

@[simp] theorem within_perform {c : Call} :
    (perform c : Routine Reply ε (Reply c)).Within P ↔ P c := by
  constructor
  · exact fun h => h.1
  · refine fun h => ⟨h, fun r => ?_⟩
    cases r <;> trivial

/-- One call, and on with what it is answered with. -/
theorem within_perform_bind {c : Call} {f : Reply c → Routine Reply ε α} :
    (perform c >>= f).Within P ↔ P c ∧ ∀ r, (f r).Within P := by
  constructor
  · exact fun h => ⟨h.1, fun r => h.2 (.ok r)⟩
  · intro h
    refine ⟨h.1, fun r => ?_⟩
    cases r with
    | ok r => exact h.2 r
    | error e => trivial

theorem Within.mono {P' : Call → Prop} {x : Routine Reply ε α} (h : x.Within P)
    (hP : ∀ c, P c → P' c) : x.Within P' := by
  induction x with
  | done a => trivial
  | raise e => trivial
  | call c next ih => exact ⟨hP c h.1, fun r => ih r (h.2 r)⟩

/-! ## what a routine can end with -/

/-- Every answer the routine can end with, whatever its calls are answered with. -/
def Ends (Q : α → Prop) : Routine Reply ε α → Prop
  | done a => Q a
  | raise _ => True
  | call _ next => ∀ r, (next r).Ends Q

theorem Ends.bind {Q : β → Prop} {x : Routine Reply ε α} {f : α → Routine Reply ε β}
    (hf : ∀ a, (f a).Ends Q) : (x >>= f).Ends Q := by
  induction x with
  | done a => exact hf a
  | raise e => trivial
  | call c next ih => exact fun r => ih r

theorem Ends.run {Q : α → Prop} {x : Routine Reply ε α} (h : x.Ends Q) {s s' : σ} {a : α}
    (hrun : x.run exec s = (.ok a, s')) : Q a := by
  induction x generalizing s with
  | done b =>
    obtain rfl : b = a := Except.ok.inj (Prod.mk.inj hrun).1
    exact h
  | raise e => exact absurd (Prod.mk.inj hrun).1 (by simp)
  | call c next ih => exact ih _ (h _) hrun

/-! ## what a routine relies on -/

variable (exec) (le : σ → σ → Prop) (Φ : σ → Call → Prop)

/-- Wherever the others have gone up to meanwhile, each call of the routine meets `Φ`, and the
routine ends, if it does, with `Ψ`. -/
def Safe (Ψ : σ → α → Prop) : Routine Reply ε α → σ → Prop
  | done a, s => ∀ s', le s s' → Ψ s' a
  | raise _, _ => True
  | call c next, s => ∀ s', le s s' →
      Φ s' c ∧ Safe Ψ (next (exec c s').1) (exec c s').2 ∧ ∀ e, Safe Ψ (next (.error e)) s'

variable {exec le Φ} {Ψ : σ → α → Prop}

theorem Safe.mono (htrans : ∀ s s' s'', le s s' → le s' s'' → le s s'')
    {x : Routine Reply ε α} {s s' : σ} (h : x.Safe exec le Φ Ψ s) (hle : le s s') :
    x.Safe exec le Φ Ψ s' := by
  cases x with
  | done a => exact fun s'' hle' => h s'' (htrans _ _ _ hle hle')
  | raise e => trivial
  | call c next => exact fun s'' hle' => h s'' (htrans _ _ _ hle hle')

theorem Safe.imp {Ψ' : σ → α → Prop} {x : Routine Reply ε α} {s : σ} (h : x.Safe exec le Φ Ψ s)
    (hΨ : ∀ s a, Ψ s a → Ψ' s a) : x.Safe exec le Φ Ψ' s := by
  induction x generalizing s with
  | done a => exact fun s' hle => hΨ s' a (h s' hle)
  | raise e => trivial
  | call c next ih =>
    intro s' hle
    obtain ⟨hcall, hnext, herror⟩ := h s' hle
    exact ⟨hcall, ih _ hnext, fun e => ih _ (herror e)⟩

/-- What others may do can be bounded further, and what a call meets be stated more loosely. -/
theorem Safe.weaken {le' : σ → σ → Prop} {Φ' : σ → Call → Prop} (hle : ∀ s s', le' s s' → le s s')
    (hΦ : ∀ s c, Φ s c → Φ' s c) {x : Routine Reply ε α} {s : σ} (h : x.Safe exec le Φ Ψ s) :
    x.Safe exec le' Φ' Ψ s := by
  induction x generalizing s with
  | done a => exact fun s' hs' => h s' (hle s s' hs')
  | raise e => trivial
  | call c next ih =>
    intro s' hs'
    obtain ⟨hcall, hnext, herror⟩ := h s' (hle s s' hs')
    exact ⟨hΦ s' c hcall, ih _ hnext, fun e => ih _ (herror e)⟩

theorem Safe.bind (hrefl : ∀ s, le s s) {Ψ' : σ → β → Prop} {x : Routine Reply ε α}
    {f : α → Routine Reply ε β} {s : σ} (hx : x.Safe exec le Φ Ψ s)
    (hf : ∀ a s', Ψ s' a → (f a).Safe exec le Φ Ψ' s') : (x >>= f).Safe exec le Φ Ψ' s := by
  induction x generalizing s with
  | done a => exact hf a s (hx s (hrefl s))
  | raise e => trivial
  | call c next ih =>
    intro s' hle
    obtain ⟨hcall, hnext, herror⟩ := hx s' hle
    exact ⟨hcall, ih _ hnext, fun e => ih _ (herror e)⟩

/-- One call, and on with what it is answered with. -/
theorem Safe.perform {c : Call} {f : Reply c → Routine Reply ε β} {Ψ' : σ → β → Prop} {s : σ}
    (h : ∀ s', le s s' → Φ s' c ∧
      ∀ r s'', exec c s' = (.ok r, s'') → (f r).Safe exec le Φ Ψ' s'') :
    (Routine.perform c >>= f).Safe exec le Φ Ψ' s := by
  intro s' hle
  obtain ⟨hcall, hnext⟩ := h s' hle
  refine ⟨hcall, ?_, fun e => trivial⟩
  rcases hreply : exec c s' with ⟨_ | r, s''⟩
  · trivial
  · exact hnext r s'' hreply

/-- A last call. -/
theorem Safe.perform_done {c : Call} {Ψ : σ → Reply c → Prop} {s : σ}
    (h : ∀ s', le s s' → Φ s' c ∧
      ∀ r s'', exec c s' = (.ok r, s'') → ∀ s₁, le s'' s₁ → Ψ s₁ r) :
    (Routine.perform c).Safe exec le Φ Ψ s := by
  intro s' hle
  obtain ⟨hcall, hend⟩ := h s' hle
  refine ⟨hcall, ?_, fun e => trivial⟩
  rcases hreply : exec c s' with ⟨_ | r, s''⟩
  · trivial
  · exact hend r s'' hreply

/-- A routine is safe that can make no call but those that keep what is known. -/
theorem Within.safe {I : σ → Prop} (hle : ∀ s s', I s → le s s' → I s')
    (hcall : ∀ s c, I s → P c → Φ s c ∧ I (exec c s).2) (hend : ∀ s a, I s → Ψ s a)
    {x : Routine Reply ε α} (h : x.Within P) {s : σ} (hs : I s) : x.Safe exec le Φ Ψ s := by
  induction x generalizing s with
  | done a => exact fun s' hs' => hend s' a (hle s s' hs hs')
  | raise e => trivial
  | call c next ih =>
    intro s' hs'
    have hknown := hle s s' hs hs'
    obtain ⟨hpromised, hafter⟩ := hcall s' c hknown h.1
    exact ⟨hpromised, ih _ (h.2 _) hafter, fun e => ih _ (h.2 _) hknown⟩

end Routine

/-! ## many sessions -/

/-- The routine for each request, what a call does, and what comes from outside. -/
structure Service {Call : Type} (Reply : Call → Type) (σ ρ ω ε α : Type) where
  program : ρ → Routine Reply ε α
  exec : (c : Call) → σ → Except ε (Reply c) × σ
  outside : ω → σ → σ

structure Session {Call : Type} (Reply : Call → Type) (ρ ε α : Type) where
  request : ρ
  routine : Routine Reply ε α

structure System {Call : Type} (Reply : Call → Type) (σ ρ ε α : Type) where
  store : σ
  sessions : List (Session Reply ρ ε α)

inductive SystemEvent (ρ ω ε : Type) where
  /-- A request comes in. -/
  | start (r : ρ)
  /-- The session makes its next call. -/
  | advance (i : Nat)
  /-- The next call of the session fails and has done nothing. -/
  | fail (i : Nat) (e : ε)
  | outside (o : ω)
deriving DecidableEq, Repr

namespace System

variable {Call : Type} {Reply : Call → Type} {σ ρ ω ε α : Type}
  (S : Service Reply σ ρ ω ε α)

/-- The session goes on with a reply to its call. -/
def reply (sys : System Reply σ ρ ε α) (i : Nat) (answer : (c : Call) → Except ε (Reply c)) :
    List (Session Reply ρ ε α) :=
  match sys.sessions[i]? with
  | some ⟨r, .call c next⟩ => sys.sessions.set i ⟨r, next (answer c)⟩
  | _ => sys.sessions

/-- The request whose session makes its next call, and the call. -/
def next? (sys : System Reply σ ρ ε α) (i : Nat) : Option (ρ × Call) :=
  match sys.sessions[i]? with
  | some ⟨r, .call c _⟩ => some (r, c)
  | _ => none

def step (sys : System Reply σ ρ ε α) : SystemEvent ρ ω ε → System Reply σ ρ ε α
  | .start r => { sys with sessions := sys.sessions ++ [⟨r, S.program r⟩] }
  | .advance i =>
    { store := match sys.next? i with
        | some (_, c) => (S.exec c sys.store).2
        | none => sys.store
      sessions := sys.reply i fun c => (S.exec c sys.store).1 }
  | .fail i e => { sys with sessions := sys.reply i fun _ => .error e }
  | .outside o => { sys with store := S.outside o sys.store }

variable {S} {sys : System Reply σ ρ ε α}

theorem mem_reply {i : Nat} {answer : (c : Call) → Except ε (Reply c)}
    {session : Session Reply ρ ε α} (h : session ∈ sys.reply i answer) :
    session ∈ sys.sessions ∨ ∃ r c next, ⟨r, .call c next⟩ ∈ sys.sessions ∧
      sys.next? i = some (r, c) ∧ session = ⟨r, next (answer c)⟩ := by
  unfold reply at h
  split at h
  · next r c next hsession =>
    rcases List.mem_or_eq_of_mem_set h with h | h
    · exact .inl h
    · have hmem := List.mem_of_getElem? hsession
      exact .inr ⟨r, c, next, hmem, by rw [next?, hsession], h⟩
  · exact .inl h

theorem mem_of_next? {i : Nat} {r : ρ} {c : Call} (h : sys.next? i = some (r, c)) :
    ∃ next, (⟨r, .call c next⟩ : Session Reply ρ ε α) ∈ sys.sessions := by
  unfold next? at h
  split at h
  · next r' c' next hsession =>
    rw [Option.some.injEq, Prod.mk.injEq] at h
    obtain ⟨rfl, rfl⟩ := h
    exact ⟨next, List.mem_of_getElem? hsession⟩
  · simp at h

/-- A call that makes none leaves the store as it is. -/
theorem store_advance_of_none {i : Nat} (h : sys.next? i = none) :
    (sys.step S (.advance i)).store = sys.store := by
  rw [step, h]

theorem store_advance_of_some {i : Nat} {r : ρ} {c : Call} (h : sys.next? i = some (r, c)) :
    (sys.step S (.advance i)).store = (S.exec c sys.store).2 := by
  rw [step, h]

/-- What every call and everything from outside keeps, a step keeps. -/
theorem store_invariant {I : σ → Prop} (hcall : ∀ c s, I s → I (S.exec c s).2)
    (houtside : ∀ o s, I s → I (S.outside o s)) (h : I sys.store) (e : SystemEvent ρ ω ε) :
    I (sys.step S e).store := by
  cases e with
  | start r => exact h
  | advance i =>
    cases hnext : sys.next? i with
    | none =>
      rw [store_advance_of_none hnext]
      exact h
    | some call =>
      rw [store_advance_of_some hnext]
      exact hcall _ _ h
  | fail i e => exact h
  | outside o => exact houtside _ _ h

/-! ## requests and answers -/

/-- The requests that have come in. -/
def requests (sys : System Reply σ ρ ε α) : List ρ := sys.sessions.map (·.request)

theorem mem_requests_of_next? {i : Nat} {r : ρ} {c : Call} (h : sys.next? i = some (r, c)) :
    r ∈ sys.requests := by
  obtain ⟨next, hmem⟩ := mem_of_next? h
  exact List.mem_map.mpr ⟨_, hmem, rfl⟩

theorem requests_reply (i : Nat) (answer : (c : Call) → Except ε (Reply c)) :
    (sys.reply i answer).map (·.request) = sys.requests := by
  unfold reply requests
  split
  · next r c next hsession =>
    apply List.ext_getElem?
    intro j
    rw [List.getElem?_map, List.getElem?_map, List.getElem?_set]
    split
    · next heq =>
      subst heq
      split
      · simp [hsession]
      · next hlt => simp [List.getElem?_eq_none (Nat.le_of_not_lt hlt)]
    · rfl
  · rfl

/-- Only a new request changes what has come in. -/
theorem requests_step (e : SystemEvent ρ ω ε) :
    (sys.step S e).requests = match e with
      | .start r => sys.requests ++ [r]
      | _ => sys.requests := by
  cases e with
  | start r => simp [step, requests]
  | advance i => exact requests_reply i _
  | fail i e => exact requests_reply i _
  | outside o => rfl

/-- What the session has ended with. -/
def ended? (sys : System Reply σ ρ ε α) (i : Nat) : Option (ρ × α) :=
  match sys.sessions[i]? with
  | some ⟨r, .done a⟩ => some (r, a)
  | _ => none

theorem mem_of_ended? {i : Nat} {r : ρ} {a : α} (h : sys.ended? i = some (r, a)) :
    (⟨r, .done a⟩ : Session Reply ρ ε α) ∈ sys.sessions := by
  unfold ended? at h
  split at h
  · next r' a' hsession =>
    rw [Option.some.injEq, Prod.mk.injEq] at h
    obtain ⟨rfl, rfl⟩ := h
    exact List.mem_of_getElem? hsession
  · simp at h

/-- The request that an event brings to its end, with the answer to it. -/
def answered (S : Service Reply σ ρ ω ε α) (sys : System Reply σ ρ ε α) :
    SystemEvent ρ ω ε → Option (ρ × α)
  | .start r => (sys.step S (.start r)).ended? sys.sessions.length
  | .advance i => if (sys.next? i).isSome then (sys.step S (.advance i)).ended? i else none
  | .fail i e => if (sys.next? i).isSome then (sys.step S (.fail i e)).ended? i else none
  | .outside _ => none

theorem mem_of_answered {e : SystemEvent ρ ω ε} {r : ρ} {a : α}
    (h : sys.answered S e = some (r, a)) :
    (⟨r, .done a⟩ : Session Reply ρ ε α) ∈ (sys.step S e).sessions := by
  cases e with
  | start r' => exact mem_of_ended? h
  | advance i =>
    simp only [answered, Option.ite_none_right_eq_some] at h
    exact mem_of_ended? h.2
  | fail i e =>
    simp only [answered, Option.ite_none_right_eq_some] at h
    exact mem_of_ended? h.2
  | outside o => simp [answered] at h

end System

/-! ## contracts -/

/-- What the sessions of a service rely on and promise: the store goes up the order, every call
meets `Φ` and every answer `Ψ`. -/
structure Service.Contract {Call : Type} {Reply : Call → Type} {σ ρ ω ε α : Type}
    (S : Service Reply σ ρ ω ε α) (le : σ → σ → Prop) (Φ : ρ → σ → Call → Prop)
    (Ψ : ρ → σ → α → Prop) : Prop where
  refl : ∀ s, le s s
  trans : ∀ s s' s'', le s s' → le s' s'' → le s s''
  call : ∀ r c s, Φ r s c → le s (S.exec c s).2
  outside : ∀ o s, le s (S.outside o s)
  start : ∀ r s, (S.program r).Safe S.exec le (Φ r) (Ψ r) s

namespace System

variable {Call : Type} {Reply : Call → Type} {σ ρ ω ε α : Type} {S : Service Reply σ ρ ω ε α}
  {le : σ → σ → Prop} {Φ : ρ → σ → Call → Prop} {Ψ : ρ → σ → α → Prop}
  {sys : System Reply σ ρ ε α}

variable (S le Φ Ψ) in
/-- Every session keeps its part of the contract. -/
def AllSafe (sys : System Reply σ ρ ε α) : Prop :=
  ∀ session ∈ sys.sessions,
    session.routine.Safe S.exec le (Φ session.request) (Ψ session.request) sys.store

/-- The next call of a safe session meets `Φ`. -/
theorem AllSafe.next_of_refl (hrefl : ∀ s, le s s) (h : sys.AllSafe S le Φ Ψ) {i : Nat} {r : ρ}
    {c : Call} (hnext : sys.next? i = some (r, c)) : Φ r sys.store c := by
  obtain ⟨next, hmem⟩ := mem_of_next? hnext
  exact (h _ hmem sys.store (hrefl _)).1

/-- The store goes up the order if it does so with every call that meets `Φ`. -/
theorem AllSafe.le_step (hrefl : ∀ s, le s s) (h : sys.AllSafe S le Φ Ψ)
    (hcall : ∀ r c, Φ r sys.store c → le sys.store (S.exec c sys.store).2)
    (houtside : ∀ o, le sys.store (S.outside o sys.store)) (e : SystemEvent ρ ω ε) :
    le sys.store (sys.step S e).store := by
  cases e with
  | start r => exact hrefl _
  | advance i =>
    cases hnext : sys.next? i with
    | none =>
      rw [store_advance_of_none hnext]
      exact hrefl _
    | some call =>
      rw [store_advance_of_some hnext]
      exact hcall _ _ (h.next_of_refl hrefl hnext)
  | fail i e => exact hrefl _
  | outside o => exact houtside o

/-- An event keeps the sessions safe that takes the store up the order, and brings in no request
but one that is safe. -/
theorem AllSafe.step_of_le (hrefl : ∀ s, le s s)
    (htrans : ∀ s s' s'', le s s' → le s' s'' → le s s'') (h : sys.AllSafe S le Φ Ψ)
    {e : SystemEvent ρ ω ε} (hstore : le sys.store (sys.step S e).store)
    (hstart : ∀ r, e = .start r → (S.program r).Safe S.exec le (Φ r) (Ψ r) sys.store) :
    (sys.step S e).AllSafe S le Φ Ψ := by
  intro session hmem
  cases e with
  | start r =>
    rcases List.mem_append.mp hmem with hmem | hmem
    · exact h session hmem
    · rw [List.mem_singleton.mp hmem]
      exact hstart r rfl
  | advance i =>
    rcases mem_reply hmem with hmem | ⟨r, c, next, hold, hnext, rfl⟩
    · exact (h session hmem).mono htrans hstore
    · rw [store_advance_of_some hnext]
      have hsafe := h _ hold
      exact (hsafe sys.store (hrefl _)).2.1
  | fail i e =>
    rcases mem_reply hmem with hmem | ⟨r, c, next, hold, -, rfl⟩
    · exact h session hmem
    · have hsafe := h _ hold
      exact (hsafe sys.store (hrefl _)).2.2 e
  | outside o => exact (h session hmem).mono htrans hstore

/-- **The calls**: the next call of a session meets what its request promises. -/
theorem AllSafe.next (C : S.Contract le Φ Ψ) (h : sys.AllSafe S le Φ Ψ) {i : Nat} {r : ρ}
    {c : Call} (hnext : sys.next? i = some (r, c)) : Φ r sys.store c :=
  h.next_of_refl C.refl hnext

/-- **The answers**: what a session has ended with meets what its request promises. -/
theorem AllSafe.ended (C : S.Contract le Φ Ψ) (h : sys.AllSafe S le Φ Ψ) {r : ρ} {a : α}
    (hmem : (⟨r, .done a⟩ : Session Reply ρ ε α) ∈ sys.sessions) : Ψ r sys.store a :=
  h _ hmem sys.store (C.refl _)

/-- The store goes up the order with every event. -/
theorem AllSafe.store_step (C : S.Contract le Φ Ψ) (h : sys.AllSafe S le Φ Ψ)
    (e : SystemEvent ρ ω ε) : le sys.store (sys.step S e).store :=
  h.le_step C.refl (fun r c hc => C.call r c sys.store hc) (fun o => C.outside o sys.store) e

/-- **Every event keeps the contract.** -/
theorem AllSafe.step (C : S.Contract le Φ Ψ) (h : sys.AllSafe S le Φ Ψ)
    (e : SystemEvent ρ ω ε) : (sys.step S e).AllSafe S le Φ Ψ :=
  h.step_of_le C.refl C.trans (h.store_step C e) fun r _ => C.start r sys.store

theorem allSafe_nil (store : σ) : (⟨store, []⟩ : System Reply σ ρ ε α).AllSafe S le Φ Ψ :=
  fun _ hmem => absurd hmem List.not_mem_nil

end System
