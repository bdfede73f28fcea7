import Mathlib.Algebra.Order.Ring.Nat
import Dinero.Runs

/-!
# Dinero.Polling

Incremental mail polling (`ingestion/polling.rs`).

A poll reads from a stored history id, page by page, hands every added message
to the message processor, and stores the last history id it was told.  The timer
and the Sync Now button start polls that overlap, requests fail, and the process
dies between two steps.

* the books: what Gmail has logged, what the client has stored and handed on.
* one poll: a phase, and an action that moves it.
* the world: any number of polls over the same books.
-/

namespace Dinero.Polling

/-! ## Gmail's side -/

/-- The mailbox: its current history id, the messages it has logged, each under its id, and the
oldest id that it still answers for. -/
structure Gmail where
  historyId : Nat
  added : List (Nat × String)
  oldest : Nat
  bounded : ∀ r ∈ added, r.1 ≤ historyId

/-- A message arrives. -/
def Gmail.arrive (g : Gmail) (msg : String) : Gmail where
  historyId := g.historyId + 1
  added := g.added ++ [(g.historyId + 1, msg)]
  oldest := g.oldest
  bounded := by
    intro r hr
    simp only [List.mem_append, List.mem_singleton] at hr
    cases hr with
    | inl hr => exact Nat.le_succ_of_le (g.bounded r hr)
    | inr hr => simp [hr]

/-- Something else happens to the mailbox: a label, a deletion. -/
def Gmail.touch (g : Gmail) : Gmail where
  historyId := g.historyId + 1
  added := g.added
  oldest := g.oldest
  bounded r hr := Nat.le_succ_of_le (g.bounded r hr)

/-- The history before `n` is gone. -/
def Gmail.expire (g : Gmail) (n : Nat) : Gmail := { g with oldest := max g.oldest n }

/-- The messages added after a history id. -/
def Gmail.since (g : Gmail) (start : Nat) : List (Nat × String) :=
  g.added.filter fun r => start < r.1

/-! ## one poll -/

structure HistoryRecord where
  messagesAdded : Option (List String)

/-- A page of history.  A page token says how many messages came before the page. -/
structure HistoryResponse where
  historyId : Option Nat
  nextPageToken : Option Nat
  history : Option (List HistoryRecord)

/-- The messages of a page, in the order in which they are handed on. -/
def HistoryResponse.messages (data : HistoryResponse) : List String :=
  (data.history.getD []).flatMap fun record => record.messagesAdded.getD []

/-- What a request brings.  A body that does not parse is none. -/
inductive Response
  | networkError
  | answered (status : Nat) (body : Option HistoryResponse)

/-- The variables of `poll_single_account`; the backoff is in seconds. -/
structure Poll where
  start : Nat
  pageToken : Option Nat := none
  latest : Option Nat := none
  refreshed : Bool := false
  retryCount : Nat := 0
  backoff : Nat := 1

def maxRetries : Nat := 8

/-- A backoff stays under a minute, where `saturating_mul` is a product. -/
def nextBackoff (current : Nat) : Nat := min (current * 2) 60

/-- What a response comes to. -/
inductive Reply
  | retry (poll : Poll) (slept : Nat)
  | page (poll : Poll) (data : HistoryResponse)
  | invalidHistoryId
  | failed

/-- Waits and tries again, eight times for a page. -/
def Poll.backOff (p : Poll) : Reply :=
  if maxRetries ≤ p.retryCount then .failed
  else .retry { p with retryCount := p.retryCount + 1, backoff := nextBackoff p.backoff } p.backoff

/-- The branches of the request loop, in their order.  A 401 is retried once in a whole poll, if
the token refreshes. -/
def Poll.respond (p : Poll) (refreshes : Bool) : Response → Reply
  | .networkError => p.backOff
  | .answered status body =>
    if 200 ≤ status ∧ status < 300 then
      match body with
      | some data => .page p data
      | none => .failed
    else if status = 404 ∨ status = 400 then .invalidHistoryId
    else if status = 401 ∧ p.refreshed = false then
      if refreshes then .retry { p with refreshed := true } 0 else .failed
    else if status = 429 ∨ (500 ≤ status ∧ status < 600) then p.backOff
    else .failed

/-- Where a poll is.  A listed account is a row that `poll_all_accounts` has read. -/
inductive Phase
  | listed (lastHistoryId : Option Nat)
  | asking (poll : Poll)
  | handing (poll : Poll) (data : HistoryResponse) (pending : List String)
  | saving (historyId : Nat)
  | ended

/-- The end of a page: the next one, or the history id to store. -/
def Poll.turn (p : Poll) (data : HistoryResponse) : Phase :=
  let latest := data.historyId.or p.latest
  match data.nextPageToken with
  | some token =>
    .asking { p with pageToken := some token, latest := latest, retryCount := 0, backoff := 1 }
  | none =>
    match latest with
    | some historyId => .saving historyId
    | none => .ended

/-- What polls read and write: Gmail, the `gmail_history` checkpoint, the account's
`last_history_id`, and the messages given to `process_message`. -/
structure Books where
  gmail : Gmail
  checkpoint : Option Nat
  account : Option Nat
  handed : List String

/-- A step of one poll. -/
inductive Action
  | start (readable : Bool)
  | answer (refreshes : Bool) (response : Response)
  | hand
  | turn
  | save (accountWritten : Bool)
  | fail

/-- A poll's step.  The start reads the checkpoint if it can, and falls back on the account row as
it was listed.  An invalid history id clears the account's, and leaves the checkpoint.  The message
processor's errors are logged and passed over. -/
def act (b : Books) : Phase → Action → Books × Phase
  | .listed lastHistoryId, .start readable =>
    match (if readable then b.checkpoint else none).or lastHistoryId with
    | some start => (b, .asking { start := start })
    | none => (b, .ended)
  | .asking p, .answer refreshes response =>
    match p.respond refreshes response with
    | .retry p _ => (b, .asking p)
    | .page p data => (b, .handing p data data.messages)
    | .invalidHistoryId => ({ b with account := none }, .ended)
    | .failed => (b, .ended)
  | .handing p data (msg :: pending), .hand =>
    ({ b with handed := b.handed ++ [msg] }, .handing p data pending)
  | .handing p data [], .turn => (b, p.turn data)
  | .saving historyId, .save accountWritten =>
    ({ b with checkpoint := some historyId,
              account := if accountWritten then some historyId else b.account }, .ended)
  | _, .fail => (b, .ended)
  | phase, _ => (b, phase)

/-! ## any number of polls -/

structure World where
  books : Books
  polls : List Phase

inductive Event
  | arrive (msg : String)
  | touch
  | expire (n : Nat)
  | list
  | poll (i : Nat) (action : Action)
  | restart

def step (w : World) : Event → World
  | .arrive msg => { w with books := { w.books with gmail := w.books.gmail.arrive msg } }
  | .touch => { w with books := { w.books with gmail := w.books.gmail.touch } }
  | .expire n => { w with books := { w.books with gmail := w.books.gmail.expire n } }
  | .list => { w with polls := w.polls ++ [.listed w.books.account] }
  | .poll i action =>
    match w.polls[i]? with
    | some phase =>
      let (books, phase) := act w.books phase action
      { books := books, polls := w.polls.set i phase }
    | none => w
  | .restart => { w with polls := [] }

/-- A newly connected account: its profile's history id, and no checkpoint. -/
def connect (g : Gmail) : World where
  books := { gmail := g, checkpoint := none, account := some g.historyId, handed := [] }
  polls := []

/-- A page as Gmail gives it: the next messages after the ones before it, a token just if there
are more, an id no later than the mailbox's, and only for an id that it still knows. -/
def Gmail.Gives (g : Gmail) (p : Poll) (data : HistoryResponse) : Prop :=
  let rest := ((g.since p.start).drop (p.pageToken.getD 0)).map (·.2)
  g.oldest ≤ p.start ∧ data.messages <+: rest ∧
    (data.nextPageToken = none → data.messages = rest) ∧
    (∀ t ∈ data.nextPageToken, t = p.pageToken.getD 0 + data.messages.length) ∧
    ∀ h ∈ data.historyId, h ≤ g.historyId

instance (g : Gmail) (p : Poll) (data : HistoryResponse) : Decidable (g.Gives p data) :=
  inferInstanceAs (Decidable (_ ∧ _ ∧ _ ∧ _ ∧ _))

/-- The answer that a poll gets is a page that Gmail gives, or an error. -/
def Reply.Honest (g : Gmail) (p : Poll) : Reply → Prop
  | .page _ data => g.Gives p data
  | _ => True

instance (g : Gmail) (p : Poll) : (r : Reply) → Decidable (r.Honest g p)
  | .page _ data => inferInstanceAs (Decidable (g.Gives p data))
  | .retry _ _ | .invalidHistoryId | .failed => isTrue trivial

/-- A phase that asks gets an honest answer. -/
def Phase.Honest (g : Gmail) (refreshes : Bool) (response : Response) : Phase → Prop
  | .asking p => (p.respond refreshes response).Honest g p
  | _ => True

instance (g : Gmail) (refreshes : Bool) (response : Response) :
    (phase : Phase) → Decidable (phase.Honest g refreshes response)
  | .asking p => inferInstanceAs (Decidable ((p.respond refreshes response).Honest g p))
  | .listed _ | .handing _ _ _ | .saving _ | .ended => isTrue trivial

/-- Gmail's answers are pages that it gives, or errors. -/
def Honest (w : World) : Event → Prop
  | .poll i (.answer refreshes response) =>
    ∀ phase ∈ w.polls[i]?, phase.Honest w.books.gmail refreshes response
  | _ => True

instance (w : World) : (e : Event) → Decidable (Honest w e)
  | .poll i (.answer refreshes response) =>
    inferInstanceAs (Decidable (∀ phase ∈ w.polls[i]?, phase.Honest w.books.gmail refreshes response))
  | .poll _ (.start _) | .poll _ .hand | .poll _ .turn | .poll _ (.save _) | .poll _ .fail
  | .arrive _ | .touch | .expire _ | .list | .restart => isTrue trivial

/-! ## what polls grow -/

/-- The mailbox gains messages under later ids, and no message handed on is taken back. -/
structure Books.Grows (b b' : Books) : Prop where
  later : b.gmail.historyId ≤ b'.gmail.historyId
  added : ∃ new, b'.gmail.added = b.gmail.added ++ new ∧ ∀ r ∈ new, b.gmail.historyId < r.1
  handed : ∀ msg ∈ b.handed, msg ∈ b'.handed

theorem Books.Grows.of_gmail_eq {b b' : Books} (hg : b'.gmail = b.gmail)
    (hh : ∀ msg ∈ b.handed, msg ∈ b'.handed) : b.Grows b' :=
  ⟨by simp [hg], ⟨[], by simp [hg], by simp⟩, hh⟩

theorem act_grows (b : Books) (phase : Phase) (a : Action) : b.Grows (act b phase a).1 := by
  have same : ∀ b' : Books, b'.gmail = b.gmail → b'.handed = b.handed → b.Grows b' :=
    fun b' hg hh => .of_gmail_eq hg (by simp [hh])
  unfold act
  split
  · split <;> exact same _ rfl rfl
  · split <;> exact same _ rfl rfl
  · exact .of_gmail_eq rfl fun msg hm => List.mem_append_left _ hm
  all_goals exact same _ rfl rfl

/-- The messages after an id only grow at their end. -/
theorem Books.Grows.since {b b' : Books} (h : b.Grows b') (start : Nat) :
    b.gmail.since start <+: b'.gmail.since start := by
  obtain ⟨new, hadded, -⟩ := h.added
  simp [Gmail.since, hadded]

/-- Every message logged after `m₀` and up to `m` has been handed on or is about to be. -/
structure Books.Reached (b : Books) (m₀ m : Nat) (pending : List String) : Prop where
  known : m ≤ b.gmail.historyId
  handed : ∀ r ∈ b.gmail.added, m₀ < r.1 → r.1 ≤ m → r.2 ∈ b.handed ∨ r.2 ∈ pending

/-- The first `k` messages after `start` have been handed on or are about to be. -/
structure Books.Paged (b : Books) (start k : Nat) (pending : List String) : Prop where
  known : k ≤ (b.gmail.since start).length
  handed : ∀ r ∈ (b.gmail.since start).take k, r.2 ∈ b.handed ∨ r.2 ∈ pending

theorem Books.Reached.grows {b b' : Books} {m₀ m : Nat} {pending : List String}
    (h : b.Reached m₀ m pending) (hb : b.Grows b') : b'.Reached m₀ m pending := by
  obtain ⟨new, hadded, hnew⟩ := hb.added
  have hknown := h.known
  refine ⟨hknown.trans hb.later, fun r hmem hlt hle => ?_⟩
  simp only [hadded, List.mem_append] at hmem
  cases hmem with
  | inl hmem => exact (h.handed r hmem hlt hle).imp_left (hb.handed _)
  | inr hmem =>
    have := hnew r hmem
    omega

theorem Books.Paged.grows {b b' : Books} {start k : Nat} {pending : List String}
    (h : b.Paged start k pending) (hb : b.Grows b') : b'.Paged start k pending := by
  obtain ⟨rest, hrest⟩ := hb.since start
  have hknown := h.known
  refine ⟨by simp only [← hrest, List.length_append]; omega, fun r hmem => ?_⟩
  rw [← hrest, List.take_append_of_le_length hknown] at hmem
  exact (h.handed r hmem).imp_left (hb.handed _)

/-- From a reached id, what lies beyond it is reached too. -/
theorem Books.Reached.trans {b : Books} {m₀ start m : Nat} (h : b.Reached m₀ start [])
    (h' : b.Reached start m []) : b.Reached m₀ m [] := by
  refine ⟨h'.known, fun r hmem hlt hle => ?_⟩
  cases Nat.lt_or_ge start r.1 with
  | inl hs => exact h'.handed r hmem hs hle
  | inr hs => exact h.handed r hmem hlt hs

/-! ## no message is skipped -/

/-- What a poll has made sure of.  After the last page everything up to the id to be stored is
handed on or in hand; before it, the pages that came. -/
def Phase.Sound (b : Books) (m₀ : Nat) : Phase → Prop
  | .listed lastHistoryId => ∀ m ∈ lastHistoryId, b.Reached m₀ m []
  | .asking p =>
    b.Reached m₀ p.start [] ∧ (∀ h ∈ p.latest, h ≤ b.gmail.historyId) ∧
      b.Paged p.start (p.pageToken.getD 0) []
  | .handing p data pending =>
    b.Reached m₀ p.start [] ∧ (∀ h ∈ data.historyId.or p.latest, h ≤ b.gmail.historyId) ∧
      match data.nextPageToken with
      | some token => b.Paged p.start token pending
      | none => ∀ h ∈ data.historyId.or p.latest, b.Reached p.start h pending
  | .saving h => b.Reached m₀ h []
  | .ended => True

theorem Phase.Sound.grows {b b' : Books} {m₀ : Nat} {phase : Phase} (h : phase.Sound b m₀)
    (hb : b.Grows b') : phase.Sound b' m₀ := by
  cases phase with
  | listed last => exact fun m hm => (h m hm).grows hb
  | asking p => exact ⟨h.1.grows hb, fun m hm => (h.2.1 m hm).trans hb.later, h.2.2.grows hb⟩
  | handing p data pending =>
    obtain ⟨hstart, hlatest, hpages⟩ := h
    refine ⟨hstart.grows hb, fun m hm => (hlatest m hm).trans hb.later, ?_⟩
    cases hnext : data.nextPageToken with
    | some token =>
      rw [hnext] at hpages
      exact Books.Paged.grows hpages hb
    | none =>
      rw [hnext] at hpages
      exact fun m hm => (hpages m hm).grows hb
  | saving m => exact Books.Reached.grows h hb
  | ended => trivial

/-- The pages before one, and the page. -/
theorem Gmail.Gives.sound {b : Books} {m₀ : Nat} {p : Poll} {data : HistoryResponse}
    (h : b.gmail.Gives p data) (hp : (Phase.asking p).Sound b m₀) :
    (Phase.handing p data data.messages).Sound b m₀ := by
  obtain ⟨hstart, hlatest, hpaged⟩ := hp
  obtain ⟨-, hpre, hlast, hnext, hid⟩ := h
  set k := p.pageToken.getD 0 with hk
  have hall : ∀ h ∈ data.historyId.or p.latest, h ≤ b.gmail.historyId := by
    intro h hh
    cases hd : data.historyId with
    | some x => exact hid h (by simpa [hd] using hh)
    | none => exact hlatest h (by simpa [hd] using hh)
  have hknown := hpaged.known
  refine ⟨hstart, hall, ?_⟩
  cases htoken : data.nextPageToken with
  | some token =>
    have htok := hnext token htoken
    obtain ⟨more, hmore⟩ := hpre
    have hlen := congrArg List.length hmore
    simp only [List.length_append, List.length_map, List.length_drop] at hlen
    refine ⟨by omega, fun r hmem => ?_⟩
    rw [htok, List.take_add, List.mem_append] at hmem
    cases hmem with
    | inl hmem => exact .inl ((hpaged.handed r hmem).resolve_right (by simp))
    | inr hmem =>
      right
      have hmap : data.messages = (((b.gmail.since p.start).drop k).take
          data.messages.length).map (·.2) := by
        rw [List.map_take, ← hmore, List.take_left']
        rfl
      rw [hmap]
      exact List.mem_map_of_mem hmem
  | none =>
    refine fun h hh => ⟨hall h hh, fun r hmem hlt _ => ?_⟩
    have hsince : r ∈ b.gmail.since p.start := by simpa [Gmail.since] using ⟨hmem, hlt⟩
    rw [← List.take_append_drop k (b.gmail.since p.start), List.mem_append] at hsince
    cases hsince with
    | inl hmem => exact .inl ((hpaged.handed r hmem).resolve_right (by simp))
    | inr hmem =>
      right
      rw [hlast htoken]
      exact List.mem_map_of_mem hmem

/-- What a response can do: a retry asks for the same page again, within its eight retries or after
the one refresh of the poll, and a page is the page of a success. -/
theorem Poll.respond_cases (p : Poll) (refreshes : Bool) (response : Response) :
    (∃ slept, p.respond refreshes response = .retry
        { p with retryCount := p.retryCount + 1, backoff := nextBackoff p.backoff } slept ∧
      slept = p.backoff ∧ p.retryCount < maxRetries) ∨
    (p.respond refreshes response = .retry { p with refreshed := true } 0 ∧
      p.refreshed = false) ∨
    (∃ data, p.respond refreshes response = .page p data) ∨
    p.respond refreshes response = .invalidHistoryId ∨
    p.respond refreshes response = .failed := by
  have hback : (∃ slept, p.backOff = .retry
      { p with retryCount := p.retryCount + 1, backoff := nextBackoff p.backoff } slept ∧
      slept = p.backoff ∧ p.retryCount < maxRetries) ∨ p.backOff = .failed := by
    unfold Poll.backOff
    split
    · exact .inr rfl
    · exact .inl ⟨_, rfl, rfl, by omega⟩
  unfold Poll.respond
  cases response with
  | networkError => simp only []; grind
  | answered status body =>
    simp only []
    split
    · cases body <;> simp
    · split
      · simp
      · split
        · rename_i h401
          cases refreshes <;> simp [h401.2]
        · split
          · grind
          · simp

/-- A message in hand is handed on. -/
theorem Phase.Sound.hand {b : Books} {m₀ : Nat} {p : Poll} {data : HistoryResponse} {msg : String}
    {pending : List String} (h : (Phase.handing p data (msg :: pending)).Sound b m₀) :
    (Phase.handing p data pending).Sound { b with handed := b.handed ++ [msg] } m₀ := by
  have moves : ∀ r : Nat × String, r.2 ∈ b.handed ∨ r.2 ∈ msg :: pending →
      r.2 ∈ b.handed ++ [msg] ∨ r.2 ∈ pending := by
    intro r
    simp only [List.mem_cons, List.mem_append]
    tauto
  obtain ⟨hstart, hlatest, hpages⟩ := h
  refine ⟨hstart.grows (.of_gmail_eq rfl fun m hm => List.mem_append_left _ hm), hlatest, ?_⟩
  cases hnext : data.nextPageToken with
  | some token =>
    simp only [hnext] at hpages
    exact ⟨hpages.known, fun r hr => moves r (hpages.handed r hr)⟩
  | none =>
    simp only [hnext] at hpages
    intro m hm
    have hpage := hpages m hm
    exact ⟨hpage.known, fun r hr hlt hle => moves r (hpage.handed r hr hlt hle)⟩

/-- With nothing in hand, the next page or the id to store. -/
theorem Phase.Sound.turn {b : Books} {m₀ : Nat} {p : Poll} {data : HistoryResponse}
    (h : (Phase.handing p data []).Sound b m₀) : (p.turn data).Sound b m₀ := by
  obtain ⟨hstart, hlatest, hpages⟩ := h
  unfold Poll.turn
  cases hnext : data.nextPageToken with
  | some token =>
    simp only [hnext] at hpages ⊢
    exact ⟨hstart, hlatest, hpages⟩
  | none =>
    simp only [hnext] at hpages ⊢
    cases hid : data.historyId.or p.latest with
    | some m => exact hstart.trans (hpages m hid)
    | none => trivial

/-- A poll's step keeps what the poll and the stored ids stand for. -/
theorem act_sound {b : Books} {m₀ : Nat} {phase : Phase} {a : Action}
    (hcheck : ∀ m ∈ b.checkpoint, b.Reached m₀ m []) (hacc : ∀ m ∈ b.account, b.Reached m₀ m [])
    (hphase : phase.Sound b m₀)
    (hgives : ∀ p refreshes response data, phase = .asking p → a = .answer refreshes response →
      p.respond refreshes response = .page p data → b.gmail.Gives p data) :
    (∀ m ∈ (act b phase a).1.checkpoint, (act b phase a).1.Reached m₀ m []) ∧
      (∀ m ∈ (act b phase a).1.account, (act b phase a).1.Reached m₀ m []) ∧
      (act b phase a).2.Sound (act b phase a).1 m₀ := by
  have hgrows := act_grows b phase a
  unfold act at hgrows ⊢
  split
  case h_1 last readable =>
    split
    · rename_i start hstart
      have hreached : b.Reached m₀ start [] := by
        cases readable with
        | false => exact hphase start (by simpa using hstart)
        | true =>
          cases hc : b.checkpoint with
          | some m =>
            have : m = start := by simpa [hc] using hstart
            exact this ▸ hcheck m hc
          | none => exact hphase start (by simpa [hc] using hstart)
      exact ⟨hcheck, hacc, hreached, by simp, ⟨by simp, by simp⟩⟩
    · exact ⟨hcheck, hacc, trivial⟩
  case h_2 p refreshes response =>
    obtain ⟨slept, hr, -, -⟩ | ⟨hr, -⟩ | ⟨data, hr⟩ | hr | hr :=
      p.respond_cases refreshes response
    · simp only [hr]
      exact ⟨hcheck, hacc, hphase⟩
    · simp only [hr]
      exact ⟨hcheck, hacc, hphase⟩
    · simp only [hr]
      exact ⟨hcheck, hacc, (hgives p refreshes response data rfl rfl hr).sound hphase⟩
    · simp only [hr] at hgrows ⊢
      exact ⟨fun m hm => (hcheck m hm).grows hgrows, by simp, trivial⟩
    · simp only [hr]
      exact ⟨hcheck, hacc, trivial⟩
  case h_3 p data msg pending =>
    exact ⟨fun m hm => (hcheck m hm).grows hgrows, fun m hm => (hacc m hm).grows hgrows,
      hphase.hand⟩
  case h_4 p data => exact ⟨hcheck, hacc, hphase.turn⟩
  case h_5 h written =>
    have hsaved : Books.Reached _ m₀ h [] := Books.Reached.grows hphase hgrows
    refine ⟨by simpa using hsaved, ?_, trivial⟩
    cases written with
    | true => simpa using hsaved
    | false => exact fun m hm => (hacc m hm).grows hgrows
  case h_6 => exact ⟨hcheck, hacc, trivial⟩
  case h_7 => exact ⟨hcheck, hacc, hphase⟩

/-- What every stored id and every poll stands for. -/
structure World.Sound (w : World) (m₀ : Nat) : Prop where
  checkpoint : ∀ m ∈ w.books.checkpoint, w.books.Reached m₀ m []
  account : ∀ m ∈ w.books.account, w.books.Reached m₀ m []
  polls : ∀ phase ∈ w.polls, phase.Sound w.books m₀

theorem World.Sound.mailbox {w : World} {m₀ : Nat} (h : w.Sound m₀) {g : Gmail}
    (hb : w.books.Grows { w.books with gmail := g }) :
    World.Sound { w with books := { w.books with gmail := g } } m₀ where
  checkpoint m hm := (h.checkpoint m hm).grows hb
  account m hm := (h.account m hm).grows hb
  polls phase hp := (h.polls phase hp).grows hb

theorem step_poll {w : World} {i : Nat} {phase : Phase} (action : Action)
    (h : w.polls[i]? = some phase) :
    step w (.poll i action) = { books := (act w.books phase action).1,
                                polls := w.polls.set i (act w.books phase action).2 } := by
  simp [step, h]

theorem honest_gives {w : World} {i : Nat} {phase : Phase} {action : Action}
    (h : w.polls[i]? = some phase) (hg : Honest w (.poll i action)) :
    ∀ p refreshes response data, phase = .asking p → action = .answer refreshes response →
      p.respond refreshes response = .page p data → w.books.gmail.Gives p data := by
  intro p refreshes response data hp ha hpage
  subst hp ha
  simpa [hpage, Phase.Honest, Reply.Honest] using hg _ h

theorem step_sound (m₀ : Nat) (w : World) (e : Event) (h : w.Sound m₀) (hg : Honest w e) :
    (step w e).Sound m₀ := by
  cases e with
  | arrive msg =>
    exact h.mailbox ⟨by simp [Gmail.arrive], ⟨_, rfl, by simp⟩, fun _ hm => hm⟩
  | touch =>
    exact h.mailbox ⟨by simp [Gmail.touch], ⟨[], by simp [Gmail.touch], by simp⟩, fun _ hm => hm⟩
  | expire n =>
    exact h.mailbox ⟨by simp [Gmail.expire], ⟨[], by simp [Gmail.expire], by simp⟩, fun _ hm => hm⟩
  | list =>
    refine ⟨h.checkpoint, h.account, fun phase hp => ?_⟩
    simp only [step, List.mem_append, List.mem_singleton] at hp
    cases hp with
    | inl hp => exact h.polls phase hp
    | inr hp => exact hp ▸ h.account
  | poll i action =>
    cases hphase : w.polls[i]? with
    | none => simpa [step, hphase] using h
    | some phase =>
      rw [step_poll action hphase]
      obtain ⟨hcheck, hacc, hnew⟩ := act_sound h.checkpoint h.account
        (h.polls phase (List.mem_of_getElem? hphase)) (honest_gives hphase hg)
      refine ⟨hcheck, hacc, fun other hother => ?_⟩
      cases List.mem_or_eq_of_mem_set hother with
      | inl hother => exact (h.polls other hother).grows (act_grows _ _ _)
      | inr hother => exact hother ▸ hnew
  | restart => exact ⟨h.checkpoint, h.account, by simp [step]⟩

/-- **No message is skipped.**  However polls overlap, fail and die, once an id is stored every
message logged since the connection and up to the id has been handed to the processor. -/
theorem stored_id_skips_nothing (g : Gmail) (es : List Event)
    (h : Runs.Guarded step Honest (connect g) es) (m : Nat)
    (hm : m ∈ (es.foldl step (connect g)).books.checkpoint ∨
      m ∈ (es.foldl step (connect g)).books.account) :
    ∀ r ∈ (es.foldl step (connect g)).books.gmail.added, g.historyId < r.1 → r.1 ≤ m →
      r.2 ∈ (es.foldl step (connect g)).books.handed := by
  have hstart : (connect g).Sound g.historyId := by
    refine ⟨by simp [connect], fun m hm => ?_, by simp [connect]⟩
    have : g.historyId = m := by simpa [connect] using hm
    exact ⟨by simp [connect, this], by omega⟩
  have hsound := h.invariant (step_sound g.historyId) hstart
  have hreached := hm.elim (hsound.checkpoint m) (hsound.account m)
  intro r hr hlt hle
  simpa using hreached.handed r hr hlt hle

/-- Mail arrives under two polls; the process dies, and a third poll hands everything on. -/
def twoPollsAndACrash : List Event :=
  let page (id : Nat) (msgs : List String) (token : Option Nat) : Response :=
    .answered 200 (some ⟨some id, token, some [⟨none⟩, ⟨some msgs⟩]⟩)
  [.arrive "a", .list, .poll 0 (.start true), .arrive "b", .list, .poll 1 (.start true),
    .poll 0 (.answer true (page 7 ["a"] (some 1))), .poll 1 (.answer true (.answered 503 none)),
    .poll 0 .hand, .poll 1 (.answer true (page 7 ["a", "b"] none)), .touch, .restart,
    .list, .poll 0 (.start true), .poll 0 (.answer true (.answered 401 none)),
    .poll 0 (.answer true (page 8 ["a", "b"] none)), .poll 0 .hand, .poll 0 .hand,
    .arrive "c", .poll 0 .turn, .poll 0 (.save true)]

theorem stored_id_skips_neither :
    ∀ r ∈ (twoPollsAndACrash.foldl step (connect ⟨5, [(3, "z")], 0, by decide⟩)).books.gmail.added,
      5 < r.1 → r.1 ≤ 8 →
      r.2 ∈ (twoPollsAndACrash.foldl step (connect ⟨5, [(3, "z")], 0, by decide⟩)).books.handed :=
  stored_id_skips_nothing ⟨5, [(3, "z")], 0, by decide⟩ twoPollsAndACrash (by decide) 8 (by decide)

/-! ## an expired id -/

/-- A poll that Gmail will refuse. -/
def Phase.Expired (oldest : Nat) : Phase → Prop
  | .listed lastHistoryId => ∀ m ∈ lastHistoryId, m < oldest
  | .asking p => p.start < oldest
  | .handing _ _ _ | .saving _ => False
  | .ended => True

/-- Every stored id is one that Gmail no longer knows, and every poll started from one. -/
structure World.Expired (w : World) : Prop where
  checkpoint : ∀ m ∈ w.books.checkpoint, m < w.books.gmail.oldest
  account : ∀ m ∈ w.books.account, m < w.books.gmail.oldest
  polls : ∀ phase ∈ w.polls, phase.Expired w.books.gmail.oldest

theorem Phase.Expired.mono {oldest oldest' : Nat} {phase : Phase} (h : phase.Expired oldest)
    (hle : oldest ≤ oldest') : phase.Expired oldest' := by
  cases phase with
  | listed last => exact fun m hm => (h m hm).trans_le hle
  | asking p => exact Nat.lt_of_lt_of_le h hle
  | handing p data pending => exact h
  | saving m => exact h
  | ended => trivial

theorem World.Expired.mailbox {w : World} (h : w.Expired) {g : Gmail}
    (hle : w.books.gmail.oldest ≤ g.oldest) :
    World.Expired { w with books := { w.books with gmail := g } } where
  checkpoint m hm := (h.checkpoint m hm).trans_le hle
  account m hm := (h.account m hm).trans_le hle
  polls phase hp := (h.polls phase hp).mono hle

/-- A refused poll ends; at most it clears the account's id. -/
theorem act_expired {b : Books} {phase : Phase} {a : Action}
    (hcheck : ∀ m ∈ b.checkpoint, m < b.gmail.oldest) (hphase : phase.Expired b.gmail.oldest)
    (hgives : ∀ p refreshes response data, phase = .asking p → a = .answer refreshes response →
      p.respond refreshes response = .page p data → b.gmail.Gives p data) :
    ((act b phase a).1 = b ∨ (act b phase a).1 = { b with account := none }) ∧
      (act b phase a).2.Expired b.gmail.oldest := by
  unfold act
  split
  case h_1 last readable =>
    split
    · rename_i start hstart
      refine ⟨.inl rfl, ?_⟩
      cases hread : (if readable then b.checkpoint else none) with
      | none => exact hphase start (by simpa [hread] using hstart)
      | some m =>
        have hm : m = start := by simpa [hread] using hstart
        cases readable with
        | false => simp at hread
        | true => exact hm ▸ hcheck m (by simpa using hread)
    · exact ⟨.inl rfl, trivial⟩
  case h_2 p refreshes response =>
    obtain ⟨slept, hr, -, -⟩ | ⟨hr, -⟩ | ⟨data, hr⟩ | hr | hr :=
      p.respond_cases refreshes response
    · simpa [hr, Phase.Expired] using hphase
    · simpa [hr, Phase.Expired] using hphase
    · have hold := (hgives p refreshes response data rfl rfl hr).1
      exact absurd hphase (by simp only [Phase.Expired]; omega)
    · simp [hr, Phase.Expired]
    · simp [hr, Phase.Expired]
  case h_3 => exact absurd hphase (by simp [Phase.Expired])
  case h_4 => exact absurd hphase (by simp [Phase.Expired])
  case h_5 => exact absurd hphase (by simp [Phase.Expired])
  case h_6 => exact ⟨.inl rfl, trivial⟩
  case h_7 => exact ⟨.inl rfl, hphase⟩

theorem step_expired (w : World) (e : Event) (h : w.Expired) (hg : Honest w e) :
    (step w e).Expired ∧ (step w e).books.checkpoint = w.books.checkpoint ∧
      (step w e).books.handed = w.books.handed := by
  cases e with
  | arrive msg => exact ⟨h.mailbox le_rfl, rfl, rfl⟩
  | touch => exact ⟨h.mailbox le_rfl, rfl, rfl⟩
  | expire n => exact ⟨h.mailbox (le_max_left _ _), rfl, rfl⟩
  | list =>
    refine ⟨⟨h.checkpoint, h.account, fun phase hp => ?_⟩, rfl, rfl⟩
    simp only [step, List.mem_append, List.mem_singleton] at hp
    cases hp with
    | inl hp => exact h.polls phase hp
    | inr hp => exact hp ▸ h.account
  | poll i action =>
    cases hphase : w.polls[i]? with
    | none => simpa [step, hphase] using h
    | some phase =>
      rw [step_poll action hphase]
      obtain ⟨hbooks, hnew⟩ := act_expired h.checkpoint
        (h.polls phase (List.mem_of_getElem? hphase)) (honest_gives hphase hg)
      have hpolls : ∀ other ∈ w.polls.set i (act w.books phase action).2,
          other.Expired w.books.gmail.oldest := by
        intro other hother
        cases List.mem_or_eq_of_mem_set hother with
        | inl hother => exact h.polls other hother
        | inr hother => exact hother ▸ hnew
      cases hbooks with
      | inl hbooks =>
        rw [hbooks]
        exact ⟨⟨h.checkpoint, h.account, hpolls⟩, rfl, rfl⟩
      | inr hbooks =>
        rw [hbooks]
        exact ⟨⟨h.checkpoint, by simp, hpolls⟩, rfl, rfl⟩
  | restart => exact ⟨⟨h.checkpoint, h.account, by simp [step]⟩, rfl, rfl⟩

/-- **An expired id stays.**  Once every stored id is too old for Gmail and no poll is under way,
no later poll stores another or hands a message on: a refusal clears the account's id, and the
checkpoint is what the next poll reads. -/
theorem expired_id_stays (w : World) (es : List Event) (hpolls : w.polls = [])
    (hcheck : ∀ m ∈ w.books.checkpoint, m < w.books.gmail.oldest)
    (hacc : ∀ m ∈ w.books.account, m < w.books.gmail.oldest)
    (h : Runs.Guarded step Honest w es) :
    (es.foldl step w).books.checkpoint = w.books.checkpoint ∧
      (es.foldl step w).books.handed = w.books.handed := by
  let Kept (w' : World) : Prop :=
    w'.Expired ∧ w'.books.checkpoint = w.books.checkpoint ∧ w'.books.handed = w.books.handed
  have hstep : ∀ w' e, Kept w' → Honest w' e → Kept (step w' e) := by
    intro w' e hw hg
    have hnext := step_expired w' e hw.1 hg
    exact ⟨hnext.1, hnext.2.1.trans hw.2.1, hnext.2.2.trans hw.2.2⟩
  exact (h.invariant hstep ⟨⟨hcheck, hacc, by simp [hpolls]⟩, rfl, rfl⟩).2

/-- Gmail forgets what came before id 9; the poll that asks for what follows 8 is refused, mail
arrives, and the next poll is refused again. -/
def refusedTwice : List Event :=
  [.list, .poll 0 (.start true), .poll 0 (.answer true (.answered 404 none)), .arrive "d",
    .list, .poll 1 (.start true), .poll 1 (.answer true (.answered 404 none))]

theorem refused_id_stays :
    (refusedTwice.foldl step ⟨⟨⟨12, [], 9, by decide⟩, some 8, some 8, []⟩, []⟩).books.checkpoint =
        some 8 ∧
      (refusedTwice.foldl step ⟨⟨⟨12, [], 9, by decide⟩, some 8, some 8, []⟩, []⟩).books.handed =
        [] :=
  expired_id_stays ⟨⟨⟨12, [], 9, by decide⟩, some 8, some 8, []⟩, []⟩ refusedTwice rfl
    (by decide) (by decide) (by decide)

/-! ## what a poll costs -/

/-- A poll, what it has asked for, the pages it got and the seconds it has slept. -/
structure Traffic where
  phase : Phase
  requests : Nat := 0
  pages : Nat := 0
  slept : Nat := 0

/-- A step of the poll over whatever books it finds. -/
def Traffic.after (t : Traffic) (b : Books) (a : Action) : Traffic :=
  match t.phase, a with
  | .asking p, .answer refreshes response =>
    { phase := (act b t.phase a).2
      requests := t.requests + 1
      pages := match p.respond refreshes response with
        | .page _ _ => t.pages + 1
        | _ => t.pages
      slept := match p.respond refreshes response with
        | .retry _ slept => t.slept + slept
        | _ => t.slept }
  | _, _ => { t with phase := (act b t.phase a).2 }

/-- The wait before the retry that follows `n` others, in seconds before the jitter. -/
def backoffs : List Nat := [1, 2, 4, 8, 16, 32, 60, 60]

/-- What a poll may have cost where it is. -/
def Phase.Fits (requests pages slept : Nat) : Phase → Prop
  | .listed _ => requests = 0 ∧ slept = 0
  | .asking p =>
    p.retryCount ≤ maxRetries ∧ p.backoff = backoffs.getD p.retryCount 60 ∧
      requests ≤ 9 * pages + p.retryCount + p.refreshed.toNat ∧
      slept ≤ 183 * pages + (backoffs.take p.retryCount).sum
  | .handing p _ _ => requests ≤ 9 * pages + p.refreshed.toNat ∧ slept ≤ 183 * pages
  | .saving _ | .ended => requests ≤ 9 * (pages + 1) + 1 ∧ slept ≤ 183 * (pages + 1)

def Traffic.Fits (t : Traffic) : Prop :=
  t.phase.Fits t.requests t.pages t.slept

theorem backoffs_sum_le (n : Nat) : (backoffs.take n).sum ≤ 183 := by
  have h : (backoffs.take n).sum + (backoffs.drop n).sum = 183 := by
    rw [← List.sum_append, List.take_append_drop]
    rfl
  omega

/-- A retry sleeps the next of the backoffs. -/
theorem backoffs_next {n : Nat} (h : n < maxRetries) :
    nextBackoff (backoffs.getD n 60) = backoffs.getD (n + 1) 60 ∧
      (backoffs.take (n + 1)).sum = (backoffs.take n).sum + backoffs.getD n 60 := by
  revert n
  decide

theorem Phase.fits_bound {phase : Phase} {requests pages slept : Nat}
    (h : phase.Fits requests pages slept) :
    requests ≤ 9 * (pages + 1) + 1 ∧ slept ≤ 183 * (pages + 1) := by
  cases phase with
  | listed last =>
    simp only [Fits] at h
    omega
  | asking p =>
    have hsum := backoffs_sum_le p.retryCount
    have hone := Bool.toNat_le p.refreshed
    simp only [Fits, maxRetries] at h
    omega
  | handing p data pending =>
    have hone := Bool.toNat_le p.refreshed
    simp only [Fits] at h
    omega
  | saving m => exact h
  | ended => exact h

/-- A step that asks for nothing costs nothing. -/
theorem Phase.Fits.act {phase : Phase} {requests pages slept : Nat}
    (h : phase.Fits requests pages slept) (b : Books) (a : Action)
    (hask : ∀ p refreshes response, phase = .asking p → a = .answer refreshes response → False) :
    (act b phase a).2.Fits requests pages slept := by
  have hover : Phase.ended.Fits requests pages slept := Phase.fits_bound h
  unfold Polling.act
  split
  case h_1 last readable =>
    simp only [Fits] at h
    split
    · simp only [Fits, maxRetries, backoffs]
      simp [h]
    · exact hover
  case h_2 p refreshes response => exact (hask p refreshes response rfl rfl).elim
  case h_3 => exact h
  case h_4 p data =>
    unfold Poll.turn
    simp only [Fits] at h
    cases data.nextPageToken with
    | some token =>
      simp only [Fits, maxRetries, backoffs]
      simp [h]
    | none =>
      cases data.historyId.or p.latest with
      | some m => exact hover
      | none => exact hover
  case h_5 => exact hover
  case h_6 => exact hover
  case h_7 => exact h

theorem Traffic.after_fits {t : Traffic} (b : Books) (action : Action) (h : t.Fits) :
    (t.after b action).Fits := by
  obtain ⟨phase, requests, pages, slept⟩ := t
  unfold Traffic.after
  split
  case h_1 p refreshes response hphase =>
    subst hphase
    obtain ⟨hcount, hback, hrequests, hslept⟩ := h
    have hone := Bool.toNat_le p.refreshed
    have hsum := backoffs_sum_le p.retryCount
    simp only [maxRetries] at hcount hback hrequests hslept
    obtain ⟨s, hr, hs, hlt⟩ | ⟨hr, hfresh⟩ | ⟨data, hr⟩ | hr | hr :=
      p.respond_cases refreshes response
    · obtain ⟨hnext, htake⟩ := backoffs_next hlt
      simp only [maxRetries] at hlt
      simp only [act, hr, Fits, Phase.Fits, maxRetries]
      refine ⟨by omega, by rw [hback, hnext], by omega, ?_⟩
      rw [hs, hback, htake]
      omega
    · simp only [hfresh, Bool.toNat_false] at hrequests
      simp only [act, hr, Fits, Phase.Fits, maxRetries, Bool.toNat_true]
      omega
    · simp only [act, hr, Fits, Phase.Fits]
      omega
    · simp only [act, hr, Fits, Phase.Fits]
      omega
    · simp only [act, hr, Fits, Phase.Fits]
      omega
  case h_2 hask =>
    exact Phase.Fits.act h b _ fun p refreshes response hp ha => hask p refreshes response hp ha

/-- **A poll is bounded by its pages.**  Whatever else goes on, a poll sends at most nine requests
for a page and one more for a refreshed token, and sleeps at most 183 seconds for a page. -/
theorem poll_cost_bounded (lastHistoryId : Option Nat) (steps : List (Books × Action)) :
    let t := steps.foldl (fun (t : Traffic) x => t.after x.1 x.2) { phase := .listed lastHistoryId }
    t.requests ≤ 9 * (t.pages + 1) + 1 ∧ t.slept ≤ 183 * (t.pages + 1) := by
  have hfits : ∀ t : Traffic, t.Fits →
      (steps.foldl (fun (t : Traffic) x => t.after x.1 x.2) t).Fits := by
    induction steps with
    | nil => exact fun t h => h
    | cons x xs ih => exact fun t h => ih _ (t.after_fits x.1 x.2 h)
  exact Phase.fits_bound (hfits _ (And.intro rfl rfl))

end Dinero.Polling
