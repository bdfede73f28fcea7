import Dinero.HashChain
import Dinero.Schema

/-!
# Dinero.AuditChain

The tamper-evident audit log and everything that writes it.

Each row is to carry the hash of its predecessor and the hash of its own
content behind it; `verify_chain` walks the rows and checks both.  It is the
hash chain of `Dinero.HashChain`, as long as everybody appends through
`insert`, and as the digest of a row sees no more of it than the joined texts
of its fields.
-/

namespace Dinero

open Sql Relation HashChain

/-! ## JSON -/

/-- `serde_json`, as far as the log needs it: the objects it is given, their
text, and what a text is read as. -/
class SerdeJson where
  Object : Type
  /-- `Value::to_string`. -/
  print : Object → String
  /-- `serde_json::from_str`. -/
  parse : String → Option Object
  parse_print : ∀ v, parse (print v) = some v
  /-- `json!({ .. })` of the fields of a snapshot. -/
  ofSnapshot : AuditSnapshot → Object

/-- Objects that are their own text. -/
@[reducible] def SerdeJson.verbatim : SerdeJson where
  Object := String
  print := id
  parse := some
  parse_print _ := rfl
  ofSnapshot _ := "{}"

/-! ## rows -/

/-- The chain's starting hash. -/
def genesisHash : String := String.ofList (List.replicate 64 '0')

/-- The columns of a row that say something; JSON columns hold text. -/
structure AuditContent where
  id : String
  actorType : Option String
  actorId : Option String
  action : Option String
  resourceType : Option String
  resourceId : Option String
  beforeJson : Option String
  afterJson : Option String
  createdAt : Int
deriving DecidableEq, Repr

/-- A row as it is stored. -/
structure AuditRecord extends AuditContent where
  prevHash : String
  rowHash : String
deriving DecidableEq, Repr

instance : Keyed AuditRecord String := ⟨(·.id)⟩

section Chain

variable [Extern] [SerdeJson]

/-- A row as the program handles it. -/
structure AuditEntry where
  id : String
  actorType : Option String
  actorId : Option String
  action : Option String
  resourceType : Option String
  resourceId : Option String
  beforeJson : Option SerdeJson.Object
  afterJson : Option SerdeJson.Object
  createdAt : Int

/-- What is hashed of a row: its fields one after the other, absent values as
empty text. -/
def AuditEntry.text (row : AuditEntry) : String :=
  row.id ++ row.actorType.getD "" ++ row.actorId.getD "" ++ row.action.getD "" ++
    row.resourceType.getD "" ++ row.resourceId.getD "" ++
    (row.beforeJson.map SerdeJson.print).getD "" ++ (row.afterJson.map SerdeJson.print).getD "" ++
    formatDateTime row.createdAt

/-- Computes a row's hash over its content and its predecessor's hash. -/
def computeRowHash (prevHash : String) (row : AuditEntry) : String :=
  sha256Hex (prevHash ++ row.text)

def conversionFailed : SqlError := .anyhow "Conversion error from type Text"

/-- A JSON column, read back. -/
def readJson : Option String → Except SqlError (Option SerdeJson.Object)
  | none => .ok none
  | some text => match SerdeJson.parse text with
    | some v => .ok (some v)
    | none => .error conversionFailed

def AuditContent.read (r : AuditContent) : Except SqlError AuditEntry := do
  let before ← readJson r.beforeJson
  let after ← readJson r.afterJson
  return { r with beforeJson := before, afterJson := after }

/-- The walk of `verify_chain` from the hash it expects next. -/
def verifyFrom (expected : String) : List AuditRecord → Except SqlError Bool
  | [] => .ok true
  | r :: rows =>
    match r.read with
    | .error e => .error e
    | .ok row =>
      if r.prevHash ≠ expected then .ok false
      else if computeRowHash r.prevHash row ≠ r.rowHash then .ok false
      else verifyFrom r.rowHash rows

/-- Recomputes the chain and reports whether it is intact. -/
def verifyChain (rows : List AuditRecord) : Except SqlError Bool := verifyFrom genesisHash rows

/-! ## the writers -/

/-- Append an entry, linking it to the current chain head.  The time that is
hashed is the caller's, the time that is stored the column's default. -/
def insertEntry (row : AuditEntry) (now : Int) (T : Table AuditRecord) :
    Except SqlError (Unit × Table AuditRecord) :=
  let prevHash := (T.rows.getLast?.map (·.rowHash)).getD genesisHash
  match T.insert? { row with
    beforeJson := row.beforeJson.map SerdeJson.print
    afterJson := row.afterJson.map SerdeJson.print
    createdAt := now
    prevHash := prevHash
    rowHash := computeRowHash prevHash row } with
  | some T' => .ok ((), T')
  | none => .error (uniqueFailed "audit_log.id")

/-- The `INSERT INTO audit_log` of the reconciliation code: the two hashes are
the columns' defaults. -/
def insertBare (r : AuditLogRow) (now : Int) (T : Table AuditRecord) :
    Except SqlError (Unit × Table AuditRecord) :=
  match T.insert? {
    id := r.id
    actorType := some r.actorType
    actorId := some r.actorId
    action := some r.action
    resourceType := some r.resourceType
    resourceId := some r.resourceId
    beforeJson := r.beforeJson.map (SerdeJson.print ∘ SerdeJson.ofSnapshot)
    afterJson := r.afterJson.map (SerdeJson.print ∘ SerdeJson.ofSnapshot)
    createdAt := now
    prevHash := genesisHash
    rowHash := "" } with
  | some T' => .ok ((), T')
  | none => .error (uniqueFailed "audit_log.id")

/-- A write to the log, by one way or the other. -/
inductive AuditWrite
  | entry (row : AuditEntry)
  | bare (r : AuditLogRow)

/-- The log after a write; one that fails leaves it as it was. -/
def AuditWrite.run (now : Int) (T : Table AuditRecord) (w : AuditWrite) : Table AuditRecord :=
  match (match w with
    | .entry row => insertEntry row now T
    | .bare r => insertBare r now T) with
  | .ok (_, T') => T'
  | .error _ => T

/-! ## the log as a hash chain -/

/-- What is hashed of a stored row, if its JSON can be read. -/
def AuditContent.text? (r : AuditContent) : Option String :=
  match r.read with
  | .ok row => some row.text
  | .error _ => none

/-- The digest of a content behind a hash. -/
def rowDigest (prevHash : String) (content : AuditContent) : String :=
  sha256Hex (prevHash ++ content.text?.getD "")

def AuditRecord.link (r : AuditRecord) : Link AuditContent String where
  prev := r.prevHash
  content := r.toAuditContent
  hash := r.rowHash

def Readable (rows : List AuditRecord) : Prop := ∀ r ∈ rows, ∃ text, r.text? = some text

/-- One row of the walk. -/
theorem verifyFrom_cons {expected : String} {r : AuditRecord} {rows : List AuditRecord}
    {text : String} (htext : r.text? = some text) :
    verifyFrom expected (r :: rows) =
      if r.prevHash = expected ∧ rowDigest r.prevHash r.toAuditContent = r.rowHash then
        verifyFrom r.rowHash rows
      else .ok false := by
  rw [rowDigest, htext, Option.getD_some]
  unfold AuditContent.text? at htext
  rcases hread : r.read with e | row
  · simp [hread] at htext
  · obtain rfl : row.text = text := by simpa [hread] using htext
    simp only [verifyFrom, hread, computeRowHash]
    by_cases hprev : r.prevHash = expected
    · simp [hprev]
    · simp [hprev]

theorem verifyFrom_unreadable {expected : String} {r : AuditRecord} {rows : List AuditRecord}
    (htext : r.text? = none) : ∃ e, verifyFrom expected (r :: rows) = .error e := by
  unfold AuditContent.text? at htext
  rcases hread : r.read with e | row
  · exact ⟨e, by simp only [verifyFrom, hread]⟩
  · simp [hread] at htext

/-- The walk accepts exactly the readable chains. -/
theorem verifyFrom_iff {expected : String} {rows : List AuditRecord} :
    verifyFrom expected rows = .ok true ↔
      Readable rows ∧ Intact rowDigest expected (rows.map (·.link)) := by
  induction rows generalizing expected with
  | nil => simp [verifyFrom, Readable, Intact]
  | cons r rows ih =>
    rcases htext : r.text? with _ | text
    · obtain ⟨e, he⟩ : ∃ e, verifyFrom expected (r :: rows) = .error e :=
        verifyFrom_unreadable htext
      rw [he]
      constructor
      · simp
      · rintro ⟨hread, -⟩
        obtain ⟨text, h⟩ := hread r List.mem_cons_self
        rw [htext] at h
        simp at h
    · have hreadable : Readable (r :: rows) ↔ Readable rows := by simp [Readable, htext]
      rw [verifyFrom_cons htext, List.map_cons, Intact, hreadable]
      by_cases hlink : r.prevHash = expected ∧ rowDigest r.prevHash r.toAuditContent = r.rowHash
      · rw [if_pos hlink, ih]
        exact ⟨fun h => ⟨h.1, hlink.1, hlink.2, h.2⟩, fun h => ⟨h.1, h.2.2.2⟩⟩
      · rw [if_neg hlink]
        exact ⟨fun h => by simp at h, fun h => absurd ⟨h.2.1, h.2.2.1⟩ hlink⟩

/-- What it can read and does not accept it rejects. -/
theorem verifyFrom_readable {rows : List AuditRecord} (h : Readable rows) (expected : String) :
    verifyFrom expected rows = .ok true ∨ verifyFrom expected rows = .ok false := by
  induction rows generalizing expected with
  | nil => exact .inl rfl
  | cons r rows ih =>
    obtain ⟨text, htext⟩ := h r List.mem_cons_self
    rw [verifyFrom_cons htext]
    split
    · exact ih (fun x hx => h x (List.mem_cons_of_mem _ hx)) r.rowHash
    · exact .inr rfl

/-- The walk goes on where the first rows end. -/
theorem verifyFrom_append {expected : String} {xs ys : List AuditRecord}
    (h : verifyFrom expected xs = .ok true) :
    verifyFrom expected (xs ++ ys) = verifyFrom (head expected (xs.map (·.link))) ys := by
  induction xs generalizing expected with
  | nil => rfl
  | cons r xs ih =>
    obtain ⟨hread, hprev, hhash, hintact⟩ := verifyFrom_iff.mp h
    obtain ⟨text, htext⟩ := hread r List.mem_cons_self
    rw [List.cons_append, verifyFrom_cons htext, if_pos ⟨hprev, hhash⟩]
    exact ih (verifyFrom_iff.mpr ⟨fun x hx => hread x (List.mem_cons_of_mem _ hx), hintact⟩)

omit [Extern] [SerdeJson] in
theorem head_links (g : String) (rows : List AuditRecord) :
    head g (rows.map (·.link)) = (rows.getLast?.map (·.rowHash)).getD g := by
  induction rows using List.reverseRecOn with
  | nil => rfl
  | append_singleton rows r ih =>
    rw [List.map_append, head_append, List.getLast?_append_of_ne_nil _ (List.cons_ne_nil _ _)]
    rfl

/-! ## appending -/

omit [Extern] in
theorem readJson_print (v : Option SerdeJson.Object) :
    readJson (v.map SerdeJson.print) = .ok v := by
  cases v with
  | none => rfl
  | some v => simp [readJson, SerdeJson.parse_print]

/-- A row that is added behind an accepted log, with the hash of what is
stored, is accepted. -/
theorem verifyChain_snoc {rows : List AuditRecord} {r : AuditRecord} {text : String}
    (h : verifyChain rows = .ok true) (htext : r.text? = some text)
    (hprev : r.prevHash = (rows.getLast?.map (·.rowHash)).getD genesisHash)
    (hhash : r.rowHash = sha256Hex (r.prevHash ++ text)) :
    verifyChain (rows ++ [r]) = .ok true := by
  obtain ⟨hread, hintact⟩ := verifyFrom_iff.mp h
  refine verifyFrom_iff.mpr ⟨?_, ?_⟩
  · intro x hx
    rcases List.mem_append.mp hx with hx | hx
    · exact hread x hx
    · rw [List.mem_singleton.mp hx]
      exact ⟨text, htext⟩
  · have hlink : r.link = ⟨head genesisHash (rows.map (·.link)), r.toAuditContent,
        rowDigest (head genesisHash (rows.map (·.link))) r.toAuditContent⟩ := by
      rw [head_links, ← hprev, rowDigest, htext, Option.getD_some, ← hhash]
      rfl
    rw [List.map_append, List.map_singleton, hlink]
    exact hintact.snoc r.toAuditContent

/-- The write keeps the chain: it goes through `insert` in the very second the
entry is stamped with, or it fails. -/
def AuditWrite.Chained (T : Table AuditRecord) (now : Int) : AuditWrite → Prop
  | entry row => row.createdAt = now ∨ T.contains row.id = true
  | bare r => T.contains r.id = true

theorem insertEntry_taken {row : AuditEntry} {now : Int} {T : Table AuditRecord}
    (h : T.contains row.id = true) : ∃ e, insertEntry row now T = .error e := by
  obtain ⟨x, hx, hkey⟩ := Table.contains_iff.mp h
  unfold insertEntry
  dsimp only
  rw [Table.insert?_eq_none.mpr ⟨x, hx, hkey⟩]
  exact ⟨_, rfl⟩

omit [Extern] in
theorem insertBare_taken {r : AuditLogRow} {now : Int} {T : Table AuditRecord}
    (h : T.contains r.id = true) : ∃ e, insertBare r now T = .error e := by
  obtain ⟨x, hx, hkey⟩ := Table.contains_iff.mp h
  unfold insertBare
  rw [Table.insert?_eq_none.mpr ⟨x, hx, hkey⟩]
  exact ⟨_, rfl⟩

theorem AuditWrite.Chained.verifyChain {T : Table AuditRecord} {now : Int} {w : AuditWrite}
    (hw : w.Chained T now) (h : verifyChain T.rows = .ok true) :
    Dinero.verifyChain (w.run now T).rows = .ok true := by
  cases w with
  | bare r =>
    obtain ⟨e, he⟩ : ∃ e, insertBare r now T = .error e := insertBare_taken hw
    simpa only [AuditWrite.run, he] using h
  | entry row =>
    by_cases htaken : T.contains row.id = true
    · obtain ⟨e, he⟩ : ∃ e, insertEntry row now T = .error e := insertEntry_taken htaken
      simpa only [AuditWrite.run, he] using h
    · have hnow : row.createdAt = now := hw.resolve_right htaken
      rcases hins : insertEntry row now T with e | ⟨u, T'⟩
      · simpa only [AuditWrite.run, hins] using h
      · simp only [AuditWrite.run, hins]
        unfold insertEntry at hins
        dsimp only at hins
        split at hins
        · next T₁ hT =>
            obtain ⟨-, rfl⟩ := Prod.mk.inj (Except.ok.inj hins)
            rw [(Table.insert?_eq_some.mp hT).2]
            have htext : (AuditContent.mk row.id row.actorType row.actorId row.action
                row.resourceType row.resourceId (row.beforeJson.map SerdeJson.print)
                (row.afterJson.map SerdeJson.print) now).text? = some row.text := by
              simp only [AuditContent.text?, AuditContent.read, readJson_print, ← hnow]
              rfl
            exact verifyChain_snoc h htext rfl rfl
        · simp at hins

/-- One write after the other, each of them chained. -/
def ChainedStep (T T' : Table AuditRecord) : Prop :=
  ∃ (w : AuditWrite) (now : Int), w.Chained T now ∧ T' = w.run now T

/-- The chain holds as long as every write goes through `insert`, with the
second it is stored in.  A row that is inserted otherwise has no hash at all. -/
theorem verifyChain_run {T T' : Table AuditRecord} (h : verifyChain T.rows = .ok true)
    (hrun : ReflTransGen ChainedStep T T') : verifyChain T'.rows = .ok true := by
  induction hrun with
  | refl => exact h
  | tail _ hstep ih =>
    obtain ⟨w, now, hw, rfl⟩ := hstep
    exact hw.verifyChain ih

omit [Extern] [SerdeJson] in
/-- Logging in, with the clocks in step. -/
theorem verifyChain_login :
    letI := Extern.ascii
    letI := SerdeJson.verbatim
    let login : AuditEntry := ⟨"row_a", some "user", none, some "login", none, none, none, none, 7⟩
    verifyChain ((AuditWrite.entry login).run 7 .empty).rows = .ok true := by
  let := Extern.ascii
  let := SerdeJson.verbatim
  intro login
  exact verifyChain_run rfl (.single ⟨.entry login, 7, .inl rfl, rfl⟩)

omit [Extern] [SerdeJson] in
/-- A statement that overwrites a transaction, and an entry stamped just before
the second is over: neither leaves a chain. -/
theorem verifyChain_broken :
    letI := Extern.ascii
    letI := SerdeJson.verbatim
    let overwrite : AuditLogRow := {
      id := "row_a", actorType := "system", actorId := "reconciliation_engine"
      action := "canonical_field_overwritten_by_statement", resourceType := "transaction"
      resourceId := "t1", beforeJson := some (.statement none none none (some 100))
      afterJson := some (.statement (some "UTR1") none none (some 100)), createdAt := 0 }
    let login : AuditEntry := ⟨"row_a", some "user", none, some "login", none, none, none, none, 7⟩
    verifyChain ((AuditWrite.bare overwrite).run 7 .empty).rows = .ok false ∧
      verifyChain ((AuditWrite.entry login).run 8 .empty).rows = .ok false := by
  let := Extern.ascii
  let := SerdeJson.verbatim
  decide +kernel

/-! ## tampering -/

/-- The texts that are hashed along a log. -/
def hashInputs (rows : List AuditRecord) : List String :=
  rows.map fun r => r.prevHash ++ r.text?.getD ""

/-- SHA-256 on the texts at hand: hexadecimal, without collisions, and never
the hash the chain starts with. -/
structure ShaOn (texts : List String) : Prop where
  collisionFree : ∀ a ∈ texts, ∀ b ∈ texts, sha256Hex a = sha256Hex b → a = b
  length : ∀ a ∈ texts, (sha256Hex a).length = 64
  ne_genesis : ∀ a ∈ texts, sha256Hex a ≠ genesisHash

/-- An edit of one row's content, the hashes left as they are, is seen exactly
when the text that is hashed changes. -/
theorem verifyChain_edit {xs ys : List AuditRecord} {r : AuditRecord} {content : AuditContent}
    (h : verifyChain (xs ++ r :: ys) = .ok true)
    (hsha : ShaOn (hashInputs (xs ++ r :: ys) ++
      hashInputs (xs ++ { r with toAuditContent := content } :: ys))) :
    verifyChain (xs ++ { r with toAuditContent := content } :: ys) = .ok false ↔
      content.text? ≠ none ∧ content.text? ≠ r.text? := by
  obtain ⟨hread, hintact⟩ := verifyFrom_iff.mp h
  rw [List.map_append, List.map_cons] at hintact
  rcases htext : content.text? with _ | text
  · -- the walk ends in an error at this row
    have hxs : verifyFrom genesisHash xs = .ok true :=
      verifyFrom_iff.mpr ⟨fun x hx => hread x (List.mem_append_left _ hx),
        (intact_append.mp hintact).1⟩
    obtain ⟨e, he⟩ : ∃ e, verifyFrom (head genesisHash (xs.map (·.link)))
        ({ r with toAuditContent := content } :: ys) = .error e := verifyFrom_unreadable htext
    rw [verifyChain, verifyFrom_append hxs, he]
    simp
  · have hread' : Readable (xs ++ { r with toAuditContent := content } :: ys) := by
      intro x hx
      rcases List.mem_append.mp hx with hx | hx
      · exact hread x (List.mem_append_left _ hx)
      · rcases List.mem_cons.mp hx with rfl | hx
        · exact ⟨text, htext⟩
        · exact hread x (List.mem_append_right _ (List.mem_cons_of_mem _ hx))
    obtain ⟨old, hold⟩ := hread r (List.mem_append_right _ List.mem_cons_self)
    have hinputs : rowDigest r.prevHash content = rowDigest r.prevHash r.toAuditContent ↔
        text = old := by
      rw [rowDigest, rowDigest, htext, hold, Option.getD_some, Option.getD_some]
      constructor
      · intro hsame
        have hmem : r.prevHash ++ old ∈ hashInputs (xs ++ r :: ys) :=
          List.mem_map.mpr ⟨r, by simp, by rw [hold, Option.getD_some]⟩
        have hmem' : r.prevHash ++ text ∈
            hashInputs (xs ++ { r with toAuditContent := content } :: ys) :=
          List.mem_map.mpr ⟨{ r with toAuditContent := content }, by simp,
            by rw [htext, Option.getD_some]⟩
        exact (String.append_right_inj r.prevHash).mp (hsha.collisionFree _
          (List.mem_append_right _ hmem') _ (List.mem_append_left _ hmem) hsame)
      · exact fun hsame => by rw [hsame]
    have haccepts : verifyChain (xs ++ { r with toAuditContent := content } :: ys) = .ok true ↔
        text = old := by
      rw [verifyChain, verifyFrom_iff, and_iff_right hread', List.map_append, List.map_cons,
        ← hinputs]
      exact intact_edit hintact
    have hanswer := verifyFrom_readable hread' genesisHash
    rw [hold]
    constructor
    · intro hfalse
      refine ⟨by simp, fun hsame => ?_⟩
      rw [haccepts.mpr (Option.some.inj hsame)] at hfalse
      simp at hfalse
    · rintro ⟨-, hne⟩
      exact hanswer.resolve_left fun htrue => hne (congrArg some (haccepts.mp htrue))

omit [Extern] [SerdeJson] in
theorem AuditRecord.link_injective : Function.Injective AuditRecord.link := by
  rintro ⟨content, prev, hash⟩ ⟨content', prev', hash'⟩ h
  obtain ⟨rfl, rfl, rfl⟩ : prev = prev' ∧ content = content' ∧ hash = hash' := by
    simpa [AuditRecord.link] using h
  rfl

/-- In an accepted log of digests no hash comes twice. -/
theorem nodup_rowHash {rows : List AuditRecord}
    (hintact : Intact rowDigest genesisHash (rows.map (·.link)))
    (hsha : ShaOn (hashInputs rows)) : (digests genesisHash (rows.map (·.link))).Nodup := by
  have hinput : ∀ l ∈ rows.map (·.link), l.prev ++ l.content.text?.getD "" ∈ hashInputs rows := by
    intro l hl
    obtain ⟨r, hr, rfl⟩ := List.mem_map.mp hl
    exact List.mem_map.mpr ⟨r, hr, rfl⟩
  have hhash : ∀ l ∈ rows.map (·.link), l.hash = rowDigest l.prev l.content := by
    intro l hl
    obtain ⟨us, vs, hsplit⟩ := List.append_of_mem hl
    exact ((hsplit ▸ hintact).hash_eq).symm
  have hlength : ∀ d ∈ digests genesisHash (rows.map (·.link)), d.length = 64 := by
    intro d hd
    rcases List.mem_cons.mp hd with rfl | hd
    · decide
    · obtain ⟨l, hl, rfl⟩ := List.mem_map.mp hd
      rw [hhash l hl]
      exact hsha.length _ (hinput l hl)
  have hprev : ∀ l ∈ rows.map (·.link), l.prev.length = 64 := by
    intro l hl
    obtain ⟨us, vs, hsplit⟩ := List.append_of_mem hl
    have hplace : l.prev = head genesisHash us := (hsplit ▸ hintact).prev_eq
    rw [hplace]
    refine hlength _ ?_
    rw [hsplit]
    have hmem := head_mem genesisHash us
    rcases List.mem_cons.mp hmem with hg | hmem
    · exact List.mem_cons.mpr (.inl hg)
    · rw [digests, List.map_append]
      exact List.mem_cons_of_mem _ (List.mem_append_left _ hmem)
  refine nodup_digests hintact (fun l hl => ?_) fun l hl m hm hsame => ?_
  · rw [hhash l hl]
    exact hsha.ne_genesis _ (hinput l hl)
  · rw [hhash l hl, hhash m hm] at hsame
    have htexts := hsha.collisionFree _ (hinput l hl) _ (hinput m hm) hsame
    have hlists := congrArg String.toList htexts
    rw [String.toList_append, String.toList_append] at hlists
    exact String.toList_inj.mp (List.append_inj_left hlists ((hprev l hl).trans (hprev m hm).symm))

/-- Rows of an accepted log that are not a beginning of it are not accepted. -/
theorem verifyChain_rearranged {rows rows' : List AuditRecord} (h : verifyChain rows = .ok true)
    (hsha : ShaOn (hashInputs rows)) (hsub : ∀ r ∈ rows', r ∈ rows) (hne : ¬rows' <+: rows) :
    verifyChain rows' = .ok false := by
  obtain ⟨hread, hintact⟩ := verifyFrom_iff.mp h
  have hread' : Readable rows' := fun r hr => hread r (hsub r hr)
  refine (verifyFrom_readable hread' genesisHash).resolve_left fun htrue => hne ?_
  have hprefix := prefix_of_intact hintact (nodup_rowHash hintact hsha)
    (verifyFrom_iff.mp htrue).2 fun l hl => by
      obtain ⟨r, hr, rfl⟩ := List.mem_map.mp hl
      exact List.mem_map_of_mem (hsub r hr)
  exact (List.prefix_map_iff_of_injective AuditRecord.link_injective).mp hprefix

/-- SHA-256 on three texts: a login, a logout behind it, the login made a
logout. -/
@[reducible] def Extern.threeDigests : Extern :=
  { Extern.ascii with
    formatDateTime := fun _ => "2026-06-10 12:00:00"
    sha256Hex := fun text =>
      if text = genesisHash ++ "row_auserlogin2026-06-10 12:00:00" then
        "e76aceb795fe7b27dd905a1c8ad0a1754a6bbe217fd5a7ae3bdb8cd99178a0b2"
      else if text = "e76aceb795fe7b27dd905a1c8ad0a1754a6bbe217fd5a7ae3bdb8cd99178a0b2" ++
          "row_buserlogout2026-06-10 12:00:00" then
        "84c49f7796a75ec6895bcb983e295de4a49ad679dbf58a70752344719b526d45"
      else "e6d14cdaf0a28dfbb57ec988516c650f1e0f7165f55721b51031fc983d7f943f" }

end Chain

end Dinero
