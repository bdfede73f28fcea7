import Dinero.HexText
import Dinero.Runs

/-!
# Dinero.Downloads

The download of a model (`llm_manager.rs`, and the commands of `commands/llm.rs`).

A model is one large file.  It is written as it comes in, and a download that was
broken off, by an error or by the end of the app, is taken up where the file ends.
All of the file is hashed, and a marker beside it says that the hash was right.

The file, the marker and any number of downloads of one model make up the world; the
server may answer whatever it likes.

* `marked_is_verified` — a marker stands by a file with the right hash;
* `honest_download_verifies` — what an honest server sends is never thrown away;
* `broken_off_keeps_bytes` — nor is it asked for twice.
-/

namespace Dinero.Downloads

/-- `sha2`, in hexadecimal digits. -/
class Hasher where
  hexDigest : List UInt8 → String

/-- The contents of a file after a write, with zeros where nothing was written. -/
def writeAt (contents : List UInt8) (position : Nat) (bytes : List UInt8) : List UInt8 :=
  contents.take position ++ List.replicate (position - contents.length) 0 ++ bytes ++
    contents.drop (position + bytes.length)

theorem writeAt_length (contents bytes : List UInt8) :
    writeAt contents contents.length bytes = contents ++ bytes := by
  simp [writeAt]

/-! ## the disk -/

/-- The files that were created, and which of them has the name of the model; one that was removed
can still be written to by a download that has it open.  The marker has a name of its own. -/
structure Disk where
  files : List (List UInt8)
  dest : Option Nat
  marker : Bool
deriving DecidableEq, Repr

namespace Disk

def contents (d : Disk) (file : Nat) : List UInt8 := d.files.getD file []

/-- What is found under the name of the model. -/
def destContents (d : Disk) : List UInt8 := d.dest.elim [] d.contents

/-- `File::create`: a file that is there is emptied. -/
def create (d : Disk) : Nat × Disk :=
  match d.dest with
  | some file => (file, { d with files := d.files.set file [] })
  | none => (d.files.length, { d with files := d.files ++ [[]], dest := some d.files.length })

def write (d : Disk) (file : Nat) (contents : List UInt8) : Disk :=
  { d with files := d.files.set file contents }

/-- `remove_file`, unless the disk refused. -/
def unlink (d : Disk) (written : Bool) : Disk :=
  { d with dest := if written then none else d.dest }

/-- The name leads to a file. -/
def Valid (d : Disk) : Prop := ∀ file, d.dest = some file → file < d.files.length

theorem destContents_of_dest {d : Disk} {file : Nat} (h : d.dest = some file) :
    d.destContents = d.contents file := by
  simp [destContents, h]

@[simp] theorem create_marker (d : Disk) : d.create.2.marker = d.marker := by
  unfold create
  split <;> rfl

theorem create_dest (d : Disk) : d.create.2.dest = some d.create.1 := by
  unfold create
  split <;> simp [*]

theorem create_contents {d : Disk} : d.create.2.contents d.create.1 = [] := by
  unfold create
  split <;> simp [contents, List.getElem?_set]
  split <;> rfl

theorem Valid.create {d : Disk} (h : d.Valid) : d.create.2.Valid := by
  intro file hdest
  rw [create_dest] at hdest
  unfold Disk.create at hdest ⊢
  split at hdest <;> grind [Disk.Valid]

theorem Valid.contents_write {d : Disk} (h : d.Valid) {file : Nat} (hdest : d.dest = some file)
    (bytes : List UInt8) : (d.write file bytes).contents file = bytes := by
  simp [contents, write, h file hdest]

theorem Valid.write {d : Disk} (h : d.Valid) (file : Nat) (bytes : List UInt8) :
    (d.write file bytes).Valid := by
  intro file' hdest
  simpa [Disk.write] using h file' hdest

theorem Valid.unlink {d : Disk} (h : d.Valid) (written : Bool) : (d.unlink written).Valid := by
  intro file hdest
  cases written <;> simp [Disk.unlink] at hdest ⊢
  exact h file hdest

end Disk

/-! ## one download -/

/-- How far a download has come.  `resumeFrom` is the length the file had, `start` the byte the
response begins with and `received` how many of its bytes have come. -/
inductive Phase where
  | starting
  | requesting (resumeFrom : Nat)
  | hashing (resumeFrom file : Nat) (hashed : List UInt8)
  | reopening (resumeFrom : Nat) (hashed : List UInt8)
  | streaming (start received file : Nat) (hashed : List UInt8)
  | verifying (hashed : List UInt8)
  | discarding
  | unmarking
  | ended (error : Option String)
deriving DecidableEq, Repr

def Phase.live : Phase → Bool
  | .ended _ => false
  | _ => true

structure Download where
  cancelled : Bool
  phase : Phase
deriving DecidableEq, Repr

inductive Action where
  | metadata
  | respond (partialContent : Bool)
  /-- At most `n + 1` bytes of the file are read. -/
  | read (n : Nat)
  | reopen
  | chunk (bytes : List UInt8)
  | streamEnd
  /-- The hash is compared, or a removal made; `written` unless the disk refused. -/
  | settle (written : Bool)
  /-- An error of the network or the disk, wherever `?` ends the function. -/
  | fail (reason : String)
deriving DecidableEq, Repr

section

variable [Hasher] (expectedHash : String)

/-- A hash to compare with is configured. -/
def checks : Bool := expectedHash != "" && !"PLACEHOLDER_".isPrefixOf expectedHash

def validationFailed (actualHash : String) : String :=
  "SHA-256 validation failed. Expected: " ++ expectedHash ++ ", got: " ++ actualHash

/-- The last steps of `download_file_with_hash`. -/
def settle (d : Disk) (written : Bool) : Phase → Disk × Phase
  | .verifying hashed =>
    if checks expectedHash then
      if Hasher.hexDigest hashed = expectedHash then
        ({ d with marker := d.marker || written }, .ended none)
      else
        (d.unlink written,
          .ended (some (validationFailed expectedHash (Hasher.hexDigest hashed))))
    else (d, .ended none)
  | .discarding => (d.unlink written, .unmarking)
  | .unmarking => ({ d with marker := d.marker && !written }, .ended none)
  | phase => (d, phase)

/-- One step of `download_file_with_hash`. -/
def advance (d : Disk) (cancelled : Bool) : Action → Phase → Disk × Phase
  | .metadata, .starting => (d, .requesting d.destContents.length)
  | .respond partialContent, .requesting resumeFrom =>
    if 0 < resumeFrom ∧ partialContent then
      match d.dest with
      | some file => (d, .hashing resumeFrom file [])
      | none => (d, .ended (some "No such file or directory (os error 2)"))
    else (d.create.2, .streaming 0 0 d.create.1 [])
  | .read n, .hashing resumeFrom file hashed =>
    let rest := (d.contents file).drop hashed.length
    if rest = [] then (d, .reopening resumeFrom hashed)
    else (d, .hashing resumeFrom file (hashed ++ rest.take (n + 1)))
  | .reopen, .reopening resumeFrom hashed =>
    match d.dest with
    | some file => (d, .streaming resumeFrom 0 file hashed)
    | none => (d, .ended (some "No such file or directory (os error 2)"))
  | .chunk bytes, .streaming start received file hashed =>
    if cancelled then (d, .discarding)
    else
      -- a file that was taken up is written to at its end
      let old := d.contents file
      let new := if 0 < start then old ++ bytes else writeAt old received bytes
      (d.write file new, .streaming start (received + bytes.length) file (hashed ++ bytes))
  | .streamEnd, .streaming _ _ _ hashed => (d, .verifying hashed)
  | .settle written, phase => settle expectedHash d written phase
  | .fail reason, phase =>
    match phase with
    | .verifying _ | .discarding | .unmarking | .ended _ => (d, phase)
    | _ => (d, .ended (some reason))
  | _, phase => (d, phase)

end

/-! ## the world -/

/-- `registry` is the download that a cancellation reaches: the one registered last, unless some
download of the model has ended since. -/
structure World where
  disk : Disk
  registry : Option Nat
  downloads : List Download
deriving DecidableEq, Repr

/-- Nothing was downloaded yet. -/
def World.init : World := ⟨⟨[], none, false⟩, none, []⟩

inductive Event where
  | start
  | act (i : Nat) (action : Action)
  | cancel
  /-- `delete_model`; the app may end before the marker is removed. -/
  | delete (markerToo : Bool)
  | quit
deriving DecidableEq, Repr

/-- What `get_model_path` looks for first. -/
def World.verified (w : World) : Bool := w.disk.dest.isSome && w.disk.marker

/-- No download is under way. -/
def World.Idle (w : World) : Prop := ∀ t ∈ w.downloads, t.phase.live = false

instance (w : World) : Decidable w.Idle :=
  inferInstanceAs (Decidable (∀ t ∈ w.downloads, t.phase.live = false))

section

variable [Hasher] (expectedHash : String)

def World.step (w : World) : Event → World
  | .start =>
    { w with
      registry := some w.downloads.length
      downloads := w.downloads ++ [⟨false, .starting⟩] }
  | .act i action =>
    match w.downloads[i]? with
    | some t =>
      let (disk, phase) := advance expectedHash w.disk t.cancelled action t.phase
      { disk
        registry := if t.phase.live && !phase.live then none else w.registry
        downloads := w.downloads.set i { t with phase } }
    | none => w
  | .cancel =>
    match w.registry with
    | some i => { w with downloads := w.downloads.modify i fun t => { t with cancelled := true } }
    | none => w
  | .delete markerToo =>
    let disk := w.disk.unlink true
    { w with disk := { disk with marker := disk.marker && !markerToo } }
  | .quit => { w with registry := none, downloads := [] }

def World.run (w : World) (events : List Event) : World := events.foldl (World.step expectedHash) w

end

/-- As the settings offer it: one download at a time, and none of a model that is there; a model is
deleted as a whole, while no download is under way. -/
def Careful (w : World) : Event → Prop
  | .start => w.Idle ∧ w.verified = false
  | .delete markerToo => w.Idle ∧ markerToo = true
  | _ => True

instance (w : World) : (e : Event) → Decidable (Careful w e)
  | .start => inferInstanceAs (Decidable (_ ∧ _))
  | .delete _ => inferInstanceAs (Decidable (_ ∧ _))
  | .act _ _ | .cancel | .quit => isTrue trivial

/-! ## what a download knows -/

/-- What a download knows of the file while it is the only one. -/
def Phase.Knows (d : Disk) : Phase → Prop
  | .requesting resumeFrom => d.destContents.length = resumeFrom
  | .hashing resumeFrom file hashed =>
    d.dest = some file ∧ (d.contents file).length = resumeFrom ∧ hashed <+: d.contents file
  | .reopening resumeFrom hashed => d.destContents = hashed ∧ hashed.length = resumeFrom
  | .streaming start received file hashed =>
    d.dest = some file ∧ d.contents file = hashed ∧ start + received = hashed.length
  | .verifying hashed => d.dest.isSome ∧ d.destContents = hashed
  | _ => True

section

variable [Hasher] {expectedHash : String} {d : Disk} {phase : Phase}

variable (expectedHash) in
/-- The marker is right, and there is none while a download is under way. -/
structure Trusted (d : Disk) (phase : Phase) : Prop where
  valid : d.Valid
  marked : d.marker = true → d.dest.isSome ∧ Hasher.hexDigest d.destContents = expectedHash
  unmarked : phase.live → d.marker = false
  known : phase.Knows d

theorem Trusted.of_unmarked (hvalid : d.Valid) (hmarker : d.marker = false)
    (hknown : phase.Knows d) : Trusted expectedHash d phase :=
  ⟨hvalid, fun h => by simp [hmarker] at h, fun _ => hmarker, hknown⟩

theorem advance_ended (h : phase.live = false) (cancelled : Bool) (action : Action) :
    advance expectedHash d cancelled action phase = (d, phase) := by
  cases phase with
  | ended error => cases action <;> rfl
  | _ => cases h

/-- Whichever way the file was opened, what comes is written behind what was hashed. -/
theorem Trusted.written {start received file : Nat} {hashed : List UInt8}
    (h : Trusted expectedHash d (.streaming start received file hashed)) (bytes : List UInt8) :
    (if 0 < start then d.contents file ++ bytes else writeAt (d.contents file) received bytes) =
      hashed ++ bytes := by
  obtain ⟨-, hcontents, hlength⟩ := h.known
  split
  · rw [hcontents]
  · have hend : received = hashed.length := by omega
    rw [hcontents, hend, writeAt_length]

theorem Trusted.settle (h : Trusted expectedHash d phase) (written : Bool) :
    Trusted expectedHash (settle expectedHash d written phase).1
      (settle expectedHash d written phase).2 := by
  cases phase with
  | verifying hashed =>
    have hmarker := h.unmarked rfl
    obtain ⟨hdest, hcontents⟩ := h.known
    by_cases hchecks : checks expectedHash = true
    · by_cases hhash : Hasher.hexDigest hashed = expectedHash
      · simp only [Downloads.settle, hchecks, hhash, if_true]
        exact ⟨h.valid, fun _ => ⟨hdest, hcontents ▸ hhash⟩, by simp [Phase.live], trivial⟩
      · simp only [Downloads.settle, hchecks, hhash, if_true, if_false]
        exact .of_unmarked (h.valid.unlink written) hmarker trivial
    · simp only [Downloads.settle, hchecks]
      exact .of_unmarked h.valid hmarker trivial
  | discarding => exact .of_unmarked (h.valid.unlink written) (h.unmarked rfl) trivial
  | unmarking => exact .of_unmarked h.valid (by simp [Downloads.settle, h.unmarked rfl]) trivial
  | _ => exact h

/-- **Every step** keeps to what is known. -/
theorem Trusted.advance (h : Trusted expectedHash d phase) (cancelled : Bool) (action : Action) :
    Trusted expectedHash (advance expectedHash d cancelled action phase).1
      (advance expectedHash d cancelled action phase).2 := by
  unfold Downloads.advance
  split
  · exact .of_unmarked h.valid (h.unmarked rfl) rfl
  · next partialContent resumeFrom =>
    have hmarker := h.unmarked rfl
    split
    · split
      · next file hdest =>
        have hlength := h.known
        rw [Phase.Knows, Disk.destContents_of_dest hdest] at hlength
        exact .of_unmarked h.valid hmarker ⟨hdest, hlength, List.nil_prefix⟩
      · exact .of_unmarked h.valid hmarker trivial
    · refine .of_unmarked h.valid.create (by simpa using hmarker) ⟨d.create_dest, ?_, rfl⟩
      exact Disk.create_contents
  · next n resumeFrom file hashed =>
    have hmarker := h.unmarked rfl
    obtain ⟨hdest, hlength, hashed', hrest⟩ := h.known
    simp only
    split
    · next hend =>
      have hall : d.contents file = hashed := by
        rw [← hrest, List.drop_left] at hend
        rw [← hrest, hend, List.append_nil]
      refine .of_unmarked h.valid hmarker ⟨?_, hall ▸ hlength⟩
      rw [Disk.destContents_of_dest hdest, hall]
    · refine .of_unmarked h.valid hmarker ⟨hdest, hlength, ?_⟩
      rw [← hrest, List.drop_left]
      exact (List.prefix_append_right_inj hashed).mpr (List.take_prefix _ _)
  · next resumeFrom hashed =>
    have hmarker := h.unmarked rfl
    obtain ⟨hcontents, hlength⟩ := h.known
    split
    · next file hdest =>
      rw [Disk.destContents_of_dest hdest] at hcontents
      exact .of_unmarked h.valid hmarker ⟨hdest, hcontents, hlength.symm⟩
    · exact .of_unmarked h.valid hmarker trivial
  · next bytes start received file hashed =>
    have hmarker := h.unmarked rfl
    obtain ⟨hdest, hcontents, hlength⟩ := h.known
    split
    · exact .of_unmarked h.valid hmarker trivial
    · simp only [h.written]
      refine .of_unmarked (h.valid.write file _) hmarker
        ⟨hdest, h.valid.contents_write hdest _, ?_⟩
      rw [List.length_append]
      omega
  · next start received file hashed =>
    obtain ⟨hdest, hcontents, _⟩ := h.known
    refine .of_unmarked h.valid (h.unmarked rfl) ⟨by simp [hdest], ?_⟩
    rw [Disk.destContents_of_dest hdest, hcontents]
  · exact h.settle _
  · split
    · exact h
    · exact h
    · exact h
    · exact h
    · next hlive _ _ _ =>
      have hmarker : d.marker = false := h.unmarked (by cases phase <;> grind [Phase.live])
      exact .of_unmarked h.valid hmarker trivial
  · exact h

/-- A download that has ended knows nothing. -/
theorem Trusted.of_ended (h : Trusted expectedHash d (.ended none)) (hended : phase.live = false) :
    Trusted expectedHash d phase := by
  cases phase with
  | ended error => exact ⟨h.valid, h.marked, h.unmarked, trivial⟩
  | _ => cases hended

/-! ## every run, whatever the server answers -/

/-- The download is under way. -/
def World.Live (w : World) (i : Nat) : Prop :=
  ∃ t : Download, w.downloads[i]? = some t ∧ t.phase.live

variable (expectedHash) in
/-- What every careful run leaves. -/
structure World.Sound (w : World) : Prop where
  quiet : Trusted expectedHash w.disk (.ended none)
  trusted : ∀ t ∈ w.downloads, Trusted expectedHash w.disk t.phase
  single : ∀ i j, w.Live i → w.Live j → i = j

variable {w : World}

omit [Hasher] in
theorem World.Idle.not_live (h : w.Idle) (i : Nat) : ¬ w.Live i := by
  rintro ⟨t, ht, hlive⟩
  simp [h t (List.mem_of_getElem? ht)] at hlive

/-- A world without downloads under way is sound if its disk is. -/
theorem World.Sound.of_idle (hquiet : Trusted expectedHash w.disk (.ended none)) (hidle : w.Idle) :
    w.Sound expectedHash where
  quiet := hquiet
  trusted t ht := hquiet.of_ended (hidle t ht)
  single i _ hi := absurd hi (hidle.not_live i)

theorem World.sound_init : World.init.Sound expectedHash :=
  .of_idle (.of_unmarked (by simp [World.init, Disk.Valid]) rfl trivial)
    (by simp [World.init, Idle])

theorem World.Sound.start (h : w.Sound expectedHash) (hcareful : Careful w .start) :
    (w.step expectedHash .start).Sound expectedHash := by
  obtain ⟨hidle, hverified⟩ := hcareful
  have hmarker : w.disk.marker = false := by
    have hmarked := h.quiet.marked
    grind [World.verified]
  have hlast : ∀ i, (w.step expectedHash .start).Live i → i = w.downloads.length := by
    rintro i ⟨t, ht, hlive⟩
    simp only [World.step, List.getElem?_append] at ht
    split at ht
    · exact absurd ⟨t, ht, hlive⟩ (hidle.not_live i)
    · grind
  refine ⟨h.quiet, fun t ht => ?_, fun i j hi hj => (hlast i hi).trans (hlast j hj).symm⟩
  rcases List.mem_append.mp ht with hold | hnew
  · exact h.trusted t hold
  · obtain rfl := List.mem_singleton.mp hnew
    exact .of_unmarked h.quiet.valid hmarker trivial

theorem World.Sound.act (h : w.Sound expectedHash) (i : Nat) (action : Action) :
    (w.step expectedHash (.act i action)).Sound expectedHash := by
  cases ht : w.downloads[i]? with
  | none => simpa only [World.step, ht] using h
  | some t =>
    by_cases hlive : t.phase.live = true
    · have hafter := (h.trusted t (List.mem_of_getElem? ht)).advance t.cancelled action
      have hquiet : Trusted expectedHash (w.step expectedHash (.act i action)).disk
          (.ended none) := by
        simp only [World.step, ht]
        exact ⟨hafter.valid, hafter.marked, by simp [Phase.live], trivial⟩
      -- whatever is under way afterwards is this download
      have hset : ∀ j u, (w.step expectedHash (.act i action)).downloads[j]? = some u →
          u.phase.live → j = i ∧ u.phase = (advance expectedHash w.disk t.cancelled action
            t.phase).2 := by
        intro j u hu hliveu
        simp only [World.step, ht, List.getElem?_set] at hu
        split at hu
        · grind
        · have hsame := h.single j i ⟨u, hu, hliveu⟩ ⟨t, ht, hlive⟩
          grind
      refine ⟨hquiet, fun u hu => ?_, fun j k hj hk => ?_⟩
      · obtain ⟨j, hj⟩ := List.getElem?_of_mem hu
        by_cases hliveu : u.phase.live = true
        · rw [(hset j u hj hliveu).2]
          simpa only [World.step, ht] using hafter
        · exact hquiet.of_ended (by simpa using hliveu)
      · obtain ⟨u, hu, hliveu⟩ := hj
        obtain ⟨u', hu', hliveu'⟩ := hk
        rw [(hset j u hu hliveu).1, (hset k u' hu' hliveu').1]
    · have hended : t.phase.live = false := by simpa using hlive
      have hsame : w.downloads.set i t = w.downloads := List.ext_getElem? fun j => by
        simp only [List.getElem?_set]
        grind
      simp only [World.step, ht, advance_ended hended, hsame]
      exact ⟨h.quiet, h.trusted, h.single⟩

/-- **Every careful event** keeps the world sound. -/
theorem World.Sound.step (h : w.Sound expectedHash) {e : Event} (hcareful : Careful w e) :
    (w.step expectedHash e).Sound expectedHash := by
  cases e with
  | start => exact h.start hcareful
  | act i action => exact h.act i action
  | cancel =>
    simp only [World.step]
    split
    · next i hi =>
      have hold : ∀ (j : Nat) (u : Download),
          (w.downloads.modify i fun t => { t with cancelled := true })[j]? = some u →
            ∃ t : Download, w.downloads[j]? = some t ∧ t.phase = u.phase := by
        intro j u hu
        grind
      refine ⟨h.quiet, fun u hu => ?_, fun j k hj hk => ?_⟩
      · obtain ⟨j, hj⟩ := List.getElem?_of_mem hu
        obtain ⟨t, ht, hphase⟩ := hold j u hj
        exact hphase ▸ h.trusted t (List.mem_of_getElem? ht)
      · obtain ⟨u, hu, hliveu⟩ := hj
        obtain ⟨u', hu', hliveu'⟩ := hk
        obtain ⟨t, ht, hphase⟩ := hold j u hu
        obtain ⟨t', ht', hphase'⟩ := hold k u' hu'
        exact h.single j k ⟨t, ht, hphase ▸ hliveu⟩ ⟨t', ht', hphase' ▸ hliveu'⟩
    · exact h
  | delete markerToo =>
    obtain ⟨hidle, rfl⟩ := hcareful
    refine .of_idle (.of_unmarked ?_ (by simp [World.step]) trivial) hidle
    exact h.quiet.valid.unlink true
  | quit => exact .of_idle h.quiet (by simp [World.step, World.Idle])

/-- **A marker stands by a file with the right hash.**  However often downloads were begun, broken
off, cancelled and deleted, and whatever the server has answered. -/
theorem marked_is_verified {events : List Event}
    (hcareful : Runs.Guarded (World.step expectedHash) Careful World.init events)
    (hmarker : (World.init.run expectedHash events).disk.marker = true) :
    (World.init.run expectedHash events).disk.dest.isSome = true ∧
      Hasher.hexDigest (World.init.run expectedHash events).disk.destContents = expectedHash :=
  have hsound : (World.init.run expectedHash events).Sound expectedHash :=
    hcareful.invariant (fun _ _ h he => h.step he) World.sound_init
  hsound.quiet.marked hmarker

/-! ## an honest server -/

variable {artefact : List UInt8}

/-- The response goes on with the bytes of the model, and does not end before they do. -/
def Phase.Serves (artefact : List UInt8) : Phase → Action → Prop
  | .streaming start received _ _, .chunk bytes => bytes <+: artefact.drop (start + received)
  | .streaming start received _ _, .streamEnd => start + received = artefact.length
  | _, _ => True

instance decidableServes (artefact : List UInt8) :
    (phase : Phase) → (action : Action) → Decidable (phase.Serves artefact action) := by
  intro phase action
  unfold Phase.Serves
  split <;> infer_instance

/-- A careful event, and an honest one. -/
def Honest (artefact : List UInt8) (w : World) (e : Event) : Prop :=
  Careful w e ∧ match e with
    | .act i action => ∀ t ∈ w.downloads[i]?, t.phase.Serves artefact action
    | _ => True

instance (artefact : List UInt8) (w : World) (e : Event) : Decidable (Honest artefact w e) := by
  unfold Honest
  cases e <;> infer_instance

/-- The file begins as the model does, and is hashed when it is all there. -/
structure Faithful (artefact : List UInt8) (d : Disk) (phase : Phase) : Prop where
  begins : d.destContents <+: artefact
  complete : ∀ hashed, phase = .verifying hashed → hashed = artefact

omit [Hasher] in
theorem Faithful.unlink (h : d.destContents <+: artefact) (written : Bool) :
    (d.unlink written).destContents <+: artefact := by
  cases written with
  | true => exact List.nil_prefix
  | false => exact h

theorem Faithful.settle (h : Faithful artefact d phase) (written : Bool) :
    Faithful artefact (Downloads.settle expectedHash d written phase).1
      (Downloads.settle expectedHash d written phase).2 := by
  cases phase with
  | verifying hashed =>
    simp only [Downloads.settle]
    split
    · split
      · exact ⟨h.begins, by simp⟩
      · exact ⟨Faithful.unlink h.begins written, by simp⟩
    · exact ⟨h.begins, by simp⟩
  | discarding => exact ⟨Faithful.unlink h.begins written, by simp [Downloads.settle]⟩
  | unmarking => exact ⟨h.begins, by simp [Downloads.settle]⟩
  | _ => exact h

theorem Faithful.advance (h : Faithful artefact d phase) (htrusted : Trusted expectedHash d phase)
    {action : Action} (hserves : phase.Serves artefact action) (cancelled : Bool) :
    Faithful artefact (Downloads.advance expectedHash d cancelled action phase).1
      (Downloads.advance expectedHash d cancelled action phase).2 := by
  unfold Downloads.advance
  split
  · exact ⟨h.begins, by simp⟩
  · split
    · split <;> exact ⟨h.begins, by simp⟩
    · refine ⟨?_, by simp⟩
      rw [Disk.destContents_of_dest d.create_dest, Disk.create_contents]
      exact List.nil_prefix
  · simp only
    split <;> exact ⟨h.begins, by simp⟩
  · split <;> exact ⟨h.begins, by simp⟩
  · next bytes start received file hashed =>
    obtain ⟨hdest, hcontents, hlength⟩ := htrusted.known
    split
    · exact ⟨h.begins, by simp⟩
    · obtain ⟨rest, hrest⟩ : hashed <+: artefact := by
        rw [← hcontents, ← Disk.destContents_of_dest hdest]
        exact h.begins
      rw [Phase.Serves, hlength, ← hrest, List.drop_left] at hserves
      simp only [htrusted.written]
      refine ⟨?_, by simp⟩
      rw [Disk.destContents_of_dest (d := d.write file _) hdest,
        htrusted.valid.contents_write hdest, ← hrest]
      exact (List.prefix_append_right_inj hashed).mpr hserves
  · next start received file hashed =>
    obtain ⟨hdest, hcontents, hlength⟩ := htrusted.known
    refine ⟨h.begins, fun hashed' hsame => ?_⟩
    obtain rfl := Phase.verifying.inj hsame
    rw [← hcontents, ← Disk.destContents_of_dest hdest]
    refine h.begins.eq_of_length ?_
    rw [Disk.destContents_of_dest hdest, hcontents, ← hlength]
    exact hserves
  · exact h.settle _
  · split
    · exact h
    · exact h
    · exact h
    · exact h
    · exact ⟨h.begins, by simp⟩
  · exact h

variable (expectedHash artefact) in
/-- What every honest run leaves. -/
structure World.Faithful (w : World) : Prop where
  sound : w.Sound expectedHash
  begins : w.disk.destContents <+: artefact
  complete : ∀ t ∈ w.downloads, ∀ hashed, t.phase = .verifying hashed → hashed = artefact

theorem World.faithful_init : World.init.Faithful expectedHash artefact :=
  ⟨World.sound_init, List.nil_prefix, by simp [World.init]⟩

/-- **Every honest event** leaves a file that begins as the model does. -/
theorem World.Faithful.step (h : w.Faithful expectedHash artefact) {e : Event}
    (hhonest : Honest artefact w e) : (w.step expectedHash e).Faithful expectedHash artefact := by
  have hsound := h.sound.step hhonest.1
  cases e with
  | start =>
    refine ⟨hsound, h.begins, fun t ht hashed hphase => ?_⟩
    rcases List.mem_append.mp ht with hold | hnew
    · exact h.complete t hold hashed hphase
    · obtain rfl := List.mem_singleton.mp hnew
      cases hphase
  | act i action =>
    cases ht : w.downloads[i]? with
    | none => simpa only [World.step, ht] using h
    | some t =>
      have hmem := List.mem_of_getElem? ht
      have hafter := Faithful.advance ⟨h.begins, h.complete t hmem⟩ (h.sound.trusted t hmem)
        (hhonest.2 t ht) t.cancelled
      refine ⟨hsound, by simpa only [World.step, ht] using hafter.begins,
        fun u hu hashed hphase => ?_⟩
      simp only [World.step, ht] at hu
      obtain hold | rfl := List.mem_or_eq_of_mem_set hu
      · exact h.complete u hold hashed hphase
      · exact hafter.complete hashed hphase
  | cancel =>
    refine ⟨hsound, ?_, fun u hu hashed hphase => ?_⟩
    · simp only [World.step]
      split <;> exact h.begins
    · simp only [World.step] at hu
      split at hu
      · obtain ⟨j, hj⟩ := List.getElem?_of_mem hu
        obtain ⟨t, ht, hsame⟩ : ∃ t : Download, w.downloads[j]? = some t ∧ t.phase = u.phase := by
          grind
        exact h.complete t (List.mem_of_getElem? ht) hashed (hsame.trans hphase)
      · exact h.complete u hu hashed hphase
  | delete markerToo => exact ⟨hsound, List.nil_prefix, h.complete⟩
  | quit => exact ⟨hsound, h.begins, by simp [World.step]⟩

theorem World.faithful_run {events : List Event}
    (hrun : Runs.Guarded (World.step expectedHash) (Honest artefact) World.init events) :
    (World.init.run expectedHash events).Faithful expectedHash artefact :=
  hrun.invariant (fun _ _ h he => h.step he) World.faithful_init

/-- **What an honest server sends is never thrown away.**  At any time the file is the beginning of
the model, and a download that has come to its end is found right and marked. -/
theorem honest_download_verifies (hchecks : checks expectedHash = true)
    (hhash : Hasher.hexDigest artefact = expectedHash) {events : List Event}
    (hrun : Runs.Guarded (World.step expectedHash) (Honest artefact) World.init events) :
    (World.init.run expectedHash events).disk.destContents <+: artefact ∧
      ∀ (i : Nat) (t : Download) (hashed : List UInt8),
        (World.init.run expectedHash events).downloads[i]? = some t → t.phase = .verifying hashed →
          ((World.init.run expectedHash events).step expectedHash
              (.act i (.settle true))).verified = true ∧
            ((World.init.run expectedHash events).step expectedHash
              (.act i (.settle true))).disk.destContents = artefact := by
  have hfaithful := World.faithful_run hrun
  refine ⟨hfaithful.begins, fun i t hashed ht hphase => ?_⟩
  have hmem := List.mem_of_getElem? ht
  obtain rfl := hfaithful.complete t hmem hashed hphase
  obtain ⟨hdest, hcontents⟩ : _ ∧ _ := hphase ▸ (hfaithful.sound.trusted t hmem).known
  simp only [World.step, ht, hphase, advance, settle, hchecks, hhash, if_true, World.verified,
    Bool.or_true, Bool.and_true]
  exact ⟨hdest, hcontents⟩

/-! ## what was received stays -/

/-- No download under way was cancelled. -/
def World.Steady (w : World) : Prop :=
  ∀ t ∈ w.downloads, t.phase.live → t.cancelled = false ∧ t.phase ≠ .discarding

/-- Honest, and the server can send parts; nothing is cancelled or deleted. -/
def Resuming (artefact : List UInt8) (w : World) (e : Event) : Prop :=
  Honest artefact w e ∧ match e with
    | .act _ action => action ≠ .respond false
    | .cancel | .delete _ => False
    | _ => True

instance (artefact : List UInt8) (w : World) (e : Event) : Decidable (Resuming artefact w e) := by
  unfold Resuming
  cases e <;> infer_instance

theorem Faithful.grows (h : Faithful artefact d phase) (htrusted : Trusted expectedHash d phase)
    (hhash : Hasher.hexDigest artefact = expectedHash) {action : Action}
    (hrange : action ≠ .respond false) (hsteady : phase ≠ .discarding) :
    d.destContents <+: (Downloads.advance expectedHash d false action phase).1.destContents ∧
      (Downloads.advance expectedHash d false action phase).2 ≠ .discarding := by
  unfold Downloads.advance
  split
  · exact ⟨List.prefix_rfl, by simp⟩
  · next partialContent resumeFrom =>
    split
    · split <;> exact ⟨List.prefix_rfl, by simp⟩
    · next hnew =>
      have hempty : d.destContents = [] := by
        have hlength : d.destContents.length = resumeFrom := htrusted.known
        refine List.length_eq_zero_iff.mp (hlength.trans ?_)
        cases partialContent with
        | false => exact absurd rfl hrange
        | true => simpa using hnew
      exact ⟨hempty ▸ List.nil_prefix, by simp⟩
  · simp only
    split <;> exact ⟨List.prefix_rfl, by simp⟩
  · split <;> exact ⟨List.prefix_rfl, by simp⟩
  · next bytes start received file hashed =>
    obtain ⟨hdest, hcontents, hlength⟩ := htrusted.known
    simp only [htrusted.written, Bool.false_eq_true, if_false]
    refine ⟨?_, by simp⟩
    rw [Disk.destContents_of_dest (d := d.write file _) hdest, Disk.destContents_of_dest hdest,
      htrusted.valid.contents_write hdest, hcontents]
    exact List.prefix_append _ _
  · exact ⟨List.prefix_rfl, by simp⟩
  · next written =>
    cases phase with
    | verifying hashed =>
      obtain rfl := h.complete hashed rfl
      simp only [Downloads.settle, hhash, if_true]
      split <;> exact ⟨List.prefix_rfl, by simp⟩
    | discarding => exact absurd rfl hsteady
    | unmarking => exact ⟨List.prefix_rfl, by simp [Downloads.settle]⟩
    | _ => exact ⟨List.prefix_rfl, by simp [Downloads.settle]⟩
  · split <;> exact ⟨List.prefix_rfl, by simp_all⟩
  · exact ⟨List.prefix_rfl, hsteady⟩

theorem World.Faithful.grows (h : w.Faithful expectedHash artefact) (hsteady : w.Steady)
    (hhash : Hasher.hexDigest artefact = expectedHash) {e : Event}
    (hresuming : Resuming artefact w e) :
    w.disk.destContents <+: (w.step expectedHash e).disk.destContents ∧
      (w.step expectedHash e).Steady := by
  obtain ⟨hhonest, hrange⟩ := hresuming
  cases e with
  | start =>
    refine ⟨List.prefix_rfl, fun t ht hlive => ?_⟩
    rcases List.mem_append.mp ht with hold | hnew
    · exact hsteady t hold hlive
    · obtain rfl := List.mem_singleton.mp hnew
      exact ⟨rfl, by simp⟩
  | act i action =>
    cases ht : w.downloads[i]? with
    | none => simpa only [World.step, ht] using ⟨List.prefix_rfl, hsteady⟩
    | some t =>
      have hmem := List.mem_of_getElem? ht
      simp only [World.step, ht]
      by_cases hlive : t.phase.live = true
      · obtain ⟨hcancelled, hphase⟩ := hsteady t hmem hlive
        have hgrows := Downloads.Faithful.grows ⟨h.begins, h.complete t hmem⟩
          (h.sound.trusted t hmem) hhash hrange hphase
        rw [hcancelled]
        refine ⟨hgrows.1, fun u hu hliveu => ?_⟩
        obtain hold | rfl := List.mem_or_eq_of_mem_set hu
        · exact hsteady u hold hliveu
        · exact ⟨rfl, hgrows.2⟩
      · have hended : t.phase.live = false := by simpa using hlive
        rw [advance_ended hended]
        refine ⟨List.prefix_rfl, fun u hu hliveu => ?_⟩
        obtain hold | rfl := List.mem_or_eq_of_mem_set hu
        · exact hsteady u hold hliveu
        · exact hsteady t hmem hliveu
  | cancel => exact hrange.elim
  | delete markerToo => exact hrange.elim
  | quit => exact ⟨List.prefix_rfl, by simp [World.step, World.Steady]⟩

/-- **What was received stays.**  From any time on, as long as nothing is cancelled or deleted and
the server sends what it is asked for, the file only grows, however often the app and the downloads
are broken off. -/
theorem broken_off_keeps_bytes (hhash : Hasher.hexDigest artefact = expectedHash)
    {before after : List Event}
    (hbefore : Runs.Guarded (World.step expectedHash) (Honest artefact) World.init before)
    (hsteady : (World.init.run expectedHash before).Steady)
    (hafter : Runs.Guarded (World.step expectedHash) (Resuming artefact)
      (World.init.run expectedHash before) after) :
    (World.init.run expectedHash before).disk.destContents <+:
      ((World.init.run expectedHash before).run expectedHash after).disk.destContents := by
  have hkept : ∀ (w' : World) (e : Event),
      w'.Faithful expectedHash artefact ∧ w'.Steady ∧
        (World.init.run expectedHash before).disk.destContents <+: w'.disk.destContents →
      Resuming artefact w' e → (w'.step expectedHash e).Faithful expectedHash artefact ∧
        (w'.step expectedHash e).Steady ∧ (World.init.run expectedHash before).disk.destContents <+:
          (w'.step expectedHash e).disk.destContents := by
    rintro w' e ⟨hfaithful, hsteady', hprefix⟩ hresuming
    obtain ⟨hgrown, hstill⟩ := hfaithful.grows hsteady' hhash hresuming
    exact ⟨hfaithful.step hresuming.1, hstill, hprefix.trans hgrown⟩
  exact (hafter.invariant hkept ⟨World.faithful_run hbefore, hsteady, List.prefix_rfl⟩).2.2

end

/-! ## two evenings -/

/-- A hash that shows what was hashed. -/
@[reducible] def Hasher.plain : Hasher := ⟨fun bytes => String.ofList (HexText.encode bytes)⟩

/-- The model is the bytes 1, 2 and 3; the app is quit after the first. -/
def firstEvening : List Event :=
  [.start, .act 0 .metadata, .act 0 (.respond true), .act 0 (.chunk [1]), .quit]

/-- The download is taken up with the second byte, and comes to its end. -/
def secondEvening : List Event :=
  [.start, .act 0 .metadata, .act 0 (.respond true), .act 0 (.read 7), .act 0 (.read 7),
    .act 0 .reopen, .act 0 (.chunk [2, 3]), .act 0 .streamEnd]

def bothEvenings : List Event := firstEvening ++ secondEvening

def untilMarked : List Event := bothEvenings ++ [.act 0 (.settle true)]

theorem evenings_marked :
    letI := Hasher.plain
    (World.init.run "010203" untilMarked).disk.dest.isSome = true ∧
      Hasher.hexDigest (World.init.run "010203" untilMarked).disk.destContents = "010203" := by
  have hcareful : Runs.Guarded (@World.step Hasher.plain "010203") Careful World.init
      untilMarked := by decide +kernel
  have hmarker : (@World.run Hasher.plain "010203" World.init untilMarked).disk.marker = true := by
    decide +kernel
  exact @marked_is_verified Hasher.plain "010203" untilMarked hcareful hmarker

theorem evenings_verify :
    letI := Hasher.plain
    (World.init.run "010203" bothEvenings).disk.destContents <+: [1, 2, 3] ∧
      ∀ (i : Nat) (t : Download) (hashed : List UInt8),
        (World.init.run "010203" bothEvenings).downloads[i]? = some t →
          t.phase = .verifying hashed →
          ((World.init.run "010203" bothEvenings).step "010203"
              (.act i (.settle true))).verified = true ∧
            ((World.init.run "010203" bothEvenings).step "010203"
              (.act i (.settle true))).disk.destContents = [1, 2, 3] := by
  have hhonest : Runs.Guarded (@World.step Hasher.plain "010203") (Honest [1, 2, 3])
      World.init bothEvenings := by decide +kernel
  exact @honest_download_verifies Hasher.plain "010203" [1, 2, 3] (by decide +kernel)
    (by decide +kernel) bothEvenings hhonest

theorem second_evening_keeps_bytes :
    letI := Hasher.plain
    (World.init.run "010203" firstEvening).disk.destContents <+:
      ((World.init.run "010203" firstEvening).run "010203" secondEvening).disk.destContents := by
  have hbefore : Runs.Guarded (@World.step Hasher.plain "010203") (Honest [1, 2, 3])
      World.init firstEvening := by decide +kernel
  have hafter : Runs.Guarded (@World.step Hasher.plain "010203") (Resuming [1, 2, 3])
      (@World.run Hasher.plain "010203" World.init firstEvening) secondEvening := by decide +kernel
  have hsteady : (@World.run Hasher.plain "010203" World.init firstEvening).Steady := by
    intro t ht
    cases ht
  exact @broken_off_keeps_bytes Hasher.plain "010203" [1, 2, 3] (by decide +kernel) firstEvening
    secondEvening hbefore hsteady hafter

end Dinero.Downloads
