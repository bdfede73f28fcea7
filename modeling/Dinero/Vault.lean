import Dinero.HexText
import Dinero.Runs

/-!
# Dinero.Vault

The key of the encrypted database (`db/crypto.rs`, and `init_db` in `db/mod.rs`).

The database is encrypted with a key that is derived from a base key in the
keychain and the hardware UUID of the machine.  On another machine the derived key
is another one; a launch then takes the UUID that a marker file has recorded, opens
the database as the old machine did and encrypts it anew.

A launch is cut into the writes it makes, and can end after any of them: by a
crash, or by an error.  The marker can fail to be written, or be left empty.
-/

namespace Dinero.Vault

/-- `argon2` and `bip39`. -/
class KeyLibraries where
  hashPassword : String → List UInt8 → String
  fromEntropy : List UInt8 → Option String
  parseNormalized : String → Option (List UInt8)
  /-- A phrase is read as the bytes it was made from. -/
  parse_fromEntropy : ∀ bytes phrase, fromEntropy bytes = some phrase →
    parseNormalized phrase = some bytes

/-- What `machine_uid` reports, without blanks around it. -/
structure HardwareUuid where
  text : String
deriving DecidableEq, Repr

/-- Sixteen bytes of the UUID. -/
def paddedSalt (hw : HardwareUuid) : List UInt8 :=
  let bytes := hw.text.toUTF8.data.toList.take 16
  bytes ++ List.replicate (16 - bytes.length) 0

/-! ## base keys and phrases -/

/-- A UUID, as older installs stored one, or hexadecimal digits. -/
def baseKeyToBytes (baseKey : String) : Option (List UInt8) :=
  match HexText.parseUuid baseKey.toList with
  | some bytes => some bytes
  | none => HexText.decode baseKey.toList

def bytesToBaseKey (bytes : List UInt8) : Option String :=
  if bytes.length = 16 then some (String.ofList (HexText.formatUuid bytes))
  else if bytes.length = 32 then some (String.ofList (HexText.encode bytes))
  else none

/-- A new base key, from 32 bytes of entropy. -/
def newBaseKey (random : Vector UInt8 32) : String := String.ofList (HexText.encode random.toList)

/-- A base key that some version has made. -/
inductive Made : String → Prop where
  | hex (random : Vector UInt8 32) : Made (newBaseKey random)
  | uuid (bytes : List UInt8) (hlength : bytes.length = 16) :
    Made (String.ofList (HexText.formatUuid bytes))

/-- A base key is made again from its bytes. -/
theorem Made.bytes {baseKey : String} (h : Made baseKey) :
    ∃ bytes, baseKeyToBytes baseKey = some bytes ∧ bytesToBaseKey bytes = some baseKey := by
  cases h with
  | hex random =>
    have hlength : random.toList.length = 32 := random.length_toList
    refine ⟨random.toList, ?_, ?_⟩
    · have hdigits : (HexText.encode random.toList).length = 64 := by
        rw [HexText.length_encode, hlength]
      rw [baseKeyToBytes, newBaseKey, String.toList_ofList, HexText.parseUuid_eq_none hdigits]
      exact HexText.decode_encode _
    · rw [bytesToBaseKey, hlength]
      rfl
  | uuid bytes hlength =>
    refine ⟨bytes, ?_, ?_⟩
    · rw [baseKeyToBytes, String.toList_ofList, HexText.parseUuid_formatUuid hlength]
    · rw [bytesToBaseKey, if_pos hlength]

section

variable [KeyLibraries]

def deriveDatabaseKey (baseKey : String) (hw : HardwareUuid) : String :=
  KeyLibraries.hashPassword baseKey (paddedSalt hw)

def recoveryPhrase (baseKey : String) : Option String :=
  (baseKeyToBytes baseKey).bind KeyLibraries.fromEntropy

def baseKeyFromPhrase (phrase : String) : Option String :=
  (KeyLibraries.parseNormalized phrase).bind bytesToBaseKey

/-- **The phrase of a base key gives it back.** -/
theorem Made.baseKeyFromPhrase {baseKey phrase : String} (h : Made baseKey)
    (hphrase : recoveryPhrase baseKey = some phrase) : baseKeyFromPhrase phrase = some baseKey := by
  obtain ⟨bytes, hbytes, hmade⟩ := h.bytes
  rw [recoveryPhrase, hbytes, Option.bind_some] at hphrase
  rw [Vault.baseKeyFromPhrase, KeyLibraries.parse_fromEntropy bytes phrase hphrase,
    Option.bind_some, hmade]

/-! ## the world -/

/-- The database file: what it is encrypted with, and what it holds. -/
structure DbFile (α : Type) where
  key : String
  contents : α
deriving DecidableEq, Repr

/-- The marker file.  A write that was cut off has left it empty. -/
inductive Marker where
  | absent
  | empty
  | holds (hw : HardwareUuid)
deriving DecidableEq, Repr

inductive WriteOutcome where
  | written
  | failed
  | cutOff
deriving DecidableEq, Repr

def Marker.write (m : Marker) (hw : HardwareUuid) : WriteOutcome → Marker
  | .written => .holds hw
  | .failed => m
  | .cutOff => .empty

/-- How far a launch has come; `dbKey` is the key it has derived. -/
inductive Phase where
  | off
  | keyed (dbKey : String)
  | rekeyed (dbKey : String)
  | retrying (dbKey : String)
  | opened
  | seeded
  | running
  /-- `KeyMismatch`. -/
  | refused
deriving DecidableEq, Repr

/-- No launch is under way. -/
def Phase.settled : Phase → Bool
  | .off | .running | .refused => true
  | _ => false

structure World (α : Type) where
  hardware : HardwareUuid
  keychain : Option String
  db : Option (DbFile α)
  marker : Marker
  phase : Phase
deriving DecidableEq, Repr

inductive Event (α : Type) where
  | start (random : Vector UInt8 32)
  | openPool (random : Vector UInt8 32)
  | writeMarker (outcome : WriteOutcome)
  | retry
  /-- The integrity check, the backup and the migrations; `ok` if all went well. -/
  | initDb (ok : Bool)
  | recordMarker (outcome : WriteOutcome)
  | edit (contents : α)
  /-- The app is quit, or crashes, at any point. -/
  | quit
  /-- The disk and the keychain go on with another machine. -/
  | moveTo (hw : HardwareUuid)
  | clearKeychain
  | restorePhrase (phrase : String)
  /-- The account is deleted. -/
  | wipe
deriving DecidableEq

namespace World

variable {α : Type}

/-- The base key, which is made if there is none. -/
def getOrCreateBaseKey (w : World α) (random : Vector UInt8 32) : String :=
  w.keychain.getD (newBaseKey random)

/-- `try_migrate_hardware_uuid`, up to the write of the marker. -/
def tryMigrate (w : World α) (dbKey : String) (file : DbFile α) (random : Vector UInt8 32) :
    World α :=
  match w.marker with
  | .holds old =>
    if old = w.hardware then { w with phase := .refused }
    else
      let baseKey := w.getOrCreateBaseKey random
      let w' := { w with keychain := some baseKey }
      if file.key = deriveDatabaseKey baseKey old then
        { w' with
          db := some { file with key := deriveDatabaseKey baseKey w.hardware }
          phase := .rekeyed dbKey }
      else { w' with phase := .refused }
  | _ => { w with phase := .refused }

/-- A database that is not there is created. -/
def openPool [Inhabited α] (w : World α) (dbKey : String) (random : Vector UInt8 32) : World α :=
  match w.db with
  | none => { w with db := some ⟨dbKey, default⟩, phase := .opened }
  | some file =>
    if file.key = dbKey then { w with phase := .opened } else w.tryMigrate dbKey file random

/-- `restore_base_key_from_phrase`: a key is stored only if it opens the database. -/
def restorePhrase (w : World α) (phrase : String) : World α :=
  match baseKeyFromPhrase phrase with
  | none => w
  | some baseKey =>
    match w.db with
    | none => { w with keychain := some baseKey }
    | some file =>
      if file.key = deriveDatabaseKey baseKey w.hardware then { w with keychain := some baseKey }
      else w

def step [Inhabited α] (w : World α) : Event α → World α
  | .start random =>
    if w.phase = .off ∨ w.phase = .refused then
      let baseKey := w.getOrCreateBaseKey random
      { w with
        keychain := some baseKey
        phase := .keyed (deriveDatabaseKey baseKey w.hardware) }
    else w
  | .openPool random =>
    match w.phase with
    | .keyed dbKey => w.openPool dbKey random
    | _ => w
  | .writeMarker outcome =>
    match w.phase with
    | .rekeyed dbKey =>
      { w with marker := w.marker.write w.hardware outcome, phase := .retrying dbKey }
    | _ => w
  | .retry =>
    match w.phase with
    | .retrying dbKey =>
      if w.db.any (·.key == dbKey) then { w with phase := .opened } else { w with phase := .off }
    | _ => w
  | .initDb ok =>
    match w.phase with
    | .opened => { w with phase := if ok then .seeded else .off }
    | _ => w
  | .recordMarker outcome =>
    match w.phase with
    | .seeded => { w with marker := w.marker.write w.hardware outcome, phase := .running }
    | _ => w
  | .edit contents =>
    match w.phase with
    | .running => { w with db := w.db.map fun file => { file with contents } }
    | _ => w
  | .quit => { w with phase := .off }
  | .moveTo hw => if w.phase = .off ∨ w.phase = .refused then { w with hardware := hw } else w
  | .clearKeychain => { w with keychain := none }
  | .restorePhrase phrase => if w.phase.settled then w.restorePhrase phrase else w
  | .wipe => { w with keychain := none, db := none, phase := .off }

/-- A launch that nothing cuts off.  The marker may fail to be written all the same. -/
def launch [Inhabited α] (w : World α) (random : Vector UInt8 32)
    (outcome outcome' : WriteOutcome) : World α :=
  [Event.start random, .openPool random, .writeMarker outcome, .retry, .initDb true,
    .recordMarker outcome'].foldl step w

/-! ## when a launch succeeds -/

/-- The database can be opened with the base key: as it is, or as the machine did that the marker
names. -/
def Opens (w : World α) (baseKey : String) (file : DbFile α) : Prop :=
  file.key = deriveDatabaseKey baseKey w.hardware ∨
    ∃ old, w.marker = .holds old ∧ old ≠ w.hardware ∧ file.key = deriveDatabaseKey baseKey old

section launches

variable [Inhabited α] {w : World α}

/-- The rest of a launch, once the pool is there. -/
def finish (w : World α) (outcome outcome' : WriteOutcome) : World α :=
  [Event.writeMarker outcome, .retry, .initDb true, .recordMarker outcome'].foldl step w

theorem launch_eq (hoff : w.phase = .off ∨ w.phase = .refused) (random : Vector UInt8 32)
    (outcome outcome' : WriteOutcome) :
    w.launch random outcome outcome' =
      (World.openPool { w with
          keychain := some (w.getOrCreateBaseKey random)
          phase := .keyed (deriveDatabaseKey (w.getOrCreateBaseKey random) w.hardware) }
        (deriveDatabaseKey (w.getOrCreateBaseKey random) w.hardware) random).finish
          outcome outcome' := by
  have hstart : w.step (.start random) = { w with
      keychain := some (w.getOrCreateBaseKey random)
      phase := .keyed (deriveDatabaseKey (w.getOrCreateBaseKey random) w.hardware) } := if_pos hoff
  rw [launch, List.foldl_cons, hstart]
  rfl

theorem finish_opened (h : w.phase = .opened) (outcome outcome' : WriteOutcome) :
    w.finish outcome outcome' =
      { w with marker := w.marker.write w.hardware outcome', phase := .running } := by
  simp [finish, step, h]

theorem finish_rekeyed {dbKey : String} {file : DbFile α} (h : w.phase = .rekeyed dbKey)
    (hdb : w.db = some file) (hkey : file.key = dbKey) (outcome outcome' : WriteOutcome) :
    w.finish outcome outcome' =
      { w with
        marker := (w.marker.write w.hardware outcome).write w.hardware outcome'
        phase := .running } := by
  simp [finish, step, h, hdb, hkey]

theorem finish_refused (h : w.phase = .refused) (outcome outcome' : WriteOutcome) :
    w.finish outcome outcome' = w := by
  simp [finish, step, h]

/-- What a launch makes of a database that it can open. -/
theorem launch_of_opens {file : DbFile α} (hoff : w.phase = .off ∨ w.phase = .refused)
    (hdb : w.db = some file) (random : Vector UInt8 32)
    (hopens : w.Opens (w.getOrCreateBaseKey random) file) (outcome outcome' : WriteOutcome) :
    ∃ marker : Marker, w.launch random outcome outcome' =
      { hardware := w.hardware
        keychain := some (w.getOrCreateBaseKey random)
        db := some ⟨deriveDatabaseKey (w.getOrCreateBaseKey random) w.hardware, file.contents⟩
        marker := marker.write w.hardware outcome'
        phase := .running } := by
  rw [launch_eq hoff]
  revert hopens
  generalize w.getOrCreateBaseKey random = baseKey
  intro hopens
  by_cases hkey : file.key = deriveDatabaseKey baseKey w.hardware
  · simp only [openPool, hdb, hkey, if_true]
    rw [finish_opened rfl]
    exact ⟨w.marker, by rw [← hkey]⟩
  · obtain hsame | ⟨old, hmarker, hold, hmigrates⟩ := hopens
    · exact absurd hsame hkey
    · have hother : deriveDatabaseKey baseKey old ≠ deriveDatabaseKey baseKey w.hardware :=
        hmigrates ▸ hkey
      simp only [openPool, hdb, hother, if_false, tryMigrate, hmarker, hold, getOrCreateBaseKey,
        Option.getD_some, hmigrates, if_true]
      rw [finish_rekeyed rfl rfl rfl]
      exact ⟨_, rfl⟩

/-- **Exactly when a launch opens the database.** -/
theorem launch_running_iff {file : DbFile α} (hoff : w.phase = .off ∨ w.phase = .refused)
    (hdb : w.db = some file) (random : Vector UInt8 32) (outcome outcome' : WriteOutcome) :
    (w.launch random outcome outcome').phase = .running ↔
      w.Opens (w.getOrCreateBaseKey random) file := by
  refine ⟨fun hrunning => ?_, fun hopens => ?_⟩
  · by_contra hclosed
    have hrefused : (w.launch random outcome outcome').phase = .refused := by
      rw [launch_eq hoff]
      revert hclosed
      generalize w.getOrCreateBaseKey random = baseKey
      intro hclosed
      obtain ⟨hkey, hmigrates⟩ := not_or.mp hclosed
      simp only [openPool, hdb, hkey, if_false, tryMigrate]
      cases hmarker : w.marker with
      | absent => rw [finish_refused rfl]
      | empty => rw [finish_refused rfl]
      | holds old =>
        by_cases hold : old = w.hardware
        · simp only [hold, if_true]
          rw [finish_refused rfl]
        · have hother : file.key ≠ deriveDatabaseKey baseKey old :=
            fun h => hmigrates ⟨old, hmarker, hold, h⟩
          simp only [hold, if_false, getOrCreateBaseKey, Option.getD_some, hother]
          rw [finish_refused rfl]
    rw [hrefused] at hrunning
    cases hrunning
  · obtain ⟨marker, hlaunch⟩ := launch_of_opens hoff hdb random hopens outcome outcome'
    rw [hlaunch]

end launches

/-! ## runs -/

/-- The marker names the machine that the database is encrypted for. -/
def Marked (w : World α) : Prop :=
  ∀ file, w.db = some file → ∃ baseKey hw, w.keychain = some baseKey ∧ w.marker = .holds hw ∧
    file.key = deriveDatabaseKey baseKey hw

/-- The keychain keeps its entry, and the machine is changed only when the marker is right. -/
def Careful (w : World α) : Event α → Prop
  | .moveTo _ => w.Marked
  | .clearKeychain => False
  | _ => True

/-- What the phases of a launch know. -/
structure Sound (w : World α) : Prop where
  openable : ∀ file, w.db = some file →
    ∃ baseKey, w.keychain = some baseKey ∧ w.Opens baseKey file
  keyed : ∀ dbKey, w.phase = .keyed dbKey →
    ∃ baseKey, w.keychain = some baseKey ∧ dbKey = deriveDatabaseKey baseKey w.hardware
  rekeyed : ∀ dbKey, w.phase = .rekeyed dbKey ∨ w.phase = .retrying dbKey →
    ∃ baseKey file, w.keychain = some baseKey ∧ w.db = some file ∧ file.key = dbKey ∧
      dbKey = deriveDatabaseKey baseKey w.hardware
  opened : w.phase = .opened ∨ w.phase = .seeded ∨ w.phase = .running →
    ∃ baseKey file, w.keychain = some baseKey ∧ w.db = some file ∧
      file.key = deriveDatabaseKey baseKey w.hardware
  accepted : w.phase ≠ .refused

variable {w : World α}

/-- A database under the key of this machine is one that can be opened. -/
theorem openable_of_key {baseKey : String} {file : DbFile α} (hkeychain : w.keychain = some baseKey)
    (hdb : w.db = some file) (hkey : file.key = deriveDatabaseKey baseKey w.hardware) :
    ∀ file', w.db = some file' → ∃ baseKey', w.keychain = some baseKey' ∧ w.Opens baseKey' file' := by
  intro file' hdb'
  obtain rfl := Option.some.inj (hdb.symm.trans hdb')
  exact ⟨baseKey, hkeychain, .inl hkey⟩

theorem Sound.quit (h : w.Sound) : Sound { w with phase := .off } where
  openable := h.openable
  keyed dbKey hphase := by cases hphase
  rekeyed dbKey hphase := by simp at hphase
  opened hphase := by simp at hphase
  accepted := by simp

/-- The phases after the database was opened, whatever became of the marker. -/
theorem sound_of_key {baseKey : String} (file : DbFile α) (hkeychain : w.keychain = some baseKey)
    (hdb : w.db = some file) (hkey : file.key = deriveDatabaseKey baseKey w.hardware)
    (hphase : w.phase = .opened ∨ w.phase = .seeded ∨ w.phase = .running) : w.Sound where
  openable := openable_of_key hkeychain hdb hkey
  keyed dbKey h := by rcases hphase with hp | hp | hp <;> simp [hp] at h
  rekeyed dbKey h := by rcases hphase with hp | hp | hp <;> simp [hp] at h
  opened _ := ⟨baseKey, file, hkeychain, hdb, hkey⟩
  accepted h := by rcases hphase with hp | hp | hp <;> simp [hp] at h

theorem sound_of_rekeyed {baseKey dbKey : String} {file : DbFile α}
    (hkeychain : w.keychain = some baseKey) (hdb : w.db = some file) (hkey : file.key = dbKey)
    (hderived : dbKey = deriveDatabaseKey baseKey w.hardware)
    (hphase : w.phase = .rekeyed dbKey ∨ w.phase = .retrying dbKey) : w.Sound where
  openable := openable_of_key hkeychain hdb (hkey.trans hderived)
  keyed dbKey' h := by rcases hphase with hp | hp <;> simp [hp] at h
  rekeyed dbKey' h := by
    have hsame : dbKey' = dbKey := by rcases hphase with hp | hp <;> simpa [hp, eq_comm] using h
    exact ⟨baseKey, file, hkeychain, hdb, by rw [hkey, hsame], by rw [hsame, hderived]⟩
  opened h := by rcases hphase with hp | hp <;> simp [hp] at h
  accepted h := by rcases hphase with hp | hp <;> simp [hp] at h

theorem Sound.start (h : w.Sound) (random : Vector UInt8 32) :
    Sound { w with
      keychain := some (w.getOrCreateBaseKey random)
      phase := .keyed (deriveDatabaseKey (w.getOrCreateBaseKey random) w.hardware) } where
  openable file hfile := by
    obtain ⟨baseKey, hkeychain, hopens⟩ := h.openable file hfile
    exact ⟨_, rfl, by rw [getOrCreateBaseKey, hkeychain]; exact hopens⟩
  keyed dbKey hphase := ⟨_, rfl, (Phase.keyed.inj hphase).symm⟩
  rekeyed dbKey hphase := by simp at hphase
  opened hphase := by simp at hphase
  accepted := by simp

/-- A launch that has its key opens the database, or encrypts it anew. -/
theorem Sound.openPool [Inhabited α] (h : w.Sound) {dbKey : String} (hphase : w.phase = .keyed dbKey)
    (random : Vector UInt8 32) : (w.openPool dbKey random).Sound := by
  obtain ⟨baseKey, hkeychain, hderived⟩ := h.keyed dbKey hphase
  unfold World.openPool
  cases hdb : w.db with
  | none => exact sound_of_key ⟨dbKey, default⟩ hkeychain rfl hderived (.inl rfl)
  | some file =>
    obtain ⟨baseKey', hkeychain', hopens⟩ := h.openable file hdb
    obtain rfl : baseKey = baseKey' := Option.some.inj (hkeychain.symm.trans hkeychain')
    by_cases hkey : file.key = dbKey
    · simp only [hkey, if_true]
      exact sound_of_key _ hkeychain rfl (hkey.trans hderived) (.inl rfl)
    · obtain hsame | ⟨old, hmarker, hold, hmigrates⟩ := hopens
      · exact absurd (hsame.trans hderived.symm) hkey
      · have hother : deriveDatabaseKey baseKey old ≠ dbKey := hmigrates ▸ hkey
        simp only [hother, if_false, tryMigrate, hmarker, hold, getOrCreateBaseKey, hkeychain,
          Option.getD_some, hmigrates, if_true]
        exact sound_of_rekeyed rfl rfl hderived.symm hderived (.inl rfl)

theorem Sound.restorePhrase (h : w.Sound) (hsettled : w.phase.settled = true) (phrase : String) :
    (w.restorePhrase phrase).Sound := by
  unfold World.restorePhrase
  split
  · exact h
  · next baseKey hphrase =>
    split
    · next hdb =>
      refine ⟨fun file hfile => ?_, fun dbKey hphase => ?_, fun dbKey hphase => ?_,
        fun hphase => ?_, h.accepted⟩
      · exact absurd (hdb.symm.trans hfile) (by simp)
      · rw [show w.phase = .keyed dbKey from hphase] at hsettled
        cases hsettled
      · rcases hphase with hphase | hphase <;> rw [show w.phase = _ from hphase] at hsettled <;>
          cases hsettled
      · obtain ⟨_, file, _, hfile, _⟩ := h.opened hphase
        exact absurd (hdb.symm.trans hfile) (by simp)
    · next file hdb =>
      split
      · next hkey =>
        refine ⟨fun file' hfile => ?_, fun dbKey hphase => ?_, fun dbKey hphase => ?_,
          fun hphase => ⟨baseKey, file, rfl, hdb, hkey⟩, h.accepted⟩
        · obtain rfl := Option.some.inj (hdb.symm.trans hfile)
          exact ⟨baseKey, rfl, .inl hkey⟩
        · rw [show w.phase = .keyed dbKey from hphase] at hsettled
          cases hsettled
        · rcases hphase with hphase | hphase <;> rw [show w.phase = _ from hphase] at hsettled <;>
            cases hsettled
      · exact h

/-- **Every careful event** leaves a database that can be opened. -/
theorem Sound.step [Inhabited α] (h : w.Sound) {e : Event α} (he : w.Careful e) :
    (w.step e).Sound := by
  cases e with
  | start random =>
    simp only [World.step, h.accepted, or_false]
    split
    · exact h.start random
    · exact h
  | openPool random =>
    simp only [World.step]
    split
    · next dbKey hphase => exact h.openPool hphase random
    · exact h
  | writeMarker outcome =>
    simp only [World.step]
    split
    · next dbKey hphase =>
      obtain ⟨baseKey, file, hkeychain, hdb, hkey, hderived⟩ := h.rekeyed dbKey (.inl hphase)
      exact sound_of_rekeyed hkeychain hdb hkey hderived (.inr rfl)
    · exact h
  | retry =>
    simp only [World.step]
    split
    · next dbKey hphase =>
      obtain ⟨baseKey, file, hkeychain, hdb, hkey, hderived⟩ := h.rekeyed dbKey (.inr hphase)
      simp only [hdb, Option.any_some, hkey, beq_self_eq_true, if_true]
      exact sound_of_key _ hkeychain rfl (hkey.trans hderived) (.inl rfl)
    · exact h
  | initDb ok =>
    simp only [World.step]
    split
    · next hphase =>
      obtain ⟨baseKey, file, hkeychain, hdb, hkey⟩ := h.opened (.inl hphase)
      cases ok with
      | true => exact sound_of_key _ hkeychain hdb hkey (.inr (.inl rfl))
      | false => exact h.quit
    · exact h
  | recordMarker outcome =>
    simp only [World.step]
    split
    · next hphase =>
      obtain ⟨baseKey, file, hkeychain, hdb, hkey⟩ := h.opened (.inr (.inl hphase))
      exact sound_of_key _ hkeychain hdb hkey (.inr (.inr rfl))
    · exact h
  | edit contents =>
    simp only [World.step]
    split
    · next hphase =>
      obtain ⟨baseKey, file, hkeychain, hdb, hkey⟩ := h.opened (.inr (.inr hphase))
      exact sound_of_key { file with contents } hkeychain (by simp [hdb]) hkey
        (.inr (.inr hphase))
    · exact h
  | quit => exact h.quit
  | moveTo hw =>
    simp only [World.step, h.accepted, or_false]
    split
    · next hoff =>
      refine ⟨fun file hfile => ?_, fun dbKey hphase => ?_, fun dbKey hphase => ?_,
        fun hphase => ?_, h.accepted⟩
      · obtain ⟨baseKey, old, hkeychain, hmarker, hkey⟩ := he file hfile
        refine ⟨baseKey, hkeychain, ?_⟩
        by_cases hold : old = hw
        · exact .inl (hkey.trans (by rw [hold]))
        · exact .inr ⟨old, hmarker, hold, hkey⟩
      · exact absurd (hoff.symm.trans hphase) (by simp)
      · exact absurd hphase (by simp [hoff])
      · exact absurd hphase (by simp [hoff])
    · exact h
  | clearKeychain => exact he.elim
  | restorePhrase phrase =>
    simp only [World.step]
    split
    · next hsettled => exact h.restorePhrase hsettled phrase
    · exact h
  | wipe =>
    exact ⟨fun file hfile => by simp [World.step] at hfile,
      fun dbKey hphase => by simp [World.step] at hphase,
      fun dbKey hphase => by simp [World.step] at hphase,
      fun hphase => by simp [World.step] at hphase, by simp [World.step]⟩

/-- Nothing is installed yet; an older install may have left a base key and a marker. -/
def install (hw : HardwareUuid) (keychain : Option String) (marker : Marker) : World α :=
  ⟨hw, keychain, none, marker, .off⟩

theorem sound_install (hw : HardwareUuid) (keychain : Option String) (marker : Marker) :
    (install hw keychain marker : World α).Sound :=
  ⟨fun file hfile => by simp [install] at hfile, fun dbKey hphase => by simp [install] at hphase,
    fun dbKey hphase => by simp [install] at hphase, fun hphase => by simp [install] at hphase,
    by simp [install]⟩

def run [Inhabited α] (w : World α) (events : List (Event α)) : World α := events.foldl step w

/-- **No launch loses the database.**  After every careful run, whatever was cut off in it, a launch
opens the database with what it held; and if it records the marker, the next machine will too. -/
theorem launch_opens [Inhabited α] {hw : HardwareUuid} {keychain : Option String} {marker : Marker}
    {events : List (Event α)} (hcareful : Runs.Guarded step Careful (install hw keychain marker) events)
    (hoff : (run (install hw keychain marker) events).phase = .off) {file : DbFile α}
    (hdb : (run (install hw keychain marker) events).db = some file) (random : Vector UInt8 32)
    (outcome outcome' : WriteOutcome) :
    (launch (run (install hw keychain marker) events) random outcome outcome').phase = .running ∧
      (launch (run (install hw keychain marker) events) random outcome outcome').db.map
        (·.contents) = some file.contents ∧
      (outcome' = .written →
        (launch (run (install hw keychain marker) events) random outcome outcome').Marked) := by
  have hsound : (run (install hw keychain marker) events).Sound :=
    hcareful.invariant (fun w e hw he => hw.step he) (sound_install hw keychain marker)
  obtain ⟨baseKey, hkeychain, hopens⟩ := hsound.openable file hdb
  have hkey : (run (install hw keychain marker) events).getOrCreateBaseKey random = baseKey := by
    rw [getOrCreateBaseKey, hkeychain, Option.getD_some]
  obtain ⟨marker', hlaunch⟩ := launch_of_opens (.inl hoff) hdb random
    (by rw [hkey]; exact hopens) outcome outcome'
  rw [hlaunch]
  refine ⟨rfl, rfl, fun hwritten file' hfile' => ?_⟩
  obtain rfl := Option.some.inj hfile'
  exact ⟨_, _, rfl, by rw [hwritten, Marker.write], rfl⟩

/-! ## recovery -/

/-- **The recovery phrase recovers.**  On the machine that the database is encrypted for, the phrase
of its base key brings it back, whatever the keychain holds by now. -/
theorem phrase_recovers [Inhabited α] {baseKey phrase : String} {file : DbFile α}
    (hmade : Made baseKey) (hphrase : recoveryPhrase baseKey = some phrase)
    (hdb : w.db = some file) (hkey : file.key = deriveDatabaseKey baseKey w.hardware)
    (hoff : w.phase = .off ∨ w.phase = .refused) (random : Vector UInt8 32)
    (outcome outcome' : WriteOutcome) :
    (launch (w.step (.restorePhrase phrase)) random outcome outcome').phase = .running ∧
      (launch (w.step (.restorePhrase phrase)) random outcome outcome').db = some file := by
  have hrestored : w.step (.restorePhrase phrase) = { w with keychain := some baseKey } := by
    have hsettled : w.phase.settled = true := by rcases hoff with hp | hp <;> rw [hp] <;> rfl
    simp only [World.step, hsettled, if_true, World.restorePhrase,
      hmade.baseKeyFromPhrase hphrase, hdb, hkey]
  rw [hrestored]
  obtain ⟨marker', hlaunch⟩ := launch_of_opens (w := { w with keychain := some baseKey }) hoff hdb
    random (.inl hkey) outcome outcome'
  rw [hlaunch]
  refine ⟨rfl, ?_⟩
  show some (DbFile.mk (deriveDatabaseKey baseKey w.hardware) file.contents) = some file
  rw [← hkey]

end World

end

/-! ## one database, two machines -/

/-- The phrase of 32 zeros. -/
def zerosPhrase : String :=
  "abandon abandon abandon abandon abandon abandon abandon abandon abandon abandon abandon abandon " ++
  "abandon abandon abandon abandon abandon abandon abandon abandon abandon abandon abandon art"

/-- A hash that shows the password and the salt, and the phrase of 32 zeros. -/
@[reducible] def KeyLibraries.zeros : KeyLibraries where
  hashPassword password salt := password ++ String.ofList (HexText.encode salt)
  fromEntropy bytes := if bytes = List.replicate 32 0 then some zerosPhrase else none
  parseNormalized phrase := if phrase = zerosPhrase then some (List.replicate 32 0) else none
  parse_fromEntropy bytes phrase h := by
    split at h
    · next hbytes =>
      obtain rfl := Option.some.inj h
      rw [if_pos rfl, hbytes]
    · cases h

def zeros : Vector UInt8 32 := Vector.replicate 32 0

/-- Up to the first day on one machine. -/
def firstDay : List (Event Nat) :=
  [.start zeros, .openPool zeros, .initDb true, .recordMarker .written, .edit 7, .quit]

/-- On the next machine a launch is cut off between the encryption and the marker. -/
def cutOffThere : List (Event Nat) := [.moveTo ⟨"B"⟩, .start zeros, .openPool zeros, .quit]

theorem launch_opens_there :
    letI := KeyLibraries.zeros
    (World.launch (World.run (World.install ⟨"A"⟩ none .absent) (firstDay ++ cutOffThere)) zeros
        .failed .written).phase = .running ∧
      (World.launch (World.run (World.install ⟨"A"⟩ none .absent) (firstDay ++ cutOffThere)) zeros
        .failed .written).db.map (·.contents) = some 7 ∧
      (WriteOutcome.written = .written →
        (World.launch (World.run (World.install ⟨"A"⟩ none .absent) (firstDay ++ cutOffThere)) zeros
          .failed .written).Marked) := by
  let := KeyLibraries.zeros
  have hcareful : Runs.Guarded World.step World.Careful
      (World.install ⟨"A"⟩ none .absent : World Nat) (firstDay ++ cutOffThere) := by
    refine ⟨trivial, trivial, trivial, trivial, trivial, trivial, ?_, trivial, trivial, trivial,
      trivial⟩
    intro file hfile
    obtain rfl := Option.some.inj hfile
    exact ⟨newBaseKey zeros, ⟨"A"⟩, rfl, rfl, rfl⟩
  have hdb : (World.run (World.install ⟨"A"⟩ none .absent) (firstDay ++ cutOffThere)).db =
      some ⟨deriveDatabaseKey (newBaseKey zeros) ⟨"B"⟩, 7⟩ := by decide +kernel
  exact World.launch_opens hcareful (by decide +kernel) hdb zeros .failed .written

/-- The keychain was cleared, and a launch has put a new key there and was refused. -/
def lockedOut : World Nat :=
  letI := KeyLibraries.zeros
  ⟨⟨"A"⟩, some (newBaseKey (Vector.replicate 32 1)),
    some ⟨deriveDatabaseKey (newBaseKey zeros) ⟨"A"⟩, 7⟩, .holds ⟨"A"⟩, .refused⟩

theorem zeros_phrase_recovers :
    letI := KeyLibraries.zeros
    (World.launch (lockedOut.step (.restorePhrase zerosPhrase)) zeros .written .written).phase =
        .running ∧
      (World.launch (lockedOut.step (.restorePhrase zerosPhrase)) zeros .written .written).db =
        some ⟨deriveDatabaseKey (newBaseKey zeros) ⟨"A"⟩, 7⟩ := by
  let := KeyLibraries.zeros
  have hphrase : recoveryPhrase (newBaseKey zeros) = some zerosPhrase := by decide +kernel
  exact World.phrase_recovers (w := lockedOut) (.hex zeros) hphrase rfl rfl (.inr rfl) zeros
    .written .written

end Dinero.Vault
