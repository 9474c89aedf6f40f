import RtpOscMidi.Core.IoError
import RtpOscMidi.Core.LTS
import RtpOscMidi.L2Machine.Config

/-!
# The configuration store

`load_checked`, `save` and `reset_to_default` on the configuration file, call
by call to the file system. A save validates, archives a file it cannot read
under a name of its own, writes a temporary file and renames it; a load saves
too where the file is missing or of an older version.

A step is one such call, which may fail; a write that fails leaves any bytes
behind. `.ok` is a call that does what the files allow, so `create_new` where
something exists fails then too; that a file which is there is reported as not
found is left out. Between two operations the files may be edited from
outside. The store's lock keeps operations apart.

`base` is the directory as the operation that runs, or ran last, found it.
-/
namespace RtpOscMidi.L2.ConfigStore

open Core Config

/-- The configuration file: its name in its directory, and its path as an
error shows it. -/
structure Store where
  stem : String
  extension : Option String
  debug : String
  pid : Nat
  windows : Bool
  deriving DecidableEq, Repr

def Store.withExtension (store : Store) (extension : String) : String :=
  store.stem ++ "." ++ extension

def Store.name (store : Store) : String :=
  match store.extension with
  | some extension => store.withExtension extension
  | none => store.stem

/-- mirrors src-tauri/src/atomic_file.rs:20-26 -/
def Store.tempName (store : Store) (sequence : Nat) : String :=
  "." ++ store.name ++ s!".{store.pid}.{sequence}.tmp"

/-- mirrors src-tauri/src/config.rs:526,538-540 -/
def Store.backupName (store : Store) (stamp : Nat) (id : Option String) : String :=
  match id with
  | none => store.withExtension s!"yaml.invalid-{stamp}"
  | some id => store.withExtension s!"yaml.invalid-{stamp}-{id}"

inductive Node where
  | file (bytes : ByteArray)
  | dir
  deriving DecidableEq

abbrev Files := String → Option Node

variable {α ρ : Type}

inductive Op (α ρ : Type) where
  | load
  | save (cfg : AppConfig α ρ)
  | reset
  deriving DecidableEq, Repr

/-- A save, for the operation that asked for it. -/
structure Saving (α ρ : Type) where
  op : Op α ρ
  cfg : AppConfig α ρ
  migrated : Bool
  deriving DecidableEq, Repr

inductive Pc (α ρ : Type) where
  | idle
  | read
  | backupRead (saving : Saving α ρ)
  | backupStamp (saving : Saving α ρ) (raw : ByteArray)
  | backupOpen (saving : Saving α ρ) (raw : ByteArray) (stamp : Nat) (path : String)
  | backupName (saving : Saving α ρ) (raw : ByteArray) (stamp : Nat)
  | backupWrite (saving : Saving α ρ) (raw : ByteArray) (path : String)
  | backupRemove (saving : Saving α ρ) (path error : String)
  | createDir (saving : Saving α ρ) (data : String)
  | tempOpen (saving : Saving α ρ) (data temp : String)
  | tempWrite (saving : Saving α ρ) (data temp : String)
  | tempRemove (saving : Saving α ρ) (temp error : String)
  | rename (saving : Saving α ρ) (data temp : String)
  deriving DecidableEq

structure St (α ρ : Type) where
  files : Files
  pc : Pc α ρ
  /-- `TEMP_FILE_SEQUENCE` -/
  sequence : Nat
  /-- the operation that ended last, with the configuration it loaded or saved -/
  last : Option (Op α ρ × Except String (AppConfig α ρ))
  base : Files

inductive Lbl (α ρ : Type) where
  | start (op : Op α ρ)
  | ok
  | fail (e : IoError)
  /-- a write that fails after `bytes` -/
  | torn (bytes : ByteArray) (e : IoError)
  /-- `SystemTime::now` -/
  | now (secs : Nat)
  | uuid (id : String)
  | edit (path : String) (node : Option Node)

section Model

variable (Y : Yaml α ρ) (store : Store)

def readable (bytes : ByteArray) : Bool :=
  (String.fromUTF8? bytes).any fun raw => (Y.parse raw).isOk

def finish (s : St α ρ) (op : Op α ρ) (result : Except String (AppConfig α ρ)) : St α ρ :=
  { s with pc := .idle, last := some (op, result) }

def failed (s : St α ρ) (saving : Saving α ρ) (error : String) : St α ρ :=
  finish s saving.op (.error
    (if saving.migrated then s!"Unable to persist migrated configuration: {error}" else error))

/-- mirrors src-tauri/src/config.rs:565-567 -/
def saveLocked (s : St α ρ) (saving : Saving α ρ) : St α ρ :=
  match saving.cfg.validate with
  | .error e => failed s saving e
  | .ok () => { s with pc := .backupRead saving }

/-- mirrors src-tauri/src/config.rs:568-569 -/
def serialize (s : St α ρ) (saving : Saving α ρ) : St α ρ :=
  match Y.toYaml saving.cfg with
  | .error e => failed s saving e
  | .ok data => { s with pc := .createDir saving data }

/-- mirrors src-tauri/src/config.rs:489-503 -/
def loadRaw (s : St α ρ) (raw : String) : St α ρ :=
  let rawVersion := ((Y.fromStr raw).toOption.bind Y.version).getD 0
  match Y.parse raw with
  | .error e => finish s .load (.error s!"Invalid configuration preserved at {store.debug}: {e}")
  | .ok cfg =>
    if rawVersion = 2 ∨ rawVersion = 3 then saveLocked s ⟨.load, cfg, true⟩
    else finish s .load (.ok cfg)

/-- mirrors src-tauri/src/config.rs:468-488 -/
def readStep [Inhabited α] [Inhabited ρ] (s : St α ρ) : Except IoError Unit → St α ρ
  | .error e =>
    finish s .load (.error s!"Unable to read configuration {store.debug}: {e.message}")
  | .ok () =>
    match s.files store.name with
    | none => saveLocked s ⟨.load, .default α ρ, false⟩
    | some .dir =>
      finish s .load (.error s!"Unable to read configuration {store.debug}: Is a directory")
    | some (.file bytes) =>
      match String.fromUTF8? bytes with
      | none => finish s .load (.error
          s!"Unable to read configuration {store.debug}: stream did not contain valid UTF-8")
      | some raw => loadRaw Y store s raw

/-- mirrors src-tauri/src/config.rs:506-521 -/
def backupReadStep (s : St α ρ) (saving : Saving α ρ) : Except IoError Unit → St α ρ
  | .error e => failed s saving s!"Failed to read existing config file for backup: {e.message}"
  | .ok () =>
    match s.files store.name with
    | none => serialize Y s saving
    | some .dir => failed s saving "Failed to read existing config file for backup: Is a directory"
    | some (.file bytes) =>
      if readable Y bytes then serialize Y s saving
      else { s with pc := .backupStamp saving bytes }

/-- What `create_new` returns. -/
def openNew (s : St α ρ) (path : String) : Except IoError Unit → Except IoError Unit
  | .error e => .error e
  | .ok () =>
    match s.files path with
    | none => .ok ()
    | some _ => .error ⟨.alreadyExists, "File exists"⟩

/-- mirrors src-tauri/src/config.rs:522-546 -/
def backupOpenStep (s : St α ρ) (saving : Saving α ρ) (raw : ByteArray) (stamp : Nat)
    (path : String) (outcome : Except IoError Unit) : St α ρ :=
  match openNew s path outcome with
  | .ok () =>
    { s with
      files := Function.update s.files path (some (.file ByteArray.empty))
      pc := .backupWrite saving raw path }
  | .error e =>
    if e.kind = .alreadyExists ∧ (s.files path).any (· != .dir) then
      { s with pc := .backupName saving raw stamp }
    else failed s saving s!"Failed to back up unreadable config file: {e.message}"

/-- mirrors src-tauri/src/atomic_file.rs:27-30 -/
def tempOpenStep (s : St α ρ) (saving : Saving α ρ) (data temp : String)
    (outcome : Except IoError Unit) : St α ρ :=
  match openNew s temp outcome with
  | .ok () =>
    { s with
      files := Function.update s.files temp (some (.file ByteArray.empty))
      pc := .tempWrite saving data temp }
  | .error e => failed s saving e.message

/-- Windows removes the temporary file when it cannot replace the target.
mirrors src-tauri/src/atomic_file.rs:37-65 -/
def renameStep (s : St α ρ) (saving : Saving α ρ) (temp : String) :
    Except IoError Unit → St α ρ
  | .error e =>
    if store.windows then { s with pc := .tempRemove saving temp e.message }
    else failed s saving e.message
  | .ok () =>
    finish
      { s with
        files := Function.update (Function.update s.files store.name (s.files temp)) temp none }
      saving.op (.ok saving.cfg)

def outcome : Lbl α ρ → Option (Except IoError Unit)
  | .ok => some (.ok ())
  | .fail e => some (.error e)
  | _ => none

/-- A read finds what is there. -/
def readOutcome (l : Lbl α ρ) : Option (Except IoError Unit) :=
  (outcome l).filter fun
    | .error e => e.kind != .notFound
    | .ok () => true

/-- A directory is not replaced. -/
def renameOutcome (s : St α ρ) (l : Lbl α ρ) : Option (Except IoError Unit) :=
  (outcome l).map fun r =>
    if s.files store.name = some .dir then r.bind fun _ => .error ⟨.other, "Is a directory"⟩ else r

def begin [Inhabited α] [Inhabited ρ] (s : St α ρ) (op : Op α ρ) : St α ρ :=
  let s := { s with base := s.files, last := none }
  match op with
  | .load => { s with pc := .read }
  | .save cfg => saveLocked s ⟨op, cfg, false⟩
  | .reset => saveLocked s ⟨op, .default α ρ, false⟩

/-- mirrors src-tauri/src/config.rs:464-576, src-tauri/src/atomic_file.rs:10-65 -/
def step [Inhabited α] [Inhabited ρ] (s : St α ρ) (l : Lbl α ρ) : Option (St α ρ) :=
  match s.pc with
  | .idle =>
    match l with
    | .start op => some (begin s op)
    | .edit path node =>
      some { s with
        files := Function.update s.files path node
        base := Function.update s.files path node
        last := none }
    | _ => none
  | .read => (readOutcome l).map (readStep Y store s)
  | .backupRead saving => (readOutcome l).map (backupReadStep Y store s saving)
  | .backupStamp saving raw =>
    match l with
    | .now secs => some { s with pc := .backupOpen saving raw secs (store.backupName secs none) }
    | _ => none
  | .backupOpen saving raw stamp path => (outcome l).map (backupOpenStep s saving raw stamp path)
  | .backupName saving raw stamp =>
    match l with
    | .uuid id =>
      some { s with pc := .backupOpen saving raw stamp (store.backupName stamp (some id)) }
    | _ => none
  | .backupWrite saving raw path =>
    match l with
    | .ok =>
      some (serialize Y { s with files := Function.update s.files path (some (.file raw)) } saving)
    | .torn bytes e =>
      some { s with
        files := Function.update s.files path (some (.file bytes))
        pc := .backupRemove saving path
          s!"Failed to back up unreadable config file: {e.message}" }
    | _ => none
  | .backupRemove saving path error =>
    match l with
    | .ok => some (failed { s with files := Function.update s.files path none } saving error)
    | .fail _ => some (failed s saving error)
    | _ => none
  | .createDir saving data =>
    match l with
    | .ok =>
      some { s with
        sequence := s.sequence + 1
        pc := .tempOpen saving data (store.tempName s.sequence) }
    | .fail e => some (failed s saving e.message)
    | _ => none
  | .tempOpen saving data temp => (outcome l).map (tempOpenStep s saving data temp)
  | .tempWrite saving data temp =>
    match l with
    | .ok =>
      some { s with
        files := Function.update s.files temp (some (.file data.toUTF8))
        pc := .rename saving data temp }
    | .torn bytes e =>
      some { s with
        files := Function.update s.files temp (some (.file bytes))
        pc := .tempRemove saving temp e.message }
    | _ => none
  | .tempRemove saving temp error =>
    match l with
    | .ok => some (failed { s with files := Function.update s.files temp none } saving error)
    | .fail _ => some (failed s saving error)
    | _ => none
  | .rename saving _ temp => (renameOutcome store s l).map (renameStep store s saving temp)

/-- Any files, and no operation yet. -/
def Starts (s : St α ρ) : Prop := s.pc = .idle ∧ s.last = none ∧ s.base = s.files

def system [Inhabited α] [Inhabited ρ] : LTS (St α ρ) (Lbl α ρ) :=
  LTS.ofStep Starts (step Y store)

end Model

/-! ## The files while an operation runs -/

section Files

variable (Y : Yaml α ρ) (store : Store) (base files : Files)

/-- Every other file that the operation found is as it was. -/
def Kept : Prop :=
  ∀ path ≠ store.name, ∀ node, base path = some node → files path = some node

structure Intact : Prop where
  kept : Kept store base files
  same : files store.name = base store.name

/-- The operation created it. -/
structure Own (path : String) : Prop where
  ne : path ≠ store.name
  new : base path = none

def IsBackup (path : String) : Prop := ∃ stamp id, path = store.backupName stamp id

/-- A configuration that cannot be read has a backup, apart from the file
`own`. -/
def Archived (own : Option String) : Prop :=
  ∀ bytes, base store.name = some (.file bytes) → readable Y bytes = false →
    ∃ path, IsBackup store path ∧ some path ≠ own ∧ Own store base path ∧
      files path = some (.file bytes)

def Saved (cfg : AppConfig α ρ) : Prop :=
  ∃ data, Y.toYaml cfg = .ok data ∧ files store.name = some (.file data.toUTF8)

end Files

section Invariant

variable {Y : Yaml α ρ} {store : Store} {base files : Files} {path : String} {own : Option String}

theorem Kept.update (h : Kept store base files) (hown : Own store base path)
    (node : Option Node) : Kept store base (Function.update files path node) := by
  intro p hp node' hbase
  have hne : p ≠ path := by
    rintro rfl
    rw [hown.new] at hbase
    cases hbase
  rw [Function.update_of_ne hne]
  exact h p hp node' hbase

theorem Intact.update (h : Intact store base files) (hown : Own store base path)
    (node : Option Node) : Intact store base (Function.update files path node) where
  kept := h.kept.update hown node
  same := by rw [Function.update_of_ne hown.ne.symm, h.same]

theorem Intact.owns (h : Intact store base files) (hne : path ≠ store.name)
    (hnew : files path = none) : Own store base path where
  ne := hne
  new := by
    cases hbase : base path with
    | none => rfl
    | some node =>
      rw [h.kept path hne node hbase] at hnew
      cases hnew

theorem Archived.update (h : Archived Y store base files (some path)) (node : Option Node) :
    Archived Y store base (Function.update files path node) (some path) := by
  intro bytes hbytes hread
  obtain ⟨p, hbackup, hne, hown, hfile⟩ := h bytes hbytes hread
  refine ⟨p, hbackup, hne, hown, ?_⟩
  rw [Function.update_of_ne fun hp => hne (congrArg some hp), hfile]

/-- A name where nothing is is the name of no backup. -/
theorem Archived.avoid (h : Archived Y store base files own) (hnew : files path = none) :
    Archived Y store base files (some path) := by
  intro bytes hbytes hread
  obtain ⟨p, hbackup, -, hown, hfile⟩ := h bytes hbytes hread
  refine ⟨p, hbackup, fun hp => ?_, hown, hfile⟩
  rw [Option.some.inj hp, hnew] at hfile
  cases hfile

theorem Archived.of_readable (h : ∀ bytes, base store.name = some (.file bytes) →
    readable Y bytes = true) : Archived Y store base files own := by
  intro bytes hbytes hread
  rw [h bytes hbytes] at hread
  cases hread

/-- The bytes that could not be read are under another name now. -/
theorem archived_write {raw : ByteArray} (hraw : base store.name = some (.file raw))
    (hbackup : IsBackup store path) (hown : Own store base path) :
    Archived Y store base (Function.update files path (some (.file raw))) none := by
  intro bytes hbytes _
  rw [hraw] at hbytes
  cases hbytes
  exact ⟨path, hbackup, Option.some_ne_none _, hown, Function.update_self ..⟩

theorem openNew_ok {s : St α ρ} {r : Except IoError Unit} (h : openNew s path r = .ok ()) :
    s.files path = none := by
  unfold openNew at h
  split at h
  · cases h
  · split at h
    · assumption
    · cases h

theorem tempName_ne_name (store : Store) (sequence : Nat) : store.tempName sequence ≠ store.name := by
  intro h
  have hlen := congrArg String.length h
  simp only [Store.tempName, String.length_append] at hlen
  have hdot : ".".length = 1 := rfl
  omega

@[simp] theorem saveLocked_files {s : St α ρ} (saving : Saving α ρ) :
    (saveLocked s saving).files = s.files := by
  unfold saveLocked
  split <;> rfl

@[simp] theorem serialize_files {s : St α ρ} (saving : Saving α ρ) :
    (serialize Y s saving).files = s.files := by
  unfold serialize
  split <;> rfl

@[simp] theorem loadRaw_files {s : St α ρ} (raw : String) :
    (loadRaw Y store s raw).files = s.files := by
  simp only [loadRaw]
  split
  · rfl
  · split
    · exact saveLocked_files _
    · rfl

@[simp] theorem backupReadStep_files {s : St α ρ} (saving : Saving α ρ)
    (r : Except IoError Unit) :
    (backupReadStep Y store s saving r).files = s.files := by
  unfold backupReadStep
  split
  · rfl
  · split
    · exact serialize_files _
    · rfl
    · split
      · exact serialize_files _
      · rfl

variable [Inhabited α] [Inhabited ρ]

/-- The configuration is the one the operation asked to save. -/
def Op.Asks : Op α ρ → AppConfig α ρ → Prop
  | .load, _ => True
  | .save cfg, cfg' => cfg' = cfg
  | .reset, cfg => cfg = .default α ρ

structure Saving.Ready (saving : Saving α ρ) : Prop where
  valid : saving.cfg.validate = .ok ()
  asked : saving.op.Asks saving.cfg

def Done (Y : Yaml α ρ) (store : Store) (s : St α ρ) : Prop :=
  match s.last with
  | none | some (_, .error _) => s.files store.name = s.base store.name
  | some (op, .ok cfg) => cfg.validate = .ok () ∧ op.Asks cfg ∧
    (op = .load ∧ s.files store.name = s.base store.name ∨
      Saved Y store s.files cfg ∧ Archived Y store s.base s.files none)

def Place (Y : Yaml α ρ) (store : Store) (s : St α ρ) : Prop :=
  match s.pc with
  | .idle => Kept store s.base s.files ∧ Done Y store s
  | .read => Intact store s.base s.files
  | .backupRead saving => Intact store s.base s.files ∧ saving.Ready
  | .backupStamp saving raw | .backupName saving raw _ =>
    Intact store s.base s.files ∧ saving.Ready ∧ s.base store.name = some (.file raw)
  | .backupOpen saving raw _ path =>
    Intact store s.base s.files ∧ saving.Ready ∧ s.base store.name = some (.file raw) ∧
      IsBackup store path
  | .backupWrite saving raw path =>
    Intact store s.base s.files ∧ saving.Ready ∧ s.base store.name = some (.file raw) ∧
      IsBackup store path ∧ Own store s.base path
  | .backupRemove _ path _ | .tempRemove _ path _ =>
    Intact store s.base s.files ∧ Own store s.base path
  | .createDir saving data =>
    Intact store s.base s.files ∧ saving.Ready ∧ Y.toYaml saving.cfg = .ok data ∧
      Archived Y store s.base s.files none
  | .tempOpen saving data temp =>
    Intact store s.base s.files ∧ saving.Ready ∧ Y.toYaml saving.cfg = .ok data ∧
      Archived Y store s.base s.files none ∧ temp ≠ store.name
  | .tempWrite saving data temp =>
    Intact store s.base s.files ∧ saving.Ready ∧ Y.toYaml saving.cfg = .ok data ∧
      Archived Y store s.base s.files (some temp) ∧ Own store s.base temp
  | .rename saving data temp =>
    Intact store s.base s.files ∧ saving.Ready ∧ Y.toYaml saving.cfg = .ok data ∧
      Archived Y store s.base s.files (some temp) ∧ Own store s.base temp ∧
      s.files temp = some (.file data.toUTF8)

variable {s s' : St α ρ}

theorem place_failed {saving : Saving α ρ} {error : String}
    (h : Intact store s.base s.files) : Place Y store (failed s saving error) :=
  ⟨h.kept, h.same⟩

theorem place_saveLocked {saving : Saving α ρ} (h : Intact store s.base s.files)
    (hasked : saving.op.Asks saving.cfg) : Place Y store (saveLocked s saving) := by
  unfold saveLocked
  split
  · exact place_failed h
  · exact ⟨h, by assumption, hasked⟩

theorem place_serialize {saving : Saving α ρ} (h : Intact store s.base s.files)
    (hready : saving.Ready) (harchived : Archived Y store s.base s.files none) :
    Place Y store (serialize Y s saving) := by
  unfold serialize
  split
  · exact place_failed h
  · exact ⟨h, hready, by assumption, harchived⟩

theorem place_begin (op : Op α ρ) : Place Y store (begin s op) := by
  have h : Intact store s.files s.files := ⟨fun _ _ _ hnode => hnode, rfl⟩
  cases op with
  | load => exact h
  | save cfg => exact place_saveLocked h rfl
  | reset => exact place_saveLocked h rfl

theorem place_loadRaw {raw : String} (h : Intact store s.base s.files) :
    Place Y store (loadRaw Y store s raw) := by
  simp only [loadRaw]
  split
  · exact ⟨h.kept, h.same⟩
  · rename_i cfg hparse
    split
    · exact place_saveLocked h trivial
    · exact ⟨h.kept, Yaml.validate_of_parse hparse, trivial, .inl ⟨rfl, h.same⟩⟩

theorem place_readStep {r : Except IoError Unit} (h : Intact store s.base s.files) :
    Place Y store (readStep Y store s r) := by
  unfold readStep
  split
  · exact ⟨h.kept, h.same⟩
  · split
    · exact place_saveLocked h trivial
    · exact ⟨h.kept, h.same⟩
    · split
      · exact ⟨h.kept, h.same⟩
      · exact place_loadRaw h

theorem place_backupReadStep {saving : Saving α ρ} {r : Except IoError Unit}
    (h : Intact store s.base s.files) (hready : saving.Ready) :
    Place Y store (backupReadStep Y store s saving r) := by
  unfold backupReadStep
  split
  · exact place_failed h
  · split
    · rename_i hnone
      refine place_serialize h hready (.of_readable fun bytes hbytes => ?_)
      rw [← h.same, hnone] at hbytes
      cases hbytes
    · exact place_failed h
    · rename_i bytes hfile
      split
      · rename_i hread
        refine place_serialize h hready (.of_readable fun bytes' hbytes => ?_)
        rw [← h.same, hfile] at hbytes
        cases hbytes
        exact hread
      · exact ⟨h, hready, h.same.symm.trans hfile⟩

theorem place_backupOpenStep {saving : Saving α ρ} {raw : ByteArray} {stamp : Nat} {path : String}
    {r : Except IoError Unit} (h : Intact store s.base s.files) (hready : saving.Ready)
    (hraw : s.base store.name = some (.file raw)) (hbackup : IsBackup store path) :
    Place Y store (backupOpenStep s saving raw stamp path r) := by
  unfold backupOpenStep
  split
  · rename_i hopen
    have hnew := openNew_ok hopen
    have hne : path ≠ store.name := by
      rintro rfl
      rw [h.same, hraw] at hnew
      cases hnew
    have hown := h.owns hne hnew
    exact ⟨h.update hown _, hready, hraw, hbackup, hown⟩
  · split
    · exact ⟨h, hready, hraw⟩
    · exact place_failed h

theorem place_tempOpenStep {saving : Saving α ρ} {data temp : String} {r : Except IoError Unit}
    (h : Intact store s.base s.files) (hready : saving.Ready)
    (hdata : Y.toYaml saving.cfg = .ok data) (harchived : Archived Y store s.base s.files none)
    (hne : temp ≠ store.name) : Place Y store (tempOpenStep s saving data temp r) := by
  unfold tempOpenStep
  split
  · rename_i hopen
    have hnew := openNew_ok hopen
    have hown := h.owns hne hnew
    exact ⟨h.update hown _, hready, hdata, (harchived.avoid hnew).update _, hown⟩
  · exact place_failed h

/-- The temporary file takes the place of the configuration file; the backup
is none of the two. -/
theorem place_renameStep {saving : Saving α ρ} {data temp : String} {r : Except IoError Unit}
    (h : Intact store s.base s.files) (hready : saving.Ready)
    (hdata : Y.toYaml saving.cfg = .ok data)
    (harchived : Archived Y store s.base s.files (some temp)) (hown : Own store s.base temp)
    (hfile : s.files temp = some (.file data.toUTF8)) :
    Place Y store (renameStep store s saving temp r) := by
  unfold renameStep
  split
  · split
    · exact ⟨h, hown⟩
    · exact place_failed h
  · have hkept : Kept store s.base (Function.update s.files store.name (s.files temp)) := by
      intro p hp node hbase
      rw [Function.update_of_ne hp]
      exact h.kept p hp node hbase
    refine ⟨hkept.update hown none, hready.valid, hready.asked, .inr ⟨⟨data, hdata, ?_⟩, ?_⟩⟩
    · show Function.update (Function.update s.files store.name (s.files temp)) temp none
        store.name = _
      rw [Function.update_of_ne hown.ne.symm, Function.update_self, hfile]
    · intro bytes hbytes hread
      obtain ⟨p, hbackup, hne, hpown, hpfile⟩ := harchived bytes hbytes hread
      refine ⟨p, hbackup, Option.some_ne_none p, hpown, ?_⟩
      show Function.update (Function.update s.files store.name (s.files temp)) temp none p = _
      rw [Function.update_of_ne fun hp => hne (congrArg some hp), Function.update_of_ne hpown.ne,
        hpfile]

theorem place_step {l : Lbl α ρ} (I : Place Y store s) (h : step Y store s l = some s') :
    Place Y store s' := by
  unfold step at h
  unfold Place at I
  split at h
  · rename_i hpc
    split at h
    · cases h
      exact place_begin _
    · cases h
      unfold Place Done
      rw [hpc]
      exact ⟨fun _ _ _ hnode => hnode, rfl⟩
    · cases h
  · rename_i hpc
    rw [hpc] at I
    obtain ⟨r, -, rfl⟩ := Option.map_eq_some_iff.mp h
    exact place_readStep I
  · rename_i hpc
    rw [hpc] at I
    obtain ⟨r, -, rfl⟩ := Option.map_eq_some_iff.mp h
    exact place_backupReadStep I.1 I.2
  · rename_i hpc
    rw [hpc] at I
    split at h
    · cases h
      exact ⟨I.1, I.2.1, I.2.2, _, _, rfl⟩
    · cases h
  · rename_i hpc
    rw [hpc] at I
    obtain ⟨r, -, rfl⟩ := Option.map_eq_some_iff.mp h
    exact place_backupOpenStep I.1 I.2.1 I.2.2.1 I.2.2.2
  · rename_i hpc
    rw [hpc] at I
    split at h
    · cases h
      exact ⟨I.1, I.2.1, I.2.2, _, _, rfl⟩
    · cases h
  · rename_i hpc
    rw [hpc] at I
    obtain ⟨hintact, hready, hraw, hbackup, hown⟩ := I
    split at h
    · cases h
      exact place_serialize (hintact.update hown _) hready (archived_write hraw hbackup hown)
    · cases h
      exact ⟨hintact.update hown _, hown⟩
    · cases h
  · rename_i hpc
    rw [hpc] at I
    split at h
    · cases h
      exact place_failed (I.1.update I.2 _)
    · cases h
      exact place_failed I.1
    · cases h
  · rename_i hpc
    rw [hpc] at I
    obtain ⟨hintact, hready, hdata, harchived⟩ := I
    split at h
    · cases h
      exact ⟨hintact, hready, hdata, harchived, tempName_ne_name _ _⟩
    · cases h
      exact place_failed hintact
    · cases h
  · rename_i hpc
    rw [hpc] at I
    obtain ⟨hintact, hready, hdata, harchived, hne⟩ := I
    obtain ⟨r, -, rfl⟩ := Option.map_eq_some_iff.mp h
    exact place_tempOpenStep hintact hready hdata harchived hne
  · rename_i hpc
    rw [hpc] at I
    obtain ⟨hintact, hready, hdata, harchived, hown⟩ := I
    split at h
    · cases h
      exact ⟨hintact.update hown _, hready, hdata, harchived.update _, hown,
        Function.update_self ..⟩
    · cases h
      exact ⟨hintact.update hown _, hown⟩
    · cases h
  · rename_i hpc
    rw [hpc] at I
    split at h
    · cases h
      exact place_failed (I.1.update I.2 _)
    · cases h
      exact place_failed I.1
    · cases h
  · rename_i hpc
    rw [hpc] at I
    obtain ⟨hintact, hready, hdata, harchived, hown, hfile⟩ := I
    obtain ⟨r, -, rfl⟩ := Option.map_eq_some_iff.mp h
    exact place_renameStep hintact hready hdata harchived hown hfile

theorem place_inductive : (system Y store).Inductive (Place Y store) where
  init s h := by
    obtain ⟨hpc, hlast, hbase⟩ := h
    unfold Place Done
    rw [hpc, hlast, hbase]
    exact ⟨fun _ _ _ hnode => hnode, rfl⟩
  step _ _ _ I h := place_step I h

theorem kept_of_place (I : Place Y store s) : Kept store s.base s.files := by
  unfold Place at I
  split at I
  · exact I.1
  · exact I.kept
  all_goals exact I.1.kept

/-! ## What replaces the configuration file -/

@[simp] theorem readStep_files (r : Except IoError Unit) :
    (readStep Y store s r).files = s.files := by
  unfold readStep
  split
  · rfl
  · split
    · exact saveLocked_files _
    · rfl
    · split
      · rfl
      · exact loadRaw_files _

@[simp] theorem begin_files (op : Op α ρ) : (begin s op).files = s.files := by
  cases op with
  | load => rfl
  | save cfg => exact saveLocked_files _
  | reset => exact saveLocked_files _

theorem Intact.update_name (h : Own store base path) (node : Option Node) :
    Function.update files path node store.name = files store.name :=
  Function.update_of_ne h.ne.symm ..

/-- Only the rename touches the configuration file. -/
theorem step_name {l : Lbl α ρ} (I : Place Y store s) (h : step Y store s l = some s')
    (hedit : ∀ path node, l ≠ .edit path node)
    (hrename : ∀ saving data temp, s.pc ≠ .rename saving data temp) :
    s'.files store.name = s.files store.name := by
  unfold step at h
  unfold Place at I
  split at h
  · split at h
    · cases h
      rw [begin_files]
    · exact absurd rfl (hedit _ _)
    · cases h
  · obtain ⟨r, -, rfl⟩ := Option.map_eq_some_iff.mp h
    rw [readStep_files]
  · obtain ⟨r, -, rfl⟩ := Option.map_eq_some_iff.mp h
    rw [backupReadStep_files]
  · split at h
    · cases h
      rfl
    · cases h
  · rename_i hpc
    rw [hpc] at I
    obtain ⟨r, -, rfl⟩ := Option.map_eq_some_iff.mp h
    unfold backupOpenStep
    split
    · rename_i hopen
      refine Function.update_of_ne (fun hname => ?_) ..
      rw [← hname] at hopen
      have hnew := openNew_ok hopen
      rw [I.1.same, I.2.2.1] at hnew
      cases hnew
    · split
      · rfl
      · rfl
  · split at h
    · cases h
      rfl
    · cases h
  · rename_i hpc
    rw [hpc] at I
    have hown := I.2.2.2.2
    split at h
    · cases h
      rw [serialize_files]
      exact Intact.update_name hown _
    · cases h
      exact Intact.update_name hown _
    · cases h
  · rename_i hpc
    rw [hpc] at I
    split at h
    · cases h
      exact Intact.update_name I.2 _
    · cases h
      rfl
    · cases h
  · split at h
    · cases h
      rfl
    · cases h
      rfl
    · cases h
  · rename_i hpc
    rw [hpc] at I
    obtain ⟨r, -, rfl⟩ := Option.map_eq_some_iff.mp h
    unfold tempOpenStep
    split
    · exact Function.update_of_ne I.2.2.2.2.symm ..
    · rfl
  · rename_i hpc
    rw [hpc] at I
    have hown := I.2.2.2.2
    split at h
    · cases h
      exact Intact.update_name hown _
    · cases h
      exact Intact.update_name hown _
    · cases h
  · rename_i hpc
    rw [hpc] at I
    split at h
    · cases h
      exact Intact.update_name I.2 _
    · cases h
      rfl
    · cases h
  · rename_i hpc
    exact absurd hpc (hrename _ _ _)

/-- What the file holds once it is replaced, and what was archived before. -/
structure Replaced (Y : Yaml α ρ) (store : Store) (s s' : St α ρ) : Prop where
  saved : ∃ cfg, cfg.validate = .ok () ∧ Saved Y store s'.files cfg
  archived : ∀ bytes, s.files store.name = some (.file bytes) → readable Y bytes = false →
    ∃ path, IsBackup store path ∧ s.base path = none ∧ s.files path = some (.file bytes) ∧
      s'.files path = some (.file bytes)

theorem replaced {l : Lbl α ρ} (I : Place Y store s) (h : step Y store s l = some s')
    (hedit : ∀ path node, l ≠ .edit path node)
    (hne : s'.files store.name ≠ s.files store.name) : Replaced Y store s s' := by
  by_cases hrename : ∃ saving data temp, s.pc = .rename saving data temp
  · obtain ⟨saving, data, temp, hpc⟩ := hrename
    unfold Place at I
    rw [hpc] at I
    obtain ⟨hintact, hready, hdata, harchived, hown, hfile⟩ := I
    unfold step at h
    rw [hpc] at h
    obtain ⟨r, -, rfl⟩ := Option.map_eq_some_iff.mp h
    cases r with
    | error e =>
      refine absurd ?_ hne
      unfold renameStep
      split
      · rename_i hr
        cases hr
        split
        · rfl
        · rfl
      · rename_i hr
        cases hr
    | ok u =>
      refine ⟨⟨saving.cfg, hready.valid, data, hdata, ?_⟩, fun bytes hbytes hread => ?_⟩
      · show Function.update (Function.update s.files store.name (s.files temp)) temp none
          store.name = _
        rw [Intact.update_name hown, Function.update_self, hfile]
      · rw [hintact.same] at hbytes
        obtain ⟨p, hbackup, hpne, hpown, hpfile⟩ := harchived bytes hbytes hread
        refine ⟨p, hbackup, hpown.new, hpfile, ?_⟩
        show Function.update (Function.update s.files store.name (s.files temp)) temp none p = _
        rw [Function.update_of_ne fun hp => hpne (congrArg some hp),
          Function.update_of_ne hpown.ne, hpfile]
  · exact absurd (step_name I h hedit fun saving data temp hpc =>
      hrename ⟨saving, data, temp, hpc⟩) hne

/-! ## The store -/

theorem fromUTF8_toUTF8 (raw : String) : String.fromUTF8? raw.toUTF8 = some raw :=
  dif_pos raw.isValidUTF8

/-- A load after a save returns what was saved, if its blocks are read. -/
theorem load_saved (hY : Y.RoundTrips) {cfg : AppConfig α ρ} (hpc : s.pc = .idle)
    (hvalid : cfg.validate = .ok ()) (hsaved : Saved Y store s.files cfg) :
    ∃ s' loaded, LTS.exec (step Y store) s [.start .load, .ok] = some s' ∧
      s'.last = some (.load, loaded) ∧ s'.files = s.files ∧
      (loaded = .ok cfg ↔ cfg.audio.renderAheadBlocks ≤ 2) := by
  obtain ⟨data, hdata, hfile⟩ := hsaved
  obtain ⟨value, hfrom, hversion, -⟩ := hY cfg data hvalid hdata
  have hparse := Yaml.parse_toYaml hY hvalid hdata
  have hcurrent := (AppConfig.valid_of_validate hvalid).version
  have hload : ∃ loaded, loadRaw Y store (begin s .load) data =
      finish (begin s .load) .load loaded ∧
      (loaded = .ok cfg ↔ cfg.audio.renderAheadBlocks ≤ 2) := by
    split at hparse
    · rename_i hle
      refine ⟨.ok cfg, ?_, iff_of_true rfl hle⟩
      simp only [loadRaw, hparse, hfrom, Except.toOption, Option.bind_some, hversion, hcurrent,
        Option.getD_some]
      rfl
    · rename_i hgt
      obtain ⟨e, herror⟩ := hparse
      refine ⟨.error s!"Invalid configuration preserved at {store.debug}: {e}", ?_,
        iff_of_false (by simp) hgt⟩
      simp only [loadRaw, herror]
  obtain ⟨loaded, hload, hiff⟩ := hload
  have hread : readStep Y store (begin s .load) (.ok ()) =
      finish (begin s .load) .load loaded := by
    simp only [readStep, begin_files, hfile, fromUTF8_toUTF8, hload]
  refine ⟨finish (begin s .load) .load loaded, loaded, ?_, rfl, rfl, hiff⟩
  have hstart : step Y store s (.start .load) = some (begin s .load) := by
    unfold step
    rw [hpc]
  have hok : step Y store (begin s .load) .ok = some (readStep Y store (begin s .load) (.ok ())) :=
    rfl
  rw [LTS.exec, hstart, Option.bind_some, LTS.exec, hok, Option.bind_some, hread]
  rfl

/-- After a save the file holds the configuration that was asked for. -/
theorem saved_of_reachable (hs : (system Y store).Reachable s) {op : Op α ρ} {cfg : AppConfig α ρ}
    (hpc : s.pc = .idle) (hlast : s.last = some (op, .ok cfg)) (hop : op ≠ .load) :
    op.Asks cfg ∧ cfg.validate = .ok () ∧ Saved Y store s.files cfg := by
  have I := place_inductive.reachable s hs
  unfold Place Done at I
  rw [hpc, hlast] at I
  obtain ⟨-, hvalid, hasked, ⟨hload, -⟩ | ⟨hsaved, -⟩⟩ := I
  · exact absurd hload hop
  · exact ⟨hasked, hvalid, hsaved⟩

/-- Whatever call fails, the configuration file holds what it held or a valid
configuration as written; a file that cannot be read is replaced once its
bytes are under a new name, and no other file is touched; a failed operation
leaves it as it was; and a load returns what was saved exactly where its number
of blocks is one that is read. -/
theorem config_store (hY : Y.RoundTrips) (hs : (system Y store).Reachable s) :
    (∀ l s', step Y store s l = some s' → (∀ path node, l ≠ .edit path node) →
      s'.files store.name ≠ s.files store.name → Replaced Y store s s') ∧
    (∀ path ≠ store.name, ∀ node, s.base path = some node → s.files path = some node) ∧
    (∀ op e, s.pc = .idle → s.last = some (op, .error e) →
      s.files store.name = s.base store.name) ∧
    (∀ op cfg, s.pc = .idle → s.last = some (op, .ok cfg) → op ≠ .load →
      op.Asks cfg ∧ Saved Y store s.files cfg ∧
      ∃ s' loaded, LTS.exec (step Y store) s [.start .load, .ok] = some s' ∧
        s'.last = some (.load, loaded) ∧ s'.files = s.files ∧
        (loaded = .ok cfg ↔ cfg.audio.renderAheadBlocks ≤ 2)) ∧
    ∀ (settings : VstEqSettings) (sampleRate : UInt32),
      (settings.normalized sampleRate).normalized sampleRate = settings.normalized sampleRate := by
  have I := place_inductive.reachable s hs
  refine ⟨fun l s' h hedit hne => replaced I h hedit hne, kept_of_place I, ?_, ?_,
    normalized_normalized⟩
  · intro op e hpc hlast
    unfold Place Done at I
    rw [hpc, hlast] at I
    exact I.2
  · intro op cfg hpc hlast hop
    obtain ⟨hasked, hvalid, hsaved⟩ := saved_of_reachable hs hpc hlast hop
    exact ⟨hasked, hsaved, load_saved hY hpc hvalid hsaved⟩

end Invariant

/-! ## A file that cannot be read -/

/-- The default configuration with that many blocks, as it is written. -/
def yamlOf (blocks : UInt32) : String := "version: 4
midi:
  inputDevice: null
  outputDevice: null
  channelFilter: null
  thruEnabled: true
  hotplug: true
  routingProfiles: []
  routingAssignments: []
osc:
  inputEnabled: false
  listenIp: 127.0.0.1
  listenPort: 9001
  enabled: true
  targetIp: 127.0.0.1
  targetPort: 9000
  logMessages: true
rtp:
  thruEnabled: false
  enabled: true
  sessionName: OSCMidi
  port: 5004
  remoteEnabled: false
  remotes: []
  logMessages: false
audio:
  gameMode: true
  enabled: true
  backend: auto
  device: null
  deviceId: null
  sampleRate: 48000
  bufferSize: 512
  renderAheadBlocks: " ++ toString blocks.toNat ++ "
  dspThreadPriority: mmcss
  gainDb: 0.0
  limiterEnabled: false
  vstPluginId: null
  vstPath: null
  vstScanPaths: []
  vstEqByPlugin: \x7b\x7d
ui:
  theme: light
  themePalette: light
  accentColor: blue
  lightBackground: default
  darkBackground: default
  cornerRadius: 12.0
  autoStart: false
  developerMode: false
logging:
  enabled: true
  verbose: false
  logAllToFile: false
"

def withBlocks (blocks : UInt32) : AppConfig Unit Unit :=
  (AppConfig.default Unit Unit).withBlocks blocks

/-- The library on the default configuration, with one block or with three;
no other is read or written. -/
def oneOrThree : Yaml Unit Unit where
  Value := AppConfig Unit Unit
  fromStr raw :=
    if raw = yamlOf 1 then .ok (withBlocks 1)
    else if raw = yamlOf 3 then .ok (withBlocks 3)
    else .error "unexpected content"
  version cfg := some cfg.version
  setVersion version cfg := { cfg with version }
  fromValue deserialize cfg := (deserialize cfg.audio.renderAheadBlocks).map cfg.withBlocks
  toYaml cfg :=
    if cfg = withBlocks 1 then .ok (yamlOf 1)
    else if cfg = withBlocks 3 then .ok (yamlOf 3)
    else .error "unexpected value"

theorem oneOrThree_fromStr {cfg : AppConfig Unit Unit} {raw : String}
    (h : oneOrThree.toYaml cfg = .ok raw) : oneOrThree.fromStr raw = .ok cfg := by
  have hne : yamlOf 3 ≠ yamlOf 1 := by decide +kernel
  simp only [oneOrThree] at h ⊢
  generalize yamlOf 1 = one at h hne ⊢
  generalize yamlOf 3 = three at h hne ⊢
  split at h
  · rename_i hcfg
    cases h
    rw [if_pos rfl, hcfg]
  · split at h
    · rename_i hcfg
      cases h
      rw [if_neg hne, if_pos rfl, hcfg]
    · cases h

theorem oneOrThree_roundTrips : oneOrThree.RoundTrips := by
  intro cfg raw _ hraw
  refine ⟨cfg, oneOrThree_fromStr hraw, rfl, fun deserialize => ?_⟩
  have hvalue : oneOrThree.fromValue deserialize cfg =
      (deserialize cfg.audio.renderAheadBlocks).map cfg.withBlocks := rfl
  rw [hvalue]
  cases deserialize cfg.audio.renderAheadBlocks with
  | ok blocks => rfl
  | error e => exact ⟨e, rfl⟩

def configYaml : Store := ⟨"config", some "yaml", "\"config.yaml\"", 1, true⟩

/-- A save over bytes that are no text. -/
def overwrite (op : Op Unit Unit) : List (Lbl Unit Unit) :=
  [.edit "config.yaml" (some (.file ⟨#[0xFF]⟩)), .start op, .ok, .now 5, .ok, .ok, .ok, .ok, .ok,
    .ok]

def noFiles : St Unit Unit := ⟨fun _ => none, .idle, 0, none, fun _ => none⟩

theorem starts_noFiles : Starts noFiles := ⟨rfl, rfl, rfl⟩

theorem config_store_reset :
    ∃ s : St Unit Unit, s.files "config.yaml.invalid-5" = some (.file ⟨#[0xFF]⟩) ∧
      ∃ s', LTS.exec (step oneOrThree configYaml) s [.start .load, .ok] = some s' ∧
        s'.last = some (.load, .ok (.default Unit Unit)) := by
  have hrun : ∃ s, (system oneOrThree configYaml).Reachable s ∧
      decide (s.pc = .idle ∧ s.last = some (.reset, .ok (.default Unit Unit)) ∧
        s.files "config.yaml.invalid-5" = some (.file ⟨#[0xFF]⟩)) = true :=
    LTS.reachable_of_any (overwrite .reset) starts_noFiles (by decide +kernel)
  obtain ⟨s, hs, h⟩ := hrun
  obtain ⟨hpc, hlast, hbackup⟩ := of_decide_eq_true h
  obtain ⟨-, -, s', loaded, hload, hloaded, -, hiff⟩ :=
    (config_store oneOrThree_roundTrips hs).2.2.2.1 _ _ hpc hlast (by decide)
  rw [hiff.mpr (by decide)] at hloaded
  exact ⟨s, hbackup, s', hload, hloaded⟩

/-- A configuration with three blocks is valid, is saved, and is refused by the
load that follows. -/
theorem three_blocks_refused : oneOrThree.RoundTrips ∧
    ∃ s s' : St Unit Unit, (system oneOrThree configYaml).Reachable s ∧
      s.last = some (.save (withBlocks 3), .ok (withBlocks 3)) ∧
      LTS.exec (step oneOrThree configYaml) s [.start .load, .ok] = some s' ∧
      s'.last ≠ some (.load, .ok (withBlocks 3)) := by
  have hrun : ∃ s, (system oneOrThree configYaml).Reachable s ∧
      decide (s.pc = .idle ∧ s.last = some (.save (withBlocks 3), .ok (withBlocks 3))) = true :=
    LTS.reachable_of_any (overwrite (.save (withBlocks 3))) starts_noFiles (by decide +kernel)
  obtain ⟨s, hs, h⟩ := hrun
  obtain ⟨hpc, hlast⟩ := of_decide_eq_true h
  obtain ⟨-, hvalid, hsaved⟩ := saved_of_reachable hs hpc hlast (by decide)
  obtain ⟨s', loaded, hload, hloaded, -, hiff⟩ :=
    load_saved oneOrThree_roundTrips hpc hvalid hsaved
  refine ⟨oneOrThree_roundTrips, s, s', hs, hlast, hload, fun heq => ?_⟩
  rw [hloaded, Option.some.injEq, Prod.mk.injEq] at heq
  exact absurd (hiff.mp heq.2) (by decide)

end RtpOscMidi.L2.ConfigStore
