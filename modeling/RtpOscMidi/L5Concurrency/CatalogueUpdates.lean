import RtpOscMidi.Core.ReadCopyUpdate
import RtpOscMidi.L2Machine.PluginScan

/-!
# Updates of the plug-in catalogue

`refresh_vst_plugins` and `retest_vst_plugin` as calls on the cached
catalogue and its file: each reads the cache under its lock, scans or probes
with nothing locked, stores the new catalogue and saves it. Any number of
calls run at once, each with the files and the probes it meets.

The roots of a refresh (the default folders that exist and the configured
ones) are an argument; the migration of the configured plug-in that follows a
refresh does not touch the catalogue.

* `catalogue_updates`: where no call stores over a catalogue it has not read
  and the saves succeed in the order of the stores, the calls come one after
  the other, and a retest keeps the entries of the other plug-ins.
* `overlapping_retests`: two retests at once lose one of the two results.
-/
namespace RtpOscMidi.L5.CatalogueUpdates

open Core Core.ReadCopyUpdate
open RtpOscMidi.L2.PluginFiles RtpOscMidi.L2.PluginScan

abbrev Catalogue := List VstPluginEntry

/-- The Unicode operations on a text. -/
structure Text where
  toLowercase : String → String
  trim : String → String

variable (text : Text)

/-! ## Derived fields -/

/-- mirrors src-tauri/src/types.rs:367-374 -/
def fnv1a64 (bytes : List UInt8) : UInt64 :=
  bytes.foldl (fun hash byte => (hash ^^^ byte.toUInt64) * 0x100000001b3) 0xcbf29ce484222325

/-- Sixteen lower-case digits. -/
def hex16 (n : UInt64) : String :=
  String.ofList ((List.range 16).map fun i => Nat.digitChar (n.toNat / 16 ^ (15 - i) % 16))

/-- mirrors src-tauri/src/types.rs:358-365 -/
def canonicalPluginPath (fs : FileSystem) (path : String) : String :=
  text.toLowercase
    (String.ofList ((fs.resolve path).toList.map fun c => if c = '/' then '\\' else c))

/-- mirrors src-tauri/src/types.rs:312-335 -/
def stablePluginId (fs : FileSystem) (format path : String) (classUid : Option String)
    (subPluginId : Option Int) (architecture : String) : String :=
  let normalizedUid := text.toLowercase (text.trim (classUid.getD ""))
  let locationOrUid :=
    if normalizedUid = "" then "path:" ++ canonicalPluginPath text fs path
    else "uid:" ++ normalizedUid
  let identity := text.toLowercase format ++ "|" ++ locationOrUid ++ "|" ++
    (subPluginId.map toString).getD "" ++ "|" ++ text.toLowercase architecture
  "vst-" ++ hex16 (fnv1a64 identity.toUTF8.toList)

/-- mirrors src-tauri/src/types.rs:277-309 -/
def refreshDerivedFields (fs : FileSystem) (e : VstPluginEntry) : VstPluginEntry :=
  let e :=
    if e.availableArchitectures = [] then { e with availableArchitectures := [e.architecture] }
    else e
  let e :=
    if e.id = "" then
      { e with id := stablePluginId text fs e.format e.path e.classUid e.subPluginId e.architecture }
    else e
  let e := if e.supported ∧ e.status = .unsupported then { e with status := .compatible } else e
  let e := if ¬e.supported ∧ e.kind = "effect" then { e with status := .outOfScope } else e
  let e := if e.lastError = none then { e with lastError := e.unsupportedReason } else e
  if e.hostingMode = none then
    { e with
      hostingMode :=
        some (if eqIgnoreAsciiCase e.architecture "x86" then "bridgedX86" else "directX64") }
  else e

/-- mirrors src-tauri/src/tauri/utils.rs:76-84 -/
def retainInstrumentEntries (fs : FileSystem) (entries : Catalogue) : Catalogue :=
  entries.map (refreshDerivedFields text fs)

/-! ## The two calls -/

/-- What a scan or a probe of a call meets. -/
structure World where
  fs : FileSystem
  probe : Probe

/-- mirrors src-tauri/src/plugin_probe.rs:333-340 -/
def probePluginsIsolated (w : World) (path : String) (timeout : Nat) : Catalogue :=
  (availablePluginArchitectures w.fs path).flatMap fun architecture =>
    w.probe path timeout architecture

inductive Call where
  | refresh (w : World) (roots : List String)
  | retest (w : World) (id : String)

/-- The new cache, or `none` if the call returns what is cached.
mirrors src-tauri/src/application/service_audio.rs:39-61 -/
def refreshVstPlugins (w : World) (roots : List String) (cache : Option Catalogue) :
    Option Catalogue :=
  if roots = [] then none
  else
    let cached := cache.getD []
    some (retainInstrumentEntries text w.fs
      (scanVstPluginsWithProbe text.toLowercase w.fs roots cached false w.probe))

def NameLE (a b : VstPluginEntry) : Prop := text.toLowercase a.name ≤ text.toLowercase b.name

instance : DecidableRel (NameLE text) := fun _ _ => inferInstanceAs (Decidable (_ ≤ _))

/-- The new cache, or `none` if the call returns an error: the entry is not in
the cache, or the probe finds no class.
mirrors src-tauri/src/application/service_audio.rs:116-141 -/
def retestVstPlugin (w : World) (id : String) (cache : Option Catalogue) : Option Catalogue :=
  let cached := cache.getD []
  match cached.find? fun e => e.id = id with
  | none => none
  | some previous =>
    let testedEntries := probePluginsIsolated w previous.path 60
    if testedEntries = [] then none
    else
      let updated :=
        (cached.filter fun e => !eqIgnoreAsciiCase e.path previous.path) ++ testedEntries
      some (updated.insertionSort (NameLE text))

def Call.update : Call → Option Catalogue → Option (Option Catalogue)
  | .refresh w roots, cache => (refreshVstPlugins text w roots cache).map some
  | .retest w id, cache => (retestVstPlugin text w id cache).map some

/-- mirrors src-tauri/src/tauri/utils.rs:86-92 -/
def loadVstCacheFromDisk (fs : FileSystem) (disk : Option Catalogue) : Option Catalogue :=
  disk.map (retainInstrumentEntries text fs)

/-- The program starts with what the disk has; `fs` is what it met then. -/
def updates {n : Nat} (calls : Fin n → Call) (fs : FileSystem) (disk : Option Catalogue) :
    LTS (State (Fin n) (Option Catalogue)) (Label (Fin n)) :=
  system (fun i => (calls i).update text) (loadVstCacheFromDisk text fs disk) disk

variable {text}

theorem retestVstPlugin_keeps {w : World} {id : String} {cache : Option Catalogue}
    {updated : Catalogue} (h : retestVstPlugin text w id cache = some updated) :
    ∃ previous ∈ cache.getD [], previous.id = id ∧
      ∀ e ∈ cache.getD [], eqIgnoreAsciiCase e.path previous.path = false → e ∈ updated := by
  unfold retestVstPlugin at h
  cases hfind : (cache.getD []).find? fun e => e.id = id with
  | none => simp [hfind] at h
  | some previous =>
    refine ⟨previous, List.mem_of_find?_eq_some hfind, ?_, ?_⟩
    · simpa using List.find?_some hfind
    · intro e he hpath
      simp only [hfind] at h
      split at h
      · cases h
      · cases h
        rw [List.mem_insertionSort, List.mem_append, List.mem_filter]
        exact .inl ⟨he, by simp [hpath]⟩

/-- All calls have returned: cache and disk are what the calls leave one after
the other in some order, and the disk has the cache, or nothing was stored
since the start. -/
def OneByOne {n : Nat} (text : Text) (calls : Fin n → Call) (fs : FileSystem)
    (disk : Option Catalogue) (s : State (Fin n) (Option Catalogue)) : Prop :=
  (∃ order : List (Fin n), order.Nodup ∧ (∀ i, i ∈ order) ∧
    serial (fun i => (calls i).update text) order (loadVstCacheFromDisk text fs disk, disk) =
      (s.mem, s.disk)) ∧
  (s.disk = s.mem ∨ s.mem = loadVstCacheFromDisk text fs s.disk)

/-- A store by a retest reverts no entry of another plug-in. -/
def KeepsOthers {n : Nat} (calls : Fin n → Call) (s s' : State (Fin n) (Option Catalogue)) : Prop :=
  ∀ i w id, calls i = .retest w id → (∃ copy new, s.phase i = .ready copy new) →
    (∃ new version, s'.phase i = .stored new version) →
    ∃ previous ∈ s.mem.getD [], previous.id = id ∧
      ∀ e ∈ s.mem.getD [], eqIgnoreAsciiCase e.path previous.path = false → e ∈ s'.mem.getD []

theorem keepsOthers_step {n : Nat} {calls : Fin n → Call} {m d : Option Catalogue}
    {s s' : State (Fin n) (Option Catalogue)} {l : Label (Fin n)}
    (hs : Serializable (fun i => (calls i).update text) m d s) (hok : Orderly s l)
    (hst : step (fun i => (calls i).update text) s l = some s') : KeepsOthers calls s s' := by
  intro i w id hcall hready hstored
  obtain ⟨copy, new, hp⟩ := hready
  obtain ⟨stored, version, hp'⟩ := hstored
  obtain ⟨⟨order, O⟩, _⟩ := hs
  obtain ⟨hl, hmem⟩ := store_of_stored hst hp hp'
  -- the call read the cache as it is, so what it keeps it keeps of the cache
  rw [hl] at hok
  simp only [Orderly, hp, Phase.Fresh] at hok
  have hupdate := O.ready i copy new hp
  rw [hok, hcall, Call.update] at hupdate
  obtain ⟨updated, hretest, rfl⟩ := Option.map_eq_some_iff.mp hupdate
  rw [hmem]
  exact retestVstPlugin_keeps hretest

/-- Orderly runs of any calls. -/
theorem catalogue_updates {n : Nat} (text : Text) (calls : Fin n → Call) (fs : FileSystem)
    (disk : Option Catalogue) (s : State (Fin n) (Option Catalogue))
    (hr : ((updates text calls fs disk).restrict Orderly).Reachable s) :
    ((∀ i, s.phase i = .returned) → OneByOne text calls fs disk s) ∧
    ∀ l s', ((updates text calls fs disk).restrict Orderly).step s l s' →
      KeepsOthers calls s s' := by
  have hs := (serializable_inductive _ _ _).reachable s hr
  refine ⟨?_, ?_⟩
  · intro hret
    obtain ⟨horder, hdisk⟩ := serial_of_returned hs hret
    refine ⟨horder, ?_⟩
    cases hdisk with
    | inl h => exact .inl h
    | inr h => exact .inr (by rw [h.1, h.2])
  · intro l s' hst
    exact keepsOthers_step hs hst.1 hst.2

/-! ## Two retests -/

def asciiText : Text := ⟨id, id⟩

def twoFiles : World := ⟨folder [("vst\\a.dll", 0x14C), ("vst\\b.dll", 0x14C)], synthProbe⟩

/-- Both plug-ins have failed before; a probe finds them compatible now. -/
def failedCatalogue : Catalogue :=
  ["vst\\a.dll", "vst\\b.dll"].flatMap fun path =>
    (synthProbe path 30 "x86").map fun e => { e with status := .failed, supported := false }

def retests : Fin 2 → Call
  | 0 => .retest twoFiles "vst\\a.dll"
  | 1 => .retest twoFiles "vst\\b.dll"

def statusOf (id : String) (cache : Option Catalogue) : Option PluginStatus :=
  ((cache.getD []).find? fun e => e.id = id).map (·.status)

def allReturned (s : State (Fin 2) (Option Catalogue)) : Bool :=
  s.phase 0 = .returned && s.phase 1 = .returned

theorem returned_of_allReturned {s : State (Fin 2) (Option Catalogue)} (h : allReturned s = true) :
    ∀ i, s.phase i = .returned := by
  have hboth := (Bool.and_eq_true_iff.mp h)
  exact Fin.forall_fin_two.mpr ⟨of_decide_eq_true hboth.1, of_decide_eq_true hboth.2⟩

/-- Two retests after each other. -/
theorem catalogue_updates_retests :
    ∃ s, (∀ i, s.phase i = .returned) ∧
      OneByOne asciiText retests twoFiles.fs (some failedCatalogue) s := by
  obtain ⟨s, hr, hp⟩ : ∃ s, ((updates asciiText retests twoFiles.fs
      (some failedCatalogue)).restrict Orderly).Reachable s ∧ allReturned s = true :=
    LTS.reachable_of_anyOk
      [.read 0, .work 0, .store 0, .save 0 true, .read 1, .work 1, .store 1, .save 1 true] rfl
      (by decide +kernel)
  have hret := returned_of_allReturned hp
  exact ⟨s, hret, (catalogue_updates asciiText retests twoFiles.fs (some failedCatalogue) s hr).1 hret⟩

theorem order_of_two {order : List (Fin 2)} (hn : order.Nodup) (hall : ∀ i, i ∈ order) :
    order ∈ [[0, 1], [1, 0]] := by
  have hperm : order.Perm [0, 1] :=
    (List.perm_ext_iff_of_nodup hn (by decide)).mpr fun i =>
      ⟨fun _ => Fin.forall_fin_two.mpr ⟨by decide, by decide⟩ i, fun _ => hall i⟩
  have hmem := List.mem_permutations.mpr hperm
  have hpermutations : ([0, 1] : List (Fin 2)).permutations = [[0, 1], [1, 0]] := by
    simp [List.permutations, List.permutationsAux, List.permutationsAux.rec]
  rwa [hpermutations] at hmem

/-- The second retest has read the catalogue before the first stores; it puts
the first plug-in back to what it was after the first retest has returned. -/
theorem overlapping_retests :
    ∃ s, (updates asciiText retests twoFiles.fs (some failedCatalogue)).Reachable s ∧
      (∀ i, s.phase i = .returned) ∧
      statusOf "vst\\a.dll" s.mem = some .failed ∧
      ¬ OneByOne asciiText retests twoFiles.fs (some failedCatalogue) s := by
  obtain ⟨s, hr, hp⟩ : ∃ s, (updates asciiText retests twoFiles.fs
      (some failedCatalogue)).Reachable s ∧
      (allReturned s && decide (statusOf "vst\\a.dll" s.mem = some .failed)) = true :=
    LTS.reachable_of_any
      [.read 0, .read 1, .work 0, .store 0, .save 0 true, .work 1, .store 1, .save 1 true] rfl
      (by decide +kernel)
  obtain ⟨hreturned, hstatus⟩ := Bool.and_eq_true_iff.mp hp
  have hstatus := of_decide_eq_true hstatus
  refine ⟨s, hr, returned_of_allReturned hreturned, hstatus, ?_⟩
  intro h
  obtain ⟨⟨order, hn, hall, hserial⟩, _⟩ := h
  have hserials : ∀ order ∈ [[0, 1], [1, 0]],
      statusOf "vst\\a.dll" (serial (fun i => (retests i).update asciiText) order
        (loadVstCacheFromDisk asciiText twoFiles.fs (some failedCatalogue),
          some failedCatalogue)).1 = some .compatible := by
    decide +kernel
  have hcompatible := hserials order (order_of_two hn hall)
  rw [hserial, hstatus] at hcompatible
  cases hcompatible

end RtpOscMidi.L5.CatalogueUpdates
