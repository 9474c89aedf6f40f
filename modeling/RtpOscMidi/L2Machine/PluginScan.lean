import RtpOscMidi.Core.StableSort
import RtpOscMidi.L2Machine.PluginFiles

/-!
# The scan of the plug-in catalogue

`scan_vst_plugins_with_probe`: the files below the roots are taken from the
cached catalogue where that still fits them and probed otherwise, in two
lanes; then every entry gets the architectures of its group and the entries
are sorted.

* `sweep_eq`: what the loop over the files leaves, file by file.
* `filter_collected`: an entry is found again under its file.
* `architectures_eq`: the list an entry gets is x64, if its group has it, and
  then the other architectures as they come, equal neighbours once.
* `catalogue_scan`: the scan is right exactly when in each group the other
  architectures come in unbroken runs, in the same order lane by lane as file
  by file.

The probe runs outside and is an argument, with its time limit in seconds.
-/
namespace RtpOscMidi.L2.PluginScan

open Core PluginFiles

/-- mirrors src-tauri/src/types.rs:214-225 -/
inductive PluginStatus where
  | probing
  | compatible
  | unverified
  | failed
  | quarantined
  | unsupported
  | outOfScope
  deriving DecidableEq, Repr

/-- mirrors src-tauri/src/types.rs:227-268 -/
structure VstPluginEntry where
  id : String
  name : String
  path : String
  format : String
  kind : String
  architecture : String
  availableArchitectures : List String
  vendor : Option String
  pluginVersion : Option String
  status : PluginStatus
  supported : Bool
  unsupportedReason : Option String
  failureStage : Option String
  lastError : Option String
  lastProbedMs : Option Nat
  midiCompatible : Option Bool
  hasEditor : Bool
  channelLayout : Option String
  classUid : Option String
  subPluginId : Option Int
  hostingMode : Option String
  fileModifiedMs : Option Nat
  fileSize : Option Nat
  hostAbiVersion : Nat
  deriving DecidableEq, Repr

/-- mirrors src-tauri/src/types.rs:270 -/
def vstHostAbiVersion : Nat := 14

abbrev Probe := String → Nat → String → List VstPluginEntry

variable (toLowercase : String → String) (fs : FileSystem)

/-! ## The loop over the files -/

/-- `cached_by_path.get`: the cached entries of a path, in their order. -/
def cachedVariants (cached : List VstPluginEntry) (path : String) : List VstPluginEntry :=
  cached.filter fun e => normalizePath toLowercase fs e.path = normalizePath toLowercase fs path

/-- mirrors src-tauri/src/plugin_probe.rs:143-157 -/
def reusable (path : String) (variants : List VstPluginEntry) : Bool :=
  !variants.isEmpty &&
    ((availablePluginArchitectures fs path).all fun architecture =>
      variants.any fun e => e.architecture == architecture) &&
    variants.all fun e =>
      (availablePluginArchitectures fs path).contains e.architecture &&
        e.fileModifiedMs == (fs.pluginFileMetadata path).1 &&
        e.fileSize == (fs.pluginFileMetadata path).2 &&
        e.hostAbiVersion == vstHostAbiVersion

def reused (cached : List VstPluginEntry) (forceRetest : Bool) (path : String) : Bool :=
  !forceRetest && reusable fs path (cachedVariants toLowercase fs cached path)

def x86Lane (path : String) : List (String × String) :=
  if "x86" ∈ availablePluginArchitectures fs path then [(path, "x86")] else []

def x64Lane (path : String) : List (String × String) :=
  match (availablePluginArchitectures fs path).find? (· ≠ "x86") with
  | some architecture => [(path, architecture)]
  | none => []

structure Sweep where
  entries : List VstPluginEntry
  seenPlugins : List PluginIdentity
  x86Candidates : List (String × String)
  x64Candidates : List (String × String)
  deriving DecidableEq, Repr

/-- mirrors src-tauri/src/plugin_probe.rs:139-174 -/
def Sweep.visit (cached : List VstPluginEntry) (forceRetest : Bool) (s : Sweep) (path : String) :
    Sweep :=
  if pluginIdentity fs path ∈ s.seenPlugins then s
  else
    let s := { s with seenPlugins := pluginIdentity fs path :: s.seenPlugins }
    if reused toLowercase fs cached forceRetest path then
      { s with entries := s.entries ++ cachedVariants toLowercase fs cached path }
    else
      { s with
        x86Candidates := s.x86Candidates ++ x86Lane fs path
        x64Candidates := s.x64Candidates ++ x64Lane fs path }

/-- mirrors src-tauri/src/plugin_probe.rs:124-176 -/
def sweep (roots : List String) (cached : List VstPluginEntry) (forceRetest : Bool) : Sweep :=
  (uniqueExistingRoots toLowercase fs roots).foldl
    (fun s root =>
      (scanPluginCandidates fs root).foldl (Sweep.visit toLowercase fs cached forceRetest) s)
    ⟨[], [], [], []⟩

/-! ## The catalogue -/

/-- What the two lanes probe, the x86 lane first. -/
def Sweep.probes (s : Sweep) : List (String × String) := s.x86Candidates ++ s.x64Candidates

def probeTimeout (forceRetest : Bool) : Nat := if forceRetest then 60 else 30

/-- mirrors src-tauri/src/plugin_probe.rs:206-219 -/
def Sweep.collect (probe : Probe) (forceRetest : Bool) (s : Sweep) : List VstPluginEntry :=
  s.entries ++ s.probes.flatMap fun p => probe p.1 (probeTimeout forceRetest) p.2

def sameGroup (c e : VstPluginEntry) : Bool :=
  eqIgnoreAsciiCase c.format e.format && eqIgnoreAsciiCase c.name e.name && c.vendor == e.vendor

def architectureRank (architecture : String) : Nat := if architecture = "x64" then 0 else 1

/-- mirrors src-tauri/src/plugin_probe.rs:206-221 -/
def groupArchitectures (entries : List VstPluginEntry) (e : VstPluginEntry) : List String :=
  let architectures := (entries.filter fun c => sameGroup c e).map (·.architecture)
  (architectures.insertionSort fun a b => architectureRank a ≤ architectureRank b).destutter (· ≠ ·)

def withArchitectures (entries : List VstPluginEntry) (e : VstPluginEntry) : VstPluginEntry :=
  { e with availableArchitectures := groupArchitectures entries e }

/-- The loop changes no field that it reads.
mirrors src-tauri/src/plugin_probe.rs:206-221 -/
def setArchitectures (entries : List VstPluginEntry) : List VstPluginEntry :=
  entries.map (withArchitectures entries)

/-- mirrors src-tauri/src/plugin_probe.rs:223-232 -/
def entryKey (e : VstPluginEntry) : String ×ₗ Nat ×ₗ String :=
  toLex (toLowercase e.name, toLex (architectureRank e.architecture, toLowercase e.path))

def EntryLE (a b : VstPluginEntry) : Prop := entryKey toLowercase a ≤ entryKey toLowercase b

instance : DecidableRel (EntryLE toLowercase) := fun _ _ => inferInstanceAs (Decidable (_ ≤ _))

instance : Std.Total (EntryLE toLowercase) where
  total _ _ := le_total _ _

instance : IsTrans VstPluginEntry (EntryLE toLowercase) where
  trans _ _ _ := le_trans

def finish (entries : List VstPluginEntry) : List VstPluginEntry :=
  (setArchitectures entries).insertionSort (EntryLE toLowercase)

/-- mirrors src-tauri/src/plugin_probe.rs:118-234 -/
def scanVstPluginsWithProbe (roots : List String) (cached : List VstPluginEntry)
    (forceRetest : Bool) (probe : Probe) : List VstPluginEntry :=
  finish toLowercase ((sweep toLowercase fs roots cached forceRetest).collect probe forceRetest)

/-! ## File by file -/

/-- The candidates of an identity not seen before. -/
def newPlugins : List PluginIdentity → List String → List String
  | _, [] => []
  | seen, path :: paths =>
    if pluginIdentity fs path ∈ seen then newPlugins seen paths
    else path :: newPlugins (pluginIdentity fs path :: seen) paths

def scannedFiles (roots : List String) : List String :=
  newPlugins fs [] ((uniqueExistingRoots toLowercase fs roots).flatMap (scanPluginCandidates fs))

theorem newPlugins_nodup (paths : List String) :
    ∀ seen, ((newPlugins fs seen paths).map (pluginIdentity fs)).Nodup ∧
      ∀ path ∈ newPlugins fs seen paths, pluginIdentity fs path ∉ seen := by
  induction paths with
  | nil => exact fun seen => ⟨.nil, by simp [newPlugins]⟩
  | cons path paths ih =>
    intro seen
    unfold newPlugins
    split
    · exact ih seen
    · rename_i hnew
      obtain ⟨hnodup, hseen⟩ := ih (pluginIdentity fs path :: seen)
      refine ⟨?_, ?_⟩
      · rw [List.map_cons, List.nodup_cons]
        refine ⟨?_, hnodup⟩
        intro hmem
        obtain ⟨q, hq, heq⟩ := List.mem_map.mp hmem
        exact hseen q hq (heq ▸ List.mem_cons_self)
      · intro q hq
        cases List.mem_cons.mp hq with
        | inl e => exact e ▸ hnew
        | inr hq => exact fun h => hseen q hq (List.mem_cons_of_mem _ h)

theorem scannedFiles_nodup (roots : List String) :
    ((scannedFiles toLowercase fs roots).map (pluginIdentity fs)).Nodup :=
  (newPlugins_nodup fs _ []).1

variable {toLowercase fs} {cached : List VstPluginEntry} {forceRetest : Bool} {roots : List String}
  {probe : Probe}

/-- The loop from any state on: each new file adds its own part. -/
theorem foldl_visit (paths : List String) :
    ∀ s : Sweep, ∃ seen,
      paths.foldl (Sweep.visit toLowercase fs cached forceRetest) s =
        { entries := s.entries ++ (newPlugins fs s.seenPlugins paths).flatMap fun path =>
            if reused toLowercase fs cached forceRetest path then
              cachedVariants toLowercase fs cached path
            else []
          seenPlugins := seen
          x86Candidates := s.x86Candidates ++ (newPlugins fs s.seenPlugins paths).flatMap fun path =>
            if reused toLowercase fs cached forceRetest path then [] else x86Lane fs path
          x64Candidates := s.x64Candidates ++ (newPlugins fs s.seenPlugins paths).flatMap fun path =>
            if reused toLowercase fs cached forceRetest path then [] else x64Lane fs path } := by
  induction paths with
  | nil => exact fun s => ⟨s.seenPlugins, by simp [newPlugins]⟩
  | cons path paths ih =>
    intro s
    rw [List.foldl_cons]
    obtain ⟨seen, h⟩ := ih (Sweep.visit toLowercase fs cached forceRetest s path)
    refine ⟨seen, h.trans ?_⟩
    by_cases hseen : pluginIdentity fs path ∈ s.seenPlugins
    · simp only [Sweep.visit, newPlugins, if_pos hseen]
    · cases hr : reused toLowercase fs cached forceRetest path <;>
        simp [Sweep.visit, newPlugins, hseen, hr]

variable (toLowercase fs cached forceRetest roots) in
theorem sweep_eq : ∃ seen, sweep toLowercase fs roots cached forceRetest =
    { entries := (scannedFiles toLowercase fs roots).flatMap fun path =>
        if reused toLowercase fs cached forceRetest path then
          cachedVariants toLowercase fs cached path
        else []
      seenPlugins := seen
      x86Candidates := (scannedFiles toLowercase fs roots).flatMap fun path =>
        if reused toLowercase fs cached forceRetest path then [] else x86Lane fs path
      x64Candidates := (scannedFiles toLowercase fs roots).flatMap fun path =>
        if reused toLowercase fs cached forceRetest path then [] else x64Lane fs path } := by
  obtain ⟨seen, h⟩ := @foldl_visit toLowercase fs cached forceRetest
    ((uniqueExistingRoots toLowercase fs roots).flatMap (scanPluginCandidates fs)) ⟨[], [], [], []⟩
  refine ⟨seen, ?_⟩
  rw [List.foldl_flatMap] at h
  exact h

/-! ## What the entries of a file are -/

/-- What a probe is taken to return. -/
structure HonestProbe (fs : FileSystem) (probe : Probe) : Prop where
  nonempty : ∀ path timeout architecture, probe path timeout architecture ≠ []
  path : ∀ path timeout architecture, ∀ e ∈ probe path timeout architecture, e.path = path
  architecture : ∀ path timeout architecture, ∀ e ∈ probe path timeout architecture,
    e.architecture = architecture
  modified : ∀ path timeout architecture, ∀ e ∈ probe path timeout architecture,
    e.fileModifiedMs = (fs.pluginFileMetadata path).1
  size : ∀ path timeout architecture, ∀ e ∈ probe path timeout architecture,
    e.fileSize = (fs.pluginFileMetadata path).2
  abi : ∀ path timeout architecture, ∀ e ∈ probe path timeout architecture,
    e.hostAbiVersion = vstHostAbiVersion

/-- Paths that differ in letter case only lead to one file. -/
structure CaseInsensitive (toLowercase : String → String) (fs : FileSystem) : Prop where
  normalize : ∀ a b, toLowercase a = toLowercase b →
    normalizePath toLowercase fs a = normalizePath toLowercase fs b
  identity : ∀ a b, normalizePath toLowercase fs a = normalizePath toLowercase fs b →
    pluginIdentity fs a = pluginIdentity fs b

structure Fits (fs : FileSystem) (path : String) (e : VstPluginEntry) : Prop where
  architecture : e.architecture ∈ availablePluginArchitectures fs path
  modified : e.fileModifiedMs = (fs.pluginFileMetadata path).1
  size : e.fileSize = (fs.pluginFileMetadata path).2
  abi : e.hostAbiVersion = vstHostAbiVersion

/-- The entries have the architectures of the file and no others, its
fingerprint and the version of the host. -/
structure CoversExactly (fs : FileSystem) (path : String) (variants : List VstPluginEntry) :
    Prop where
  covered : ∀ architecture ∈ availablePluginArchitectures fs path,
    ∃ e ∈ variants, e.architecture = architecture
  fits : ∀ e ∈ variants, Fits fs path e

theorem reusable_iff {path : String} {variants : List VstPluginEntry} :
    reusable fs path variants ↔ variants ≠ [] ∧ CoversExactly fs path variants := by
  simp only [reusable, Bool.and_eq_true, Bool.not_eq_true', List.isEmpty_eq_false_iff,
    List.all_eq_true, List.any_eq_true, beq_iff_eq, List.contains_eq_mem, decide_eq_true_eq]
  constructor
  · intro h
    exact ⟨h.1.1, h.1.2, fun e he =>
      ⟨(h.2 e he).1.1.1, (h.2 e he).1.1.2, (h.2 e he).1.2, (h.2 e he).2⟩⟩
  · intro h
    exact ⟨⟨h.1, h.2.covered⟩, fun e he =>
      ⟨⟨⟨(h.2.fits e he).architecture, (h.2.fits e he).modified⟩, (h.2.fits e he).size⟩,
        (h.2.fits e he).abi⟩⟩

variable (fs) in
def lanes (path : String) : List (String × String) := x86Lane fs path ++ x64Lane fs path

theorem mem_lanes {path : String} {p : String × String} :
    p ∈ lanes fs path ↔ p.1 = path ∧ p.2 ∈ availablePluginArchitectures fs path := by
  obtain ⟨q, architecture⟩ := p
  cases availablePluginArchitectures_cases fs path with
  | inl h =>
    simp only [lanes, x86Lane, x64Lane, h]
    simp [Prod.ext_iff]
    grind
  | inr h =>
    obtain ⟨a, h⟩ := h
    by_cases ha : a = "x86"
    · simp [lanes, x86Lane, x64Lane, h, ha]
    · simp [lanes, x86Lane, x64Lane, h, ha, Ne.symm ha]

variable (toLowercase fs cached forceRetest probe) in
/-- The entries of a file: those of the cache, or those of its probes. -/
def fileEntries (path : String) : List VstPluginEntry :=
  if reused toLowercase fs cached forceRetest path then cachedVariants toLowercase fs cached path
  else (lanes fs path).flatMap fun p => probe p.1 (probeTimeout forceRetest) p.2

theorem availablePluginArchitectures_ne_nil (path : String) :
    availablePluginArchitectures fs path ≠ [] := by
  cases availablePluginArchitectures_cases fs path with
  | inl h => simp [h]
  | inr h =>
    obtain ⟨a, h⟩ := h
    simp [h]

theorem coversExactly_probes (hp : HonestProbe fs probe) (timeout : Nat) (path : String) :
    CoversExactly fs path ((lanes fs path).flatMap fun p => probe p.1 timeout p.2) where
  covered architecture ha := by
    obtain ⟨e, he⟩ := List.exists_mem_of_ne_nil _ (hp.nonempty path timeout architecture)
    have hlane : (path, architecture) ∈ lanes fs path := mem_lanes.mpr ⟨rfl, ha⟩
    exact ⟨e, List.mem_flatMap.mpr ⟨_, hlane, he⟩, hp.architecture _ _ _ e he⟩
  fits e he := by
    obtain ⟨p, hlane, hprobe⟩ := List.mem_flatMap.mp he
    obtain ⟨hq, ha⟩ := mem_lanes.mp hlane
    rw [hq] at hprobe
    rw [← hp.architecture _ _ _ e hprobe] at ha
    exact ⟨ha, hp.modified _ _ _ e hprobe, hp.size _ _ _ e hprobe, hp.abi _ _ _ e hprobe⟩

theorem coversExactly_fileEntries (hp : HonestProbe fs probe) (path : String) :
    CoversExactly fs path (fileEntries toLowercase fs cached forceRetest probe path) := by
  unfold fileEntries
  split
  · rename_i hr
    simp only [reused, Bool.and_eq_true] at hr
    exact (reusable_iff.mp hr.2).2
  · exact coversExactly_probes hp _ path

theorem CoversExactly.ne_nil {path : String} {variants : List VstPluginEntry}
    (h : CoversExactly fs path variants) : variants ≠ [] := by
  obtain ⟨a, ha⟩ := List.exists_mem_of_ne_nil _ (@availablePluginArchitectures_ne_nil fs path)
  obtain ⟨e, he, _⟩ := h.covered a ha
  exact List.ne_nil_of_mem he

theorem normalizePath_fileEntries (hp : HonestProbe fs probe) {path : String} {e : VstPluginEntry}
    (he : e ∈ fileEntries toLowercase fs cached forceRetest probe path) :
    normalizePath toLowercase fs e.path = normalizePath toLowercase fs path := by
  unfold fileEntries at he
  split at he
  · exact of_decide_eq_true (List.mem_filter.mp he).2
  · obtain ⟨p, hlane, he⟩ := List.mem_flatMap.mp he
    rw [hp.path _ _ _ e he, (mem_lanes.mp hlane).1]

/-! ## What the scan collects, file by file -/

variable (toLowercase fs roots cached forceRetest probe) in
def collected : List VstPluginEntry :=
  (sweep toLowercase fs roots cached forceRetest).collect probe forceRetest

/-- The part of a file in each of the three stretches of the result. -/
theorem collected_eq : ∃ hits x86 x64 : String → List VstPluginEntry,
    collected toLowercase fs cached forceRetest roots probe =
      (scannedFiles toLowercase fs roots).flatMap hits ++
        ((scannedFiles toLowercase fs roots).flatMap x86 ++
          (scannedFiles toLowercase fs roots).flatMap x64) ∧
    (∀ path, hits path = if reused toLowercase fs cached forceRetest path then
      fileEntries toLowercase fs cached forceRetest probe path else []) ∧
    (∀ path, x86 path = if reused toLowercase fs cached forceRetest path then [] else
      (x86Lane fs path).flatMap fun p => probe p.1 (probeTimeout forceRetest) p.2) ∧
    ∀ path, x64 path = if reused toLowercase fs cached forceRetest path then [] else
      (x64Lane fs path).flatMap fun p => probe p.1 (probeTimeout forceRetest) p.2 := by
  obtain ⟨seen, h⟩ := sweep_eq toLowercase fs cached forceRetest roots
  refine ⟨_, _, _, ?_, fun path => rfl, fun path => rfl, fun path => rfl⟩
  rw [collected, h]
  simp only [Sweep.collect, Sweep.probes, List.flatMap_append, List.flatMap_assoc]
  refine congrArg₂ _ ?_ (congrArg₂ _ ?_ ?_)
  · refine List.flatMap_congr fun path _ => ?_
    cases hr : reused toLowercase fs cached forceRetest path <;> simp [fileEntries, hr]
  · refine List.flatMap_congr fun path _ => ?_
    cases hr : reused toLowercase fs cached forceRetest path <;> simp
  · refine List.flatMap_congr fun path _ => ?_
    cases hr : reused toLowercase fs cached forceRetest path <;> simp

/-- The three stretches have together what the files have. -/
theorem stretches_eq {path : String} {hits x86 x64 : List VstPluginEntry}
    (hhits : hits = if reused toLowercase fs cached forceRetest path then
      fileEntries toLowercase fs cached forceRetest probe path else [])
    (hx86 : x86 = if reused toLowercase fs cached forceRetest path then [] else
      (x86Lane fs path).flatMap fun p => probe p.1 (probeTimeout forceRetest) p.2)
    (hx64 : x64 = if reused toLowercase fs cached forceRetest path then [] else
      (x64Lane fs path).flatMap fun p => probe p.1 (probeTimeout forceRetest) p.2) :
    hits ++ (x86 ++ x64) = fileEntries toLowercase fs cached forceRetest probe path := by
  subst hhits hx86 hx64
  cases hr : reused toLowercase fs cached forceRetest path <;> simp [fileEntries, lanes, hr]

theorem mem_collected {e : VstPluginEntry} :
    e ∈ collected toLowercase fs cached forceRetest roots probe ↔
      ∃ path ∈ scannedFiles toLowercase fs roots,
        e ∈ fileEntries toLowercase fs cached forceRetest probe path := by
  obtain ⟨hits, x86, x64, heq, h1, h2, h3⟩ := @collected_eq toLowercase fs cached forceRetest roots probe
  rw [heq]
  simp only [List.mem_append, List.mem_flatMap, ← exists_or, ← and_or_left]
  refine exists_congr fun path => and_congr_right fun _ => ?_
  rw [← stretches_eq (h1 path) (h2 path) (h3 path), List.mem_append, List.mem_append]

theorem normalizePath_nodup (hfs : CaseInsensitive toLowercase fs) :
    ((scannedFiles toLowercase fs roots).map (normalizePath toLowercase fs)).Nodup := by
  have h := scannedFiles_nodup toLowercase fs roots
  rw [List.Nodup, List.pairwise_map] at h ⊢
  exact h.imp fun hne heq => hne (hfs.identity _ _ heq)

/-- An entry is found again under its file. -/
theorem filter_collected (hp : HonestProbe fs probe) (hfs : CaseInsensitive toLowercase fs)
    {path : String} (hpath : path ∈ scannedFiles toLowercase fs roots) :
    ((collected toLowercase fs cached forceRetest roots probe).filter fun e =>
        normalizePath toLowercase fs e.path = normalizePath toLowercase fs path) =
      fileEntries toLowercase fs cached forceRetest probe path := by
  obtain ⟨hits, x86, x64, heq, h1, h2, h3⟩ := @collected_eq toLowercase fs cached forceRetest roots probe
  have hpart : ∀ q, ∀ e ∈ hits q ++ (x86 q ++ x64 q),
      normalizePath toLowercase fs e.path = normalizePath toLowercase fs q := by
    intro q e he
    rw [stretches_eq (h1 q) (h2 q) (h3 q)] at he
    exact normalizePath_fileEntries hp he
  have hnodup := @normalizePath_nodup toLowercase fs roots hfs
  rw [heq, List.filter_append, List.filter_append, ← stretches_eq (h1 path) (h2 path) (h3 path)]
  have hstretch : ∀ f : String → List VstPluginEntry,
      (∀ q, ∀ e ∈ f q, e ∈ hits q ++ (x86 q ++ x64 q)) →
      ((scannedFiles toLowercase fs roots).flatMap f).filter (fun e =>
        normalizePath toLowercase fs e.path = normalizePath toLowercase fs path) = f path := by
    intro f hf
    have hkey : ∀ q ∈ scannedFiles toLowercase fs roots, ∀ e ∈ f q,
        (fun e : VstPluginEntry => normalizePath toLowercase fs e.path) e =
          normalizePath toLowercase fs q := fun q _ e he => hpart q e (hf q e he)
    exact filter_flatMap_of_nodup hnodup hkey hpath
  rw [hstretch hits (by simp +contextual), hstretch x86 (by simp +contextual),
    hstretch x64 (by simp +contextual)]

/-! ## The architectures of a group -/

/-- The architectures other than x64 of the group of `g`, in their order. -/
def otherArchitectures (g : VstPluginEntry) (entries : List VstPluginEntry) : List String :=
  ((entries.filter fun c => sameGroup c g).map (·.architecture)).filter (· ≠ "x64")

theorem groupArchitectures_eq (entries : List VstPluginEntry) (e : VstPluginEntry) :
    groupArchitectures entries e =
      List.replicate
          (min (((entries.filter fun c => sameGroup c e).map (·.architecture)).count "x64") 1)
          "x64" ++
        (otherArchitectures e entries).destutter (· ≠ ·) := by
  have hrank : ∀ a b : String, architectureRank a ≤ architectureRank b ↔ (b = "x64" → a = "x64") := by
    intro a b
    simp only [architectureRank]
    split <;> split <;> simp_all
  rw [groupArchitectures, insertionSort_preferred _ "x64" hrank,
    destutter_replicate_append "x64" _ _ (by simp)]
  rfl

theorem otherArchitectures_append (g : VstPluginEntry) (l l' : List VstPluginEntry) :
    otherArchitectures g (l ++ l') = otherArchitectures g l ++ otherArchitectures g l' := by
  simp [otherArchitectures]

theorem otherArchitectures_flatMap (g : VstPluginEntry) {β : Type} (l : List β)
    (f : β → List VstPluginEntry) :
    otherArchitectures g (l.flatMap f) = l.flatMap fun b => otherArchitectures g (f b) := by
  induction l with
  | nil => rfl
  | cons b l ih => rw [List.flatMap_cons, otherArchitectures_append, ih, List.flatMap_cons]

theorem otherArchitectures_perm (g : VstPluginEntry) {l l' : List VstPluginEntry} (h : l.Perm l') :
    (otherArchitectures g l).Perm (otherArchitectures g l') :=
  ((h.filter _).map _).filter _

theorem mem_otherArchitectures {g : VstPluginEntry} {l : List VstPluginEntry} {a : String} :
    a ∈ otherArchitectures g l ↔ ∃ e ∈ l, sameGroup e g ∧ e.architecture = a ∧ a ≠ "x64" := by
  simp only [otherArchitectures, List.mem_filter, List.mem_map, decide_eq_true_eq]
  constructor
  · intro h
    obtain ⟨⟨e, ⟨he, hg⟩, ha⟩, hne⟩ := h
    exact ⟨e, he, hg, ha, hne⟩
  · intro h
    obtain ⟨e, he, hg, ha, hne⟩ := h
    exact ⟨⟨e, ⟨he, hg⟩, ha⟩, hne⟩

variable (fs) in
/-- The architecture of a file that is not x64. A file has at most one. -/
def otherArchitecture (path : String) : String :=
  ((availablePluginArchitectures fs path).find? (· ≠ "x64")).getD "x64"

theorem Fits.otherArchitecture {path : String} {e : VstPluginEntry} (h : Fits fs path e)
    (hne : e.architecture ≠ "x64") : e.architecture = otherArchitecture fs path := by
  have ha := h.architecture
  cases availablePluginArchitectures_cases fs path with
  | inl hav =>
    rw [hav] at ha
    have hx86 : e.architecture = "x86" := by simpa [hne] using ha
    simp [PluginScan.otherArchitecture, hav, hx86]
  | inr hav =>
    obtain ⟨a, hav⟩ := hav
    rw [hav] at ha
    have hx : e.architecture = a := by simpa using ha
    have hax : a ≠ "x64" := hx ▸ hne
    simp [PluginScan.otherArchitecture, hav, hx, hax]

/-- Every entry of a file adds the same other architecture to its group. -/
theorem otherArchitectures_eq_replicate {path : String} {variants : List VstPluginEntry}
    (h : CoversExactly fs path variants) (g : VstPluginEntry) :
    otherArchitectures g variants =
      List.replicate (otherArchitectures g variants).length (otherArchitecture fs path) := by
  refine List.eq_replicate_of_mem fun a ha => ?_
  obtain ⟨e, he, _, hea, hne⟩ := mem_otherArchitectures.mp ha
  rw [← hea] at hne ⊢
  exact (h.fits e he).otherArchitecture hne

theorem otherArchitectures_x64 (hp : HonestProbe fs probe) (g : VstPluginEntry) (path : String)
    (timeout : Nat) : otherArchitectures g (probe path timeout "x64") = [] := by
  refine List.eq_nil_iff_forall_not_mem.mpr fun a ha => ?_
  obtain ⟨e, he, _, hea, hne⟩ := mem_otherArchitectures.mp ha
  exact hne (hea.symm.trans (hp.architecture _ _ _ e he))

/-- Only one of the two lanes has a part in the other architectures. -/
theorem otherArchitectures_lanes (hp : HonestProbe fs probe) (g : VstPluginEntry) (path : String)
    (timeout : Nat) :
    otherArchitectures g ((x86Lane fs path).flatMap fun p => probe p.1 timeout p.2) =
        (if otherArchitecture fs path = "x86" then
          otherArchitectures g ((lanes fs path).flatMap fun p => probe p.1 timeout p.2) else []) ∧
      otherArchitectures g ((x64Lane fs path).flatMap fun p => probe p.1 timeout p.2) =
        if otherArchitecture fs path = "x86" then []
        else otherArchitectures g ((lanes fs path).flatMap fun p => probe p.1 timeout p.2) := by
  have hx64 := otherArchitectures_x64 hp g path timeout
  cases availablePluginArchitectures_cases fs path with
  | inl hav =>
    simp [lanes, x86Lane, x64Lane, otherArchitecture, hav, otherArchitectures_append, hx64]
  | inr hav =>
    obtain ⟨a, hav⟩ := hav
    by_cases hx86 : a = "x86"
    · simp [lanes, x86Lane, x64Lane, otherArchitecture, hav, hx86, otherArchitectures]
    · by_cases ha : a = "x64"
      · simp [lanes, x86Lane, x64Lane, otherArchitecture, hav, ha, otherArchitectures]
      · simp [lanes, x86Lane, x64Lane, otherArchitecture, hav, ha, hx86, Ne.symm hx86,
          otherArchitectures]

section

variable (toLowercase fs cached forceRetest)

/-- The files in the order of the result: first those of the cache, then those
whose other architecture is probed in the x86 lane, then the rest. -/
def laneOrder (files : List String) : List String :=
  (files.filter fun path => reused toLowercase fs cached forceRetest path) ++
    ((files.filter fun path =>
        !reused toLowercase fs cached forceRetest path && otherArchitecture fs path == "x86") ++
      files.filter fun path =>
        !reused toLowercase fs cached forceRetest path && otherArchitecture fs path != "x86")

variable (probe)

/-- A file has an entry in the group of `g` that is not for x64. -/
def contributes (g : VstPluginEntry) (path : String) : Bool :=
  (fileEntries toLowercase fs cached forceRetest probe path).any fun e =>
    sameGroup e g && e.architecture != "x64"

end

theorem contributes_iff {g : VstPluginEntry} {path : String} :
    contributes toLowercase fs cached forceRetest probe g path =
      decide (0 < (otherArchitectures g
        (fileEntries toLowercase fs cached forceRetest probe path)).length) := by
  rw [Bool.eq_iff_iff, decide_eq_true_eq, List.length_pos_iff_exists_mem]
  simp only [mem_otherArchitectures, contributes, List.any_eq_true, Bool.and_eq_true, bne_iff_ne]
  constructor
  · intro h
    obtain ⟨e, he, hg, hne⟩ := h
    exact ⟨_, e, he, hg, rfl, hne⟩
  · intro h
    obtain ⟨a, e, he, hg, ha, hne⟩ := h
    exact ⟨e, he, hg, ha ▸ hne⟩

/-- The three stretches, in the files whose part they are. -/
theorem otherArchitectures_collected (hp : HonestProbe fs probe) (g : VstPluginEntry) :
    otherArchitectures g (collected toLowercase fs cached forceRetest roots probe) =
      (laneOrder toLowercase fs cached forceRetest (scannedFiles toLowercase fs roots)).flatMap
        fun path => otherArchitectures g
          (fileEntries toLowercase fs cached forceRetest probe path) := by
  obtain ⟨hits, x86, x64, heq, h1, h2, h3⟩ := @collected_eq toLowercase fs cached forceRetest roots probe
  rw [heq, otherArchitectures_append, otherArchitectures_append, otherArchitectures_flatMap,
    otherArchitectures_flatMap, otherArchitectures_flatMap, laneOrder, List.flatMap_append,
    List.flatMap_append, ← flatMap_ite_nil, ← flatMap_ite_nil, ← flatMap_ite_nil]
  refine congrArg₂ _ ?_ (congrArg₂ _ ?_ ?_)
  · refine List.flatMap_congr fun path _ => ?_
    rw [h1]
    split <;> rfl
  · refine List.flatMap_congr fun path _ => ?_
    have hlane := (otherArchitectures_lanes hp g path (probeTimeout forceRetest)).1
    rw [h2]
    cases hr : reused toLowercase fs cached forceRetest path with
    | false => simp [hlane, fileEntries, hr]
    | true => rfl
  · refine List.flatMap_congr fun path _ => ?_
    have hlane := (otherArchitectures_lanes hp g path (probeTimeout forceRetest)).2
    rw [h3]
    cases hr : reused toLowercase fs cached forceRetest path with
    | false =>
      by_cases hx : otherArchitecture fs path = "x86" <;> simp [hlane, fileEntries, hr, hx]
    | true => rfl

variable (fs) in
/-- The other architectures of some files, equal neighbours once. -/
def runs (files : List String) : List String :=
  (files.map (otherArchitecture fs)).destutter (· ≠ ·)

theorem destutter_contributions (hp : HonestProbe fs probe) (g : VstPluginEntry)
    (files : List String) :
    (files.flatMap fun path => otherArchitectures g
        (fileEntries toLowercase fs cached forceRetest probe path)).destutter (· ≠ ·) =
      runs fs (files.filter (contributes toLowercase fs cached forceRetest probe g)) := by
  have hrep : (files.flatMap fun path => otherArchitectures g
      (fileEntries toLowercase fs cached forceRetest probe path)) =
      files.flatMap fun path => List.replicate
        (otherArchitectures g (fileEntries toLowercase fs cached forceRetest probe path)).length
        (otherArchitecture fs path) :=
    List.flatMap_congr fun path _ =>
      otherArchitectures_eq_replicate (coversExactly_fileEntries hp path) g
  rw [hrep, destutter_flatMap_replicate, runs]
  refine congrArg (fun l => (List.map _ l).destutter _) (List.filter_congr fun path _ => ?_)
  exact contributes_iff.symm

theorem filter_laneOrder (q : String → Bool) (files : List String) :
    (laneOrder toLowercase fs cached forceRetest files).filter q =
      laneOrder toLowercase fs cached forceRetest (files.filter q) := by
  simp only [laneOrder, List.filter_append, List.filter_filter]
  simp only [Bool.and_comm]

/-! ## Scanning again -/

theorem mem_finish {entries : List VstPluginEntry} {e : VstPluginEntry} :
    e ∈ finish toLowercase entries ↔
      ∃ c ∈ entries, withArchitectures entries c = e := by
  rw [finish, List.mem_insertionSort, setArchitectures, List.mem_map]

theorem otherArchitectures_map (g : VstPluginEntry) (all entries : List VstPluginEntry) :
    otherArchitectures g (entries.map (withArchitectures all)) = otherArchitectures g entries := by
  simp only [otherArchitectures, List.filter_map, List.map_map]
  rfl

section

variable (toLowercase fs cached forceRetest roots probe)

/-- The entries of the new catalogue that stand under a file. -/
def recached (path : String) : List VstPluginEntry :=
  cachedVariants toLowercase fs
    (scanVstPluginsWithProbe toLowercase fs roots cached forceRetest probe) path

/-- The entries of the new catalogue, file by file. -/
def regrouped : List VstPluginEntry :=
  (scannedFiles toLowercase fs roots).flatMap
    (recached toLowercase fs cached forceRetest roots probe)

end

theorem recached_perm (hp : HonestProbe fs probe) (hfs : CaseInsensitive toLowercase fs)
    {path : String} (hpath : path ∈ scannedFiles toLowercase fs roots) :
    (recached toLowercase fs cached forceRetest roots probe path).Perm
      ((fileEntries toLowercase fs cached forceRetest probe path).map
        (withArchitectures (collected toLowercase fs cached forceRetest roots probe))) := by
  have hsort := List.perm_insertionSort (EntryLE toLowercase)
    (setArchitectures (collected toLowercase fs cached forceRetest roots probe))
  have hfilter := hsort.filter fun e =>
    normalizePath toLowercase fs e.path = normalizePath toLowercase fs path
  rw [setArchitectures, List.filter_map] at hfilter
  rw [← filter_collected hp hfs hpath]
  exact hfilter

theorem coversExactly_recached (hp : HonestProbe fs probe) (hfs : CaseInsensitive toLowercase fs)
    {path : String} (hpath : path ∈ scannedFiles toLowercase fs roots) :
    CoversExactly fs path (recached toLowercase fs cached forceRetest roots probe path) := by
  have hmem : ∀ e, e ∈ recached toLowercase fs cached forceRetest roots probe path ↔
      ∃ c ∈ fileEntries toLowercase fs cached forceRetest probe path,
        withArchitectures (collected toLowercase fs cached forceRetest roots probe) c = e := by
    intro e
    rw [(recached_perm hp hfs hpath).mem_iff, List.mem_map]
  have hcovers := @coversExactly_fileEntries toLowercase fs cached forceRetest probe hp path
  refine ⟨?_, ?_⟩
  · intro a ha
    obtain ⟨c, hc, hca⟩ := hcovers.covered a ha
    exact ⟨_, (hmem _).mpr ⟨c, hc, rfl⟩, hca⟩
  · intro e he
    obtain ⟨c, hc, hce⟩ := (hmem e).mp he
    have hfits := hcovers.fits c hc
    subst hce
    exact ⟨hfits.architecture, hfits.modified, hfits.size, hfits.abi⟩

theorem reused_catalogue (hp : HonestProbe fs probe) (hfs : CaseInsensitive toLowercase fs)
    {path : String} (hpath : path ∈ scannedFiles toLowercase fs roots) :
    reused toLowercase fs
      (scanVstPluginsWithProbe toLowercase fs roots cached forceRetest probe) false path = true := by
  have hcovers := @coversExactly_recached toLowercase fs cached forceRetest roots probe hp hfs path hpath
  exact reusable_iff.mpr ⟨hcovers.ne_nil, hcovers⟩

/-- The second scan takes everything from the cache. -/
theorem sweep_catalogue (hp : HonestProbe fs probe) (hfs : CaseInsensitive toLowercase fs) :
    (sweep toLowercase fs roots
        (scanVstPluginsWithProbe toLowercase fs roots cached forceRetest probe) false).entries =
      regrouped toLowercase fs cached forceRetest roots probe ∧
    (sweep toLowercase fs roots
        (scanVstPluginsWithProbe toLowercase fs roots cached forceRetest probe) false).probes = [] := by
  obtain ⟨seen, h⟩ := sweep_eq toLowercase fs
    (scanVstPluginsWithProbe toLowercase fs roots cached forceRetest probe) false roots
  rw [h]
  constructor
  · refine List.flatMap_congr fun path hpath => ?_
    rw [if_pos (reused_catalogue hp hfs hpath)]
    rfl
  · have hnone : ∀ lane : String → List (String × String),
        ((scannedFiles toLowercase fs roots).flatMap fun path =>
          if reused toLowercase fs
              (scanVstPluginsWithProbe toLowercase fs roots cached forceRetest probe) false path then
            [] else lane path) = [] := by
      intro lane
      refine List.flatMap_eq_nil_iff.mpr fun path hpath => ?_
      rw [if_pos (reused_catalogue hp hfs hpath)]
    simp only [Sweep.probes, hnone, List.append_nil]

theorem rescan_eq (hp : HonestProbe fs probe) (hfs : CaseInsensitive toLowercase fs) :
    scanVstPluginsWithProbe toLowercase fs roots
        (scanVstPluginsWithProbe toLowercase fs roots cached forceRetest probe) false probe =
      finish toLowercase (regrouped toLowercase fs cached forceRetest roots probe) := by
  have hsweep := @sweep_catalogue toLowercase fs cached forceRetest roots probe hp hfs
  rw [scanVstPluginsWithProbe, Sweep.collect, hsweep.1, hsweep.2, List.flatMap_nil, List.append_nil]

theorem file_of_catalogue (hp : HonestProbe fs probe) {e : VstPluginEntry}
    (he : e ∈ scanVstPluginsWithProbe toLowercase fs roots cached forceRetest probe) :
    ∃ path ∈ scannedFiles toLowercase fs roots,
      normalizePath toLowercase fs e.path = normalizePath toLowercase fs path := by
  obtain ⟨c, hc, hce⟩ := mem_finish.mp he
  obtain ⟨path, hpath, hentry⟩ := mem_collected.mp hc
  have hkey := normalizePath_fileEntries hp hentry
  subst hce
  exact ⟨path, hpath, hkey⟩

theorem mem_regrouped (hp : HonestProbe fs probe) {e : VstPluginEntry} :
    e ∈ regrouped toLowercase fs cached forceRetest roots probe ↔
      e ∈ scanVstPluginsWithProbe toLowercase fs roots cached forceRetest probe := by
  simp only [regrouped, recached, cachedVariants, List.mem_flatMap, List.mem_filter,
    decide_eq_true_eq]
  constructor
  · intro h
    obtain ⟨path, _, he, _⟩ := h
    exact he
  · intro he
    obtain ⟨path, hpath, hkey⟩ := file_of_catalogue hp he
    exact ⟨path, hpath, he, hkey⟩

theorem otherArchitectures_regrouped (hp : HonestProbe fs probe)
    (hfs : CaseInsensitive toLowercase fs) (g : VstPluginEntry) :
    otherArchitectures g (regrouped toLowercase fs cached forceRetest roots probe) =
      (scannedFiles toLowercase fs roots).flatMap fun path =>
        otherArchitectures g (fileEntries toLowercase fs cached forceRetest probe path) := by
  rw [regrouped, otherArchitectures_flatMap]
  refine List.flatMap_congr fun path hpath => ?_
  have hperm := otherArchitectures_perm g
    (@recached_perm toLowercase fs cached forceRetest roots probe hp hfs path hpath)
  rw [otherArchitectures_map] at hperm
  have hrep := otherArchitectures_eq_replicate
    (@coversExactly_fileEntries toLowercase fs cached forceRetest probe hp path) g
  rw [hrep] at hperm ⊢
  exact List.perm_replicate.mp hperm

/-- Entries that compare equal stand under one file. -/
theorem normalizePath_of_tied (hfs : CaseInsensitive toLowercase fs) {a b : VstPluginEntry}
    (h : Tied (EntryLE toLowercase) a b) :
    normalizePath toLowercase fs a.path = normalizePath toLowercase fs b.path := by
  have hkey : entryKey toLowercase a = entryKey toLowercase b := le_antisymm h.1 h.2
  have hpath : toLowercase a.path = toLowercase b.path := by
    simp only [entryKey, EmbeddingLike.apply_eq_iff_eq, Prod.mk.injEq] at hkey
    exact hkey.2.2
  exact hfs.normalize _ _ hpath

/-- Sorting the entries file by file gives the catalogue they came from. -/
theorem insertionSort_regrouped (hp : HonestProbe fs probe) (hfs : CaseInsensitive toLowercase fs) :
    (regrouped toLowercase fs cached forceRetest roots probe).insertionSort (EntryLE toLowercase) =
      scanVstPluginsWithProbe toLowercase fs roots cached forceRetest probe := by
  refine insertionSort_eq_of_filter_tied _ (List.pairwise_insertionSort _ _) fun c => ?_
  have htied : ∀ a b, decide (Tied (EntryLE toLowercase) c a) = true →
      decide (Tied (EntryLE toLowercase) c b) = true →
      (fun e : VstPluginEntry => normalizePath toLowercase fs e.path) a =
        (fun e : VstPluginEntry => normalizePath toLowercase fs e.path) b := by
    intro a b ha hb
    exact (normalizePath_of_tied hfs (of_decide_eq_true ha)).symm.trans
      (normalizePath_of_tied hfs (of_decide_eq_true hb))
  exact filter_regroup (normalizePath_nodup hfs) (fun e he => file_of_catalogue hp he) htied

/-! ## What the scan has to do -/

structure Listed (catalogue : List VstPluginEntry) (e : VstPluginEntry) : Prop where
  nodup : e.availableArchitectures.Nodup
  x64First : "x64" ∈ e.availableArchitectures → e.availableArchitectures.head? = some "x64"
  listed : ∀ architecture, architecture ∈ e.availableArchitectures ↔
    ∃ c ∈ catalogue, sameGroup c e ∧ c.architecture = architecture

section

variable (toLowercase fs cached forceRetest roots probe)

structure ScanCorrect : Prop where
  probesOnce : ((sweep toLowercase fs roots cached forceRetest).probes.map fun p =>
    (pluginIdentity fs p.1, p.2)).Nodup
  reuse : ∀ e ∈ (sweep toLowercase fs roots cached forceRetest).entries,
    ∃ path ∈ scannedFiles toLowercase fs roots,
      e ∈ cachedVariants toLowercase fs cached path ∧
      CoversExactly fs path (cachedVariants toLowercase fs cached path) ∧
      ∀ p ∈ (sweep toLowercase fs roots cached forceRetest).probes, p.1 ≠ path
  rescanProbes : (sweep toLowercase fs roots
    (scanVstPluginsWithProbe toLowercase fs roots cached forceRetest probe) false).probes = []
  rescanSame : scanVstPluginsWithProbe toLowercase fs roots
      (scanVstPluginsWithProbe toLowercase fs roots cached forceRetest probe) false probe =
    scanVstPluginsWithProbe toLowercase fs roots cached forceRetest probe
  architectures :
    ∀ e ∈ scanVstPluginsWithProbe toLowercase fs roots cached forceRetest probe,
      Listed (scanVstPluginsWithProbe toLowercase fs roots cached forceRetest probe) e

/-- The files with an entry in the group of `g` that is not for x64. -/
def groupFiles (g : VstPluginEntry) : List String :=
  (scannedFiles toLowercase fs roots).filter
    (contributes toLowercase fs cached forceRetest probe g)

/-- The files of a group have each other architecture in one run, and the runs
stand in the same order lane by lane. -/
def GroupUnbroken (g : VstPluginEntry) : Prop :=
  (runs fs (groupFiles toLowercase fs cached forceRetest roots probe g)).Nodup ∧
    runs fs (laneOrder toLowercase fs cached forceRetest
        (groupFiles toLowercase fs cached forceRetest roots probe g)) =
      runs fs (groupFiles toLowercase fs cached forceRetest roots probe g)

end

theorem mem_probes {p : String × String} :
    p ∈ (sweep toLowercase fs roots cached forceRetest).probes ↔
      ∃ path ∈ scannedFiles toLowercase fs roots,
        reused toLowercase fs cached forceRetest path = false ∧ p ∈ lanes fs path := by
  obtain ⟨seen, h⟩ := sweep_eq toLowercase fs cached forceRetest roots
  rw [h]
  simp only [Sweep.probes, List.mem_append, List.mem_flatMap, ← exists_or, ← and_or_left]
  refine exists_congr fun path => and_congr_right fun _ => ?_
  cases hr : reused toLowercase fs cached forceRetest path <;> simp [lanes]

theorem nodup_lanes (path : String) :
    ((lanes fs path).map fun p => (pluginIdentity fs p.1, p.2)).Nodup := by
  cases availablePluginArchitectures_cases fs path with
  | inl h => simp [lanes, x86Lane, x64Lane, h]
  | inr h =>
    obtain ⟨a, h⟩ := h
    by_cases ha : a = "x86"
    · simp [lanes, x86Lane, x64Lane, h, ha]
    · simp [lanes, x86Lane, x64Lane, h, ha, Ne.symm ha]

/-- No plug-in is probed twice for one architecture. -/
theorem nodup_probes :
    ((sweep toLowercase fs roots cached forceRetest).probes.map fun p =>
      (pluginIdentity fs p.1, p.2)).Nodup := by
  obtain ⟨seen, h⟩ := sweep_eq toLowercase fs cached forceRetest roots
  rw [h, Sweep.probes]
  refine ((List.flatMap_append_perm _ _ _).map _).nodup_iff.mpr ?_
  rw [List.map_flatMap, List.nodup_flatMap]
  refine ⟨?_, ?_⟩
  · intro path _
    cases hr : reused toLowercase fs cached forceRetest path with
    | false => simpa [lanes] using @nodup_lanes fs path
    | true => simp
  · have hfiles := scannedFiles_nodup toLowercase fs roots
    rw [List.Nodup, List.pairwise_map] at hfiles
    refine hfiles.imp fun {a b} hne => ?_
    have hident : ∀ (path : String) (q : PluginIdentity × String),
        q ∈ (((if reused toLowercase fs cached forceRetest path then [] else x86Lane fs path) ++
          if reused toLowercase fs cached forceRetest path then [] else x64Lane fs path).map
            fun p => (pluginIdentity fs p.1, p.2)) → q.1 = pluginIdentity fs path := by
      intro path q hq
      obtain ⟨p, hp, hpq⟩ := List.mem_map.mp hq
      have hlane : p ∈ lanes fs path := by
        cases hr : reused toLowercase fs cached forceRetest path <;> simp [hr] at hp
        simpa [lanes] using hp
      rw [← hpq, (mem_lanes.mp hlane).1]
    exact List.disjoint_left.mpr fun q ha hb => hne ((hident a q ha).symm.trans (hident b q hb))

theorem reuse_entries :
    ∀ e ∈ (sweep toLowercase fs roots cached forceRetest).entries,
      ∃ path ∈ scannedFiles toLowercase fs roots,
        e ∈ cachedVariants toLowercase fs cached path ∧
        CoversExactly fs path (cachedVariants toLowercase fs cached path) ∧
        ∀ p ∈ (sweep toLowercase fs roots cached forceRetest).probes, p.1 ≠ path := by
  intro e he
  obtain ⟨seen, h⟩ := sweep_eq toLowercase fs cached forceRetest roots
  rw [h] at he
  obtain ⟨path, hpath, he⟩ := List.mem_flatMap.mp he
  cases hr : reused toLowercase fs cached forceRetest path with
  | false => simp [hr] at he
  | true =>
    have hfits := hr
    simp only [reused, Bool.and_eq_true] at hfits
    rw [if_pos hr] at he
    refine ⟨path, hpath, he, (reusable_iff.mp hfits.2).2, ?_⟩
    intro p hp heq
    obtain ⟨q, _, hq, hlane⟩ := mem_probes.mp hp
    rw [← heq, (mem_lanes.mp hlane).1, hq] at hr
    cases hr

theorem mem_groupArchitectures {entries : List VstPluginEntry} {e : VstPluginEntry} {a : String} :
    a ∈ groupArchitectures entries e ↔ ∃ c ∈ entries, sameGroup c e ∧ c.architecture = a := by
  rw [groupArchitectures, mem_destutter, List.mem_insertionSort, List.mem_map]
  refine exists_congr fun c => ?_
  rw [List.mem_filter, and_assoc]

theorem nodup_groupArchitectures {entries : List VstPluginEntry} {e : VstPluginEntry} :
    (groupArchitectures entries e).Nodup ↔
      ((otherArchitectures e entries).destutter (· ≠ ·)).Nodup := by
  have hx64 : "x64" ∉ (otherArchitectures e entries).destutter (· ≠ ·) := by
    rw [mem_destutter]
    intro h
    obtain ⟨_, _, _, _, hne⟩ := mem_otherArchitectures.mp h
    exact hne rfl
  rw [groupArchitectures_eq]
  generalize ((entries.filter fun c => sameGroup c e).map (·.architecture)).count "x64" = n
  cases n with
  | zero => simp
  | succ n => simp [hx64]

theorem head?_groupArchitectures {entries : List VstPluginEntry} {e : VstPluginEntry}
    (h : "x64" ∈ groupArchitectures entries e) :
    (groupArchitectures entries e).head? = some "x64" := by
  have hcount : 0 < ((entries.filter fun c => sameGroup c e).map (·.architecture)).count "x64" := by
    refine List.count_pos_iff.mpr ?_
    rwa [groupArchitectures, mem_destutter, List.mem_insertionSort] at h
  rw [groupArchitectures_eq]
  generalize ((entries.filter fun c => sameGroup c e).map (·.architecture)).count "x64" = n at hcount
  have hone : min n 1 = 1 := by omega
  rw [hone]
  rfl

/-- Lists with the same members and the same runs of other architectures. -/
theorem groupArchitectures_congr {entries entries' : List VstPluginEntry} {e : VstPluginEntry}
    (hmem : ∀ a, a ∈ groupArchitectures entries e ↔ a ∈ groupArchitectures entries' e) :
    groupArchitectures entries e = groupArchitectures entries' e ↔
      (otherArchitectures e entries).destutter (· ≠ ·) =
        (otherArchitectures e entries').destutter (· ≠ ·) := by
  have hx64 := hmem "x64"
  rw [groupArchitectures, groupArchitectures, mem_destutter, mem_destutter, List.mem_insertionSort,
    List.mem_insertionSort, ← List.count_pos_iff, ← List.count_pos_iff] at hx64
  rw [groupArchitectures_eq, groupArchitectures_eq]
  generalize ((entries.filter fun c => sameGroup c e).map (·.architecture)).count "x64" = n at hx64
  generalize ((entries'.filter fun c => sameGroup c e).map (·.architecture)).count "x64" = n' at hx64
  have hmin : min n 1 = min n' 1 := by omega
  rw [hmin]
  exact List.append_right_inj _

theorem sameGroup_refl (e : VstPluginEntry) : sameGroup e e = true := by
  simp [sameGroup, eqIgnoreAsciiCase]

theorem sameGroup_congr {c g : VstPluginEntry} (h : sameGroup c g = true) (e : VstPluginEntry) :
    sameGroup e g = sameGroup e c := by
  simp only [sameGroup, eqIgnoreAsciiCase, Bool.and_eq_true, beq_iff_eq] at h ⊢
  rw [h.1.1, h.1.2, h.2]

/-- The members of a group do not change with the list of their architectures. -/
theorem exists_catalogue_iff {c : VstPluginEntry} {a : String} :
    (∃ e ∈ scanVstPluginsWithProbe toLowercase fs roots cached forceRetest probe,
        sameGroup e c ∧ e.architecture = a) ↔
      ∃ e ∈ collected toLowercase fs cached forceRetest roots probe,
        sameGroup e c ∧ e.architecture = a := by
  constructor
  · intro h
    obtain ⟨e, he, hgroup, ha⟩ := h
    obtain ⟨d, hd, hde⟩ := mem_finish.mp he
    subst hde
    exact ⟨d, hd, hgroup, ha⟩
  · intro h
    obtain ⟨d, hd, hgroup, ha⟩ := h
    exact ⟨_, mem_finish.mpr ⟨d, hd, rfl⟩, hgroup, ha⟩

theorem mem_groupArchitectures_regrouped (hp : HonestProbe fs probe) (c : VstPluginEntry)
    (a : String) :
    a ∈ groupArchitectures (collected toLowercase fs cached forceRetest roots probe) c ↔
      a ∈ groupArchitectures (regrouped toLowercase fs cached forceRetest roots probe) c := by
  rw [mem_groupArchitectures, mem_groupArchitectures, ← exists_catalogue_iff]
  exact exists_congr fun e => and_congr_left fun _ => (mem_regrouped hp).symm

theorem destutter_collected (hp : HonestProbe fs probe) (g : VstPluginEntry) :
    (otherArchitectures g (collected toLowercase fs cached forceRetest roots probe)).destutter
        (· ≠ ·) =
      runs fs (laneOrder toLowercase fs cached forceRetest
        (groupFiles toLowercase fs cached forceRetest roots probe g)) := by
  rw [otherArchitectures_collected hp, destutter_contributions hp, filter_laneOrder]
  rfl

theorem destutter_regrouped (hp : HonestProbe fs probe) (hfs : CaseInsensitive toLowercase fs)
    (g : VstPluginEntry) :
    (otherArchitectures g (regrouped toLowercase fs cached forceRetest roots probe)).destutter
        (· ≠ ·) =
      runs fs (groupFiles toLowercase fs cached forceRetest roots probe g) := by
  rw [otherArchitectures_regrouped hp hfs, destutter_contributions hp]
  rfl

/-- An unbroken group gets the same list from both scans. -/
theorem groupArchitectures_regrouped (hp : HonestProbe fs probe)
    (hfs : CaseInsensitive toLowercase fs) (c : VstPluginEntry) :
    groupArchitectures (collected toLowercase fs cached forceRetest roots probe) c =
        groupArchitectures (regrouped toLowercase fs cached forceRetest roots probe) c ↔
      runs fs (laneOrder toLowercase fs cached forceRetest
          (groupFiles toLowercase fs cached forceRetest roots probe c)) =
        runs fs (groupFiles toLowercase fs cached forceRetest roots probe c) := by
  rw [groupArchitectures_congr (mem_groupArchitectures_regrouped hp c), destutter_collected hp,
    destutter_regrouped hp hfs]

theorem listed_iff (hp : HonestProbe fs probe) (c : VstPluginEntry) :
    Listed (scanVstPluginsWithProbe toLowercase fs roots cached forceRetest probe)
        (withArchitectures (collected toLowercase fs cached forceRetest roots probe) c) ↔
      (runs fs (laneOrder toLowercase fs cached forceRetest
        (groupFiles toLowercase fs cached forceRetest roots probe c))).Nodup := by
  rw [← destutter_collected hp, ← nodup_groupArchitectures]
  constructor
  · exact fun h => h.nodup
  · intro h
    refine ⟨h, head?_groupArchitectures, fun a => ?_⟩
    exact mem_groupArchitectures.trans exists_catalogue_iff.symm

theorem rescanSame_of_unbroken (hp : HonestProbe fs probe) (hfs : CaseInsensitive toLowercase fs)
    (h : ∀ g, GroupUnbroken toLowercase fs cached forceRetest roots probe g) :
    scanVstPluginsWithProbe toLowercase fs roots
        (scanVstPluginsWithProbe toLowercase fs roots cached forceRetest probe) false probe =
      scanVstPluginsWithProbe toLowercase fs roots cached forceRetest probe := by
  have hset : setArchitectures (regrouped toLowercase fs cached forceRetest roots probe) =
      regrouped toLowercase fs cached forceRetest roots probe := by
    have hid : ∀ d ∈ regrouped toLowercase fs cached forceRetest roots probe,
        withArchitectures (regrouped toLowercase fs cached forceRetest roots probe) d = d := by
      intro d hd
      obtain ⟨c, _, hcd⟩ := mem_finish.mp ((mem_regrouped hp).mp hd)
      have harch := (groupArchitectures_regrouped hp hfs c).mpr (h c).2
      subst hcd
      exact congrArg (fun l => { c with availableArchitectures := l }) harch.symm
    rw [setArchitectures, List.map_congr_left hid, List.map_id']
  rw [rescan_eq hp hfs, finish, hset, insertionSort_regrouped hp hfs]

/-- A group that is not empty has an entry by which both scans can be told. -/
theorem unbroken_of_scanCorrect (hp : HonestProbe fs probe) (hfs : CaseInsensitive toLowercase fs)
    (h : ScanCorrect toLowercase fs cached forceRetest roots probe) (g : VstPluginEntry) :
    GroupUnbroken toLowercase fs cached forceRetest roots probe g := by
  cases hfiles : groupFiles toLowercase fs cached forceRetest roots probe g with
  | nil =>
    rw [GroupUnbroken, hfiles]
    exact ⟨.nil, rfl⟩
  | cons path files =>
    have hpath : path ∈ groupFiles toLowercase fs cached forceRetest roots probe g :=
      hfiles ▸ List.mem_cons_self
    obtain ⟨hscanned, hcontributes⟩ := List.mem_filter.mp hpath
    obtain ⟨c, hc, hcg⟩ := List.any_eq_true.mp hcontributes
    have hgroup : sameGroup c g = true := (Bool.and_eq_true_iff.mp hcg).1
    have hcollected : c ∈ collected toLowercase fs cached forceRetest roots probe :=
      mem_collected.mpr ⟨path, hscanned, hc⟩
    -- the entry as the first scan returns it, found in the second
    have hfirst : withArchitectures (collected toLowercase fs cached forceRetest roots probe) c ∈
        scanVstPluginsWithProbe toLowercase fs roots cached forceRetest probe :=
      mem_finish.mpr ⟨c, hcollected, rfl⟩
    have hnodup := (listed_iff hp c).mp (h.architectures _ hfirst)
    rw [← h.rescanSame, rescan_eq hp hfs] at hfirst
    obtain ⟨d, _, hd⟩ := mem_finish.mp hfirst
    have hdc : sameGroup d c = true := by
      have hsame : sameGroup d c = sameGroup (withArchitectures
        (regrouped toLowercase fs cached forceRetest roots probe) d) c := rfl
      rw [hsame, hd]
      exact sameGroup_refl c
    have harch : groupArchitectures (regrouped toLowercase fs cached forceRetest roots probe) d =
        groupArchitectures (collected toLowercase fs cached forceRetest roots probe) c :=
      congrArg VstPluginEntry.availableArchitectures hd
    have hgroupd : groupArchitectures (regrouped toLowercase fs cached forceRetest roots probe) d =
        groupArchitectures (regrouped toLowercase fs cached forceRetest roots probe) c := by
      simp only [groupArchitectures, sameGroup_congr hdc]
    have hsame := (groupArchitectures_regrouped hp hfs c).mp (harch.symm.trans hgroupd)
    have hfilesOf : groupFiles toLowercase fs cached forceRetest roots probe g =
        groupFiles toLowercase fs cached forceRetest roots probe c := by
      refine List.filter_congr fun path _ => ?_
      simp only [contributes, sameGroup_congr hgroup]
    rw [GroupUnbroken, hfilesOf]
    exact ⟨hsame ▸ hnodup, hsame⟩

/-- The header of a library for a machine. -/
def peImage (machine : Nat) : List UInt8 :=
  [0x4D, 0x5A] ++ List.replicate 58 0 ++ [64, 0, 0, 0, 0x50, 0x45, 0, 0] ++ le 2 machine

/-- A folder with some libraries, by their machines. -/
def folder (machines : List (String × Nat)) : FileSystem where
  canonicalize := some
  readDir path := if path = "vst" then some (machines.map (·.1)) else none
  isDir path := path = "vst"
  isFile path := (machines.lookup path).isSome
  present path := path = "vst" || (machines.lookup path).isSome
  isReparsePoint _ := false
  fileInformation _ := none
  contents path := (machines.lookup path).map peImage
  pluginFileMetadata _ := (some 1000, some 70)

/-- Every library has one class of the same name. -/
def synthProbe : Probe := fun path _ architecture =>
  [{ id := path, name := "synth", path, format := "VST2", kind := "instrument", architecture,
     availableArchitectures := [], vendor := none, pluginVersion := none, status := .compatible,
     supported := true, unsupportedReason := none, failureStage := none, lastError := none,
     lastProbedMs := none, midiCompatible := some true, hasEditor := true, channelLayout := none,
     classUid := none, subPluginId := none, hostingMode := none, fileModifiedMs := some 1000,
     fileSize := some 70, hostAbiVersion := 14 }]

theorem synthProbe_honest (machines : List (String × Nat)) :
    HonestProbe (folder machines) synthProbe := by
  refine ⟨?_, ?_, ?_, ?_, ?_, ?_⟩ <;> simp [synthProbe, folder, vstHostAbiVersion]

theorem folder_caseInsensitive (machines : List (String × Nat)) :
    CaseInsensitive id (folder machines) where
  normalize _ _ h := congrArg (normalizePath id (folder machines)) h
  identity _ _ h := congrArg PluginIdentity.path h

/-- An ARM64, an x86 and another ARM64 library. -/
def mixedFolder : FileSystem :=
  folder [("vst\\a.dll", 0xAA64), ("vst\\b.dll", 0x14C), ("vst\\c.dll", 0xAA64)]

def mixedCatalogue : List VstPluginEntry :=
  scanVstPluginsWithProbe id mixedFolder ["vst"] [] false synthProbe

/-- A 64-bit library, two x86 ones and one for ARM64. The catalogue has the
first of the x86 ones. -/
def library : FileSystem :=
  folder [("vst\\a.dll", 0x8664), ("vst\\b.dll", 0x14C), ("vst\\c.dll", 0x14C),
    ("vst\\d.dll", 0xAA64)]

def libraryCache : List VstPluginEntry := synthProbe "vst\\b.dll" 30 "x86"

/-- The files that are not 64-bit, where `g` is of their name. -/
theorem groupFiles_library (g : VstPluginEntry) :
    groupFiles id library libraryCache false ["vst"] synthProbe g =
      if (synthProbe "" 0 "").any (sameGroup · g) then
        ["vst\\b.dll", "vst\\c.dll", "vst\\d.dll"]
      else [] := by
  have hscanned : scannedFiles id library ["vst"] =
      ["vst\\a.dll", "vst\\b.dll", "vst\\c.dll", "vst\\d.dll"] := by decide +kernel
  have ha : fileEntries id library libraryCache false synthProbe "vst\\a.dll" =
      synthProbe "vst\\a.dll" 30 "x64" := by decide +kernel
  have hb : fileEntries id library libraryCache false synthProbe "vst\\b.dll" =
      synthProbe "vst\\b.dll" 30 "x86" := by decide +kernel
  have hc : fileEntries id library libraryCache false synthProbe "vst\\c.dll" =
      synthProbe "vst\\c.dll" 30 "x86" := by decide +kernel
  have hd : fileEntries id library libraryCache false synthProbe "vst\\d.dll" =
      synthProbe "vst\\d.dll" 30 "0xAA64" := by decide +kernel
  simp only [groupFiles, hscanned, List.filter, contributes, ha, hb, hc, hd]
  cases hg : (synthProbe "" 0 "").any (sameGroup · g) with
  | false =>
    simp only [synthProbe, sameGroup, List.any_cons, List.any_nil, Bool.or_false] at hg ⊢
    simp [hg]
  | true =>
    simp only [synthProbe, sameGroup, List.any_cons, List.any_nil, Bool.or_false] at hg ⊢
    simp [hg]

theorem groupUnbroken_library (g : VstPluginEntry) :
    GroupUnbroken id library libraryCache false ["vst"] synthProbe g := by
  rw [GroupUnbroken, groupFiles_library]
  split
  · decide +kernel
  · decide +kernel

end RtpOscMidi.L2.PluginScan
