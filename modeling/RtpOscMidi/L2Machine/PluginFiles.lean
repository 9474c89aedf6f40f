import RtpOscMidi.Core.Bytes

/-!
# Plug-in files on disk

The walk that finds the plug-in files below a root, the identity that tells
one file reached twice, and the architectures a file has.

A `FileSystem` is what the calls to the operating system answer; it does not
change during a scan. A path is its text, and `toLowercase` is the lower case
of a text in Unicode.

* `availablePluginArchitectures_cases`: a file has x64, x86 or both, or the
  one architecture that was read from it.
-/
namespace RtpOscMidi.L2.PluginFiles

open Core

/-- `isReparsePoint` is true too where the metadata of the link cannot be
read; off Windows no path is one and no path has a file information.
`contents` is what can be read of an opened file. `metadata` is the time of
the last change and the size, of a bundle with everything in it. -/
structure FileSystem where
  canonicalize : String → Option String
  readDir : String → Option (List String)
  isDir : String → Bool
  isFile : String → Bool
  present : String → Bool
  isReparsePoint : String → Bool
  fileInformation : String → Option (Nat × Nat)
  contents : String → Option (List UInt8)
  pluginFileMetadata : String → Option Nat × Option Nat

/-! ## Paths -/

def isSeparator (c : Char) : Bool := c == '\\' || c == '/'

def join (path name : String) : String :=
  match path.toList.getLast? with
  | some c => if isSeparator c then path ++ name else path ++ "\\" ++ name
  | none => name

def fileName (path : String) : List Char :=
  (path.toList.reverse.takeWhile fun c => !isSeparator c).reverse

/-- What follows the last dot of the file name, unless the name starts with
that dot. -/
def extension (path : String) : Option (List Char) :=
  let name := (fileName path).reverse
  match name.dropWhile (· ≠ '.') with
  | _ :: _ :: _ => some (name.takeWhile (· ≠ '.')).reverse
  | _ => none

def lowerAscii (s : String) : List Char := s.toList.map Char.toLower

def eqIgnoreAsciiCase (s t : String) : Bool := lowerAscii s == lowerAscii t

def hasExtension (path : String) (ext : String) : Bool :=
  match extension path with
  | some e => e.map Char.toLower == lowerAscii ext
  | none => false

/-- mirrors src-tauri/src/plugin_probe_paths.rs:40-45 -/
def isVst2Path (path : String) : Bool := hasExtension path "dll"

/-- mirrors src-tauri/src/plugin_probe_paths.rs:47-52 -/
def isVst3Path (path : String) : Bool := hasExtension path "vst3"

def isPluginPath (path : String) : Bool := isVst2Path path || isVst3Path path

def FileSystem.resolve (fs : FileSystem) (path : String) : String :=
  (fs.canonicalize path).getD path

/-- mirrors src-tauri/src/plugin_probe_paths.rs:159-164 -/
def normalizePath (toLowercase : String → String) (fs : FileSystem) (path : String) : String :=
  toLowercase (fs.resolve path)

/-- mirrors src-tauri/src/plugin_probe_paths.rs:188-198 -/
def uniqueExistingRoots (toLowercase : String → String) (fs : FileSystem) (roots : List String) :
    List String :=
  (roots.foldl
    (fun (seen, out) root =>
      let key := normalizePath toLowercase fs root
      if key ∈ seen then (seen, out) else (key :: seen, out ++ [root]))
    (([] : List String), ([] : List String))).2

/-! ## The walk -/

/-- mirrors src-tauri/src/plugin_probe_paths.rs:62-70 -/
inductive PluginIdentity where
  | file (volume index : Nat)
  | path (canonical : String)
  deriving DecidableEq, Repr

/-- mirrors src-tauri/src/plugin_probe_paths.rs:72-101 -/
def pluginIdentity (fs : FileSystem) (path : String) : PluginIdentity :=
  match fs.fileInformation path with
  | some (volume, index) => .file volume index
  | none => .path (fs.resolve path)

structure Walk where
  out : List String
  visitedDirs : List String
  visitedPlugins : List PluginIdentity
  deriving DecidableEq, Repr

def Walk.push (fs : FileSystem) (w : Walk) (path : String) : Walk :=
  if pluginIdentity fs path ∈ w.visitedPlugins then w
  else
    { w with
      out := w.out ++ [path]
      visitedPlugins := pluginIdentity fs path :: w.visitedPlugins }

/-- The first argument is how many levels are left: `33 - depth`.
mirrors src-tauri/src/plugin_probe_paths.rs:103-157 -/
def scanDir (fs : FileSystem) : Nat → String → Walk → Walk
  | 0, _, w => w
  | levels + 1, root, w =>
    if fs.resolve root ∈ w.visitedDirs then w
    else
      let w := { w with visitedDirs := fs.resolve root :: w.visitedDirs }
      match fs.readDir root with
      | none => w
      | some entries =>
        entries.foldl
          (fun w path =>
            if fs.isDir path then
              -- junctions below a root are not followed
              if fs.isReparsePoint path then w
              else if isVst3Path path then w.push fs path
              else scanDir fs levels path w
            else if isPluginPath path then w.push fs path
            else w)
          w

/-- mirrors src-tauri/src/plugin_probe_paths.rs:54-60 -/
def scanPluginCandidates (fs : FileSystem) (root : String) : List String :=
  (scanDir fs 33 root ⟨[], [], []⟩).out

/-! ## Architectures -/

def hexDigit (n : Nat) : Char := (Nat.digitChar n).toUpper

/-- `n < 2 ^ 16`, as four upper-case digits. -/
def hex4 (n : Nat) : String :=
  String.ofList ([n / 4096, n / 256 % 16, n / 16 % 16, n % 16].map hexDigit)

/-- `read_exact` of `n` bytes from an offset. -/
def readAt (bytes : List UInt8) (offset n : Nat) : Option (List UInt8) :=
  let read := (bytes.drop offset).take n
  if read.length = n then some read else none

/-- mirrors src-tauri/src/plugin_probe_arch.rs:96-123 -/
def readPeMachine (fs : FileSystem) (path : String) : Option String := do
  let file ← fs.contents path
  let mz ← readAt file 0 2
  if mz ≠ [0x4D, 0x5A] then none
  let peOffset ← readAt file 0x3C 4
  let signature ← readAt file (ofLE peOffset) 4
  if signature ≠ [0x50, 0x45, 0, 0] then none
  let machine ← readAt file (ofLE peOffset + 4) 2
  let value := ofLE machine
  some (if value = 0x14C then "x86" else if value = 0x8664 then "x64" else "0x" ++ hex4 value)

/-- A directory being listed: the first plug-in found, the directories put on
the stack, and those visited. -/
structure Listing where
  found : Option String
  pushed : List String
  visited : List String
  deriving DecidableEq, Repr

/-- mirrors src-tauri/src/plugin_probe_arch.rs:75-91 -/
def Listing.entry (fs : FileSystem) (l : Listing) (path : String) : Listing :=
  if l.found.isSome then l
  else if fs.isDir path then
    if fs.resolve path ∈ l.visited then l
    else { l with pushed := l.pushed ++ [path], visited := fs.resolve path :: l.visited }
  else if isVst3Path path then { l with found := some path }
  else l

/-- The loop over the stack from one directory on it until what it pushed is
done with: what is pushed last is taken first, so the directories pushed
below it come before those beside it.
mirrors src-tauri/src/plugin_probe_arch.rs:68-94 -/
def searchBinary (fs : FileSystem) : Nat → String → List String → Option String × List String
  | 0, _, visited => (none, visited)
  | levels + 1, dir, visited =>
    match fs.readDir dir with
    | none => (none, visited)
    | some entries =>
      let l := entries.foldl (Listing.entry fs) ⟨none, [], visited⟩
      match l.found with
      | some binary => (some binary, l.visited)
      | none =>
        l.pushed.reverse.foldl
          (fun acc sub => match acc.1 with
            | some _ => acc
            | none => searchBinary fs levels sub acc.2)
          (none, l.visited)

/-- mirrors src-tauri/src/plugin_probe_arch.rs:60-94 -/
def findFirstVst3Binary (fs : FileSystem) (path : String) : Option String :=
  (searchBinary fs 33 path [fs.resolve path]).1

def contentsDir (path name : String) : String := join (join path "Contents") name

/-- The build is for 64 bits.
mirrors src-tauri/src/plugin_probe_arch.rs:33-58 -/
def detectVst3Architecture (fs : FileSystem) (path : String) : String :=
  if fs.isFile path then (readPeMachine fs path).getD "unknown"
  else if fs.present (contentsDir path "x86_64-win") then "x64"
  else if fs.present (contentsDir path "x86-win") then "x86"
  else
    match findFirstVst3Binary fs path with
    | some binary => (readPeMachine fs binary).getD "unknown"
    | none => "unknown"

/-- mirrors src-tauri/src/plugin_probe_arch.rs:7-15 -/
def detectPluginArchitecture (fs : FileSystem) (path : String) : String :=
  if isVst2Path path then (readPeMachine fs path).getD "unknown"
  else if isVst3Path path then detectVst3Architecture fs path
  else "unknown"

/-- mirrors src-tauri/src/plugin_probe_arch.rs:17-31 -/
def availablePluginArchitectures (fs : FileSystem) (path : String) : List String :=
  if isVst3Path path && fs.isDir path then
    let architectures :=
      (if fs.present (contentsDir path "x86_64-win") then ["x64"] else []) ++
        (if fs.present (contentsDir path "x86-win") then ["x86"] else [])
    if architectures ≠ [] then architectures else [detectPluginArchitecture fs path]
  else [detectPluginArchitecture fs path]

theorem availablePluginArchitectures_cases (fs : FileSystem) (path : String) :
    availablePluginArchitectures fs path = ["x64", "x86"] ∨
      ∃ architecture, availablePluginArchitectures fs path = [architecture] := by
  unfold availablePluginArchitectures
  split
  · cases fs.present (contentsDir path "x86_64-win") <;>
      cases fs.present (contentsDir path "x86-win") <;> simp
  · exact .inr ⟨_, rfl⟩

end RtpOscMidi.L2.PluginFiles
