/-
  Rish.Layer.Apply — applying an OCI layer to a directory (`rish-layer`).

  The archive is read twice. The first reading checks every entry and collects the whiteouts
  (`scanArchive`); nothing is changed before it is over. Then the whiteouts are carried out and the entries
  are applied in their order. A path is looked at one component at a time, and a link among them is an
  error; the modes of directories are set at the very end, the deepest first.

  What lies outside the crate is a `Host`: the digest, the gzip decoder, the tar reader and the mode that
  a new directory gets. A program runs in a `World` of `Rish.Lib.Confine`, in which any call may fail. The spool
  is a file without a name: it is not part of the disk.
-/

import Rish.Archive.Unpack

namespace Rish.Layer

open Lib Lib.FileTree Archive
open Exec (fail ofExcept)

def U64_MAX : Nat := 2 ^ 64 - 1

inductive LayerFormat where
  | auto
  | tar
  | gzip
  deriving DecidableEq

inductive SpecialFilePolicy where
  | reject
  | skip
  deriving DecidableEq

structure LayerLimits where
  maxEntries : Nat := 100_000
  maxFileSize : Nat := 512 * 1024 * 1024
  maxTotalSize : Nat := 2 * 1024 * 1024 * 1024
  maxArchiveSize : Nat := 3 * 1024 * 1024 * 1024
  maxPathBytes : Nat := 4_096
  maxLinkTargetBytes : Nat := 4_096

structure ApplyOptions where
  limits : LayerLimits := {}
  specialFiles : SpecialFilePolicy := .reject
  expectedDiffId : Option Text := none
  spoolDirectory : Option (List (Step Name)) := none

structure ApplyReport where
  diffId : Text := []
  entries : Nat := 0
  expandedBytes : Nat := 0
  files : Nat := 0
  directories : Nat := 0
  symlinks : Nat := 0
  hardlinks : Nat := 0
  whiteouts : Nat := 0
  skippedSpecialFiles : Nat := 0
  deriving DecidableEq

/-- Paths in errors are texts. -/
inductive LayerError where
  | io (error : Errno)
  | invalidDestination (path : List (Step Name))
  | invalidSpoolDirectory (path : List (Step Name))
  | invalidPath (path : Text) (reason : Reason)
  | pathTooLong (limit : Nat)
  | linkTargetTooLong (path : Text) (limit : Nat)
  | missingLinkTarget (path : Text)
  | symlinkEscape (path target : Text)
  | symlinkPathComponent (path component : Text)
  | parentNotDirectory (path : Text)
  | invalidHardlinkTarget (path target : Text)
  | malformedWhiteout (path : Text)
  | whiteoutHasData (path : Text)
  | entryLimitExceeded (limit : Nat)
  | fileSizeLimitExceeded (path : Text) (size limit : Nat)
  | totalSizeLimitExceeded (limit : Nat)
  | archiveSizeLimitExceeded (limit : Nat)
  | invalidDiffId (value : Text)
  | diffIdMismatch (expected actual : Text)
  | specialFileRejected (path : Text) (entryType : U8)
  | unsupportedEntryType (path : Text) (entryType : U8)
  | truncatedEntry (path : Text) (expected actual : Nat)
  deriving DecidableEq

/-- A stream: what it yields, and whether it then fails. -/
structure Source where
  bytes : Text
  fails : Bool

structure Host where
  /-- The digest in lower-case hexadecimal. -/
  sha256 : Text → Text
  gunzip : Source → Source
  tar : Text → Entries
  directoryMode : Nat

/-- Attributes are modes, contents are bytes. -/
abbrev HostWorld := World Name Nat Text

abbrev Program := Exec HostWorld LayerError

def io {α : Type} (x : Exec HostWorld Errno α) : Program α := x.mapErr .io

/-! ## Paths -/

def pathFromTarBytes (bytes : Text) : Except LayerError Text := (checkBytes bytes).mapError (.invalidPath [])

def normalizeEntryPath (path : Text) : Except LayerError (List Name) :=
  (normalizeComponents (components path)).mapError (.invalidPath path)

/-- The target may not climb above the root, counting its components from the link's parent. -/
def climbs : Nat → List Component → Bool
  | _, [] => false
  | depth, .normal _ :: rest => climbs (depth + 1) rest
  | depth, .curDir :: rest => climbs depth rest
  | depth + 1, .parentDir :: rest => climbs depth rest
  | 0, .parentDir :: _ => true
  | _, .rootDir :: _ => true

variable (path : List Name)

def validateSymlinkTarget (target : Text) : Except LayerError Unit :=
  if target = [] ∨ isAbsolute target then .error (.symlinkEscape (joined path) target)
  else if climbs (path.length - 1) (components target) then .error (.symlinkEscape (joined path) target)
  else .ok ()

def whiteoutTarget : Except LayerError (Option Whiteout) :=
  (Archive.whiteoutTarget path).mapError fun
    | .malformed => .malformedWhiteout (joined path)
    | .invalid reason => .invalidPath [] reason

/-! ## The spool -/

def splitOnce (separator : U8) (text : Text) : Option (Text × Text) :=
  match text.span (· ≠ separator) with
  | (_, []) => none
  | (before, _ :: after) => some (before, after)

def toAsciiLowercase (byte : U8) : U8 := if 0x41#8 ≤ byte ∧ byte ≤ 0x5a#8 then byte + 0x20#8 else byte

def isAsciiHexdigit (byte : U8) : Bool :=
  (0x30#8 ≤ byte && byte ≤ 0x39#8) || (0x41#8 ≤ byte && byte ≤ 0x46#8) || (0x61#8 ≤ byte && byte ≤ 0x66#8)

/-- `sha256` -/
def SHA256 : Text := [0x73#8, 0x68#8, 0x61#8, 0x32#8, 0x35#8, 0x36#8]

def COLON : U8 := 0x3a#8

def normalizeDiffId (value : Text) : Except LayerError Text :=
  match splitOnce COLON value with
  | none => .error (.invalidDiffId value)
  | some (algorithm, encoded) =>
    if algorithm.map toAsciiLowercase ≠ SHA256 ∨ encoded.length ≠ 64 ∨ !encoded.all isAsciiHexdigit then
      .error (.invalidDiffId value)
    else .ok (SHA256 ++ [COLON] ++ encoded.map toAsciiLowercase)

/-- Too much is noticed before a failure that comes after it. -/
def copyBounded (source : Source) (limit : Nat) : Except LayerError Text :=
  if source.bytes.length > limit then .error (.archiveSizeLimitExceeded limit)
  else if source.fails then .error (.io .io)
  else .ok source.bytes

def GZIP_MAGIC : Text := [0x1f#8, 0x8b#8]

def isGzip (format : LayerFormat) (bytes : Text) : Bool :=
  match format with
  | .auto => GZIP_MAGIC.isPrefixOf bytes
  | .tar => false
  | .gzip => true

def checkSpoolDirectory : Option (List (Step Name)) → Program Unit
  | none => pure ()
  | some directory => do
    let metadata ← io (Kernel.lstat directory)
    if metadata.type = .directory then pure () else fail (.invalidSpoolDirectory directory)

def spoolArchive (host : Host) (reader : Source) (format : LayerFormat) (limit : Nat)
    (spoolDirectory : Option (List (Step Name))) : Program (Text × Text) := do
  checkSpoolDirectory spoolDirectory
  -- making, writing and rewinding the spool touches no name and may fail
  io Kernel.touchNothing
  let spooled ← ofExcept (copyBounded (if isGzip format reader.bytes then host.gunzip reader else reader) limit)
  pure (spooled, SHA256 ++ [COLON] ++ host.sha256 spooled)

/-! ## The first reading -/

structure Scan where
  report : ApplyReport := {}
  whiteouts : List Whiteout := []

def readLinkTarget (entry : TarEntry) (path : List Name) (options : ApplyOptions) : Except LayerError Text :=
  match entry.linkName with
  | none => .error (.missingLinkTarget (joined path))
  | some bytes =>
    if bytes.length > options.limits.maxLinkTargetBytes then
      .error (.linkTargetTooLong (joined path) options.limits.maxLinkTargetBytes)
    else pathFromTarBytes bytes

def headerMode (entry : TarEntry) : Except LayerError Nat :=
  match entry.mode with
  | none => .error (.io .io)
  | some mode => .ok mode

def validateRegular (size : Nat) (report : ApplyReport) (limits : LayerLimits) : Except LayerError ApplyReport :=
  if size > limits.maxFileSize then .error (.fileSizeLimitExceeded (joined path) size limits.maxFileSize)
  else if report.expandedBytes + size > U64_MAX ∨ report.expandedBytes + size > limits.maxTotalSize then
    .error (.totalSizeLimitExceeded limits.maxTotalSize)
  else .ok { report with expandedBytes := report.expandedBytes + size, files := report.files + 1 }

/-- An entry that is no whiteout, by its type. -/
def scanKind (options : ApplyOptions) (report : ApplyReport) (entry : TarEntry) (path : List Name) :
    Except LayerError ApplyReport :=
  if entry.kind.isRegular then do
    let report ← validateRegular path entry.size report options.limits
    let _ ← headerMode entry
    return report
  else if entry.kind = .directory then do
    let _ ← headerMode entry
    return { report with directories := report.directories + 1 }
  else if entry.kind = .symlink then do
    let target ← readLinkTarget entry path options
    validateSymlinkTarget path target
    return { report with symlinks := report.symlinks + 1 }
  else if entry.kind = .link then do
    let target ← readLinkTarget entry path options
    let target ← normalizeEntryPath target
    if target = [] then .error (.invalidHardlinkTarget (joined path) (joined target))
    else return { report with hardlinks := report.hardlinks + 1 }
  else if entry.kind.isSpecial then
    match options.specialFiles with
    | .reject => .error (.specialFileRejected (joined path) entry.kind.asByte)
    | .skip => .ok { report with skippedSpecialFiles := report.skippedSpecialFiles + 1 }
  else .error (.unsupportedEntryType (joined path) entry.kind.asByte)

def scanEntry (options : ApplyOptions) (scan : Scan) (entry : TarEntry) : Except LayerError Scan := do
  let entries := scan.report.entries + 1
  if entries > U64_MAX ∨ entries > options.limits.maxEntries then .error (.entryLimitExceeded options.limits.maxEntries)
  let report := { scan.report with entries := entries }
  let rawPath ← pathFromTarBytes entry.path
  if rawPath.length > options.limits.maxPathBytes then .error (.pathTooLong options.limits.maxPathBytes)
  let path ← normalizeEntryPath rawPath
  match ← whiteoutTarget path with
  | some whiteout =>
    if entry.size ≠ 0 then .error (.whiteoutHasData (joined path))
    else return ⟨{ report with whiteouts := report.whiteouts + 1 }, scan.whiteouts ++ [whiteout]⟩
  | none =>
    if path = [] ∧ entry.kind ≠ .directory then .error (.invalidPath rawPath "empty non-directory path")
    else return ⟨← scanKind options report entry path, scan.whiteouts⟩

def scanArchive (options : ApplyOptions) : Scan → Entries → Except LayerError Scan
  | scan, [] => .ok scan
  | _, none :: _ => .error (.io .io)
  | scan, some entry :: rest => do scanArchive options (← scanEntry options scan entry) rest

/-! ## Names on the disk -/

def PATH_ERRORS : PathErrors LayerError where
  filesystem _ e := .io e
  symlinkPathComponent := .symlinkPathComponent
  parentNotDirectory := .parentNotDirectory
  malformedWhiteout := .malformedWhiteout

def resolveExistingDirectory (root path : List Name) : Program (Option (List Name)) :=
  resolveFrom PATH_ERRORS path root path

def removePathNoFollow : Program Unit := removeNoFollow PATH_ERRORS path

variable (host : Host)

def createDirectory (path : List Name) : Program Unit := io (Kernel.mkdir host.directoryMode (steps path))

def ensureDirectories (root path : List Name) : Program (List Name) :=
  ensureFrom PATH_ERRORS (createDirectory host) path root path

def ensureDirectoryLeaf (path : List Name) : Program Unit := do
  match ← (Kernel.lstat (steps path)).result with
  | .ok metadata =>
    if metadata.type = .directory then pure ()
    else do
      removePathNoFollow path
      createDirectory host path
  | .error .notFound => createDirectory host path
  | .error e => fail (.io e)

/-! ## Whiteouts -/

def applyWhiteout (root : List Name) (whiteout : Whiteout) : Program Unit :=
  Archive.applyWhiteout PATH_ERRORS (resolveExistingDirectory root) whiteout

def applyWhiteouts (root : List Name) (whiteouts : List Whiteout) : Program Unit := whiteouts.forM (applyWhiteout root)

/-! ## Entries -/

def sanitizedMode (mode : Nat) : Nat := mode &&& 0o1777

def sanitizedDirectoryMode (mode : Nat) : Nat := sanitizedMode mode ||| 0o700

/-- The mode of a temporary file. -/
def PRIVATE_MODE : Nat := 0o600

def fillAndPersist (entry : TarEntry) (mode inode : Nat) (temporary destination : List Name) : Program Nat := do
  io (Kernel.writeInode inode fun file => { file with body := .regular entry.data })
  if entry.truncated then fail (.io .io)
  else do
    io (Kernel.writeInode inode fun file => { file with attrs := mode })
    io (Kernel.rename true (steps temporary) (steps destination))
    pure entry.data.length

/-- A directory makes room for a file; a failed look is passed over. -/
def clearDirectory (destination : List Name) : Program Unit := do
  match ← (Kernel.lstat (steps destination)).result with
  | .ok metadata => Exec.when (metadata.type = .directory) (io (Kernel.removeTree (steps destination)))
  | .error _ => pure ()

/-- A temporary file that is not persisted is removed when it is dropped. -/
def writeRegularFile (entry : TarEntry) (parent : List Name) (name : Name) (mode : Nat) : Program Nat := do
  let destination := parent ++ [name]
  clearDirectory destination
  let (drawn, inode) ← io (Kernel.freshName fun n => Kernel.create ⟨PRIVATE_MODE, .regular []⟩ (steps (parent ++ [n])))
  (fillAndPersist entry mode inode (parent ++ [drawn]) destination).onFailure
    (Kernel.unlink (steps (parent ++ [drawn])))

def applyHardlink (root path target : List Name) : Program Unit :=
  linkExisting PATH_ERRORS (resolveExistingDirectory root) (ensureDirectories host root path.dropLast)
    (.invalidHardlinkTarget (joined path) (joined target))
    (.invalidHardlinkTarget (joined path) (joined target)) path target

def replaceWithSymlink (destination : List Name) (target : Text) : Program Unit := do
  removePathNoFollow destination
  io (Kernel.symlink (linkOf target) 0o777 (steps destination))

/-- What the entries leave for the end. -/
structure Pending where
  directoryModes : List (List Name × Nat) := []
  copiedBytes : Nat := 0

def basename (path : List Name) (reason : Reason) : Except LayerError Name :=
  match path.getLast? with
  | none => .error (.invalidPath (joined path) reason)
  | some name => .ok name

def applyDirectory (root path : List Name) : Program (List Name) := do
  if path = [] then pure root
  else do
    let parent ← ensureDirectories host root path.dropLast
    let name ← ofExcept (basename path "directory has no basename")
    ensureDirectoryLeaf host (parent ++ [name])
    pure (parent ++ [name])

def applyEntry (root : List Name) (options : ApplyOptions) (pending : Pending) (entry : TarEntry) :
    Program Pending := do
  let rawPath ← ofExcept (pathFromTarBytes entry.path)
  let path ← ofExcept (normalizeEntryPath rawPath)
  if (← ofExcept (whiteoutTarget path)).isSome then pure pending
  else if entry.kind.isSpecial ∧ options.specialFiles = .skip then pure pending
  else if entry.kind = .directory then do
    let destination ← applyDirectory host root path
    let mode ← ofExcept (headerMode entry)
    pure { pending with directoryModes := pending.directoryModes ++ [(destination, sanitizedDirectoryMode mode)] }
  else if entry.kind.isRegular then do
    let parent ← ensureDirectories host root path.dropLast
    let name ← ofExcept (basename path "file has no basename")
    let mode ← ofExcept (headerMode entry)
    let copied ← writeRegularFile entry parent name (sanitizedMode mode)
    if pending.copiedBytes + copied > U64_MAX then fail (.totalSizeLimitExceeded options.limits.maxTotalSize)
    else pure { pending with copiedBytes := pending.copiedBytes + copied }
  else if entry.kind = .symlink then do
    let target ← ofExcept (readLinkTarget entry path options)
    let parent ← ensureDirectories host root path.dropLast
    let name ← ofExcept (basename path "symbolic link has no basename")
    replaceWithSymlink (parent ++ [name]) target
    pure pending
  else if entry.kind = .link then do
    let target ← ofExcept (readLinkTarget entry path options)
    let target ← ofExcept (normalizeEntryPath target)
    applyHardlink host root path target
    pure pending
  else pure pending

def readEntry : Option TarEntry → Program TarEntry
  | none => fail (.io .io)
  | some entry => pure entry

/-- `<layer-total>` -/
def LAYER_TOTAL : Text :=
  [0x3c#8, 0x6c#8, 0x61#8, 0x79#8, 0x65#8, 0x72#8, 0x2d#8, 0x74#8, 0x6f#8, 0x74#8, 0x61#8, 0x6c#8, 0x3e#8]

/-- The deepest first; equally deep ones stay in their order. -/
def sortedModes (modes : List (List Name × Nat)) : List (List Name × Nat) :=
  modes.insertionSort fun a b => b.1.length ≤ a.1.length

/-- All of `apply_entries` but the modes of directories, which it returns in the order they will be set. -/
def applyEach (root : List Name) (options : ApplyOptions) (entries : Entries) (expected : ApplyReport) :
    Program (List (List Name × Nat)) := do
  let pending ← Exec.foldM (fun pending entry => readEntry entry >>= applyEntry host root options pending) {} entries
  if pending.copiedBytes ≠ expected.expandedBytes then
    fail (.truncatedEntry LAYER_TOTAL expected.expandedBytes pending.copiedBytes)
  else pure (sortedModes pending.directoryModes)

def applyMode (directory : List Name × Nat) : Program Unit := do
  let metadata ← io (Kernel.lstat (steps directory.1))
  Exec.when (metadata.type = .directory) (io (Kernel.setAttributes (fun _ => directory.2) (steps directory.1)))

def applyEntries (root : List Name) (options : ApplyOptions) (entries : Entries) (expected : ApplyReport) :
    Program Unit := do
  let modes ← applyEach host root options entries expected
  modes.forM applyMode

/-! ## The whole layer -/

def prepareDestination (destination : List (Step Name)) : Program (List Name) := do
  io (Kernel.createDirAll host.directoryMode destination)
  let metadata ← io (Kernel.lstat destination)
  if metadata.type ≠ .directory then fail (.invalidDestination destination)
  else io (Kernel.canonicalize destination)

variable (options : ApplyOptions)

def checkDiffId (diffId : Text) : Except LayerError Unit :=
  match options.expectedDiffId with
  | none => .ok ()
  | some expected => do
    let expected ← normalizeDiffId expected
    if expected ≠ diffId then .error (.diffIdMismatch expected diffId) else .ok ()

def applyLayerWithFormat (format : LayerFormat) (reader : Source)
    (destination : List (Step Name)) : Program ApplyReport := do
  let (spool, diffId) ← spoolArchive host reader format options.limits.maxArchiveSize options.spoolDirectory
  ofExcept (checkDiffId options diffId)
  let scan ← ofExcept (scanArchive options {} (host.tar spool))
  let root ← prepareDestination host destination
  applyWhiteouts root scan.whiteouts
  applyEntries host root options (host.tar spool) scan.report
  pure { scan.report with diffId := diffId }

end Rish.Layer
