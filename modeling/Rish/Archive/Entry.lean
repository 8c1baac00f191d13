/-
  Rish.Archive.Entry — entries of a tar archive, and how their paths are read.

  Two crates unpack layers, `rish-layer` on the host and `rish-guest-importer` in the guest, and share the
  rules for paths: a path is split as the standard library splits it (`components`), a path with `..` or from
  the root is refused, and a name that starts with `.wh.` is an order to remove. The tar reader itself is
  not modelled: an archive is the list of what it yields.

  A link's target is kept as the kernel will read it (`linkOf`).
-/

import Rish.Lib.Bytes
import Rish.Lib.FileTree

namespace Rish.Archive

open Lib Lib.FileTree

/-- Texts of an archive are bytes. -/
abbrev Text := List U8

/-- One component of a path: no slash in it. -/
abbrev Name := List U8

def SLASH : U8 := 0x2f#8
def DOT : U8 := 0x2e#8

/-! ## Paths -/

inductive Component where
  | rootDir
  | curDir
  | parentDir
  | normal (name : Name)
  deriving DecidableEq

/-- A piece between slashes; `.` and nothing say nothing. -/
def pieceComponent (piece : Text) : Option Component :=
  if piece = [] ∨ piece = [DOT] then none
  else if piece = [DOT, DOT] then some .parentDir
  else some (.normal piece)

/-- `Path::components`: a `.` counts only at the very start. -/
def components (path : Text) : List Component :=
  let pieces := path.splitOn SLASH
  let first :=
    if path.head? = some SLASH then [.rootDir]
    else if pieces.head? = some [DOT] then [.curDir]
    else []
  first ++ pieces.filterMap pieceComponent

def isAbsolute (path : Text) : Bool := path.head? == some SLASH

/-- The names joined again. -/
def joined (path : List Name) : Text := [SLASH].intercalate path

def absolute (place : List Name) : Text := SLASH :: joined place

/-- What the kernel reads in the text of a link. -/
def linkOf (target : Text) : Link Name where
  absolute := isAbsolute target
  steps := (target.splitOn SLASH).filterMap fun piece =>
    if piece = [] ∨ piece = [DOT] then none
    else if piece = [DOT, DOT] then some .up
    else some (.name piece)

/-- Why a path is refused, in the words of the error. -/
abbrev Reason := String

def checkBytes (bytes : Text) : Except Reason Text :=
  if 0#8 ∈ bytes then .error "NUL byte" else .ok bytes

def normalizeComponents : List Component → Except Reason (List Name)
  | [] => .ok []
  | .normal part :: rest => (part :: ·) <$> normalizeComponents rest
  | .curDir :: rest => normalizeComponents rest
  | .parentDir :: _ => .error "parent-directory component"
  | .rootDir :: _ => .error "absolute path"

/-! ## Whiteouts -/

inductive Whiteout where
  | remove (path : List Name)
  | opaqueDirectory (path : List Name)
  deriving DecidableEq

/-- `.wh.` -/
def WHITEOUT : Name := [0x2e#8, 0x77#8, 0x68#8, 0x2e#8]

/-- `.wh..wh..opq` -/
def OPAQUE_NAME : Name := WHITEOUT ++ WHITEOUT ++ [0x2e#8, 0x6f#8, 0x70#8, 0x71#8]

inductive WhiteoutFault where
  | malformed
  | invalid (reason : Reason)
  deriving DecidableEq

def whiteoutTarget (path : List Name) : Except WhiteoutFault (Option Whiteout) :=
  match path.getLast? with
  | none => .ok none
  | some name =>
    if name = OPAQUE_NAME then .ok (some (.opaqueDirectory path.dropLast))
    else if WHITEOUT.isPrefixOf name then
      let hidden := name.drop WHITEOUT.length
      if hidden = [] ∨ hidden = [DOT] ∨ hidden = [DOT, DOT] then .error .malformed
      else
        match checkBytes hidden with
        | .error reason => .error (.invalid reason)
        | .ok hidden => .ok (some (.remove (path.dropLast ++ [hidden])))
    else .ok none

/-! ## Entries -/

inductive EntryType where
  | regular
  | link
  | symlink
  | char
  | block
  | directory
  | fifo
  | continuous
  | gnuLongName
  | gnuLongLink
  | gnuSparse
  | xGlobalHeader
  | xHeader
  | other (byte : U8)
  deriving DecidableEq

namespace EntryType

def asByte : EntryType → U8
  | .regular => 0x30#8
  | .link => 0x31#8
  | .symlink => 0x32#8
  | .char => 0x33#8
  | .block => 0x34#8
  | .directory => 0x35#8
  | .fifo => 0x36#8
  | .continuous => 0x37#8
  | .gnuLongName => 0x4c#8
  | .gnuLongLink => 0x4b#8
  | .gnuSparse => 0x53#8
  | .xGlobalHeader => 0x67#8
  | .xHeader => 0x78#8
  | .other byte => byte

def isSpecial (kind : EntryType) : Bool := kind = .char ∨ kind = .block ∨ kind = .fifo

/-- Both kinds of plain file. -/
def isRegular (kind : EntryType) : Bool := kind = .regular ∨ kind = .continuous

end EntryType

/-- A number of a header: `none` when the field cannot be read. -/
abbrev Field := Option Nat

structure TarEntry where
  path : Text
  kind : EntryType
  size : Nat
  mode : Field
  uid : Field
  gid : Field
  mtime : Field
  linkName : Option Text
  /-- Outer `none`: unreadable; inner `none`: the header has no such field. -/
  deviceMajor : Option (Option Nat)
  deviceMinor : Option (Option Nat)
  /-- The extended records; `none` in the list is one that cannot be read. -/
  pax : Option (List (Option (Text × Text)))
  data : Text
  /-- Reading the data fails after `data`. -/
  truncated : Bool

/-- What the reader yields: an entry, or an error and then nothing. -/
abbrev Entries := List (Option TarEntry)

end Rish.Archive
