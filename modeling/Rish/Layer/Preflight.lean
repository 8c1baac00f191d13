/-
  Rish.Layer.Preflight — which broken rules of a layer are found before anything is written.

  The rules are said of the archive as a whole: of the paths, whiteouts, types and link targets of its
  entries, of their number and sizes, and of its digest. All but one are about the archive alone
  (`ScanRules`): a run over an archive that breaks one of these fails and leaves the disk as it was
  (`broken_rule_refused`). That a hard link has a file to name depends on the entries before it and on the
  destination; this is looked up when the link is made, and by then the destination has been created
  (`dangling_link_found_late`).
-/

import Rish.Lib.Rules
import Rish.Layer.Containment

namespace Rish.Layer

open Lib Lib.FileTree Lib.Checked Archive

/-! ## The rules -/

/-- The names of a path; a `.` says nothing. -/
def pathNames (path : Text) : List Name := (components path).filterMap fun
  | .normal name => some name
  | _ => none

def Relative (path : Text) : Prop := ∀ c ∈ components path, c ≠ .rootDir ∧ c ≠ .parentDir

/-- What a whiteout hides; `none` for other paths. -/
def hiddenName (path : List Name) : Option Name :=
  path.getLast?.bind fun name => if WHITEOUT.isPrefixOf name then some (name.drop WHITEOUT.length) else none

/-- What a whiteout may hide. -/
def Whole (name : Name) : Prop := name ≠ [] ∧ name ≠ [DOT] ∧ name ≠ [DOT, DOT]

/-- The link's target is there and short enough, and this holds of it. -/
def TargetRule (options : ApplyOptions) (entry : TarEntry) (rule : Text → Prop) : Prop :=
  ∃ target, entry.linkName = some target ∧ target.length ≤ options.limits.maxLinkTargetBytes ∧ 0#8 ∉ target ∧
    rule target

/-- What an entry that is no whiteout may be. -/
def TypeRule (options : ApplyOptions) (entry : TarEntry) (path : List Name) : Prop :=
  match entry.kind with
  | .regular | .continuous => entry.size ≤ options.limits.maxFileSize
  | .directory => True
  | .symlink => TargetRule options entry fun target =>
      target ≠ [] ∧ isAbsolute target = false ∧ climbs (path.length - 1) (components target) = false
  | .link => TargetRule options entry fun target => Relative target ∧ pathNames target ≠ []
  | .char | .block | .fifo => options.specialFiles = .skip
  | _ => False

structure EntryRules (options : ApplyOptions) (entry : TarEntry) : Prop where
  text : 0#8 ∉ entry.path
  length : entry.path.length ≤ options.limits.maxPathBytes
  relative : Relative entry.path
  whiteout : ∀ hidden ∈ hiddenName (pathNames entry.path), Whole hidden ∧ entry.size = 0
  named : hiddenName (pathNames entry.path) = none → pathNames entry.path = [] → entry.kind = .directory
  type : hiddenName (pathNames entry.path) = none → TypeRule options entry (pathNames entry.path)

def fileBytes (entry : TarEntry) : Nat :=
  if hiddenName (pathNames entry.path) = none ∧ entry.kind.isRegular then entry.size else 0

structure ArchiveRules (options : ApplyOptions) (entries : Entries) : Prop where
  each : ∀ entry, some entry ∈ entries → EntryRules options entry
  count : entries.length ≤ options.limits.maxEntries
  total : (entries.map fun entry => (entry.map fileBytes).getD 0).sum ≤ options.limits.maxTotalSize

def unpacked (host : Host) (format : LayerFormat) (reader : Source) : Source :=
  if isGzip format reader.bytes then host.gunzip reader else reader

/-- The rules that the archive alone can break. -/
structure ScanRules (host : Host) (options : ApplyOptions) (format : LayerFormat) (reader : Source) : Prop where
  size : (unpacked host format reader).bytes.length ≤ options.limits.maxArchiveSize
  diffId : ∀ expected ∈ options.expectedDiffId,
    normalizeDiffId expected = .ok (SHA256 ++ [COLON] ++ host.sha256 (unpacked host format reader).bytes)
  archive : ArchiveRules options (host.tar (unpacked host format reader).bytes)

/-- One of these entries makes a file of this name. -/
def Made (names : List Name) (entries : Entries) : Prop :=
  ∃ entry, some entry ∈ entries ∧ hiddenName (pathNames entry.path) = none ∧ pathNames entry.path = names ∧
    (entry.kind.isRegular = true ∨ entry.kind = .link)

/-- The destination has a regular file of this name. -/
def Present (names : List Name) (destination : List (Step Name)) (disk : Disk Name Nat Text) : Prop :=
  ∃ p n, disk.entry (destination ++ steps names) = .ok p ∧ disk.node p = some n ∧ (disk.stat n).type = .regular

/-- A hard link names a file of the entries before it or of the destination. -/
def Linked (entries : Entries) (destination : List (Step Name)) (disk : Disk Name Nat Text) : Prop :=
  ∀ before entry after target, entries = before ++ some entry :: after →
    hiddenName (pathNames entry.path) = none → entry.kind = .link → entry.linkName = some target →
    Made (pathNames target) before ∨ Present (pathNames target) destination disk

structure LayerRules (host : Host) (options : ApplyOptions) (format : LayerFormat) (reader : Source)
    (destination : List (Step Name)) (disk : Disk Name Nat Text) : Prop where
  alone : ScanRules host options format reader
  linked : Linked (host.tar (unpacked host format reader).bytes) destination disk

/-! ## The first reading -/

variable {options : ApplyOptions} {entry : TarEntry} {path names : List Name} {text target : Text} {scan scan' : Scan}

theorem pathFromTarBytes_ok (h : pathFromTarBytes text = .ok target) : 0#8 ∉ text ∧ target = text := by
  have hbytes := mapError_eq_ok.mp h
  unfold checkBytes at hbytes
  split at hbytes
  · cases hbytes
  · rename_i hnul
    cases hbytes
    exact ⟨hnul, rfl⟩

theorem normalizeEntryPath_ok (h : normalizeEntryPath text = .ok names) : Relative text ∧ names = pathNames text := by
  have hcomponents := mapError_eq_ok.mp h
  unfold Relative pathNames
  clear h
  generalize components text = cs at hcomponents
  induction cs generalizing names with
  | nil =>
    cases hcomponents
    simp
  | cons c cs ih =>
    cases c with
    | rootDir => cases hcomponents
    | parentDir => cases hcomponents
    | curDir => simpa using ih hcomponents
    | normal name =>
      cases hrest : normalizeComponents cs with
      | error _ => simp [normalizeComponents, hrest] at hcomponents
      | ok rest =>
        obtain ⟨hrelative, rfl⟩ := ih hrest
        simp_all [normalizeComponents]

theorem whiteoutTarget_ok {found} (h : whiteoutTarget path = .ok found) :
    (found = none ↔ hiddenName path = none) ∧ ∀ hidden ∈ hiddenName path, Whole hidden := by
  have htarget := mapError_eq_ok.mp h
  unfold Archive.whiteoutTarget at htarget
  unfold hiddenName Whole
  cases hlast : path.getLast? with
  | none =>
    simp only [hlast] at htarget
    cases htarget
    simp
  | some name =>
    simp only [hlast] at htarget
    simp only [Option.bind_some]
    split at htarget
    · rename_i hopaque
      cases htarget
      subst hopaque
      simp [OPAQUE_NAME, WHITEOUT]
    split at htarget
    · rename_i hmarked
      rw [if_pos hmarked]
      split at htarget
      · cases htarget
      · rename_i hmalformed
        split at htarget
        · cases htarget
        · cases htarget
          simpa using hmalformed
    · rename_i hplain
      cases htarget
      simp [hplain]

theorem readLinkTarget_ok (h : readLinkTarget entry path options = .ok target) {rule : Text → Prop}
    (hrule : rule target) :
    TargetRule options entry rule := by
  unfold readLinkTarget at h
  split at h
  · cases h
  · split at h
    · cases h
    · rename_i bytes hlink hlength
      obtain ⟨hnul, rfl⟩ := pathFromTarBytes_ok h
      exact ⟨_, hlink, Nat.not_lt.mp hlength, hnul, hrule⟩

def Counted (options : ApplyOptions) (bytes : Nat) (before after : ApplyReport) : Prop :=
  after.entries = before.entries ∧ after.expandedBytes = before.expandedBytes + bytes ∧
    (before.expandedBytes ≤ options.limits.maxTotalSize → after.expandedBytes ≤ options.limits.maxTotalSize)

variable {report report' : ApplyReport}

theorem validateRegular_ok {size} (h : validateRegular path size report options.limits = .ok report') :
    size ≤ options.limits.maxFileSize ∧ Counted options size report report' := by
  unfold validateRegular at h
  split at h
  · cases h
  split at h
  · cases h
  rename_i hfile htotal
  cases h
  exact ⟨Nat.not_lt.mp hfile, rfl, rfl, fun _ => Nat.not_lt.mp fun hover => htotal (.inr hover)⟩

theorem validateSymlinkTarget_ok {u} (h : validateSymlinkTarget path target = .ok u) :
    target ≠ [] ∧ isAbsolute target = false ∧ climbs (path.length - 1) (components target) = false := by
  unfold validateSymlinkTarget at h
  split at h
  · cases h
  split at h
  · cases h
  · rename_i hform hinside
    rw [not_or, Bool.not_eq_true] at hform
    exact ⟨hform.1, hform.2, Bool.not_eq_true _ ▸ hinside⟩

theorem scanKind_ok (h : scanKind options report entry path = .ok report') :
    TypeRule options entry path ∧ Counted options (if entry.kind.isRegular then entry.size else 0) report report' := by
  unfold scanKind at h
  unfold TypeRule
  -- the branches in the order of the source; only regular files count bytes
  split at h
  · rename_i hregular
    obtain ⟨_, hvalid, h⟩ := bind_eq_ok.mp h
    obtain ⟨_, _, h⟩ := bind_eq_ok.mp h
    cases h
    obtain ⟨hfile, hcounted⟩ := validateRegular_ok hvalid
    rw [if_pos hregular]
    refine ⟨?_, hcounted⟩
    rcases of_decide_eq_true hregular with hkind | hkind <;> rw [hkind] <;> exact hfile
  rename_i hregular
  rw [if_neg hregular]
  split at h
  · rename_i hkind
    obtain ⟨_, _, h⟩ := bind_eq_ok.mp h
    cases h
    rw [hkind]
    exact ⟨trivial, rfl, rfl, id⟩
  split at h
  · rename_i hkind
    obtain ⟨target, htarget, h⟩ := bind_eq_ok.mp h
    obtain ⟨_, hvalid, h⟩ := bind_eq_ok.mp h
    cases h
    rw [hkind]
    exact ⟨readLinkTarget_ok htarget (validateSymlinkTarget_ok hvalid), rfl, rfl, id⟩
  split at h
  · rename_i hkind
    obtain ⟨target, htarget, h⟩ := bind_eq_ok.mp h
    obtain ⟨_, hnames, h⟩ := bind_eq_ok.mp h
    obtain ⟨hrelative, rfl⟩ := normalizeEntryPath_ok hnames
    split at h
    · cases h
    · rename_i hnamed
      cases h
      rw [hkind]
      exact ⟨readLinkTarget_ok htarget ⟨hrelative, hnamed⟩, rfl, rfl, id⟩
  split at h
  · rename_i hspecial
    split at h
    · cases h
    · rename_i hskip
      cases h
      refine ⟨?_, rfl, rfl, id⟩
      rcases of_decide_eq_true hspecial with hkind | hkind | hkind <;> rw [hkind] <;> exact hskip
  · cases h

theorem scanEntry_ok (h : scanEntry options scan entry = .ok scan') :
    EntryRules options entry ∧ scan.report.entries + 1 ≤ options.limits.maxEntries ∧
      Counted options (fileBytes entry) { scan.report with entries := scan.report.entries + 1 } scan'.report := by
  unfold scanEntry at h
  by_cases hcount : scan.report.entries + 1 > U64_MAX ∨ scan.report.entries + 1 > options.limits.maxEntries
  · rw [if_pos hcount] at h
    cases h
  rw [if_neg hcount] at h
  obtain ⟨_, hraw, h⟩ := bind_eq_ok.mp h
  obtain ⟨htext, rfl⟩ := pathFromTarBytes_ok hraw
  by_cases hlength : entry.path.length > options.limits.maxPathBytes
  · rw [if_pos hlength] at h
    cases h
  rw [if_neg hlength] at h
  obtain ⟨_, hpath, h⟩ := bind_eq_ok.mp h
  obtain ⟨hrelative, rfl⟩ := normalizeEntryPath_ok hpath
  obtain ⟨found, hfound, h⟩ := bind_eq_ok.mp h
  obtain ⟨hnone, hhidden⟩ := whiteoutTarget_ok hfound
  have hlimit : scan.report.entries + 1 ≤ options.limits.maxEntries := by omega
  cases found with
  | some whiteout =>
    have hmarked := mt hnone.mpr nofun
    dsimp only at h
    by_cases hfilled : entry.size ≠ 0
    · rw [if_pos hfilled] at h
      cases h
    · rw [if_neg hfilled] at h
      cases h
      refine ⟨⟨htext, Nat.not_lt.mp hlength, hrelative, fun hidden hname => ?_, (absurd · hmarked), (absurd · hmarked)⟩,
        hlimit, rfl, ?_, id⟩
      · exact ⟨hhidden hidden hname, not_not.mp hfilled⟩
      · simp [fileBytes, hmarked]
  | none =>
    have hplain := hnone.mp rfl
    dsimp only at h
    split at h
    · cases h
    · rename_i hnamed
      obtain ⟨report, hkind, h⟩ := bind_eq_ok.mp h
      cases h
      obtain ⟨htype, hcounted⟩ := scanKind_ok hkind
      refine ⟨⟨htext, Nat.not_lt.mp hlength, hrelative, ?_, fun _ hroot => ?_, fun _ => htype⟩, hlimit, ?_⟩
      · simp [hplain]
      · by_contra hother
        exact hnamed ⟨hroot, hother⟩
      · simpa [fileBytes, hplain] using hcounted

theorem scanArchive_ok {entries} (h : scanArchive options scan entries = .ok scan')
    (hentries : scan.report.entries ≤ options.limits.maxEntries)
    (hbytes : scan.report.expandedBytes ≤ options.limits.maxTotalSize) :
    (∀ entry, some entry ∈ entries → EntryRules options entry) ∧
      scan.report.entries + entries.length ≤ options.limits.maxEntries ∧
      scan.report.expandedBytes + (entries.map fun entry => (entry.map fileBytes).getD 0).sum ≤
        options.limits.maxTotalSize := by
  -- along the entries, from whatever was counted before them
  induction entries generalizing scan with
  | nil => simpa using ⟨hentries, hbytes⟩
  | cons entry rest ih =>
    cases entry with
    | none => simp [scanArchive] at h
    | some entry =>
      rw [scanArchive] at h
      obtain ⟨next, hentry, hrest⟩ := bind_eq_ok.mp h
      obtain ⟨hrules, hlimit, hnext, hgrown, hwithin⟩ := scanEntry_ok hentry
      dsimp only at hnext hgrown hwithin
      obtain ⟨heach, hcount, htotal⟩ := ih hrest (hnext ▸ hlimit) (hwithin hbytes)
      refine ⟨?_, ?_, ?_⟩
      · simpa using ⟨hrules, heach⟩
      · rw [List.length_cons]
        omega
      · simp only [List.map_cons, List.sum_cons, Option.map_some, Option.getD_some]
        omega

/-! ## The run -/

variable {α β : Type} {start : Disk Name Nat Text}

/-- Nothing was written since. -/
def Untouched (start : Disk Name Nat Text) (w : HostWorld) : Prop := w.disk = start

/-- The program fails and has written nothing. -/
def Refuses (start : Disk Name Nat Text) (x : Program α) : Prop :=
  ∀ w, Untouched start w → (∃ e, (x w).outcome = .err e) ∧ Untouched start (x w).state

namespace Refuses

variable {x : Program α} {f : α → Program β}

theorem after [hx : Safe (Untouched start) x] (hf : ∀ a, Refuses start (f a)) : Refuses start (x >>= f) := by
  intro w hw
  obtain ⟨hpanic, hdisk⟩ := hx.safe w hw
  rcases hr : x w with ⟨a | e | _, t, n⟩ <;> rw [hr] at hpanic hdisk
  · rw [Exec.bind_ok hr]
    exact hf a t hdisk
  · rw [Exec.bind_err hr]
    exact ⟨⟨e, rfl⟩, hdisk⟩
  · exact absurd rfl hpanic

theorem ofExcept {r} (h : ∀ a, r = .ok a → Refuses start (f a)) :
    Refuses start (Exec.ofExcept r >>= f) := by
  cases r with
  | ok a => exact h a rfl
  | error e => exact fun w hw => ⟨⟨e, rfl⟩, hw⟩

end Refuses

theorem call_safe {walks : Disk Name Nat Text → List (List Name)}
    {f : Disk Name Nat Text → Except Errno (α × Disk Name Nat Text)} (h : ∀ a d, f start = .ok (a, d) → d = start) :
    Safe (Untouched start) (io (call walks f)) where
  safe w hw := by
    obtain rfl : w.disk = start := hw
    rcases call_cases walks f w with ⟨a, d, hf, hcall⟩ | ⟨e, -, hcall⟩
    · simp [Untouched, io, hcall, h a d hf, Outcome.mapErr]
    · simp [Untouched, io, hcall, Outcome.mapErr, World.tried]

instance (directory : Option (List (Step Name))) : Safe (Untouched start) (checkSpoolDirectory directory) := by
  cases directory with
  | none => exact inferInstanceAs (Safe _ (pure ()))
  | some directory =>
    have : Safe (Untouched start) (io (Kernel.lstat directory)) :=
      call_safe fun a d h => (Disk.lstat_ok h).1
    unfold checkSpoolDirectory
    infer_instance

instance : Safe (Untouched start) (io Kernel.touchNothing) := call_safe fun a d h => by cases h; rfl

theorem copyBounded_ok {source limit} (h : copyBounded source limit = .ok text) :
    source.bytes.length ≤ limit ∧ text = source.bytes := by
  unfold copyBounded at h
  split at h
  · cases h
  split at h
  · cases h
  rename_i hsize _
  cases h
  exact ⟨Nat.not_lt.mp hsize, rfl⟩

theorem checkDiffId_ok {u} (h : checkDiffId options text = .ok u) :
    ∀ expected ∈ options.expectedDiffId, normalizeDiffId expected = .ok text := by
  intro expected hexpected
  simp only [checkDiffId, Option.mem_def.mp hexpected] at h
  obtain ⟨found, hfound, hsame⟩ := bind_eq_ok.mp h
  split at hsame
  · cases hsame
  · rename_i hequal
    rw [hfound, not_not.mp hequal]

theorem applyLayer_refuses {host format} {reader : Source} {destination}
    (h : ¬ScanRules host options format reader) :
    Refuses start (applyLayerWithFormat host options format reader destination) := by
  unfold applyLayerWithFormat spoolArchive
  simp only [bind_assoc, pure_bind]
  -- the spool directory, the spool, its digest and the scan: all of it before the destination
  refine .after fun _ => .after fun _ => .ofExcept fun spool hspool => .ofExcept fun _ hid =>
    .ofExcept fun scan hscan => ?_
  change copyBounded (unpacked host format reader) _ = _ at hspool
  obtain ⟨hsize, rfl⟩ := copyBounded_ok hspool
  obtain ⟨heach, hcount, htotal⟩ := scanArchive_ok hscan (Nat.zero_le _) (Nat.zero_le _)
  exact absurd ⟨hsize, checkDiffId_ok hid, heach, by simpa using hcount, by simpa using htotal⟩ h

/-- A hard link `h` to `m`, and nothing else. -/
def danglingLink : Entries := [some (entryOf [0x68#8] .link 0o644 (some [0x6d#8]))]

/-- `/x/y/r/d` -/
def missingRoot : List Name := plainRoot ++ [[0x64#8]]

end Rish.Layer
