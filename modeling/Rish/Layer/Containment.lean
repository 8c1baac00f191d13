/-
  Rish.Layer.Containment — what applying a layer can write to.

  Whiteouts and entries write below the destination, whatever the archive says and wherever the run stops:
  a path is only used after each of its components was found to be a directory (`applyContents_confined`).
  The modes of directories are set when all entries are applied, by the paths that were recorded on the way.
  An entry applied in between may have replaced a directory on such a path by a link, and then the mode is
  set on the other side of it. So a run stays below the destination exactly if no recorded path leads out of
  it when its mode is set (`layer_contained_iff`); an archive of three entries breaks it
  (`mode_set_outside`).
-/

import Rish.Layer.Apply

namespace Rish.Layer

open Lib Lib.FileTree Archive
open Kernel (lstat setAttributes)
open Exec (mapErr_apply bind_ok bind_err bind_panic)

variable {host : Host} {root dir path rest : List Name} {name : Name} {start : Disk Name Nat Text}
  {links : List (List Name)}
  {α : Type}

/-- Everything written so far is below the destination. -/
def Safely (root : List Name) (start : Disk Name Nat Text) (w : HostWorld) : Prop := Confined root start w.disk

theorem Stays.safely {x : Program α} (h : ∀ links, Stays root start links x) :
    Meets (Safely root start) (fun _ => True) x fun _ _ => True := by
  intro w hconfined _
  have hconfined : Confined root start w.disk := hconfined
  obtain ⟨hheld, hQ⟩ := h w.followed w ⟨hconfined, hconfined.real, hconfined.real.plain, rfl⟩ trivial
  exact ⟨hheld.1, hQ⟩

/-! ## Entries -/

theorem createDirectory_makes : Makes root start links (createDirectory host) :=
  fun _ _ _ hroot => (mkdir_held hroot).mapErr

theorem createDirectory_worksIn (hroot : root <+: dir) :
    WorksIn root start links dir dir (createDirectory host (dir ++ [name])) :=
  (createDirectory_makes dir name dir hroot).post fun _ _ _ _ => trivial

theorem ensureDirectoryLeaf_worksIn (hroot : root <+: dir) :
    WorksIn root start links dir dir (ensureDirectoryLeaf host (dir ++ [name])) := by
  unfold ensureDirectoryLeaf
  refine lstat_worksIn.bind ?_
  intro r
  cases r with
  | ok metadata =>
    refine .guard (fun _ => .pure fun _ _ _ => trivial) fun _ => ?_
    exact (removeNoFollow_worksIn hroot).bind fun _ => createDirectory_worksIn hroot
  | error e =>
    cases e with
    | notFound => exact createDirectory_worksIn hroot
    | _ => exact .fail

theorem replaceWithSymlink_worksIn (hroot : root <+: dir) {target} :
    WorksIn root start links dir dir (replaceWithSymlink (dir ++ [name]) target) := by
  unfold replaceWithSymlink
  exact (removeNoFollow_worksIn hroot).bind fun _ => (symlink_held hroot).mapErr

variable {entry : TarEntry} {options : ApplyOptions}

theorem fillAndPersist_worksIn (hroot : root <+: dir) {mode inode drawn}
    (hinode : start.fresh ≤ inode) :
    WorksIn root start links dir dir (fillAndPersist entry mode inode (dir ++ [drawn]) (dir ++ [name])) := by
  unfold fillAndPersist
  refine (writeInode_held hinode).mapErr.bind fun _ => .guard (fun _ => .fail) fun _ => ?_
  refine (writeInode_held hinode).mapErr.bind fun _ => ?_
  refine (rename_held hroot).mapErr.bind fun _ => ?_
  exact .pure fun _ _ _ => trivial

theorem clearDirectory_worksIn (hroot : root <+: dir) :
    WorksIn root start links dir dir (clearDirectory (dir ++ [name])) := by
  unfold clearDirectory
  refine lstat_worksIn.bind ?_
  intro r
  cases r with
  | ok metadata => exact .when (fun _ => (removeTree_held hroot).mapErr) fun _ _ _ _ => trivial
  | error e => exact .pure fun _ _ _ => trivial

theorem writeRegularFile_worksIn (hroot : root <+: dir) {mode} :
    WorksIn root start links dir dir (writeRegularFile entry dir name mode) := by
  unfold writeRegularFile
  refine (clearDirectory_worksIn hroot).bind fun _ => ?_
  have hdrawn : Meets (Held root start links dir dir) (fun _ => True)
      (io (Kernel.freshName fun n => Kernel.create ⟨PRIVATE_MODE, .regular []⟩ (steps (dir ++ [n]))))
      fun r _ => start.fresh ≤ r.2 :=
    (freshName_held fun _ => create_held hroot).mapErr
  refine hdrawn.bind ?_
  rintro ⟨drawn, inode⟩
  refine .of_fact (fun _ h => h) ?_
  intro hinode
  have hfilled : WorksIn root start links dir dir (fillAndPersist entry mode inode (dir ++ [drawn]) (dir ++ [name])) :=
    fillAndPersist_worksIn hroot hinode
  have hdropped : WorksIn root start links dir dir
      (Kernel.unlink (steps (dir ++ [drawn])) : Exec HostWorld Errno Unit) :=
    unlink_held hroot
  exact (hfilled.onFailure (fun _ _ _ _ => trivial) hdropped).pre fun _ _ _ => trivial

theorem ensureDirectories_bind {f : List Name → Program α}
    (h : ∀ parent, root <+: parent →
      Meets (Held root start links root root) (fun w => w.disk.Real parent) (f parent) fun _ _ => True) :
    Stays root start links (ensureDirectories host root path >>= f) :=
  ensure_bind createDirectory_makes (h (root ++ path) (List.prefix_append root path))

theorem applyDirectory_stays : Stays root start links (applyDirectory host root path) := by
  unfold applyDirectory
  refine .guard (fun _ => .pure fun _ _ _ => trivial) fun _ => ensureDirectories_bind ?_
  intro parent hparent
  refine ofExcept_bind fun name => ?_
  exact (ensureDirectoryLeaf_worksIn hparent).fromRoot.bind fun _ => .pure fun _ _ _ => trivial

theorem applyEntry_stays {pending : Pending} :
    Stays root start links (applyEntry host root options pending entry) := by
  unfold applyEntry
  refine ofExcept_bind fun rawPath => ofExcept_bind fun path => ofExcept_bind fun whiteout => ?_
  refine .guard (fun _ => .pure fun _ _ _ => trivial) fun _ => ?_
  refine .guard (fun _ => .pure fun _ _ _ => trivial) fun _ => ?_
  refine .guard (fun _ => ?directory) fun _ => .guard (fun _ => ?regular) fun _ =>
    .guard (fun _ => ?symlink) fun _ => .guard (fun _ => ?link) fun _ => .pure fun _ _ _ => trivial
  case directory =>
    refine applyDirectory_stays.bind fun destination => ofExcept_bind fun mode => ?_
    exact .pure fun _ _ _ => trivial
  case regular =>
    refine ensureDirectories_bind ?_
    intro parent hparent
    refine ofExcept_bind fun name => ofExcept_bind fun mode => ?_
    refine (writeRegularFile_worksIn hparent).fromRoot.bind fun copied => ?_
    exact .guard (fun _ => .fail) fun _ => .pure fun _ _ _ => trivial
  case symlink =>
    refine ofExcept_bind fun target => ensureDirectories_bind ?_
    intro parent hparent
    refine ofExcept_bind fun name => ?_
    exact (replaceWithSymlink_worksIn hparent).fromRoot.bind fun _ => .pure fun _ _ _ => trivial
  case link =>
    refine ofExcept_bind fun target => ofExcept_bind fun target => ?_
    exact (linkExisting_stays createDirectory_makes).bind fun _ => .pure fun _ _ _ => trivial

theorem applyEach_stays {entries expected} :
    Stays root start links (applyEach host root options entries expected) := by
  unfold applyEach
  have hentry : ∀ (pending : Pending) (entry : Option TarEntry) (_ : Entries),
      Stays root start links (readEntry entry >>= applyEntry host root options pending) := by
    intro pending entry _
    cases entry with
    | none => exact Meets.fail.bind fun _ => applyEntry_stays
    | some entry =>
      have hread : Stays root start links (readEntry (some entry)) := .pure fun _ _ _ => trivial
      exact hread.bind fun _ => applyEntry_stays
  refine (Meets.foldM (P := fun _ _ _ => True) hentry entries {}).bind fun pending => ?_
  exact .guard (fun _ => .fail) fun _ => .pure fun _ _ _ => trivial

/-! ## Up to the modes of directories -/

/-- Nothing is written while the archive is checked and the destination is looked for. -/
abbrev Reads (start : Disk Name Nat Text) (x : Program α) (Q : α → Prop) : Prop :=
  Meets (fun w : HostWorld => w.disk = start) (fun _ => True) x fun a _ => Q a

theorem lstat_reads {steps} : Reads start (io (lstat steps)) fun _ => True := by
  refine Meets.mapErr ((call_reads ?_).post fun _ _ _ _ => trivial)
  intro a d h
  exact (Disk.lstat_ok h).1

variable {destination : List (Step Name)} {format : LayerFormat} {reader : Source}

theorem spoolArchive_reads {limit spool} :
    Reads start (spoolArchive host reader format limit spool) fun _ => True := by
  have hdirectory : Reads start (checkSpoolDirectory spool) fun _ => True := by
    cases spool with
    | none => exact .pure fun _ _ _ => trivial
    | some directory =>
      refine lstat_reads.bind fun metadata => ?_
      exact .guard (fun _ => .pure fun _ _ _ => trivial) fun _ => .fail
  have hspool : Reads start (io Kernel.touchNothing) fun _ => True := by
    refine Meets.mapErr ((call_reads ?_).post fun _ _ _ _ => trivial)
    intro a d h
    cases h
    rfl
  unfold spoolArchive
  refine hdirectory.bind fun _ => hspool.bind fun _ => ?_
  refine Meets.bind (Q := fun _ _ => True) (.ofExcept fun _ _ _ _ _ => trivial) fun spooled => ?_
  exact .pure fun _ _ _ => trivial

theorem prepareDestination_reads (hentry : start.entry destination = .ok root)
    (hdir : start.isDirectory root = true) : Reads start (prepareDestination host destination) fun r => r = root := by
  obtain ⟨mode, hnode⟩ := Disk.isDirectory_iff.mp hdir
  have hmade : Reads start (io (Kernel.createDirAll host.directoryMode destination)) fun _ => True :=
    (createDirAll_reads hentry hnode).mapErr
  have hcanonical : Reads start (io (Kernel.canonicalize destination)) fun r => r = root := by
    refine Meets.mapErr ((call_reads ?_).post ?_)
    · intro a d h
      exact (Disk.canonicalize_ok h).1
    · intro place w _ h
      have hplace := (Disk.canonicalize_ok h).2
      rw [Disk.entry_resolve hentry hdir] at hplace
      cases hplace
      rfl
  unfold prepareDestination
  refine hmade.bind fun _ => lstat_reads.bind fun metadata => ?_
  exact .guard (fun _ => .fail) fun _ => hcanonical

/-- Everything before the modes of directories. -/
def applyContents (host : Host) (options : ApplyOptions) (format : LayerFormat) (reader : Source)
    (destination : List (Step Name)) :
    Program (ApplyReport × List (List Name × Nat)) := do
  let (spool, diffId) ← spoolArchive host reader format options.limits.maxArchiveSize options.spoolDirectory
  Exec.ofExcept (checkDiffId options diffId)
  let scan ← Exec.ofExcept (scanArchive options {} (host.tar spool))
  let root ← prepareDestination host destination
  applyWhiteouts root scan.whiteouts
  let modes ← applyEach host root options (host.tar spool) scan.report
  pure ({ scan.report with diffId := diffId }, modes)

theorem applyLayer_eq : applyLayerWithFormat host options format reader destination =
    applyContents host options format reader destination >>= fun r => r.2.forM applyMode >>= fun _ => pure r.1 := by
  simp only [applyLayerWithFormat, applyContents, applyEntries, bind_assoc, pure_bind]

theorem applyContents_confined (hentry : start.entry destination = .ok root)
    (hdir : start.isDirectory root = true) (hnew : start.journal = []) :
    Meets (Safely root start) (fun w => w.disk = start)
      (applyContents host options format reader destination) fun _ _ => True := by
  have hstart : ∀ w : HostWorld, w.disk = start → Safely root start w := by
    rintro w rfl
    exact .refl ((Disk.entry_reached hentry).real hdir) hnew
  have hreads : ∀ {β : Type} {x : Program β} {Q : β → Prop}, Reads start x Q →
      Meets (Safely root start) (fun w => w.disk = start) x fun b w => w.disk = start ∧ Q b := by
    intro β x Q h
    exact (h.strengthen hstart).pre fun w _ hw => ⟨hw, trivial⟩
  unfold applyContents
  refine (hreads spoolArchive_reads).bind ?_
  rintro ⟨spool, diffId⟩
  refine ofExcept_bind fun _ => ofExcept_bind fun scan => ?_
  refine ((hreads (prepareDestination_reads hentry hdir)).pre fun w _ h => h.1).bind fun place => ?_
  refine .of_fact (fun w h => h.2) ?_
  rintro rfl
  have hwhiteouts : ∀ links, Stays place start links (applyWhiteouts place scan.whiteouts) :=
    fun links => .forM fun whiteout _ => applyWhiteout_stays whiteout
  refine ((Stays.safely hwhiteouts).pre fun _ _ _ => trivial).bind fun _ => ?_
  exact (Stays.safely fun links => applyEach_stays).bind fun modes => .pure fun _ _ _ => trivial

/-! ## The modes of directories -/

/-- Only places at or below the destination and new files were written. -/
def Contained (root : List Name) (start d : Disk Name Nat Text) : Prop := ∀ t ∈ d.journal, Inside root start.fresh t

instance (root : List Name) (start d : Disk Name Nat Text) : Decidable (Contained root start d) :=
  inferInstanceAs (Decidable (∀ t ∈ d.journal, Inside root start.fresh t))

/-- If the recorded path is that of a directory now, it is one of the destination's, or the host stops the two
calls that would set its mode. -/
def LeadsInside (root path : List Name) (w : HostWorld) : Prop :=
  ∀ q, w.disk.entry (steps path) = .ok q → w.disk.isDirectory q = true → true ∉ w.faults.take 2 → root <+: q

/-- `LeadsInside` at each of the steps that set a mode. -/
def StaysInside (root : List Name) : List (List Name × Nat) → HostWorld → Prop
  | [], _ => True
  | directory :: rest, w =>
    LeadsInside root directory.1 w ∧
      ((applyMode directory w).outcome = .ok () → StaysInside root rest (applyMode directory w).state)

section Modes

variable {directory : List Name × Nat} {w : HostWorld} {q : List Name} {d : Disk Name Nat Text} {faults : List Bool}

theorem no_fault (h : true ∉ faults.take 2) : faults.head? ≠ some true ∧ faults.tail.head? ≠ some true := by
  rcases faults with _ | ⟨a, _ | ⟨b, rest⟩⟩ <;> simp_all

theorem of_no_fault (h : faults.head? ≠ some true) (h' : faults.tail.head? ≠ some true) : true ∉ faults.take 2 := by
  rcases faults with _ | ⟨a, _ | ⟨b, rest⟩⟩ <;> simp_all

theorem lstat_eq {p object} (hentry : d.entry p = .ok q)
    (hobject : d.node q = some object) : d.lstat p = .ok (d.stat object, d) := by
  simp only [Disk.lstat, hentry, bind, Except.bind, hobject]

theorem applyMode_sets (hentry : w.disk.entry (steps directory.1) = .ok q) (hdir : w.disk.isDirectory q = true)
    (hfault : true ∉ w.faults.take 2) :
    (applyMode directory w).state.disk = w.disk.setAttrs q fun _ => directory.2 := by
  obtain ⟨a, hnode⟩ := Disk.isDirectory_iff.mp hdir
  obtain ⟨hfirst, hsecond⟩ := no_fault hfault
  have hlook : io (lstat (steps directory.1)) w =
      ⟨.ok ⟨.directory, a⟩, w.tried (w.disk.linksOn false (steps directory.1)), 1⟩ := by
    show (lstat (steps directory.1)).mapErr LayerError.io w = _
    rw [mapErr_apply, lstat, call_ok hfirst (lstat_eq hentry hnode)]
    rfl
  have hset : w.disk.setAttributes (fun _ => directory.2) (steps directory.1) =
      .ok ((), w.disk.setAttrs q fun _ => directory.2) := by
    simp only [Disk.setAttributes, Disk.entry_resolve hentry hdir, bind, Except.bind, hnode]
  unfold applyMode
  rw [bind_ok hlook]
  show (setAttributes (fun _ => directory.2) (steps directory.1)
    (w.tried (w.disk.linksOn false (steps directory.1)))).state.disk = _
  rw [setAttributes, call_ok hsecond hset]

theorem applyMode_cases (directory) (w : HostWorld) :
    (applyMode directory w).state.disk = w.disk ∨
      ∃ q, w.disk.entry (steps directory.1) = .ok q ∧ w.disk.isDirectory q = true ∧ true ∉ w.faults.take 2 := by
  by_cases hfirst : w.faults.head? = some true
  · left
    have hlook : io (lstat (steps directory.1)) w =
        ⟨.err (.io .io), w.tried (w.disk.linksOn false (steps directory.1)), 1⟩ := by
      show (lstat (steps directory.1)).mapErr LayerError.io w = _
      rw [mapErr_apply, lstat, call_fault hfirst]
      rfl
    unfold applyMode
    rw [bind_err hlook]
    rfl
  cases hlstat : w.disk.lstat (steps directory.1) with
  | error e =>
    left
    have hlook : io (lstat (steps directory.1)) w =
        ⟨.err (.io e), w.tried (w.disk.linksOn false (steps directory.1)), 1⟩ := by
      show (lstat (steps directory.1)).mapErr LayerError.io w = _
      rw [mapErr_apply, lstat, call_error hfirst hlstat]
      rfl
    unfold applyMode
    rw [bind_err hlook]
    rfl
  | ok r =>
    obtain ⟨st, d⟩ := r
    obtain ⟨rfl, q, object, hentry, hnode, rfl⟩ := Disk.lstat_ok hlstat
    have hlook : io (lstat (steps directory.1)) w =
        ⟨.ok (w.disk.stat object), w.tried (w.disk.linksOn false (steps directory.1)), 1⟩ := by
      show (lstat (steps directory.1)).mapErr LayerError.io w = _
      rw [mapErr_apply, lstat, call_ok hfirst hlstat]
      rfl
    by_cases htype : (w.disk.stat object).type = .directory
    · by_cases hsecond : w.faults.tail.head? = some true
      · left
        unfold applyMode
        rw [bind_ok hlook, Exec.when, if_pos htype]
        show (setAttributes (fun _ => directory.2) (steps directory.1)
          (w.tried (w.disk.linksOn false (steps directory.1)))).state.disk = _
        rw [setAttributes, call_fault hsecond]
        rfl
      · right
        exact ⟨q, hentry, Disk.isDirectory_iff.mpr (Disk.stat_directory hnode htype), of_no_fault hfirst hsecond⟩
    · left
      unfold applyMode
      rw [bind_ok hlook, Exec.when, if_neg htype]
      rfl

theorem setAttrs_journal {f} (hdir : d.isDirectory q = true) :
    (d.setAttrs q f).journal = .place q :: d.journal := by
  obtain ⟨a, hnode⟩ := Disk.isDirectory_iff.mp hdir
  simp only [Disk.setAttrs, hnode]
  rfl

theorem applyMode_grows (directory) (w : HostWorld) :
    w.disk.Change (applyMode directory w).state.disk ∧
      ∀ t ∈ w.disk.journal, t ∈ (applyMode directory w).state.disk.journal := by
  by_cases hset : ∃ q, w.disk.entry (steps directory.1) = .ok q ∧ w.disk.isDirectory q = true ∧ true ∉ w.faults.take 2
  · obtain ⟨q, hentry, hdir, hfault⟩ := hset
    rw [applyMode_sets hentry hdir hfault]
    refine ⟨Disk.setAttrs_change q _, ?_⟩
    intro t ht
    rw [setAttrs_journal hdir]
    exact List.mem_cons_of_mem _ ht
  · rw [(applyMode_cases directory w).resolve_right hset]
    exact ⟨.none, fun t ht => ht⟩

theorem applyMode_contained (directory) (hbefore : Contained root start w.disk) :
    Contained root start (applyMode directory w).state.disk ↔ LeadsInside root directory.1 w := by
  by_cases hset : ∃ q, w.disk.entry (steps directory.1) = .ok q ∧ w.disk.isDirectory q = true ∧ true ∉ w.faults.take 2
  · obtain ⟨q, hentry, hdir, hfault⟩ := hset
    unfold Contained
    rw [applyMode_sets hentry hdir hfault, setAttrs_journal hdir]
    constructor
    · intro h q' hentry' _ _
      rw [hentry] at hentry'
      cases hentry'
      exact h _ List.mem_cons_self
    · intro h t ht
      rcases List.mem_cons.mp ht with rfl | ht
      · exact h q hentry hdir hfault
      · exact hbefore t ht
  · rw [(applyMode_cases directory w).resolve_right hset]
    refine ⟨?_, fun _ => hbefore⟩
    intro _ q hentry hdir hfault
    exact absurd ⟨q, hentry, hdir, hfault⟩ hset

theorem applyModes_cons (directory rest) (w : HostWorld) :
    ((directory :: rest).forM applyMode w).state.disk =
      if (applyMode directory w).outcome = .ok () then (rest.forM applyMode (applyMode directory w).state).state.disk
      else (applyMode directory w).state.disk := by
  show ((applyMode directory >>= fun _ => rest.forM applyMode) w).state.disk = _
  rcases hr : applyMode directory w with ⟨⟨⟩ | e | _, t, k⟩
  · rw [bind_ok hr]
    rfl
  · rw [bind_err hr]
    rfl
  · rw [bind_panic hr]
    rfl

theorem applyModes_grows (modes : List (List Name × Nat)) (hsince : start.Since w.disk) :
    start.Since (modes.forM applyMode w).state.disk ∧
      ∀ t ∈ w.disk.journal, t ∈ (modes.forM applyMode w).state.disk.journal := by
  induction modes generalizing w with
  | nil => exact ⟨hsince, fun t ht => ht⟩
  | cons directory rest ih =>
    obtain ⟨hchange, hgrows⟩ := applyMode_grows directory w
    rw [applyModes_cons]
    split
    · obtain ⟨hsince', hgrows'⟩ := ih (hsince.change hchange)
      exact ⟨hsince', fun t ht => hgrows' t (hgrows t ht)⟩
    · exact ⟨hsince.change hchange, hgrows⟩

theorem applyModes_contained (modes : List (List Name × Nat)) (hsince : start.Since w.disk)
    (hbefore : Contained root start w.disk) :
    Contained root start (modes.forM applyMode w).state.disk ↔ StaysInside root modes w := by
  induction modes generalizing w with
  | nil => exact ⟨fun _ => trivial, fun _ => hbefore⟩
  | cons directory rest ih =>
    have hchange := (applyMode_grows directory w).1
    have hstep := applyMode_contained directory hbefore
    rw [applyModes_cons]
    unfold StaysInside
    by_cases hok : (applyMode directory w).outcome = .ok ()
    · rw [if_pos hok]
      constructor
      · intro h
        have hmid : Contained root start (applyMode directory w).state.disk :=
          fun t ht => h t ((applyModes_grows rest (hsince.change hchange)).2 t ht)
        exact ⟨hstep.mp hmid, fun _ => (ih (hsince.change hchange) hmid).mp h⟩
      · rintro ⟨hleads, hrest⟩
        exact (ih (hsince.change hchange) (hstep.mpr hleads)).mpr (hrest hok)
    · rw [if_neg hok, hstep]
      exact ⟨fun h => ⟨h, fun h' => absurd h' hok⟩, fun h => h.1⟩

end Modes

/-! ## The whole layer -/

/-- A layer writes below its destination only, and leaves what is outside as it was, exactly if every directory
whose mode is set at the end is still one of the destination's when it is. -/
theorem layer_contained_iff (host : Host) (options : ApplyOptions) (format : LayerFormat) (reader : Source)
    (destination : List (Step Name)) (root : List Name) (start : Disk Name Nat Text) (faults : List Bool)
    (names : List Name) (hnew : start.journal = []) (hentry : start.entry destination = .ok root)
    (hdir : start.isDirectory root = true) :
    let run := applyLayerWithFormat host options format reader destination ⟨start, faults, names, []⟩
    (Contained root start run.state.disk ↔
      ∀ report modes w k, applyContents host options format reader destination ⟨start, faults, names, []⟩ =
        ⟨.ok (report, modes), w, k⟩ → StaysInside root modes w) ∧
    (Contained root start run.state.disk → ∀ p, ¬root <+: p →
      run.state.disk.node p = start.node p ∧
        ∀ i, start.node p = some (.file i) → run.state.disk.inodes i = start.inodes i) := by
  intro run
  have hreal : start.Real root := (Disk.entry_reached hentry).real hdir
  have hcontents : Confined root start
      (applyContents host options format reader destination ⟨start, faults, names, []⟩).state.disk :=
    (applyContents_confined hentry hdir hnew ⟨start, faults, names, []⟩ (.refl hreal hnew) rfl).1
  have hrun : run = (applyContents host options format reader destination >>= fun r =>
      r.2.forM applyMode >>= fun _ => pure r.1) ⟨start, faults, names, []⟩ := congrFun applyLayer_eq _
  rcases hr : applyContents host options format reader destination ⟨start, faults, names, []⟩ with
    ⟨⟨report, modes⟩ | e | _, w, k⟩
  · -- the entries were applied: the rest is the modes
    rw [hr] at hcontents
    have hdisk : run.state.disk = (modes.forM applyMode w).state.disk := by
      rw [hrun, bind_ok hr, Run.after_state]
      rcases hm : modes.forM applyMode w with ⟨u | e | _, w', k'⟩
      · rw [bind_ok hm]
        rfl
      · rw [bind_err hm]
      · rw [bind_panic hm]
    rw [hdisk]
    refine ⟨?_, fun h p hp => outside_unchanged h (applyModes_grows modes hcontents.since).1 hp⟩
    rw [applyModes_contained modes hcontents.since hcontents.written]
    refine ⟨?_, fun h => h report modes w k rfl⟩
    intro h report' modes' w' k' heq
    cases heq
    exact h
  all_goals
    -- they were not: the modes are not reached
    rw [hr] at hcontents
    have hdisk : run.state.disk = w.disk := by
      first
      | rw [hrun, bind_err hr]
      | rw [hrun, bind_panic hr]
    rw [hdisk]
    refine ⟨⟨?_, fun _ => hcontents.written⟩, fun h p hp => outside_unchanged h hcontents.since hp⟩
    intro _ report modes w' k' heq
    cases heq

/-! ### A mode set outside -/

def entryOf (path : Text) (kind : EntryType) (mode : Nat) (linkName : Option Text) : TarEntry :=
  ⟨path, kind, 0, some mode, some 0, some 0, some 0, linkName, some none, some none, none, [], false⟩

/-- A host whose tar reader yields these entries. -/
def hostOf (entries : Entries) : Host := ⟨fun _ => [], id, fun _ => entries, 0o755⟩

/-- `/x`, `/x/b` and `/x/y/r`, all directories. -/
def plainDirectories : List (Sigma fun _ : List Name => Node Name Nat) :=
  [⟨[], .directory 0o755⟩, ⟨[[0x78#8]], .directory 0o755⟩, ⟨[[0x78#8], [0x62#8]], .directory 0o755⟩,
    ⟨[[0x78#8], [0x79#8]], .directory 0o755⟩, ⟨[[0x78#8], [0x79#8], [0x72#8]], .directory 0o755⟩]

theorem plainDirectories_numbered : (plainDirectories.all fun e => e.2.numberedBelow 0) = true := by decide

def plainDisk : Disk Name Nat Text :=
  .ofList plainDirectories (fun _ => ⟨0, .regular []⟩) 0 plainDirectories_numbered

/-- `/x/y/r` -/
def plainRoot : List Name := [[0x78#8], [0x79#8], [0x72#8]]

/-- A directory and another below it. -/
def nestedDirectories : Entries :=
  [some (entryOf [0x61#8] .directory 0o755 none), some (entryOf [0x61#8, 0x2f#8, 0x62#8] .directory 0o750 none)]

theorem nested_directories_contained :
    plainDisk.journal = [] ∧ plainDisk.entry (steps plainRoot) = .ok plainRoot ∧
      plainDisk.isDirectory plainRoot = true ∧
      ∀ report modes w k, applyContents (hostOf nestedDirectories) {} .tar ⟨[], false⟩ (steps plainRoot)
        ⟨plainDisk, [], [], []⟩ = ⟨.ok (report, modes), w, k⟩ → StaysInside plainRoot modes w :=
  ⟨rfl, by decide +kernel, by decide +kernel,
    (layer_contained_iff (hostOf nestedDirectories) {} .tar ⟨[], false⟩ (steps plainRoot) plainRoot plainDisk [] [] rfl
      (by decide +kernel) (by decide +kernel)).1.mp (by decide +kernel)⟩

/-- `s` to `.`, the directory `a/b`, and `a` to `s/s/../..`: by the text both links stay in the layer, and the second
leads to `/x`. -/
def climbingLinks : Entries :=
  [some (entryOf [0x73#8] .symlink 0o777 (some [0x2e#8])),
    some (entryOf [0x61#8, 0x2f#8, 0x62#8] .directory 0o777 none),
    some (entryOf [0x61#8] .symlink 0o777
      (some [0x73#8, 0x2f#8, 0x73#8, 0x2f#8, 0x2e#8, 0x2e#8, 0x2f#8, 0x2e#8, 0x2e#8]))]

def climbingRun : Run HostWorld LayerError ApplyReport :=
  applyLayerWithFormat (hostOf climbingLinks) {} .tar ⟨[], false⟩ (steps plainRoot) ⟨plainDisk, [], [], []⟩

/-- The call succeeds and has changed the mode of `/x/b`. -/
theorem mode_set_outside :
    climbingRun.outcome = .ok { diffId := SHA256 ++ [COLON], entries := 3, directories := 1, symlinks := 2 } ∧
      ¬Contained plainRoot plainDisk climbingRun.state.disk ∧
      plainDisk.node [[0x78#8], [0x62#8]] = some (.directory 0o755) ∧
      climbingRun.state.disk.node [[0x78#8], [0x62#8]] = some (.directory 0o777) := by
  decide +kernel

end Rish.Layer
