/-
  Rish.Archive.Unpack — how both unpackers use names on the disk.

  A path of an entry is looked at one component at a time below the root: a link among them is an error, a
  missing directory is made, and only then is something done to its last name. Errors are the caller's
  (`PathErrors`), and so is the way a directory is made.
-/

import Rish.Archive.Entry
import Rish.Lib.Confine

namespace Rish.Archive

open Lib Lib.FileTree
open Kernel (lstat)
open Exec (fail)

structure PathErrors (ε : Type) where
  filesystem : List Name → Errno → ε
  symlinkPathComponent : Text → Text → ε
  parentNotDirectory : Text → ε
  malformedWhiteout : Text → ε

section Programs

variable {A C ε : Type} (errors : PathErrors ε)

/-- Only directories that exist, and no link; `none` when the path ends before its end. -/
def resolveFrom (path : List Name) : List Name → List Name → Exec (World Name A C) ε (Option (List Name))
  | current, [] => pure (some current)
  | current, component :: rest => do
    let current := current ++ [component]
    match ← (lstat (steps current)).result with
    | .error .notFound => pure none
    | .error e => fail (errors.filesystem current e)
    | .ok metadata =>
      if metadata.type = .link then fail (errors.symlinkPathComponent (joined path) (absolute current))
      else if metadata.type ≠ .directory then pure none
      else resolveFrom path current rest

/-- The directories of a path, made with `make` where there is nothing. -/
def ensureFrom (make : List Name → Exec (World Name A C) ε Unit) (path : List Name) :
    List Name → List Name → Exec (World Name A C) ε (List Name)
  | current, [] => pure current
  | current, component :: rest => do
    let current := current ++ [component]
    match ← (lstat (steps current)).result with
    | .ok metadata =>
      if metadata.type = .link then fail (errors.symlinkPathComponent (joined path) (absolute current))
      else if metadata.type = .directory then ensureFrom make path current rest
      else fail (errors.parentNotDirectory (joined path))
    | .error .notFound => do
      make current
      ensureFrom make path current rest
    | .error e => fail (errors.filesystem current e)

def removeNoFollow (path : List Name) : Exec (World Name A C) ε Unit := do
  match ← (lstat (steps path)).result with
  | .ok metadata =>
    if metadata.type = .directory then (Kernel.removeTree (steps path)).mapErr (errors.filesystem path)
    else (Kernel.unlink (steps path)).mapErr (errors.filesystem path)
  | .error .notFound => pure ()
  | .error e => fail (errors.filesystem path e)

/-- `resolve` finds the directory at a path of the layer. -/
def applyWhiteout (resolve : List Name → Exec (World Name A C) ε (Option (List Name))) :
    Whiteout → Exec (World Name A C) ε Unit
  | .remove path => do
    match ← resolve path.dropLast with
    | none => pure ()
    | some parent =>
      match path.getLast? with
      | none => fail (errors.malformedWhiteout (joined path))
      | some name => removeNoFollow errors (parent ++ [name])
  | .opaqueDirectory path => do
    match ← resolve path with
    | none => pure ()
    | some directory =>
      let children ← (Kernel.readDirectory (steps directory)).mapErr (errors.filesystem directory)
      children.forM fun child => removeNoFollow errors (directory ++ [child])

/-- A second name for an existing regular file; `invalid` says that there is none. -/
def linkExisting (resolve : List Name → Exec (World Name A C) ε (Option (List Name)))
    (ensure : Exec (World Name A C) ε (List Name)) (invalid noBasename : ε) (path target : List Name) :
    Exec (World Name A C) ε Unit := do
  match ← resolve target.dropLast with
  | none => fail invalid
  | some targetParent =>
    match target.getLast? with
    | none => fail invalid
    | some targetName => do
      let metadata ← (lstat (steps (targetParent ++ [targetName]))).mapErr fun _ => invalid
      if metadata.type ≠ .regular then fail invalid
      else do
        let parent ← ensure
        match path.getLast? with
        | none => fail noBasename
        | some name => do
          removeNoFollow errors (parent ++ [name])
          (Kernel.hardLink (steps (targetParent ++ [targetName])) (steps (parent ++ [name]))).mapErr
            (errors.filesystem (parent ++ [name]))

end Programs

/-! ## Below the root -/

variable {A C ε α β : Type} {errors : PathErrors ε} {root dir path rest plain : List Name} {name : Name}
  {start : Disk Name A C} {links : List (List Name)}

abbrev WorksIn (root : List Name) (start : Disk Name A C) (links : List (List Name)) (dir plain : List Name)
    (x : Exec (World Name A C) ε α) : Prop :=
  Meets (Held root start links dir plain) (fun _ => True) x fun _ _ => True

abbrev Stays (root : List Name) (start : Disk Name A C) (links : List (List Name)) (x : Exec (World Name A C) ε α) :
    Prop :=
  WorksIn root start links root root x

variable {P : World Name A C → Prop} {Q : α → World Name A C → Prop} {make : List Name → Exec (World Name A C) ε Unit}
  {x : Exec (World Name A C) ε α}

theorem Meets.held
    (h : Meets (Held root start links dir plain) (fun _ => True) x Q) :
    Meets (Held root start links root plain) (fun w => w.disk.Real dir) x fun a w => w.disk.Real dir ∧ Q a w := by
  rintro w ⟨hconfined, -, hplain, hlinks⟩ hreal
  obtain ⟨⟨hconfined', hreal', hplain', hlinks'⟩, hQ⟩ := h w ⟨hconfined, hreal, hplain, hlinks⟩ trivial
  exact ⟨⟨hconfined', hconfined'.real, hplain', hlinks'⟩, fun a ha => ⟨hreal', hQ a ha⟩⟩

theorem Meets.fromRoot
    (h : Meets (Held root start links dir dir) P x Q) :
    Meets (Held root start links root root) (fun w => w.disk.Real dir ∧ P w) x fun a w => w.disk.Real dir ∧ Q a w := by
  rintro w ⟨hconfined, -, -, hlinks⟩ ⟨hreal, hP⟩
  obtain ⟨⟨hconfined', hreal', -, hlinks'⟩, hQ⟩ := h w ⟨hconfined, hreal, hreal.plain, hlinks⟩ hP
  exact ⟨⟨hconfined', hconfined'.real, hconfined'.real.plain, hlinks'⟩, fun a ha => ⟨hreal', hQ a ha⟩⟩

theorem WorksIn.fromRoot (h : WorksIn root start links dir dir x) :
    Meets (Held root start links root root) (fun w => w.disk.Real dir) x fun _ _ => True :=
  ((Meets.fromRoot h).pre fun _ _ hreal => ⟨hreal, trivial⟩).post fun _ _ _ _ => trivial

theorem Meets.keepsPlain
    (h : Meets (Held root start links dir plain) P x Q) :
    Meets (Held root start links dir dir) (fun w => w.disk.Plain plain ∧ P w) x
      fun a w => w.disk.Plain plain ∧ Q a w := by
  rintro w ⟨hconfined, hreal, -, hlinks⟩ ⟨hplain, hP⟩
  obtain ⟨⟨hconfined', hreal', hplain', hlinks'⟩, hQ⟩ := h w ⟨hconfined, hreal, hplain, hlinks⟩ hP
  exact ⟨⟨hconfined', hreal', hreal'.plain, hlinks'⟩, fun a ha => ⟨hplain', hQ a ha⟩⟩

theorem ofExcept_bind {I P : World Name A C → Prop} {r : Except ε β} {f}
    (h : ∀ b, Meets I P (f b) Q) : Meets I P (Exec.ofExcept r >>= f) Q := by
  have hr : Meets I P (Exec.ofExcept r : Exec (World Name A C) ε β) fun _ => P := .ofExcept fun _ _ _ _ hP => hP
  exact hr.bind h

/-! ### Looking at a name -/

theorem lstat_fromRoot {ε' : Type} : Meets (Held root start links root plain) (fun w => w.disk.Real dir)
    ((lstat (steps (dir ++ [name]))).result : Exec (World Name A C) ε' (Except Errno (Stat A)))
    (Either (fun st w => w.disk.Real dir ∧ (st.type = .directory → w.disk.Real (dir ++ [name])))
      fun _ w => w.disk.Real dir) := by
  have hlook : Meets (Held root start links root plain) (fun w => w.disk.Real dir)
      (lstat (steps (dir ++ [name])) : Exec (World Name A C) Errno (Stat A))
      fun st w => w.disk.Real dir ∧ (st.type = .directory → w.disk.Real (dir ++ [name])) := by
    refine (Meets.held lstat_held).post ?_
    rintro st w _ ⟨hreal, object, hobject, rfl⟩
    refine ⟨hreal, ?_⟩
    intro htype
    exact hreal.snoc (Disk.isDirectory_iff.mpr (Disk.stat_directory hobject htype))
  refine Meets.call_result hlook ?_
  intro w w' hw hreal
  rw [hw]
  exact hreal

theorem lstat_worksIn {ε' : Type} : WorksIn root start links dir plain
    ((lstat (steps (dir ++ [name]))).result : Exec (World Name A C) ε' (Except Errno (Stat A))) := by
  have hlook : WorksIn root start links dir plain
      (lstat (steps (dir ++ [name])) : Exec (World Name A C) Errno (Stat A)) :=
    lstat_held.post fun _ _ _ _ => trivial
  refine (Meets.call_result hlook fun _ _ _ h => h).post ?_
  intro _ _ _ _
  trivial

theorem resolveFrom_fromRoot (hroot : root <+: dir) : Meets (Held root start links root plain)
    (fun w => w.disk.Real dir) (resolveFrom errors path dir rest)
    fun r w => ∀ q, r = some q → w.disk.Real q ∧ root <+: q := by
  induction rest generalizing dir with
  | nil =>
    refine .pure ?_
    intro w _ hreal q hq
    cases hq
    exact ⟨hreal, hroot⟩
  | cons component rest ih =>
    unfold resolveFrom
    refine lstat_fromRoot.bind ?_
    intro r
    cases r with
    | error e =>
      cases e with
      | notFound => exact .pure fun _ _ _ q hq => (by cases hq)
      | _ => exact .fail
    | ok metadata =>
      refine .guard (fun _ => .fail) fun _ => .guard (fun _ => .pure fun _ _ _ q hq => (by cases hq)) ?_
      intro htype
      refine (ih (snoc_below hroot)).pre ?_
      intro w _ h
      exact h.2 (not_not.mp htype)

theorem resolve_bind {f : Option (List Name) → Exec (World Name A C) ε α} (hnone : Stays root start links (f none))
    (hsome : ∀ q, root <+: q → Meets (Held root start links root root) (fun w => w.disk.Real q) (f (some q))
      fun _ _ => True) :
    Meets (Held root start links root root) P (resolveFrom errors path root rest >>= f) fun _ _ => True := by
  refine ((resolveFrom_fromRoot (List.prefix_refl root)).pre fun w hw _ => hw.1.real).bind ?_
  intro r
  cases r with
  | none => exact hnone.pre fun _ _ _ => trivial
  | some q =>
    refine .of_fact (p := root <+: q) (fun w h => (h q rfl).2) ?_
    intro hq
    exact (hsome q hq).pre fun w _ h => (h q rfl).1

def Makes (root : List Name) (start : Disk Name A C) (links : List (List Name))
    (make : List Name → Exec (World Name A C) ε Unit) : Prop :=
  ∀ dir name plain, root <+: dir → Meets (Held root start links dir plain) (fun _ => True) (make (dir ++ [name]))
    fun _ w => w.disk.Real (dir ++ [name])

theorem ensureFrom_fromRoot (hmake : Makes root start links make)
    (hroot : root <+: dir) : Meets (Held root start links root plain) (fun w => w.disk.Real dir)
    (ensureFrom errors make path dir rest) fun q w => w.disk.Real q ∧ q = dir ++ rest := by
  induction rest generalizing dir with
  | nil =>
    refine .pure ?_
    intro w _ hreal
    exact ⟨hreal, (List.append_nil dir).symm⟩
  | cons component rest ih =>
    have hnext : Meets (Held root start links root plain) (fun w => w.disk.Real (dir ++ [component]))
        (ensureFrom errors make path (dir ++ [component]) rest)
        fun q w => w.disk.Real q ∧ q = dir ++ component :: rest := by
      have happend : dir ++ component :: rest = dir ++ [component] ++ rest := List.append_cons dir component rest
      rw [happend]
      exact ih (snoc_below hroot)
    unfold ensureFrom
    refine lstat_fromRoot.bind ?_
    intro r
    cases r with
    | error e =>
      cases e with
      | notFound =>
        refine (Meets.held (hmake dir component plain hroot)).bind fun _ => hnext.pre ?_
        intro w _ h
        exact h.2
      | _ => exact .fail
    | ok metadata =>
      refine .guard (fun _ => .fail) fun _ => .guard (fun htype => ?_) fun _ => .fail
      refine hnext.pre ?_
      intro w _ h
      exact h.2 htype

theorem ensure_bind (hmake : Makes root start links make) {f : List Name → Exec (World Name A C) ε α}
    (h : Meets (Held root start links root root) (fun w => w.disk.Real (root ++ path))
      (f (root ++ path)) fun _ _ => True) :
    Stays root start links (ensureFrom errors make path root path >>= f) := by
  refine ((ensureFrom_fromRoot hmake (List.prefix_refl root)).pre fun w hw _ => hw.1.real).bind ?_
  intro parent
  refine .of_fact (p := parent = root ++ path) (fun w h => h.2) ?_
  rintro rfl
  exact h.pre fun w _ h => h.1

/-! ### Changing a name -/

theorem removeNoFollow_worksIn (hroot : root <+: dir) :
    WorksIn root start links dir plain (removeNoFollow errors (dir ++ [name])) := by
  unfold removeNoFollow
  refine lstat_worksIn.bind ?_
  intro r
  cases r with
  | ok metadata => exact .guard (fun _ => (removeTree_held hroot).mapErr) fun _ => (unlink_held hroot).mapErr
  | error e =>
    cases e with
    | notFound => exact .pure fun _ _ _ => trivial
    | _ => exact .fail

theorem applyWhiteout_stays (whiteout : Whiteout) :
    Stays root start links (applyWhiteout errors (fun path => resolveFrom errors path root path) whiteout) := by
  cases whiteout with
  | remove path =>
    refine resolve_bind (.pure fun _ _ _ => trivial) ?_
    intro parent hparent
    cases hname : path.getLast? with
    | none => exact .fail
    | some name => exact (removeNoFollow_worksIn hparent).fromRoot
  | opaqueDirectory path =>
    refine resolve_bind (.pure fun _ _ _ => trivial) ?_
    intro directory hdirectory
    have hremoved : WorksIn root start links directory directory
        ((Kernel.readDirectory (steps directory)).mapErr (errors.filesystem directory) >>= fun children =>
          children.forM fun child => removeNoFollow errors (directory ++ [child])) := by
      refine readDirectory_held.mapErr.bind fun children => ?_
      exact .forM fun child _ => removeNoFollow_worksIn hdirectory
    exact hremoved.fromRoot

theorem linkExisting_stays (hmake : Makes root start links make) {target : List Name} {invalid noBasename : ε} :
    Stays root start links
      (linkExisting errors (fun path => resolveFrom errors path root path)
        (ensureFrom errors make path.dropLast root path.dropLast) invalid noBasename path target) := by
  unfold linkExisting
  refine resolve_bind .fail ?_
  intro targetParent htarget
  cases hname : target.getLast? with
  | none => exact .fail
  | some targetName =>
    have hlook : Meets (Held root start links root root) (fun w => w.disk.Real targetParent)
        ((lstat (steps (targetParent ++ [targetName]))).mapErr fun _ => invalid)
        fun _ w => w.disk.Real targetParent :=
      ((Meets.held lstat_held).post fun _ _ _ h => h.1).mapErr
    refine hlook.bind fun metadata => .guard (fun _ => .fail) fun _ => ?_
    -- from here on the target's parent is only known to be free of links
    have hensured : Meets (Held root start links root root) (fun w => w.disk.Plain targetParent ∧ True)
        (ensureFrom errors make path.dropLast root path.dropLast)
        fun q w => w.disk.Plain targetParent ∧ w.disk.Real q ∧ q = root ++ path.dropLast :=
      Meets.keepsPlain ((ensureFrom_fromRoot hmake (List.prefix_refl root)).pre fun w hw _ => hw.1.real)
    refine (hensured.pre fun w _ h => ⟨h.plain, trivial⟩).bind ?_
    intro parent
    refine .of_fact (p := parent = root ++ path.dropLast) (fun w h => h.2.2) ?_
    intro hparent
    have hbelow : root <+: parent := hparent ▸ List.prefix_append root path.dropLast
    cases hlast : path.getLast? with
    | none => exact .fail
    | some name =>
      have hremoved : Meets (Held root start links parent parent) (fun w => w.disk.Plain targetParent ∧ True)
          (removeNoFollow errors (parent ++ [name])) fun _ w => w.disk.Plain targetParent ∧ True :=
        Meets.keepsPlain (removeNoFollow_worksIn hbelow)
      have hlinked : Meets (Held root start links parent parent) (fun w => w.disk.Plain targetParent)
          (removeNoFollow errors (parent ++ [name]) >>= fun _ =>
            (Kernel.hardLink (steps (targetParent ++ [targetName])) (steps (parent ++ [name]))).mapErr
              (errors.filesystem (parent ++ [name]))) fun _ _ => True :=
        (hremoved.pre fun w _ h => ⟨h, trivial⟩).bind fun _ => ((hardLink_held hbelow).pre fun w _ h => h.1).mapErr
      exact ((Meets.fromRoot hlinked).pre fun w _ h => ⟨h.2.1, h.1⟩).post fun _ _ _ _ => trivial

end Rish.Archive
