/-
  Rish.Lib.Confine — programs of file calls, and what keeps them below a directory.

  A program runs in a `World`: a disk, the calls that will fail for reasons outside the program (`faults`,
  one flag a call) and the names it will draw for its temporary files. A failed call changes nothing.
  Removing a tree is one call for each object, from the leaves up, so a fault leaves a part of it.

  `Confined root start d`: what the journal lists is at or below `root`, no inode below `since` was written,
  and the way to `root` is still made of directories. A call that is given `dir/name`, where the way to `dir`
  has no link, keeps it (`mkdir_held` ... `rename_held`), and so do the removal of a tree
  (`removeTree_held`) and the draw of a name (`freshName_held`). What is confined leaves every place outside
  as it was (`outside_unchanged`).
-/

import Mathlib.Data.List.Sort
import Rish.Lib.FileTree
import Rish.Lib.Triple

namespace Rish.Lib.FileTree

open List
open Disk (linksOn_entry entry_real)

/-! ## Programs of calls -/

section Programs

variable {N A C : Type} [DecidableEq N] {α : Type}

variable (N A C) in
structure World where
  disk : Disk N A C
  faults : List Bool
  names : List N
  followed : List (List N)

/-- The world after a call was tried: one fault less, and the links it walked through noted. -/
def World.tried (w : World N A C) (links : List (List N)) : World N A C :=
  { w with faults := w.faults.tail, followed := w.followed ++ links }

def call (links : Disk N A C → List (List N)) (f : Disk N A C → Except Errno (α × Disk N A C)) :
    Exec (World N A C) Errno α := fun w =>
  if w.faults.head? = some true then ⟨.err .io, w.tried (links w.disk), 1⟩
  else
    match f w.disk with
    | .ok (a, disk) => ⟨.ok a, { w.tried (links w.disk) with disk := disk }, 1⟩
    | .error e => ⟨.err e, w.tried (links w.disk), 1⟩

namespace Kernel

def lstat (path : List (Step N)) : Exec (World N A C) Errno (Stat A) :=
  call (fun d => d.linksOn false path) fun d => d.lstat path

def canonicalize (path : List (Step N)) : Exec (World N A C) Errno (List N) :=
  call (fun d => d.linksOn true path) fun d => d.canonicalize path

def readDirectory (path : List (Step N)) : Exec (World N A C) Errno (List N) :=
  call (fun d => d.linksOn true path) fun d => d.readDirectory path

def mkdir (attrs : A) (path : List (Step N)) : Exec (World N A C) Errno Unit :=
  call (fun d => d.linksOn false path) fun d => d.mkdir attrs path

def symlink (target : Link N) (attrs : A) (path : List (Step N)) : Exec (World N A C) Errno Unit :=
  call (fun d => d.linksOn false path) fun d => d.symlink target attrs path

def create (inode : Inode A C) (path : List (Step N)) : Exec (World N A C) Errno Nat :=
  call (fun d => d.linksOn false path) fun d => d.create inode path

def hardLink (source path : List (Step N)) : Exec (World N A C) Errno Unit :=
  call (fun d => d.linksOn false source ++ d.linksOn false path) fun d => d.hardLink source path

def unlink (path : List (Step N)) : Exec (World N A C) Errno Unit :=
  call (fun d => d.linksOn false path) fun d => d.unlink path

def rename (replace : Bool) (source target : List (Step N)) : Exec (World N A C) Errno Unit :=
  call (fun d => d.linksOn false source ++ d.linksOn false target) fun d => d.rename replace source target

def setAttributes (f : A → A) (path : List (Step N)) : Exec (World N A C) Errno Unit :=
  call (fun d => d.linksOn true path) fun d => d.setAttributes f path

def writeInode (i : Nat) (f : Inode A C → Inode A C) : Exec (World N A C) Errno Unit :=
  call (fun _ => []) fun d => d.writeInode i f

/-- A call that touches no name: on an open file, or on one without a name. -/
def touchNothing : Exec (World N A C) Errno Unit := call (fun _ => []) fun d => .ok ((), d)

/-- One object of a tree that is being removed; its place is known, no path is walked. -/
def removeObject (p : List N) : Exec (World N A C) Errno Unit :=
  call (fun _ => []) fun d => .ok ((), d.remove p)

def deepestFirst (d : Disk N A C) (p : List N) : List (List N) :=
  ((Disk.below d.nodes p).map (·.1)).insertionSort fun a b => b.length ≤ a.length

def removeTree (path : List (Step N)) : Exec (World N A C) Errno Unit := do
  let p ← call (fun d => d.linksOn false path) fun d => (d.entry path).map (·, d)
  let objects ← Exec.view fun w => deepestFirst w.disk p
  objects.forM removeObject

def isDirectory (path : List (Step N)) : Exec (World N A C) Errno Bool :=
  call (fun d => d.linksOn true path) fun d => (d.resolve path).map fun p => (d.isDirectory p, d)

/-- A failed look counts as no. -/
def leadsToDirectory (path : List (Step N)) : Exec (World N A C) Errno Bool := do
  match ← (isDirectory path).result with
  | .ok answer => pure answer
  | .error _ => pure false

/-- `create_dir_all` of the path read from its end. -/
def createParents (attrs : A) : List (Step N) → Exec (World N A C) Errno Unit
  | [] => pure ()
  | last :: parents => do
    let path := (last :: parents).reverse
    match ← (mkdir attrs path).result with
    | .ok _ => pure ()
    | .error .notFound =>
      createParents attrs parents
      match ← (mkdir attrs path).result with
      | .ok _ => pure ()
      | .error e => if ← leadsToDirectory path then pure () else Exec.fail e
    | .error e => if ← leadsToDirectory path then pure () else Exec.fail e

def createDirAll (attrs : A) (path : List (Step N)) : Exec (World N A C) Errno Unit := createParents attrs path.reverse

def firstFree (make : N → Exec (World N A C) Errno α) : List N → Exec (World N A C) Errno (N × α)
  | [] => Exec.fail .exists
  | n :: names => do
    Exec.update fun w => { w with names := names }
    match ← (make n).result with
    | .ok a => pure (n, a)
    | .error .exists => firstFree make names
    | .error e => Exec.fail e

def freshName (make : N → Exec (World N A C) Errno α) : Exec (World N A C) Errno (N × α) := do
  firstFree make (← Exec.view (·.names))

end Kernel

end Programs

/-! ## Staying below a directory -/

section Confined

variable {N A C : Type} [DecidableEq N] {α : Type} {d d' : Disk N A C} {root dir p q : List N} {n : N}
  {start : Disk N A C}

def Inside (root : List N) (since : Nat) : Written N → Prop
  | .place p => root <+: p
  | .inode i => since ≤ i

instance (root : List N) (since : Nat) (t : Written N) : Decidable (Inside root since t) :=
  match t with
  | .place p => inferInstanceAs (Decidable (root <+: p))
  | .inode i => inferInstanceAs (Decidable (since ≤ i))

/-- `d` came from `start` by writing at or below `root` only. -/
structure Confined (root : List N) (start d : Disk N A C) : Prop where
  written : ∀ t ∈ d.journal, Inside root start.fresh t
  real : d.Real root
  fresh : start.fresh ≤ d.fresh
  since : start.Since d

theorem Confined.refl (h : start.Real root) (hnew : start.journal = []) : Confined root start start where
  written t ht := by
    rw [hnew] at ht
    cases ht
  real := h
  fresh := Nat.le_refl _
  since := .refl start

theorem outside_unchanged (hwritten : ∀ t ∈ d.journal, Inside root start.fresh t) (hsince : start.Since d)
    (hp : ¬root <+: p) :
    d.node p = start.node p ∧ ∀ i, start.node p = some (.file i) → d.inodes i = start.inodes i := by
  refine ⟨?_, ?_⟩
  · apply hsince.places
    intro q hq hqp
    exact hp ((hwritten _ hq).trans hqp)
  · intro i hi
    apply hsince.inodes
    intro hmem
    have hold : i < start.fresh := start.numbered p i hi
    have hnew : start.fresh ≤ i := hwritten _ hmem
    omega

omit [DecidableEq N] in
theorem not_snoc_prefix : ¬(dir ++ [n]) <+: dir := by
  intro h
  have := h.length_le
  simp at this

omit [DecidableEq N] in
theorem snoc_ne (h : root <+: dir) : dir ++ [n] ≠ root := by
  intro heq
  exact not_snoc_prefix (heq ▸ h)

omit [DecidableEq N] in
theorem snoc_below (h : root <+: dir) : root <+: dir ++ [n] := h.trans (prefix_append dir [n])

namespace Disk

theorem Real.congr (h : d.Real q) (hsame : ∀ r, r <+: q → d'.isDirectory r = d.isDirectory r) : d'.Real q := by
  intro r hr
  rw [hsame r hr]
  exact h r hr

theorem isDirectory_congr (h : d'.node p = d.node p) : d'.isDirectory p = d.isDirectory p := by
  unfold isDirectory
  rw [h]

section

variable (h : d.Real q)
include h

theorem Real.put {new} {hnew : ∀ i, new = .file i → i < d.fresh} (hp : ¬p <+: q) :
    (d.put p new hnew).Real q := by
  refine h.congr ?_
  intro r hr
  apply isDirectory_congr
  rw [node_put, if_neg]
  rintro rfl
  exact hp hr

theorem Real.put_directory {attrs : A} : (d.put p (.directory attrs) directory_fresh).Real q := by
  intro r hr
  by_cases heq : r = p
  · rw [isDirectory_iff]
    exact ⟨attrs, by rw [node_put, if_pos heq]⟩
  · have hold := h r hr
    rwa [isDirectory_congr (d := d)]
    rw [node_put, if_neg heq]

theorem Real.remove (hp : ¬p <+: q) : (d.remove p).Real q := by
  refine h.congr ?_
  intro r hr
  apply isDirectory_congr
  rw [node_remove, if_neg]
  rintro rfl
  exact hp hr

variable {inode : Inode A C}

theorem Real.make (hp : ¬p <+: q) : (d.make p inode).Real q := by
  refine h.congr ?_
  intro r hr
  apply isDirectory_congr
  rw [node_make, if_neg]
  rintro rfl
  exact hp hr

theorem Real.write {i} : (d.write i inode).Real q := h

theorem Real.move {s t} (hs : ¬s <+: q) (ht : ¬t <+: q) : (d.move s t).Real q := by
  refine h.congr ?_
  intro r hr
  apply isDirectory_congr
  exact node_move s t (fun h => hs (h.trans hr)) fun h => ht (h.trans hr)

end

end Disk

namespace Confined

section

variable (h : Confined root start d)
include h

section

variable (hp : root <+: p)
include hp

theorem put {new} {hnew : ∀ i, new = .file i → i < d.fresh}
    (hne : p ≠ root) : Confined root start (d.put p new hnew) where
  written t ht := by
    rcases mem_cons.mp ht with rfl | ht
    · exact hp
    · exact h.written t ht
  real := h.real.put fun hpr => hne (hpr.eq_of_length_le hp.length_le)
  fresh := h.fresh
  since := h.since.change (.put ..)

theorem put_directory {attrs : A} : Confined root start (d.put p (.directory attrs) Disk.directory_fresh) where
  written t ht := by
    rcases mem_cons.mp ht with rfl | ht
    · exact hp
    · exact h.written t ht
  real := h.real.put_directory
  fresh := h.fresh
  since := h.since.change (.put ..)

theorem remove (hne : p ≠ root) : Confined root start (d.remove p) where
  written t ht := by
    rcases mem_cons.mp ht with rfl | ht
    · exact hp
    · exact h.written t ht
  real := h.real.remove fun hpr => hne (hpr.eq_of_length_le hp.length_le)
  fresh := h.fresh
  since := h.since.change (.remove p)

theorem make {inode} (hne : p ≠ root) : Confined root start (d.make p inode) where
  written t ht := by
    rcases mem_cons.mp ht with rfl | ht
    · exact hp
    rcases mem_cons.mp ht with rfl | ht
    · exact h.fresh
    · exact h.written t ht
  real := h.real.make fun hpr => hne (hpr.eq_of_length_le hp.length_le)
  fresh := Nat.le_succ_of_le h.fresh
  since := h.since.change (.make ..)

end

theorem write {i inode} (hi : start.fresh ≤ i) : Confined root start (d.write i inode) where
  written t ht := by
    rcases mem_cons.mp ht with rfl | ht
    · exact hi
    · exact h.written t ht
  real := h.real.write
  fresh := h.fresh
  since := h.since.change (.write ..)

theorem move {s t} (hs : root <+: s) (hs' : s ≠ root) (ht : root <+: t)
    (ht' : t ≠ root) : Confined root start (d.move s t) where
  written u hu := by
    rcases mem_cons.mp hu with rfl | hu
    · exact hs
    rcases mem_cons.mp hu with rfl | hu
    · exact ht
    · exact h.written u hu
  real := h.real.move (fun hpr => hs' (hpr.eq_of_length_le hs.length_le))
    fun hpr => ht' (hpr.eq_of_length_le ht.length_le)
  fresh := h.fresh
  since := h.since.change (.move s t)

end

end Confined

/-! ## Programs that stay below a directory -/

/-- Everything written is below `root`, the way to `dir` is made of directories, the way to `plain` has no link,
and no link was followed since `links`. -/
def Held (root : List N) (start : Disk N A C) (links : List (List N)) (dir plain : List N) (w : World N A C) : Prop :=
  Confined root start w.disk ∧ w.disk.Real dir ∧ w.disk.Plain plain ∧ w.followed = links

section Call

variable {walks : Disk N A C → List (List N)} {f : Disk N A C → Except Errno (α × Disk N A C)} {w : World N A C} {a : α}
  {e : Errno}

theorem call_fault (h : w.faults.head? = some true) : call walks f w = ⟨.err .io, w.tried (walks w.disk), 1⟩ := if_pos h

theorem call_ok (h : w.faults.head? ≠ some true) (hf : f w.disk = .ok (a, d)) :
    call walks f w = ⟨.ok a, { w.tried (walks w.disk) with disk := d }, 1⟩ := by
  unfold call
  rw [if_neg h, hf]

theorem call_error (h : w.faults.head? ≠ some true) (hf : f w.disk = .error e) :
    call walks f w = ⟨.err e, w.tried (walks w.disk), 1⟩ := by
  unfold call
  rw [if_neg h, hf]

theorem call_cases (walks : Disk N A C → List (List N)) (f : Disk N A C → Except Errno (α × Disk N A C))
    (w : World N A C) :
    (∃ a d, f w.disk = .ok (a, d) ∧ call walks f w = ⟨.ok a, { w.tried (walks w.disk) with disk := d }, 1⟩) ∨
      ∃ e, (e = .io ∨ f w.disk = .error e) ∧ call walks f w = ⟨.err e, w.tried (walks w.disk), 1⟩ := by
  by_cases hfault : w.faults.head? = some true
  · exact .inr ⟨.io, .inl rfl, call_fault hfault⟩
  · cases hf : f w.disk with
    | error e => exact .inr ⟨e, .inr rfl, call_error hfault hf⟩
    | ok r => exact .inl ⟨r.1, r.2, rfl, call_ok hfault hf⟩

theorem call_err (h : (call walks f w).outcome = .err e) : (call walks f w).state.disk = w.disk := by
  rcases call_cases walks f w with ⟨a, d, -, hcall⟩ | ⟨e', -, hcall⟩
  · rw [hcall] at h
    cases h
  · rw [hcall]
    rfl

theorem call_err_cases (h : (call walks f w).outcome = .err e) : e = .io ∨ f w.disk = .error e := by
  rcases call_cases walks f w with ⟨a, d, -, hcall⟩ | ⟨e', he', hcall⟩
  · rw [hcall] at h
    cases h
  · rw [hcall] at h
    cases h
    exact he'

theorem Meets.call_result {ε' : Type} {I P : World N A C → Prop} {Q : α → World N A C → Prop}
    (h : Meets I P (call walks f) Q) (hP : ∀ w w' : World N A C, w'.disk = w.disk → P w → P w') :
    Meets I P ((call walks f).result : Exec (World N A C) ε' (Except Errno α)) (Either Q fun _ => P) := by
  refine h.result ?_
  intro w _ hw e he
  exact hP w _ (call_err he) hw

variable {links : List (List N)} {plain : List N}

theorem held_call {P : World N A C → Prop} {Q : α → World N A C → Prop}
    (hwalks : ∀ w, P w → w.disk.Real dir → w.disk.Plain plain → walks w.disk = [])
    (h : ∀ w a d, Confined root start w.disk → w.disk.Real dir → P w → f w.disk = .ok (a, d) →
      Confined root start d ∧ d.Real dir ∧ (w.disk.Plain plain → d.Plain plain) ∧ ∀ w', w'.disk = d → Q a w') :
    Meets (Held root start links dir plain) P (call walks f) Q := by
  rintro w ⟨hconfined, hreal, hplain, hlinks⟩ hP
  have hfollowed : w.followed ++ walks w.disk = links := by
    rw [hwalks w hP hreal hplain, append_nil]
    exact hlinks
  rcases call_cases walks f w with ⟨a, d, hf, hcall⟩ | ⟨e, -, hcall⟩
  · rw [hcall]
    obtain ⟨hconfined', hreal', hplain', hQ⟩ := h w a d hconfined hreal hP hf
    refine ⟨⟨hconfined', hreal', hplain' hplain, hfollowed⟩, ?_⟩
    intro b hb
    cases hb
    exact hQ _ rfl
  · rw [hcall]
    refine ⟨⟨hconfined, hreal, hplain, hfollowed⟩, ?_⟩
    intro b hb
    cases hb

end Call

/-! ### Ways without links -/

namespace Disk

section

variable (h : d.Plain q)
include h

theorem Plain.put {new} {hnew : ∀ i, new = .file i → i < d.fresh}
    (hp : ¬p <+: q ∨ ∀ target a, new ≠ .link target a) : (d.put p new hnew).Plain q := by
  intro r hr target a hlink
  rw [node_put] at hlink
  split at hlink
  · rename_i heq
    cases hlink
    rcases hp with hp | hp
    · exact hp (heq ▸ hr)
    · exact hp target a rfl
  · exact h r hr target a hlink

theorem Plain.remove : (d.remove p).Plain q := by
  intro r hr target a hlink
  rw [node_remove] at hlink
  split at hlink
  · cases hlink
  · exact h r hr target a hlink

variable {inode : Inode A C}

theorem Plain.make : (d.make p inode).Plain q := by
  intro r hr target a hlink
  rw [node_make] at hlink
  split at hlink
  · cases hlink
  · exact h r hr target a hlink

theorem Plain.write {i} : (d.write i inode).Plain q := h

end

end Disk

open Kernel

variable {path : List (Step N)} {attrs : A} {links : List (List N)} {plain : List N}

theorem lstat_held : Meets (Held root start links dir plain) (fun _ => True)
    (lstat (steps (dir ++ [n])) : Exec (World N A C) Errno (Stat A))
    fun st w => ∃ object, w.disk.node (dir ++ [n]) = some object ∧ st = w.disk.stat object := by
  refine held_call (fun w _ hreal _ => linksOn_entry hreal.plain) ?_
  intro w st d hconfined hreal _ h
  obtain ⟨rfl, p, object, hp, hobject, hst⟩ := Disk.lstat_ok h
  rw [entry_real hreal] at hp
  cases hp
  refine ⟨hconfined, hreal, fun h => h, ?_⟩
  intro w' hw'
  rw [hw']
  exact ⟨object, hobject, hst⟩

section

variable (hroot : root <+: dir)
include hroot

theorem mkdir_held : Meets (Held root start links dir plain) (fun _ => True)
      (mkdir attrs (steps (dir ++ [n])) : Exec (World N A C) Errno Unit) fun _ w => w.disk.Real (dir ++ [n]) := by
  refine held_call (fun w _ hreal _ => linksOn_entry hreal.plain) ?_
  intro w u d hconfined hreal _ h
  obtain ⟨p, hp, -, rfl⟩ := Disk.mkdir_ok h
  rw [entry_real hreal] at hp
  cases hp
  have hdir : (w.disk.put (dir ++ [n]) (.directory attrs) Disk.directory_fresh).Real dir := hreal.put_directory
  refine ⟨hconfined.put_directory (snoc_below hroot), hdir, ?_, ?_⟩
  · intro hplain
    exact hplain.put (.inr fun _ _ h => by cases h)
  · intro w' hw'
    rw [hw']
    apply hdir.snoc
    rw [Disk.isDirectory_iff]
    exact ⟨attrs, by rw [Disk.node_put, if_pos rfl]⟩

theorem symlink_held {dest} : Meets (Held root start links dir dir) (fun _ => True)
      (symlink dest attrs (steps (dir ++ [n])) : Exec (World N A C) Errno Unit) fun _ _ => True := by
  refine held_call (fun w _ hreal _ => linksOn_entry hreal.plain) ?_
  intro w u d hconfined hreal _ h
  obtain ⟨p, hp, -, rfl⟩ := Disk.symlink_ok h
  rw [entry_real hreal] at hp
  cases hp
  exact ⟨hconfined.put (snoc_below hroot) (snoc_ne hroot), hreal.put not_snoc_prefix,
    fun h => h.put (.inl not_snoc_prefix), fun _ _ => trivial⟩

theorem create_held {inode} : Meets (Held root start links dir plain) (fun _ => True)
      (create inode (steps (dir ++ [n])) : Exec (World N A C) Errno Nat) fun i _ => start.fresh ≤ i := by
  refine held_call (fun w _ hreal _ => linksOn_entry hreal.plain) ?_
  intro w i d hconfined hreal _ h
  obtain ⟨p, hp, -, rfl, rfl⟩ := Disk.create_ok h
  rw [entry_real hreal] at hp
  cases hp
  exact ⟨hconfined.make (snoc_below hroot) (snoc_ne hroot), hreal.make not_snoc_prefix, fun h => h.make,
    fun _ _ => hconfined.fresh⟩

theorem hardLink_held {from'} {m : N} : Meets (Held root start links dir dir) (fun w => w.disk.Plain from')
      (hardLink (steps (from' ++ [m])) (steps (dir ++ [n])) : Exec (World N A C) Errno Unit) fun _ _ => True := by
  refine held_call ?_ ?_
  · intro w hfrom hreal _
    rw [linksOn_entry hfrom, linksOn_entry hreal.plain]
    rfl
  · intro w u d hconfined hreal _ h
    obtain ⟨p, s, object, hfresh, -, -, -, hp, -, rfl⟩ := Disk.hardLink_ok h
    rw [entry_real hreal] at hp
    cases hp
    exact ⟨hconfined.put (snoc_below hroot) (snoc_ne hroot), hreal.put not_snoc_prefix,
      fun h => h.put (.inl not_snoc_prefix), fun _ _ => trivial⟩

theorem unlink_held : Meets (Held root start links dir plain) (fun _ => True)
      (unlink (steps (dir ++ [n])) : Exec (World N A C) Errno Unit) fun _ _ => True := by
  refine held_call (fun w _ hreal _ => linksOn_entry hreal.plain) ?_
  intro w u d hconfined hreal _ h
  obtain ⟨p, hp, -, rfl⟩ := Disk.unlink_ok h
  rw [entry_real hreal] at hp
  cases hp
  exact ⟨hconfined.remove (snoc_below hroot) (snoc_ne hroot), hreal.remove not_snoc_prefix, fun h => h.remove,
    fun _ _ => trivial⟩

theorem rename_held {replace} {m : N} : Meets (Held root start links dir dir) (fun _ => True)
      (rename replace (steps (dir ++ [m])) (steps (dir ++ [n])) : Exec (World N A C) Errno Unit) fun _ _ => True := by
  refine held_call ?_ ?_
  · intro w _ hreal _
    rw [linksOn_entry hreal.plain, linksOn_entry hreal.plain]
    rfl
  · intro w u d hconfined hreal _ h
    obtain ⟨s, t, hs, ht, hd⟩ := Disk.rename_ok h
    rw [entry_real hreal] at hs ht
    cases hs
    cases ht
    rcases hd with rfl | rfl
    · exact ⟨hconfined, hreal, fun h => h, fun _ _ => trivial⟩
    · have hmoved : (w.disk.move (dir ++ [m]) (dir ++ [n])).Real dir := hreal.move not_snoc_prefix not_snoc_prefix
      exact ⟨hconfined.move (snoc_below hroot) (snoc_ne hroot) (snoc_below hroot) (snoc_ne hroot), hmoved,
        fun _ => hmoved.plain, fun _ _ => trivial⟩

end

theorem writeInode_held {i f} (hi : start.fresh ≤ i) :
    Meets (Held root start links dir plain) (fun _ => True) (writeInode i f : Exec (World N A C) Errno Unit)
      fun _ _ => True := by
  refine held_call (fun _ _ _ _ => rfl) ?_
  intro w u d hconfined hreal _ h
  rw [Disk.writeInode_ok h]
  exact ⟨hconfined.write hi, hreal.write, fun h => h.write, fun _ _ => trivial⟩

theorem readDirectory_held : Meets (Held root start links dir plain) (fun _ => True)
    (readDirectory (steps dir) : Exec (World N A C) Errno (List N)) fun _ _ => True := by
  refine held_call (fun w _ hreal _ => Disk.linksOn_plain hreal.plain) ?_
  intro w names d hconfined hreal _ h
  rw [Disk.readDirectory_ok h]
  exact ⟨hconfined, hreal, fun h => h, fun _ _ => trivial⟩

theorem removeObject_held (hroot : root <+: dir) (hp : dir ++ [n] <+: p) :
    Meets (Held root start links dir plain) (fun _ => True) (removeObject p : Exec (World N A C) Errno Unit)
      fun _ _ => True := by
  refine held_call (fun _ _ _ _ => rfl) ?_
  intro w u d hconfined hreal _ h
  cases h
  have hbelow : root <+: p := (snoc_below hroot).trans hp
  have hdir : ¬p <+: dir := fun h => not_snoc_prefix (hp.trans h)
  have hne : p ≠ root := fun h => hdir (h ▸ hroot)
  exact ⟨hconfined.remove hbelow hne, hreal.remove hdir, fun h => h.remove, fun _ _ => trivial⟩

theorem mem_deepestFirst (h : q ∈ deepestFirst d p) : p <+: q := by
  rw [deepestFirst, mem_insertionSort] at h
  obtain ⟨e, he, rfl⟩ := mem_map.mp h
  exact isPrefixOf_iff_prefix.mp (mem_filter.mp he).2

theorem removeTree_held (hroot : root <+: dir) : Meets (Held root start links dir plain) (fun _ => True)
      (removeTree (steps (dir ++ [n])) : Exec (World N A C) Errno Unit) fun _ _ => True := by
  have hentry : Meets (Held root start links dir plain) (fun _ => True)
      (call (fun d : Disk N A C => d.linksOn false (steps (dir ++ [n]))) fun d =>
        (d.entry (steps (dir ++ [n]))).map (·, d)) fun p _ => p = dir ++ [n] := by
    refine held_call (fun w _ hreal _ => linksOn_entry hreal.plain) ?_
    intro w p d hconfined hreal _ h
    rw [entry_real hreal] at h
    cases h
    exact ⟨hconfined, hreal, fun h => h, fun _ _ => rfl⟩
  refine hentry.bind fun p => .of_fact (fun _ h => h) ?_
  rintro rfl
  have hview : Meets (Held root start links dir plain) (fun w : World N A C => (dir ++ [n]) = dir ++ [n])
      (Exec.view fun w => deepestFirst w.disk (dir ++ [n]) : Exec (World N A C) Errno (List (List N)))
      fun objects _ => ∀ q ∈ objects, dir ++ [n] <+: q :=
    .view fun w _ _ q hq => mem_deepestFirst hq
  refine hview.bind fun objects => .of_fact (fun _ h => h) ?_
  intro hobjects
  have hloop : Meets (Held root start links dir plain) (fun _ : World N A C => True) (objects.forM removeObject)
      fun _ _ => True :=
    .forM fun q hq => removeObject_held hroot (hobjects q hq)
  exact hloop.pre fun _ _ _ => trivial

variable {make : N → Exec (World N A C) Errno α} {Q : N → α → Prop}

theorem firstFree_held
    (h : ∀ m, Meets (Held root start links dir plain) (fun _ => True) (make m) fun a _ => Q m a) (names) :
    Meets (Held root start links dir plain) (fun _ => True) (firstFree make names) fun r _ => Q r.1 r.2 := by
  induction names with
  | nil => exact .fail
  | cons m names ih =>
    unfold firstFree
    have hdrawn : Meets (Held root start links dir plain) (fun _ : World N A C => True)
        (Exec.update fun w => { w with names := names } : Exec (World N A C) Errno Unit) fun _ _ => True :=
      .update fun w hI _ => ⟨hI, trivial⟩
    have htry : Meets (Held root start links dir plain) (fun _ => True)
        ((make m).result : Exec (World N A C) Errno (Except Errno α)) (Either (fun a _ => Q m a) fun _ _ => True) :=
      (h m).result fun _ _ _ _ _ => trivial
    refine hdrawn.bind fun _ => htry.bind fun r => ?_
    cases r with
    | ok a => exact .pure fun _ _ hQ => hQ
    | error e =>
      cases e with
      | «exists» => exact ih
      | _ => exact .fail

theorem freshName_held
    (h : ∀ m, Meets (Held root start links dir plain) (fun _ => True) (make m) fun a _ => Q m a) :
    Meets (Held root start links dir plain) (fun _ => True) (freshName make) fun r _ => Q r.1 r.2 := by
  intro w hI _
  unfold freshName
  rw [Exec.view_bind]
  exact firstFree_held h w.names w hI trivial

/-! ## Programs that change nothing -/

theorem call_reads {walks : Disk N A C → List (List N)} {f : Disk N A C → Except Errno (α × Disk N A C)}
    (h : ∀ a d, f start = .ok (a, d) → d = start) :
    Meets (fun w => w.disk = start) (fun _ => True) (call walks f) fun a _ => f start = .ok (a, start) := by
  intro w hw _
  have hsame : w.disk = start := hw
  rcases call_cases walks f w with ⟨a, d, hf, hcall⟩ | ⟨e, -, hcall⟩
  · rw [hcall]
    rw [hsame] at hf
    obtain rfl := h a d hf
    refine ⟨rfl, ?_⟩
    intro b hb
    cases hb
    exact hf
  · rw [hcall]
    refine ⟨hw, ?_⟩
    intro b hb
    cases hb

theorem leadsToDirectory_reads : Meets (fun w => w.disk = start) (fun _ => True)
    (leadsToDirectory path : Exec (World N A C) Errno Bool) fun _ _ => True := by
  have hlook : Meets (fun w : World N A C => w.disk = start) (fun _ => True) (isDirectory path) fun _ _ => True := by
    refine (call_reads ?_).post fun _ _ _ _ => trivial
    intro a d h
    cases hp : start.resolve path with
    | error e => rw [hp] at h; cases h
    | ok p => rw [hp] at h; cases h; rfl
  unfold leadsToDirectory
  refine (Meets.call_result hlook fun _ _ _ h => h).bind ?_
  intro r
  cases r with
  | ok answer => exact .pure fun _ _ _ => trivial
  | error e => exact .pure fun _ _ _ => trivial

theorem createDirAll_reads {object : Node N A} (hentry : start.entry path = .ok p)
    (hnode : start.node p = some object) :
    Meets (fun w => w.disk = start) (fun _ => True) (createDirAll attrs path : Exec (World N A C) Errno Unit)
      fun _ _ => True := by
  have htaken : start.mkdir attrs path = .error .exists := by
    simp only [Disk.mkdir, Disk.atFree, hentry, bind, Except.bind, hnode]
  have hmkdir : Meets (fun w : World N A C => w.disk = start) (fun _ => True) (mkdir attrs path) fun _ _ => False := by
    refine (call_reads ?_).post ?_
    · intro a d h
      rw [htaken] at h
      cases h
    · intro a w _ h
      rw [htaken] at h
      cases h
  have hresult : Meets (fun w : World N A C => w.disk = start) (fun _ => True)
      ((mkdir attrs path).result : Exec (World N A C) Errno (Except Errno Unit))
      (Either (fun _ _ => False) fun e _ => e ≠ .notFound) := by
    refine hmkdir.result ?_
    intro w hw _ e he
    have hsame : w.disk = start := hw
    rcases call_err_cases he with rfl | hf
    · decide
    · rw [hsame, htaken] at hf
      cases hf
      decide
  unfold createDirAll
  have hreverse : path.reverse.reverse = path := reverse_reverse path
  generalize path.reverse = reversed at hreverse
  cases reversed with
  | nil => exact .pure fun _ _ _ => trivial
  | cons last parents =>
    unfold createParents
    rw [hreverse]
    refine hresult.bind ?_
    intro r
    have hlook : Meets (fun w : World N A C => w.disk = start) (fun _ => True)
        (leadsToDirectory path : Exec (World N A C) Errno Bool) fun _ _ => True := leadsToDirectory_reads
    cases r with
    | ok u => exact .of_fact (fun _ h => h) fun h => h.elim
    | error e =>
      cases e with
      | notFound => exact .of_fact (fun _ h => h) fun h => absurd rfl h
      | _ =>
        refine (hlook.pre fun _ _ _ => trivial).bind fun answer => ?_
        exact .guard (fun _ => .pure fun _ _ _ => trivial) fun _ => .fail

end Confined

end Rish.Lib.FileTree
