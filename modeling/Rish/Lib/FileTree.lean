/-
  Rish.Lib.FileTree — a tree of directories, links and files, and the calls of a kernel on it.

  A `Disk` keeps every object under its place: the names from the root of the tree down to it, no link on
  the way. Names of one file share an inode, which holds its content and attributes. A call is given a path,
  which is walked from the root of the tree and may lead through links (`walk`): a relative link goes on from
  the directory it is in, an absolute one from the root, and `..` goes up from where the walk is, not from
  where the path says.

  The journal lists each place that was made, changed, replaced or removed and each inode that was written
  to, also by a call whose effect was undone later. It is complete (`Since`): a place that is not below a
  listed one, and an inode that is not listed, are as they were, through every `Change` (`Since.change`).

  Proved besides: a path of directories only is walked to its own place (`entry_real`).
-/

import Rish.Lib.Checked
import Rish.Lib.Ledger

namespace Rish.Lib.FileTree

open List

open Checked (bind_eq_ok)

/-! ## Trees -/

inductive Step (N : Type) where
  | up
  | name (n : N)
  deriving DecidableEq

structure Link (N : Type) where
  absolute : Bool
  steps : List (Step N)
  deriving DecidableEq

inductive Node (N A : Type) where
  | directory (attrs : A)
  | link (target : Link N) (attrs : A)
  | file (inode : Nat)
  deriving DecidableEq

inductive Body (C : Type) where
  | regular (content : C)
  | characterDevice (major minor : Nat)
  | blockDevice (major minor : Nat)
  | fifo
  | socket
  deriving DecidableEq

structure Inode (A C : Type) where
  attrs : A
  body : Body C
  deriving DecidableEq

inductive Written (N : Type) where
  | place (p : List N)
  | inode (i : Nat)
  deriving DecidableEq

inductive Errno where
  | notFound
  | exists
  | notDirectory
  | isDirectory
  | notEmpty
  | loop
  | invalid
  | notPermitted
  | io
  deriving DecidableEq, Repr

inductive FileType where
  | directory
  | link
  | regular
  | characterDevice
  | blockDevice
  | fifo
  | socket
  deriving DecidableEq, Repr

structure Stat (A : Type) where
  type : FileType
  attrs : A
  deriving DecidableEq

section Disk

variable {N A C : Type} [DecidableEq N]

def Numbered (nodes : Table (List N) (Node N A)) (fresh : Nat) : Prop :=
  ∀ p i, nodes.lookup p = some (.file i) → i < fresh

variable (N A C) in
structure Disk where
  nodes : Table (List N) (Node N A)
  inodes : Nat → Inode A C
  fresh : Nat
  journal : List (Written N)
  numbered : Numbered nodes fresh

def Body.type : Body C → FileType
  | .regular _ => .regular
  | .characterDevice _ _ => .characterDevice
  | .blockDevice _ _ => .blockDevice
  | .fifo => .fifo
  | .socket => .socket

/-- The longest chain of links a walk follows. -/
def linkLimit : Nat := 40

/-- A path of names. -/
def steps (p : List N) : List (Step N) := p.map .name

def Node.numberedBelow (fresh : Nat) : Node N A → Bool
  | .file i => i < fresh
  | _ => true

theorem numbered_insertAll {es : List (Sigma fun _ : List N => Node N A)} {fresh}
    (h : (es.all fun e => e.2.numberedBelow fresh) = true) : Numbered (Table.insertAll es ∅) fresh := by
  intro p i hp
  rcases Table.lookup_insertAll_cases hp with hmem | hold
  · have hnode := all_eq_true.mp h _ hmem
    simpa only [Node.numberedBelow, decide_eq_true_eq] using hnode
  · cases hold

/-- A disk with these objects. -/
def Disk.ofList (es : List (Sigma fun _ : List N => Node N A)) (inodes : Nat → Inode A C) (fresh : Nat)
    (h : (es.all fun e => e.2.numberedBelow fresh) = true) : Disk N A C :=
  ⟨Table.insertAll es ∅, inodes, fresh, [], numbered_insertAll h⟩

namespace Disk

variable (d : Disk N A C)

def node (p : List N) : Option (Node N A) := d.nodes.lookup p

def isDirectory (p : List N) : Bool :=
  match d.node p with
  | some (.directory _) => true
  | _ => false

def stat : Node N A → Stat A
  | .directory attrs => ⟨.directory, attrs⟩
  | .link _ attrs => ⟨.link, attrs⟩
  | .file i => ⟨(d.inodes i).body.type, (d.inodes i).attrs⟩

/-! ### Walking a path -/

/-- With `follow` off the last name of the path is not looked up. -/
def walkSteps (follow : Bool) (chase : List N → List (Step N) → Except Errno (List N)) :
    List N → List (Step N) → Except Errno (List N)
  | here, [] => .ok here
  | here, .up :: rest =>
    if d.isDirectory here then walkSteps follow chase here.dropLast rest else .error .notDirectory
  | here, .name n :: rest =>
    if !d.isDirectory here then .error .notDirectory
    else if rest.isEmpty && !follow then .ok (here ++ [n])
    else
      match d.node (here ++ [n]) with
      | none => .error .notFound
      | some (.link target _) => chase (if target.absolute then [] else here) (target.steps ++ rest)
      | some _ => walkSteps follow chase (here ++ [n]) rest

def walk (follow : Bool) : Nat → List N → List (Step N) → Except Errno (List N)
  | 0 => d.walkSteps follow fun _ _ => .error .loop
  | links + 1 => d.walkSteps follow (walk follow links)

/-- The place of what a path leads to. -/
def resolve (path : List (Step N)) : Except Errno (List N) := d.walk true linkLimit [] path

/-- The place a path names: its last name is not followed, and may be free. -/
def entry (path : List (Step N)) : Except Errno (List N) := d.walk false linkLimit [] path

/-- The links a walk goes through, in its order. -/
def linkSteps (follow : Bool) (chase : List N → List (Step N) → List (List N)) : List N → List (Step N) → List (List N)
  | _, [] => []
  | here, .up :: rest => if d.isDirectory here then linkSteps follow chase here.dropLast rest else []
  | here, .name n :: rest =>
    if !d.isDirectory here then []
    else if rest.isEmpty && !follow then []
    else
      match d.node (here ++ [n]) with
      | none => []
      | some (.link target _) => (here ++ [n]) :: chase (if target.absolute then [] else here) (target.steps ++ rest)
      | some _ => linkSteps follow chase (here ++ [n]) rest

def linksFrom (follow : Bool) : Nat → List N → List (Step N) → List (List N)
  | 0 => d.linkSteps follow fun _ _ => []
  | links + 1 => d.linkSteps follow (linksFrom follow links)

def linksOn (follow : Bool) (path : List (Step N)) : List (List N) := d.linksFrom follow linkLimit [] path

/-! ### Changes of places -/

variable {fresh : Nat} {nodes : Table (List N) (Node N A)}

section

variable (hn : Numbered nodes fresh)
include hn

theorem numbered_insert {p}
    {new} (h : ∀ i, new = .file i → i < fresh) : Numbered (nodes.insert p new) fresh := by
  intro q i hq
  rw [Table.lookup_insert_eq] at hq
  split at hq
  · exact h i (Option.some_inj.mp hq)
  · exact hn q i hq

theorem numbered_erase (p) : Numbered (nodes.erase p) fresh := by
  intro q i hq
  rw [Table.lookup_erase_eq] at hq
  split at hq
  · cases hq
  · exact hn q i hq

theorem numbered_succ : Numbered nodes (fresh + 1) :=
  fun p i h => Nat.lt_succ_of_lt (hn p i h)

end

variable (p : List N)

def put (new : Node N A) (h : ∀ i, new = .file i → i < d.fresh) : Disk N A C :=
  { d with
    nodes := d.nodes.insert p new
    journal := .place p :: d.journal
    numbered := numbered_insert d.numbered h }

omit [DecidableEq N] in
theorem directory_fresh {attrs : A} : ∀ i, (Node.directory attrs : Node N A) = .file i → i < fresh := by
  intro i h
  cases h

omit [DecidableEq N] in
theorem link_fresh {target} {attrs : A} :
    ∀ i, (Node.link target attrs : Node N A) = .file i → i < fresh := by
  intro i h
  cases h

theorem node_fresh {p n} (h : d.node p = some n) : ∀ i, n = .file i → i < d.fresh := by
  intro i hi
  rw [hi] at h
  exact d.numbered p i h

def remove : Disk N A C :=
  { d with
    nodes := d.nodes.erase p
    journal := .place p :: d.journal
    numbered := numbered_erase d.numbered p }

omit [DecidableEq N] in
theorem file_fresh {fresh} : ∀ i, (Node.file fresh : Node N A) = .file i → i < fresh + 1 := by
  intro i h
  cases h
  exact Nat.lt_succ_self fresh

/-- A new file under a place. -/
def make (inode : Inode A C) : Disk N A C :=
  { d with
    nodes := d.nodes.insert p (.file d.fresh)
    inodes := Function.update d.inodes d.fresh inode
    fresh := d.fresh + 1
    journal := .place p :: .inode d.fresh :: d.journal
    numbered := numbered_insert (numbered_succ d.numbered) file_fresh }

def write (i : Nat) (inode : Inode A C) : Disk N A C :=
  { d with
    inodes := Function.update d.inodes i inode
    journal := .inode i :: d.journal }

/-- The objects at and below a place. -/
def below (nodes : Table (List N) (Node N A)) (p : List N) : List (Sigma fun _ : List N => Node N A) :=
  nodes.entries.filter fun e => p.isPrefixOf e.1

def moved (source target : List N) (nodes : Table (List N) (Node N A)) : Table (List N) (Node N A) :=
  Table.insertAll ((below nodes source).map fun e => ⟨target ++ e.1.drop source.length, e.2⟩)
    (Table.eraseAll ((below nodes source).map (·.1)) nodes)

theorem numbered_moved (hn : Numbered nodes fresh)
    (source target) : Numbered (moved source target nodes) fresh := by
  intro p i hp
  rcases Table.lookup_insertAll_cases hp with hmem | hold
  · obtain ⟨e, he, heq⟩ := mem_map.mp hmem
    injection heq with _ hnode
    have hlookup : nodes.lookup e.1 = some e.2 := Table.mem_entries.mp (mem_filter.mp he).1
    rw [hnode] at hlookup
    exact hn e.1 i hlookup
  · rw [Table.lookup_eraseAll] at hold
    split at hold
    · cases hold
    · exact hn p i hold

def move (source target : List N) : Disk N A C :=
  { d with
    nodes := moved source target d.nodes
    journal := .place source :: .place target :: d.journal
    numbered := numbered_moved d.numbered source target }

variable (f : A → A)

/-- New attributes for what is at a place. -/
def setAttrs : Disk N A C :=
  match d.node p with
  | none => d
  | some (.directory attrs) => d.put p (.directory (f attrs)) directory_fresh
  | some (.link target attrs) => d.put p (.link target (f attrs)) link_fresh
  | some (.file i) => d.write i { d.inodes i with attrs := f (d.inodes i).attrs }

/-! ### Calls -/

def lstat (path : List (Step N)) : Except Errno (Stat A × Disk N A C) := do
  let p ← d.entry path
  match d.node p with
  | none => .error .notFound
  | some n => .ok (d.stat n, d)

def canonicalize (path : List (Step N)) : Except Errno (List N × Disk N A C) := do
  let p ← d.resolve path
  .ok (p, d)

def readDirectory (path : List (Step N)) : Except Errno (List N × Disk N A C) := do
  let p ← d.resolve path
  if d.isDirectory p then
    .ok (d.nodes.entries.filterMap fun e => if e.1.dropLast = p then e.1.getLast? else none, d)
  else .error .notDirectory

/-- A call that takes a free place. -/
def atFree {α : Type} (path : List (Step N)) (f : List N → α × Disk N A C) : Except Errno (α × Disk N A C) := do
  let p ← d.entry path
  match d.node p with
  | some _ => .error .exists
  | none => .ok (f p)

def mkdir (attrs : A) (path : List (Step N)) : Except Errno (Unit × Disk N A C) :=
  d.atFree path fun p => ((), d.put p (.directory attrs) directory_fresh)

def symlink (target : Link N) (attrs : A) (path : List (Step N)) : Except Errno (Unit × Disk N A C) :=
  d.atFree path fun p => ((), d.put p (.link target attrs) link_fresh)

/-- The new file's inode stands for a descriptor of it. -/
def create (inode : Inode A C) (path : List (Step N)) : Except Errno (Nat × Disk N A C) :=
  d.atFree path fun p => (d.fresh, d.make p inode)

/-- A second name; the source is not followed. -/
def hardLink (source path : List (Step N)) : Except Errno (Unit × Disk N A C) := do
  let s ← d.entry source
  match hs : d.node s with
  | none => .error .notFound
  | some (.directory _) => .error .notPermitted
  | some n => d.atFree path fun p => ((), d.put p n (d.node_fresh hs))

def unlink (path : List (Step N)) : Except Errno (Unit × Disk N A C) := do
  let p ← d.entry path
  match d.node p with
  | none => .error .notFound
  | some (.directory _) => .error .isDirectory
  | some _ => .ok ((), d.remove p)

def isEmptyDirectory : Bool := d.nodes.entries.all fun e => !(p.isPrefixOf e.1 && e.1 != p)

/-- With `replace` off the target has to be free. -/
def rename (replace : Bool) (source target : List (Step N)) : Except Errno (Unit × Disk N A C) := do
  let s ← d.entry source
  let t ← d.entry target
  match d.node s, d.node t with
  | none, _ => .error .notFound
  | some _, none => if s.isPrefixOf t then .error .invalid else .ok ((), d.move s t)
  | some n, some m =>
    if !replace then .error .exists
    else if s.isPrefixOf t || t.isPrefixOf s then if s = t then .ok ((), d) else .error .invalid
    else
      match n, m with
      | .directory _, .directory _ => if d.isEmptyDirectory t then .ok ((), d.move s t) else .error .notEmpty
      | .directory _, _ => .error .notDirectory
      | _, .directory _ => .error .isDirectory
      | _, _ => .ok ((), d.move s t)

/-- `chmod`, `chown` and the like, through links. -/
def setAttributes (path : List (Step N)) : Except Errno (Unit × Disk N A C) := do
  let p ← d.resolve path
  match d.node p with
  | none => .error .notFound
  | some _ => .ok ((), d.setAttrs p f)

def writeInode (i : Nat) (f : Inode A C → Inode A C) : Except Errno (Unit × Disk N A C) :=
  .ok ((), d.write i (f (d.inodes i)))

end Disk

/-! ## What a call can do -/

variable {d d₀ d' : Disk N A C} {path source target : List (Step N)} {p q dir root : List N} {n : N} {attrs : A}
  {since : Nat}

namespace Disk

inductive Change (d : Disk N A C) : Disk N A C → Prop
  | none : Change d d
  | put (p : List N) (new : Node N A) (h : ∀ i, new = .file i → i < d.fresh) : Change d (d.put p new h)
  | remove (p : List N) : Change d (d.remove p)
  | make (p : List N) (inode : Inode A C) : Change d (d.make p inode)
  | write (i : Nat) (inode : Inode A C) : Change d (d.write i inode)
  | move (source target : List N) : Change d (d.move source target)

theorem lstat_ok {st} (h : d.lstat path = .ok (st, d')) :
    d' = d ∧ ∃ p object, d.entry path = .ok p ∧ d.node p = some object ∧ st = d.stat object := by
  obtain ⟨p, hp, h⟩ := bind_eq_ok.mp h
  cases hn : d.node p with
  | none => simp only [hn] at h; cases h
  | some object =>
    simp only [hn] at h
    cases h
    exact ⟨rfl, p, object, hp, hn, rfl⟩

theorem canonicalize_ok {place} (h : d.canonicalize path = .ok (place, d')) :
    d' = d ∧ d.resolve path = .ok place := by
  obtain ⟨p, hp, h⟩ := bind_eq_ok.mp h
  cases h
  exact ⟨rfl, hp⟩

theorem readDirectory_ok {names} (h : d.readDirectory path = .ok (names, d')) : d' = d := by
  obtain ⟨p, hp, h⟩ := bind_eq_ok.mp h
  split at h
  · cases h
    rfl
  · cases h

theorem atFree_ok {α : Type} {f} {a : α} (h : d.atFree path f = .ok (a, d')) :
    ∃ p, d.entry path = .ok p ∧ d.node p = none ∧ f p = (a, d') := by
  obtain ⟨p, hp, h⟩ := bind_eq_ok.mp h
  cases hn : d.node p with
  | some object => simp only [hn] at h; cases h
  | none =>
    simp only [hn] at h
    exact ⟨p, hp, hn, Except.ok.inj h⟩

variable {follow : Bool} {rest : List N} {u : Unit}

theorem mkdir_ok (h : d.mkdir attrs path = .ok (u, d')) :
    ∃ p, d.entry path = .ok p ∧ d.node p = none ∧ d' = d.put p (.directory attrs) directory_fresh := by
  obtain ⟨p, hp, hn, h⟩ := atFree_ok h
  cases h
  exact ⟨p, hp, hn, rfl⟩

theorem symlink_ok {dest} (h : d.symlink dest attrs path = .ok (u, d')) :
    ∃ p, d.entry path = .ok p ∧ d.node p = none ∧ d' = d.put p (.link dest attrs) link_fresh := by
  obtain ⟨p, hp, hn, h⟩ := atFree_ok h
  cases h
  exact ⟨p, hp, hn, rfl⟩

theorem create_ok {i inode} (h : d.create inode path = .ok (i, d')) :
    ∃ p, d.entry path = .ok p ∧ d.node p = none ∧ i = d.fresh ∧ d' = d.make p inode := by
  obtain ⟨p, hp, hn, h⟩ := atFree_ok h
  cases h
  exact ⟨p, hp, hn, rfl, rfl⟩

theorem hardLink_ok (h : d.hardLink source path = .ok (u, d')) :
    ∃ p s object, ∃ hfresh : ∀ i, object = .file i → i < d.fresh, d.entry source = .ok s ∧ d.node s = some object ∧
      (∀ a, object ≠ .directory a) ∧ d.entry path = .ok p ∧ d.node p = none ∧ d' = d.put p object hfresh := by
  obtain ⟨s, hs, h⟩ := bind_eq_ok.mp h
  split at h
  · cases h
  · cases h
  · rename_i object hdir hobject
    obtain ⟨p, hp, hn, h⟩ := atFree_ok h
    cases h
    exact ⟨p, s, object, d.node_fresh hobject, hs, hobject, hdir, hp, hn, rfl⟩

theorem unlink_ok (h : d.unlink path = .ok (u, d')) :
    ∃ p, d.entry path = .ok p ∧ d.isDirectory p = false ∧ d' = d.remove p := by
  obtain ⟨p, hp, h⟩ := bind_eq_ok.mp h
  split at h
  · cases h
  · cases h
  · rename_i object hdir hobject
    cases h
    refine ⟨p, hp, ?_, rfl⟩
    unfold isDirectory
    split
    · rename_i a ha
      exact absurd (Option.some_inj.mp (hobject.symm.trans ha)) (hdir a)
    · rfl

theorem rename_ok {replace} (h : d.rename replace source target = .ok (u, d')) :
    ∃ s t, d.entry source = .ok s ∧ d.entry target = .ok t ∧ (d' = d ∨ d' = d.move s t) := by
  obtain ⟨s, hs, h⟩ := bind_eq_ok.mp h
  obtain ⟨t, ht, h⟩ := bind_eq_ok.mp h
  refine ⟨s, t, hs, ht, ?_⟩
  split at h
  · cases h
  · split at h
    · cases h
    · cases h
      exact .inr rfl
  · split at h
    · cases h
    · split at h
      · split at h
        · cases h
          exact .inl rfl
        · cases h
      · split at h
        · split at h
          · cases h
            exact .inr rfl
          · cases h
        · cases h
        · cases h
        · cases h
          exact .inr rfl

theorem setAttrs_change (p f) : Change d (d.setAttrs p f) := by
  unfold setAttrs
  split
  · exact .none
  · exact .put ..
  · exact .put ..
  · exact .write ..

theorem writeInode_ok {i f} (h : d.writeInode i f = .ok (u, d')) :
    d' = d.write i (f (d.inodes i)) := by
  cases h
  rfl

/-! ### The journal is complete -/

/-- `d` came from `d₀`, and what its journal does not list is as it was. -/
structure Since (d₀ d : Disk N A C) : Prop where
  places : ∀ q, (∀ p, .place p ∈ d.journal → ¬p <+: q) → d.node q = d₀.node q
  inodes : ∀ i, .inode i ∉ d.journal → d.inodes i = d₀.inodes i

theorem Since.refl (d : Disk N A C) : Since d d := ⟨fun _ _ => rfl, fun _ _ => rfl⟩

theorem node_move (s t) (hs : ¬s <+: q) (ht : ¬t <+: q) : (d.move s t).node q = d.node q := by
  show (moved s t d.nodes).lookup q = d.nodes.lookup q
  unfold moved
  rw [Table.lookup_insertAll_of_notMem, Table.lookup_eraseAll, if_neg]
  · intro hmem
    obtain ⟨e, he, rfl⟩ := mem_map.mp hmem
    refine hs ?_
    exact isPrefixOf_iff_prefix.mp (mem_filter.mp he).2
  · intro hmem
    rw [map_map] at hmem
    obtain ⟨e, -, rfl⟩ := mem_map.mp hmem
    exact ht (prefix_append t _)

theorem node_put (new) (h : ∀ i, new = .file i → i < d.fresh) :
    (d.put p new h).node q = if q = p then some new else d.node q := Table.lookup_insert_eq q p

theorem node_remove : (d.remove p).node q = if q = p then none else d.node q := Table.lookup_erase_eq q p

theorem node_make (inode) : (d.make p inode).node q = if q = p then some (.file d.fresh) else d.node q :=
  Table.lookup_insert_eq q p

theorem Since.change (h : Since d₀ d) (hd : Change d d') : Since d₀ d' := by
  cases hd with
  | none => exact h
  | put p new hnew =>
    refine ⟨?_, ?_⟩
    · intro q hq
      have hne : q ≠ p := fun heq => hq p mem_cons_self (heq ▸ prefix_refl q)
      rw [node_put, if_neg hne]
      exact h.places q fun p' hp' => hq p' (mem_cons_of_mem _ hp')
    · intro i hi
      exact h.inodes i fun hmem => hi (mem_cons_of_mem _ hmem)
  | remove p =>
    refine ⟨?_, ?_⟩
    · intro q hq
      have hne : q ≠ p := fun heq => hq p mem_cons_self (heq ▸ prefix_refl q)
      rw [node_remove, if_neg hne]
      exact h.places q fun p' hp' => hq p' (mem_cons_of_mem _ hp')
    · intro i hi
      exact h.inodes i fun hmem => hi (mem_cons_of_mem _ hmem)
  | make p inode =>
    refine ⟨?_, ?_⟩
    · intro q hq
      have hne : q ≠ p := fun heq => hq p mem_cons_self (heq ▸ prefix_refl q)
      rw [node_make, if_neg hne]
      exact h.places q fun p' hp' => hq p' (mem_cons_of_mem _ (mem_cons_of_mem _ hp'))
    · intro i hi
      have hne : i ≠ d.fresh := fun heq => hi (heq ▸ mem_cons_of_mem _ mem_cons_self)
      have hold := h.inodes i fun hmem => hi (mem_cons_of_mem _ (mem_cons_of_mem _ hmem))
      show Function.update d.inodes d.fresh inode i = _
      rw [Function.update_of_ne hne, hold]
  | write j inode =>
    refine ⟨?_, ?_⟩
    · intro q hq
      exact h.places q fun p' hp' => hq p' (mem_cons_of_mem _ hp')
    · intro i hi
      have hne : i ≠ j := fun heq => hi (heq ▸ mem_cons_self)
      have hold := h.inodes i fun hmem => hi (mem_cons_of_mem _ hmem)
      show Function.update d.inodes j inode i = _
      rw [Function.update_of_ne hne, hold]
  | move s t =>
    refine ⟨?_, ?_⟩
    · intro q hq
      rw [node_move s t (hq s mem_cons_self) (hq t (mem_cons_of_mem _ mem_cons_self))]
      exact h.places q fun p' hp' => hq p' (mem_cons_of_mem _ (mem_cons_of_mem _ hp'))
    · intro i hi
      exact h.inodes i fun hmem => hi (mem_cons_of_mem _ (mem_cons_of_mem _ hmem))

/-! ### Paths without links -/

/-- Everything on the way to the place, and what is there, is a directory. -/
def Real (d : Disk N A C) (p : List N) : Prop := ∀ q, q <+: p → d.isDirectory q = true

theorem Real.snoc (h : d.Real p) (hn : d.isDirectory (p ++ [n]) = true) : d.Real (p ++ [n]) := by
  intro q hq
  rcases prefix_concat_iff.mp hq with rfl | hq
  · exact hn
  · exact h q hq

theorem isDirectory_iff : d.isDirectory p = true ↔ ∃ a, d.node p = some (.directory a) := by
  unfold isDirectory
  split
  · rename_i a ha
    exact ⟨fun _ => ⟨a, ha⟩, fun _ => rfl⟩
  · rename_i hnot
    refine ⟨fun h => (by cases h), ?_⟩
    rintro ⟨a, ha⟩
    exact absurd ha (hnot a)

theorem stat_directory {object} (hp : d.node p = some object) (h : (d.stat object).type = .directory) :
    ∃ a, d.node p = some (.directory a) := by
  cases object with
  | directory a => exact ⟨a, hp⟩
  | link target a => cases h
  | file i =>
    exfalso
    simp only [stat] at h
    cases hbody : (d.inodes i).body <;> rw [hbody] at h <;> cases h

variable {chase : List N → List (Step N) → Except Errno (List N)}

theorem walkSteps_entry
    (h : d.Real (p ++ rest)) : d.walkSteps false chase p (steps (rest ++ [n])) = .ok (p ++ (rest ++ [n])) := by
  induction rest generalizing p with
  | nil =>
    have hhere : d.isDirectory p = true := h p (prefix_append p _)
    show walkSteps d false chase p [.name n] = _
    rw [walkSteps, hhere, if_neg (by decide), if_pos (by rfl)]
    rfl
  | cons m rest ih =>
    have hhere : d.isDirectory p = true := h p (prefix_append p _)
    have hreal : d.Real ((p ++ [m]) ++ rest) := by rwa [append_assoc, singleton_append]
    obtain ⟨a, ha⟩ := isDirectory_iff.mp (hreal (p ++ [m]) (prefix_append _ _))
    have hrest := ih hreal
    rw [append_assoc, singleton_append] at hrest
    show walkSteps d false chase p (.name m :: steps (rest ++ [n])) = _
    have hmore : ((steps (rest ++ [n])).isEmpty && !false) = false := by
      simp [steps]
    rw [walkSteps, hhere, if_neg (by decide), hmore, if_neg (by decide), ha]
    exact hrest

theorem walk_eq (follow links) : ∃ chase, d.walk follow links = d.walkSteps follow chase := by
  cases links with
  | zero => exact ⟨_, rfl⟩
  | succ links => exact ⟨_, rfl⟩

/-- No link on the way to the place, nor at it. -/
def Plain (d : Disk N A C) (p : List N) : Prop := ∀ q, q <+: p → ∀ target a, d.node q ≠ some (.link target a)

theorem Real.plain (h : d.Real p) : d.Plain p := by
  intro q hq target a hlink
  obtain ⟨b, hb⟩ := isDirectory_iff.mp (h q hq)
  rw [hlink] at hb
  cases hb

theorem linkSteps_plain {chase}
    (h : d.Plain (p ++ rest)) : d.linkSteps follow chase p (steps rest) = [] := by
  induction rest generalizing p with
  | nil => rfl
  | cons n rest ih =>
    have hnext : d.Plain ((p ++ [n]) ++ rest) := by rwa [append_assoc, singleton_append]
    show linkSteps d follow chase p (.name n :: steps rest) = _
    rw [linkSteps]
    split
    · rfl
    · split
      · rfl
      · split
        · rfl
        · rename_i target a hlink
          exact absurd hlink (hnext (p ++ [n]) (prefix_append _ _) target a)
        · exact ih hnext

theorem linkSteps_entry {chase} (h : d.Plain (p ++ rest)) :
    d.linkSteps false chase p (steps (rest ++ [n])) = [] := by
  induction rest generalizing p with
  | nil =>
    show linkSteps d false chase p [.name n] = _
    rw [linkSteps]
    split
    · rfl
    · rw [if_pos (by rfl)]
  | cons m rest ih =>
    have hnext : d.Plain ((p ++ [m]) ++ rest) := by rwa [append_assoc, singleton_append]
    show linkSteps d false chase p (.name m :: steps (rest ++ [n])) = _
    rw [linkSteps]
    split
    · rfl
    · split
      · rfl
      · split
        · rfl
        · rename_i target a hlink
          exact absurd hlink (hnext (p ++ [m]) (prefix_append _ _) target a)
        · exact ih hnext

theorem linksFrom_eq (follow links) : ∃ chase, d.linksFrom follow links = d.linkSteps follow chase := by
  cases links with
  | zero => exact ⟨_, rfl⟩
  | succ links => exact ⟨_, rfl⟩

theorem linksOn_plain (h : d.Plain p) : d.linksOn follow (steps p) = [] := by
  obtain ⟨chase, hlinks⟩ := d.linksFrom_eq follow linkLimit
  rw [linksOn, hlinks]
  exact linkSteps_plain h

theorem linksOn_entry (h : d.Plain p) : d.linksOn false (steps (p ++ [n])) = [] := by
  obtain ⟨chase, hlinks⟩ := d.linksFrom_eq false linkLimit
  rw [linksOn, hlinks]
  exact linkSteps_entry h

/-- Where the walk is, it came through directories. -/
def Reached (d : Disk N A C) (p : List N) : Prop := ∀ q, q <+: p → q ≠ p → d.isDirectory q = true

theorem Reached.real (h : d.Reached p) (hp : d.isDirectory p = true) : d.Real p := by
  intro q hq
  by_cases heq : q = p
  · rw [heq]
    exact hp
  · exact h q hq heq

theorem Real.reached (h : d.Real p) : d.Reached (p ++ [n]) := by
  intro q hq hne
  rcases prefix_concat_iff.mp hq with rfl | hq
  · exact absurd rfl hne
  · exact h q hq

theorem walkSteps_reached
    (hchase : ∀ here path p, d.Reached here → chase here path = .ok p → d.Reached p) :
    ∀ path here, d.Reached here → d.walkSteps follow chase here path = .ok p → d.Reached p := by
  intro path
  induction path with
  | nil =>
    intro here hhere h
    cases h
    exact hhere
  | cons step rest ih =>
    intro here hhere h
    cases step with
    | up =>
      rw [walkSteps] at h
      split at h
      · rename_i hdir
        refine ih _ ?_ h
        intro q hq _
        refine hhere.real hdir q (hq.trans ?_)
        exact dropLast_prefix here
      · cases h
    | name n =>
      rw [walkSteps] at h
      split at h
      · cases h
      · rename_i hdir
        have hnext : d.Reached (here ++ [n]) := (hhere.real (by simpa using hdir)).reached
        split at h
        · cases h
          exact hnext
        · split at h
          · cases h
          · refine hchase _ _ _ ?_ h
            split
            · intro q hq hne
              exact absurd (prefix_nil.mp hq) hne
            · exact hhere
          · exact ih _ hnext h

theorem walk_reached {links} :
    ∀ here path p, d.Reached here → d.walk follow links here path = .ok p → d.Reached p := by
  induction links with
  | zero =>
    intro here path p hhere h
    refine walkSteps_reached ?_ path here hhere h
    intro _ _ _ _ h
    cases h
  | succ links ih =>
    intro here path p hhere h
    exact walkSteps_reached ih path here hhere h

theorem entry_reached (h : d.entry path = .ok p) : d.Reached p := by
  refine walk_reached [] path p ?_ h
  intro q hq hne
  exact absurd (prefix_nil.mp hq) hne

theorem walkSteps_follow {chase'} (hp : d.isDirectory p = true)
    (hchase : ∀ here path, chase here path = .ok p → chase' here path = .ok p) :
    ∀ path here, d.walkSteps false chase here path = .ok p → d.walkSteps true chase' here path = .ok p := by
  intro path
  induction path with
  | nil => exact fun here h => h
  | cons step rest ih =>
    intro here h
    cases step with
    | up =>
      rw [walkSteps] at h ⊢
      split at h
      · rw [if_pos ‹_›]
        exact ih _ h
      · cases h
    | name n =>
      rw [walkSteps] at h ⊢
      split at h
      · cases h
      · rw [if_neg ‹_›, if_neg (by simp)]
        split at h
        · rename_i hlast
          cases h
          obtain ⟨a, ha⟩ := isDirectory_iff.mp hp
          have hrest : rest = [] := by simpa using hlast
          rw [ha, hrest]
          rfl
        · split at h
          · cases h
          · exact hchase _ _ h
          · exact ih _ h

theorem walk_follow (hp : d.isDirectory p = true) {links} :
    ∀ here path, d.walk false links here path = .ok p → d.walk true links here path = .ok p := by
  induction links with
  | zero =>
    intro here path h
    refine walkSteps_follow hp ?_ path here h
    intro _ _ h
    cases h
  | succ links ih =>
    intro here path h
    exact walkSteps_follow hp ih path here h

theorem entry_resolve (h : d.entry path = .ok p) (hp : d.isDirectory p = true) : d.resolve path = .ok p :=
  walk_follow hp [] path h

theorem entry_real (h : d.Real p) : d.entry (steps (p ++ [n])) = .ok (p ++ [n]) := by
  obtain ⟨chase, hwalk⟩ := d.walk_eq false linkLimit
  rw [entry, hwalk]
  exact walkSteps_entry h

end Disk

end Disk

end Rish.Lib.FileTree
