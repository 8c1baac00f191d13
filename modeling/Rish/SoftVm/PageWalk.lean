/-
  Rish.SoftVm.PageWalk — what a page walk computes.

  The four walks of the source differ in their levels only: the width of an index, the size of an
  entry, what the large-page bit means and whether the entry carries permissions. `walkLevels` is one
  walk over a list of levels, and the source's walks are instances of it (`walk_eq`).

  The specification names the entries a walk visits (`pathFrom`) and says of them when an access is
  granted (`Granted`), what page they map and which error code the x86 definition gives otherwise
  (`ErrorCode`).
-/

import Rish.SoftVm.Events

namespace Rish.SoftVm

open Lib BitVec List
open Translation (accumulate permissive)

/-! ## Levels -/

inductive LargeBit where
  /-- the entry maps a page in any case -/
  | ignored
  | reserved
  | maps
  deriving DecidableEq, Repr

/-- The tables of the four modes. The 32-bit page directory maps 4 MiB pages under CR4.PSE. -/
inductive Level where
  | pml5 | pml4 | pdpt | pd | pt
  | paePdpt
  | pd32 (pse : Bool) | pt32
  deriving DecidableEq, Repr

namespace Level

def shift : Level → Nat
  | pml5 => 48
  | pml4 => 39
  | pdpt | paePdpt => 30
  | pd32 _ => 22
  | pd => 21
  | pt | pt32 => 12

def indexMask : Level → U64
  | paePdpt => 0b11
  | pd32 _ | pt32 => 0x3FF
  | _ => 0x1FF

def wide : Level → Bool
  | pd32 _ | pt32 => false
  | _ => true

/-- The bits of an entry that give an address. -/
def pointer : Level → U64
  | pd32 _ | pt32 => 0xFFFFF000
  | _ => TABLE_MASK

/-- The top entries of PAE carry no permission bits. -/
def rights : Level → Bool
  | paePdpt => false
  | _ => true

def large : Level → LargeBit
  | pml5 | pml4 | paePdpt | pd32 false => .reserved
  | pdpt | pd | pd32 true => .maps
  | pt | pt32 => .ignored

variable (l : Level)

def entryAddress (table linear : U64) : U64 :=
  table + ((linear >>> l.shift) &&& l.indexMask) * (if l.wide then 8 else 4)

variable (entry : U64)

/-- The entry maps a page. -/
def leaf : Bool :=
  match l.large with
  | .ignored => true
  | .reserved => false
  | .maps => entry &&& PAGE_LARGE != 0

def forbids : Bool := l.large = .reserved && entry &&& PAGE_LARGE != 0

def offsetMask : U64 := (1#64 <<< l.shift) - 1

def frame : U64 := entry &&& l.pointer &&& ~~~l.offsetMask

theorem pointer_aligned : l.pointer &&& 0xFFF = 0 := by
  cases l <;> decide +revert

theorem offsetMask_covers : l.offsetMask &&& 0xFFF = 0xFFF := by
  cases l <;> decide +revert

theorem offsetMask_toNat : l.offsetMask.toNat = 2 ^ l.shift - 1 := by
  cases l <;> decide +revert

theorem frame_aligned : l.frame entry &&& 0xFFF = 0 := by
  rw [frame, BitVec.and_assoc, BitVec.and_comm (~~~_), ← BitVec.and_assoc, BitVec.and_assoc entry, l.pointer_aligned]
  exact (congrArg (· &&& _) and_zero).trans zero_and

end Level

/-- The tables of a mode, from the top. -/
def levels (cr4 efer : U64) : List Level :=
  if contains efer Efer.LMA then
    if contains cr4 Cr4.LA57 then [.pml5, .pml4, .pdpt, .pd, .pt] else [.pml4, .pdpt, .pd, .pt]
  else if contains cr4 Cr4.PAE then [.paePdpt, .pd, .pt]
  else [.pd32 (contains cr4 Cr4.PSE), .pt32]

def topTable (cr3 cr4 efer : U64) : U64 :=
  if contains efer Efer.LMA then cr3 &&& TABLE_MASK
  else if contains cr4 Cr4.PAE then cr3 &&& 0xFFFFFFE0
  else cr3 &&& 0xFFFFF000

/-! ## One walk -/

namespace Level

variable (l : Level)

def readAt (address linear : U64) : Walk U64 :=
  if l.wide then readEntry address linear else readEntry32 address linear

def grant (t : Translation) (entry : U64) : Translation := if l.rights then t.accumulate entry else t

def page (t : Translation) (entry : U64) : Translation :=
  { t with
    frame := l.frame entry, pageSize := 1#64 <<< l.shift, frameAligned := l.frame_aligned entry
    sizeCovers := l.offsetMask_covers }

end Level

def walkLevels (linear : U64) : List Level → Translation → U64 → Walk Translation
  | [], t, _ => return t
  | l :: rest, t, table => do
    let entry ← l.readAt (l.entryAddress table linear) linear
    if l.forbids entry then Exec.fail (reservedFault linear)
    else if l.leaf entry then return l.page (l.grant t entry) entry
    else walkLevels linear rest (l.grant t entry) (entry &&& l.pointer)

section Instances

variable {t : Translation} (table cr3 cr4 efer linear : U64)

theorem pageLevel_eq (h : t.pageSize = 0x1000) :
    pageLevel t table linear = walkLevels linear [.pt] t (table &&& TABLE_MASK) := by
  refine bind_congr fun entry => ?_
  obtain ⟨frame, size, writable, user, noExecute, _, _⟩ := t
  cases h
  rfl

theorem frame_eq (l : Level) (hl : l.pointer = TABLE_MASK) (entry : U64) :
    entry &&& ~~~l.offsetMask &&& TABLE_MASK = l.frame entry := by
  rw [Level.frame, hl, BitVec.and_assoc, BitVec.and_assoc, BitVec.and_comm (~~~_)]

theorem page_congr {frame frame' size size'} (hframe : frame = frame') (hsize : size = size')
    (ha : _) (hc : _) (ha' : _) (hc' : _) :
    (⟨frame, size, t.writable, t.user, t.noExecute, ha, hc⟩ : Translation) =
      ⟨frame', size', t.writable, t.user, t.noExecute, ha', hc'⟩ := by
  subst hframe hsize
  rfl

theorem largePage_pd (entry : U64) (h : _) : t.largePage entry 21 h = Level.pd.page t entry :=
  page_congr (frame_eq .pd rfl entry) (by decide) _ _ _ _

theorem largePage_pdpt (entry : U64) (h : _) : t.largePage entry 30 h = Level.pdpt.page t entry :=
  page_congr (frame_eq .pdpt rfl entry) (by decide) _ _ _ _

theorem directoryLevel_eq (h : t.pageSize = 0x1000) :
    directoryLevel t table linear = walkLevels linear [.pd, .pt] t (table &&& TABLE_MASK) := by
  refine bind_congr fun entry => ?_
  rw [largePage_pd, pageLevel_eq entry linear (t := t.accumulate entry) h]
  rfl

theorem pointerLevel_eq (h : t.pageSize = 0x1000) :
    pointerLevel t table linear = walkLevels linear [.pdpt, .pd, .pt] t (table &&& TABLE_MASK) := by
  refine bind_congr fun entry => ?_
  rw [largePage_pdpt, directoryLevel_eq entry linear (t := t.accumulate entry) h]
  rfl

theorem tableLevel_eq {l} (hl : l = .pml5 ∨ l = .pml4) {rest}
    {next}
    (hnext : ∀ entry, next (t.accumulate entry, entry) =
      walkLevels linear rest (t.accumulate entry) (entry &&& TABLE_MASK)) :
    tableLevel t table linear l.shift >>= next = walkLevels linear (l :: rest) t (table &&& TABLE_MASK) := by
  rcases hl with rfl | rfl <;>
  · rw [tableLevel, bind_assoc]
    refine bind_congr fun entry => ?_
    simp only [Level.forbids, Level.leaf, Level.large, Level.grant, Level.rights, decide_true, Bool.true_and,
      Bool.false_eq_true, if_true, if_false]
    by_cases hlarge : (entry &&& PAGE_LARGE != 0) = true
    · rw [if_pos hlarge, if_pos hlarge]
      rfl
    · rw [if_neg hlarge, if_neg hlarge, pure_bind]
      exact hnext entry

theorem walkGeneric_eq (fiveLevel) : walkGeneric cr3 linear fiveLevel =
      walkLevels linear (if fiveLevel then [.pml5, .pml4, .pdpt, .pd, .pt] else [.pml4, .pdpt, .pd, .pt]) .permissive
        (cr3 &&& TABLE_MASK) := by
  cases fiveLevel with
  | true =>
    exact tableLevel_eq cr3 linear (.inl rfl) fun top =>
      tableLevel_eq top linear (.inr rfl) fun entry => pointerLevel_eq entry linear rfl
  | false => exact tableLevel_eq cr3 linear (.inr rfl) fun entry => pointerLevel_eq entry linear rfl

theorem walkPae32_eq : walkPae32 cr3 linear = walkLevels linear [.paePdpt, .pd, .pt] .permissive
    (cr3 &&& 0xFFFFFFE0) := by
  refine bind_congr fun entry => ?_
  rw [directoryLevel_eq entry linear rfl]
  rfl

theorem walk2Level_eq : walk2Level cr3 cr4 linear =
      walkLevels linear [.pd32 (contains cr4 Cr4.PSE), .pt32] .permissive (cr3 &&& 0xFFFFF000) := by
  refine bind_congr fun entry => ?_
  have htable : ∀ t : Translation, t.pageSize = 0x1000 → (do
      let entry ← readEntry32 ((entry &&& 0xFFFFF000) + ((linear >>> 12) &&& 0x3FF) * 4) linear
      return { t.accumulate entry with
        frame := entry &&& 0xFFFFF000, frameAligned := Translation.aligned_of_mask _ (by decide) }) =
      walkLevels linear [.pt32] t (entry &&& 0xFFFFF000) := by
    intro t ht
    refine bind_congr fun entry => congrArg pure ?_
    have hframe : entry &&& 0xFFFFF000 = Level.pt32.frame entry := by
      rw [Level.frame, BitVec.and_assoc]
      exact congrArg (entry &&& ·) (by decide)
    exact page_congr hframe ht _ _ _ _
  have hlarge : ∀ t : Translation, ∀ ha hc, ({ t with
      pageSize := 0x400000, frame := entry &&& 0xFFC00000, frameAligned := ha, sizeCovers := hc } : Translation) =
      (Level.pd32 true).page t entry := by
    intro t ha hc
    have hframe : entry &&& 0xFFC00000 = (Level.pd32 true).frame entry := by
      rw [Level.frame, BitVec.and_assoc]
      exact congrArg (entry &&& ·) (by decide)
    exact page_congr hframe (by decide) _ _ _ _
  cases contains cr4 Cr4.PSE with
  | true =>
    show _ = if entry &&& PAGE_LARGE != 0 then pure ((Level.pd32 true).page (.accumulate _ entry) entry) else
      walkLevels linear [.pt32] (.accumulate _ entry) (entry &&& 0xFFFFF000)
    exact ite_congr rfl (fun _ => congrArg pure (hlarge _ _ _)) fun _ => htable _ rfl
  | false =>
    show _ = if entry &&& PAGE_LARGE != 0 then Exec.fail (reservedFault linear) else
      walkLevels linear [.pt32] (.accumulate _ entry) (entry &&& 0xFFFFF000)
    exact ite_congr rfl (fun _ => rfl) fun _ => htable _ rfl

theorem walk_eq : walk cr3 cr4 efer linear =
    walkLevels linear (levels cr4 efer) .permissive (topTable cr3 cr4 efer) := by
  rw [walk, levels, topTable, walkGeneric_eq, walkPae32_eq, walk2Level_eq]
  split
  · split <;> rfl
  · split <;> rfl

end Instances

/-! ## The specification -/

def Level.entryAt (l : Level) (m : Memory) (address : U64) : Outcome CpuError U64 :=
  if l.wide then m.readU64 address else do return (← m.readU32 address).setWidth 64

/-- An entry a walk visits; `none` where the memory does not answer. -/
structure Visit where
  level : Level
  address : U64
  entry : Option U64
  deriving DecidableEq, Repr

namespace Visit

variable (v : Visit)

def present : Bool := v.entry.any (· &&& PAGE_PRESENT != 0)
def reserved : Bool := v.entry.any v.level.forbids
def writable : Bool := !v.level.rights || v.entry.any (· &&& PAGE_WRITABLE != 0)
def user : Bool := !v.level.rights || v.entry.any (· &&& PAGE_USER != 0)
def noExecute : Bool := v.level.rights && v.entry.any (· &&& PAGE_NX != 0)

end Visit

/-- The entries on the path of an address, down to its page or to the entry that ends the walk. -/
def pathFrom (m : Memory) (linear : U64) : List Level → U64 → List Visit
  | [], _ => []
  | l :: rest, table =>
    let address := l.entryAddress table linear
    match l.entryAt m address with
    | .ok entry =>
      ⟨l, address, some entry⟩ ::
        if entry &&& PAGE_PRESENT != 0 && !l.forbids entry && !l.leaf entry then
          pathFrom m linear rest (entry &&& l.pointer)
        else []
    | .err _ | .panic => [⟨l, address, none⟩]

def Cpu.path (c : Cpu) (linear : U64) : List Visit :=
  pathFrom c.memory linear (levels c.regs.cr4 c.regs.efer) (topTable c.regs.cr3 c.regs.cr4 c.regs.efer)

/-- The permissions of every level together allow the access. -/
structure Permits (path : List Visit) (kind : AccessKind) (cpl : Nat) (r : Registers) : Prop where
  user : cpl = 3 → ∀ v ∈ path, v.user
  write : kind = .write → cpl = 3 ∨ contains r.cr0 Cr0.WP → ∀ v ∈ path, v.writable
  fetch : kind = .execute → contains r.efer Efer.NXE → ∀ v ∈ path, ¬ v.noExecute
  smep : kind = .execute → cpl ≠ 3 → contains r.cr4 Cr4.SMEP → ∃ v ∈ path, ¬ v.user
  smap : kind ≠ .execute → cpl ≠ 3 → contains r.cr4 Cr4.SMAP → ¬ contains r.rflags RFlags.AC → ∃ v ∈ path, ¬ v.user

/-- Every entry on the path is present, none has a reserved large-page bit, and the access is allowed. -/
structure Granted (path : List Visit) (kind : AccessKind) (cpl : Nat) (r : Registers) : Prop where
  present : ∀ v ∈ path, v.present
  allowed : ∀ v ∈ path, ¬ v.reserved
  permits : Permits path kind cpl r

/-- The x86 definition: a fetch is reported where instruction fetches can be refused on their own. -/
def reportsFetch (r : Registers) : Prop :=
  contains r.cr4 Cr4.SMEP ∨ (contains r.cr4 Cr4.PAE ∧ contains r.efer Efer.NXE)

/-- The error code the x86 definition gives a refused access. -/
structure ErrorCode (path : List Visit) (kind : AccessKind) (cpl : Nat) (r : Registers) (code : U16) : Prop where
  present : code.getLsbD 0 = true ↔ ∀ v ∈ path, v.present
  write : code.getLsbD 1 = true ↔ kind = .write
  user : code.getLsbD 2 = true ↔ cpl = 3
  reserved : code.getLsbD 3 = true ↔ (∀ v ∈ path, v.present) ∧ ∃ v ∈ path, v.reserved
  fetch : code.getLsbD 4 = true ↔ kind = .execute ∧ reportsFetch r
  others : ∀ i, 5 ≤ i → code.getLsbD i = false

/-- A granted access goes to its place in the page the last entry maps; a refused one is a page fault. -/
structure Translates (path : List Visit) (linear : U64) (kind : AccessKind) (cpl : Nat) (r : Registers)
    (o : Outcome CpuError U64) : Prop where
  granted : Granted path kind cpl r → ∃ v entry physical, path.getLast? = some v ∧ v.entry = some entry ∧
    o = .ok physical ∧ physical.toNat = (v.level.frame entry).toNat + linear.toNat % 2 ^ v.level.shift
  refused : ¬ Granted path kind cpl r → ∃ code, o = .err (.pageFault linear code) ∧ ErrorCode path kind cpl r code

/-! ## What a walk returns -/

/-- The walk gave the page of the last entry, with the permissions of all of them and of `t`. -/
structure Shows (t : Translation) (path : List Visit) (walked : Translation) : Prop where
  leaf : ∃ v entry, path.getLast? = some v ∧ v.entry = some entry ∧ walked.frame = v.level.frame entry ∧
    walked.pageSize = 1#64 <<< v.level.shift
  writable : walked.writable = (t.writable && path.all Visit.writable)
  user : walked.user = (t.user && path.all Visit.user)
  noExecute : walked.noExecute = (t.noExecute || path.any Visit.noExecute)

/-- No entry is in the I/O APIC's data window with an unnamed register selected. -/
def Answered (m : Memory) (path : List Visit) : Prop := ∀ v ∈ path, m.unnamedRegister v.address = false

/-- How a walk ends and what its path looks like then. -/
inductive Agrees (m : Memory) (linear : U64) (t : Translation) (path : List Visit) :
    Outcome PageFault Translation → Prop
  | mapped {walked : Translation} (answered : Answered m path) (present : ∀ v ∈ path, v.present)
      (allowed : ∀ v ∈ path, ¬ v.reserved) (shows : Shows t path walked) : Agrees m linear t path (.ok walked)
  | absent (answered : Answered m path) (missing : ∃ v ∈ path, ¬ v.present) : Agrees m linear t path (.err ⟨linear, 0⟩)
  | reserved (answered : Answered m path) (present : ∀ v ∈ path, v.present) (forbidden : ∃ v ∈ path, v.reserved) :
      Agrees m linear t path (.err (reservedFault linear))
  | aborts (unanswered : ¬ Answered m path) : Agrees m linear t path .panic

section Walks

variable {m : Memory} {linear : U64} {t : Translation} {l : Level} {entry address : U64} {path : List Visit}
  {o : Outcome PageFault Translation}

theorem entryAt_panic : l.entryAt m address = .panic ↔ m.unnamedRegister address = true := by
  have hread : ∀ n ≤ 8, m.readU64At address n = .panic ↔ m.unnamedRegister address = true := by
    intro n hn
    have hpanic := m.read_panic_iff address n
    have hnot : ¬ 8 < n := by omega
    rw [or_iff_right fun h => hnot h.2] at hpanic
    rw [← hpanic, Memory.readU64At]
    cases m.read address n <;> simp
  rw [← hread (if l.wide then 8 else 4) (by split <;> decide), Level.entryAt]
  by_cases hwide : l.wide = true
  · simp only [hwide, if_true, Memory.readU64]
  · simp only [hwide, Memory.readU32, Bool.false_eq_true, if_false]
    rcases h : m.readU64At address 4 <;> simp

theorem readAt_outcome : (l.readAt address linear m).outcome =
    match l.entryAt m address with
    | .ok entry => validateEntry entry linear
    | .err _ => .err ⟨linear, 0⟩
    | .panic => .panic := by
  unfold Level.readAt Level.entryAt
  split
  · simp only [readEntry, Exec.query_apply]
    cases m.readU64 address <;> rfl
  · simp only [readEntry32, Exec.query_apply]
    cases m.readU32 address <;> rfl

theorem readAt_state : (l.readAt address linear m).state = m := by
  unfold Level.readAt
  split <;> rfl

theorem Agrees.cons (hanswered : m.unnamedRegister address = false) (hpresent : (entry &&& PAGE_PRESENT != 0) = true)
    (hallowed : l.forbids entry = false) (h : Agrees m linear (l.grant t entry) path o) :
    Agrees m linear t (⟨l, address, some entry⟩ :: path) o := by
  cases h with
  | mapped answered present allowed shows =>
    refine .mapped (forall_mem_cons.mpr ⟨hanswered, answered⟩) (forall_mem_cons.mpr ⟨hpresent, present⟩)
      (forall_mem_cons.mpr ⟨by simpa [Visit.reserved] using hallowed, allowed⟩) ⟨?_, ?_, ?_, ?_⟩
    · obtain ⟨v, e, hlast, hrest⟩ := shows.leaf
      exact ⟨v, e, by rw [getLast?_cons, hlast]; rfl, hrest⟩
    · rw [shows.writable, all_cons, ← Bool.and_assoc, Level.grant]
      cases hr : l.rights <;> simp [Visit.writable, hr, accumulate]
    · rw [shows.user, all_cons, ← Bool.and_assoc, Level.grant]
      cases hr : l.rights <;> simp [Visit.user, hr, accumulate]
    · rw [shows.noExecute, any_cons, ← Bool.or_assoc, Level.grant]
      cases hr : l.rights <;> simp [Visit.noExecute, hr, accumulate]
  | absent answered missing =>
    obtain ⟨v, hv, hmissing⟩ := missing
    exact .absent (forall_mem_cons.mpr ⟨hanswered, answered⟩) ⟨v, mem_cons_of_mem _ hv, hmissing⟩
  | reserved answered present forbidden =>
    obtain ⟨v, hv, hreserved⟩ := forbidden
    exact .reserved (forall_mem_cons.mpr ⟨hanswered, answered⟩) (forall_mem_cons.mpr ⟨hpresent, present⟩)
      ⟨v, mem_cons_of_mem _ hv, hreserved⟩
  | aborts unanswered => exact .aborts fun h => unanswered (forall_mem_cons.mp h).2

theorem Agrees.leaf (hanswered : m.unnamedRegister address = false) (hpresent : (entry &&& PAGE_PRESENT != 0) = true)
    (hallowed : l.forbids entry = false) :
    Agrees m linear t [⟨l, address, some entry⟩] (.ok (l.page (l.grant t entry) entry)) := by
  refine .mapped (by simpa [Answered] using hanswered) (by simpa [Visit.present] using hpresent)
    (by simpa [Visit.reserved] using hallowed) ⟨⟨_, entry, rfl, rfl, rfl, rfl⟩, ?_, ?_, ?_⟩ <;>
  · simp only [Level.page, Level.grant, all_cons, any_cons, all_nil, any_nil]
    cases hr : l.rights <;> simp [Visit.writable, Visit.user, Visit.noExecute, hr, accumulate]

/-- The last of the tables maps pages only. -/
def Complete : List Level → Prop
  | [] => False
  | [l] => l.large = .ignored
  | _ :: rest => Complete rest

theorem levels_complete (cr4 efer) : Complete (levels cr4 efer) := by
  unfold levels
  split
  · split <;> rfl
  · split <;> rfl

theorem walkLevels_agrees {ls} (hcomplete : Complete ls) (t) (table : U64) :
    Agrees m linear t (pathFrom m linear ls table) (walkLevels linear ls t table m).outcome := by
  induction ls generalizing t table with
  | nil => exact hcomplete.elim
  | cons l rest ih =>
    have hread : (l.readAt (l.entryAddress table linear) linear m).outcome = _ := readAt_outcome
    have hrun := Run.eq_of_outcome hread
    rw [readAt_state] at hrun
    have hpanic : l.entryAt m (l.entryAddress table linear) = .panic ↔ _ := entryAt_panic
    unfold walkLevels pathFrom
    dsimp only
    rcases hentry : l.entryAt m (l.entryAddress table linear) with entry | error | _ <;> rw [hentry] at hrun hpanic <;>
      dsimp only at hrun ⊢
    · -- the entry is there: absent, forbidden, a page or a table
      have hanswered : m.unnamedRegister (l.entryAddress table linear) = false := by simpa using hpanic
      by_cases hpresent : entry &&& PAGE_PRESENT = 0
      · rw [validateEntry, if_pos hpresent] at hrun
        rw [Exec.bind_err hrun]
        simp only [hpresent, bne_self_eq_false, Bool.false_and, Bool.false_eq_true, if_false]
        exact .absent (by simpa [Answered] using hanswered) ⟨_, mem_singleton_self _, by simp [Visit.present, hpresent]⟩
      · have hbit : (entry &&& PAGE_PRESENT != 0) = true := by simpa using hpresent
        rw [validateEntry, if_neg hpresent] at hrun
        rw [Exec.bind_ok hrun, Run.after_outcome, hbit]
        cases hforbids : l.forbids entry with
        | true =>
          simp only [if_true, Bool.not_true, Bool.and_false, Bool.false_and, Bool.false_eq_true, if_false]
          exact .reserved (by simpa [Answered] using hanswered) (by simpa [Visit.present] using hbit)
            ⟨_, mem_singleton_self _, by simpa [Visit.reserved] using hforbids⟩
        | false =>
          cases hleaf : l.leaf entry with
          | true => simpa using Agrees.leaf hanswered hbit hforbids
          | false =>
            simp only [Bool.not_false, Bool.and_self, Bool.false_eq_true, if_true, if_false]
            refine .cons hanswered hbit hforbids (ih ?_ _ _)
            cases rest with
            | nil => simp [Level.leaf, show l.large = .ignored from hcomplete] at hleaf
            | cons _ _ => exact hcomplete
    · have hanswered : m.unnamedRegister (l.entryAddress table linear) = false := by simpa using hpanic
      rw [Exec.bind_err hrun]
      exact .absent (by simpa [Answered] using hanswered) ⟨_, mem_singleton_self _, by simp [Visit.present]⟩
    · rw [Exec.bind_panic hrun]
      exact .aborts fun h => by simpa [hpanic.mp rfl] using h _ (mem_singleton_self _)

end Walks

theorem walkOf_agrees (c : Cpu) (linear : U64) :
    Agrees c.memory linear .permissive (c.path linear) (c.walkOf linear) := by
  rw [Cpu.walkOf, walk_eq]
  exact walkLevels_agrees (levels_complete _ _) _ _

/-! ## Translation -/

section Translation

variable {linear : U64} {kind : AccessKind} {cpl : Nat} {c : Cpu} {path : List Visit} {walked : Translation}

variable (kind cpl) in
theorem denied_iff (hshows : Shows .permissive path walked) (r) :
    denied walked kind cpl r.cr0 r.cr4 r.efer (contains r.rflags RFlags.AC) = false ↔ Permits path kind cpl r := by
  have hwritable : walked.writable = true ↔ ∀ v ∈ path, v.writable := by
    rw [hshows.writable]
    simp [permissive]
  have huser : walked.user = true ↔ ∀ v ∈ path, v.user := by
    rw [hshows.user]
    simp [permissive]
  have hexecute : walked.noExecute = false ↔ ∀ v ∈ path, ¬ v.noExecute := by
    rw [hshows.noExecute]
    simp [permissive]
  have hkernel : walked.user = false ↔ ∃ v ∈ path, ¬ v.user := by
    rw [hshows.user]
    simp [permissive]
  have hpermits : Permits path kind cpl r ↔ (cpl = 3 → walked.user = true) ∧
      (kind = .write → cpl = 3 ∨ contains r.cr0 Cr0.WP → walked.writable = true) ∧
      (kind = .execute → contains r.efer Efer.NXE → walked.noExecute = false) ∧
      (kind = .execute → cpl ≠ 3 → contains r.cr4 Cr4.SMEP → walked.user = false) ∧
      (kind ≠ .execute → cpl ≠ 3 → contains r.cr4 Cr4.SMAP → ¬ contains r.rflags RFlags.AC → walked.user = false) := by
    rw [huser, hwritable, hexecute, hkernel]
    constructor
    · intro h
      obtain ⟨h1, h2, h3, h4, h5⟩ := h
      exact ⟨h1, h2, h3, h4, h5⟩
    · intro h
      obtain ⟨h1, h2, h3, h4, h5⟩ := h
      exact ⟨h1, h2, h3, h4, h5⟩
  rw [hpermits]
  unfold denied
  generalize walked.user = user, walked.writable = writable, walked.noExecute = noExecute
  by_cases hcpl : cpl = 3 <;> cases kind <;> cases user <;> simp [hcpl]

theorem physical_toNat (hshows : Shows .permissive path walked) :
    ∃ v entry, path.getLast? = some v ∧ v.entry = some entry ∧
      (walked.physical linear).toNat = (v.level.frame entry).toNat + linear.toNat % 2 ^ v.level.shift := by
  obtain ⟨v, entry, hlast, hentry, hframe, hsize⟩ := hshows.leaf
  refine ⟨v, entry, hlast, hentry, ?_⟩
  have hmask : walked.pageSize - 1 = v.level.offsetMask := by rw [hsize, Level.offsetMask]
  have hdisjoint : v.level.frame entry &&& (linear &&& v.level.offsetMask) = 0#64 := by
    rw [Level.frame, BitVec.and_comm linear, ← BitVec.and_assoc, BitVec.and_assoc _ (~~~_), BitVec.not_and_self]
    simp
  rw [Translation.physical, hframe, hmask, ← add_eq_or_of_and_eq_zero _ _ hdisjoint,
    toNat_add_of_and_eq_zero hdisjoint, toNat_and, v.level.offsetMask_toNat, Nat.and_two_pow_sub_one_eq_mod]

theorem errorCode_iff {r} {base : U16} (hbase : base.toNat < 16) (hwrite : base.getLsbD 1 = false)
    (huser : base.getLsbD 2 = false) (hpresent : base.getLsbD 0 = true ↔ ∀ v ∈ path, v.present)
    (hreserved : base.getLsbD 3 = true ↔ (∀ v ∈ path, v.present) ∧ ∃ v ∈ path, v.reserved) :
    ErrorCode path kind cpl r (base ||| accessBits kind cpl) ↔ (kind = .execute → reportsFetch r) := by
  have hfetch : base.getLsbD 4 = false := by
    rw [BitVec.getLsbD]
    exact Nat.testBit_lt_two_pow hbase
  have hbits : (accessBits kind cpl).getLsbD 0 = false ∧ ((accessBits kind cpl).getLsbD 1 = true ↔ kind = .write) ∧
      ((accessBits kind cpl).getLsbD 2 = true ↔ cpl = 3) ∧ (accessBits kind cpl).getLsbD 3 = false ∧
      ((accessBits kind cpl).getLsbD 4 = true ↔ kind = .execute) ∧ (accessBits kind cpl).toNat < 32 := by
    unfold accessBits
    by_cases hcpl : cpl = 3 <;> cases kind <;> simp [hcpl, FAULT_WRITE, FAULT_USER, FAULT_FETCH]
  obtain ⟨h0, h1, h2, h3, h4, hsmall⟩ := hbits
  constructor
  · intro h hkind
    have hbit := h.fetch
    rw [getLsbD_or, hfetch, Bool.false_or] at hbit
    exact (hbit.mp (h4.mpr hkind)).2
  · intro h
    refine ⟨?_, ?_, ?_, ?_, ?_, ?_⟩
    · rw [getLsbD_or, h0, Bool.or_false, hpresent]
    · rw [getLsbD_or, hwrite, Bool.false_or, h1]
    · rw [getLsbD_or, huser, Bool.false_or, h2]
    · rw [getLsbD_or, h3, Bool.or_false, hreserved]
    · rw [getLsbD_or, hfetch, Bool.false_or, h4]
      exact ⟨fun hkind => ⟨hkind, h hkind⟩, And.left⟩
    · intro i hi
      have hpow : 2 ^ 5 ≤ 2 ^ i := Nat.pow_le_pow_right (by decide) hi
      rw [BitVec.getLsbD, toNat_or]
      exact Nat.testBit_lt_two_pow (Nat.lt_of_lt_of_le (Nat.or_lt_two_pow (by omega) hsmall) hpow)

theorem translates_fault {r} {code : U16} (hrefused : ¬ Granted path kind cpl r) :
    Translates path linear kind cpl r (.err (.pageFault linear code)) ↔ ErrorCode path kind cpl r code := by
  constructor
  · intro h
    obtain ⟨code', hcode, hx86⟩ := h.refused hrefused
    cases hcode
    exact hx86
  · intro h
    exact ⟨fun hgranted => absurd hgranted hrefused, fun _ => ⟨code, rfl, h⟩⟩

theorem checked_eq (c walked) : Cpu.checked linear kind cpl c walked =
      if denied walked kind cpl c.regs.cr0 c.regs.cr4 c.regs.efer (contains c.regs.rflags RFlags.AC) then
        .err (.pageFault linear (FAULT_PRESENT ||| accessBits kind cpl))
      else .ok (walked.physical linear) := by
  unfold Cpu.checked checkAccess
  cases denied walked kind cpl c.regs.cr0 c.regs.cr4 c.regs.efer (contains c.regs.rflags RFlags.AC) <;> rfl

/-- Translation without the TLB is the x86 translation exactly when the tables answer, and a refused fetch
    is one the x86 definition reports. -/
theorem translates_iff (c : Cpu) (linear : U64) (kind : AccessKind) (cpl : Nat) (hpaging : contains c.regs.cr0 Cr0.PG)
    (hmiss : c.tlbLookup linear = none) :
    Translates (c.path linear) linear kind cpl c.regs (Cpu.translateAs linear kind cpl c).outcome ↔
      Answered c.memory (c.path linear) ∧
        (kind = .execute → Granted (c.path linear) kind cpl c.regs ∨ reportsFetch c.regs) := by
  have houtcome : (Cpu.translateAs linear kind cpl c).outcome =
      (c.walkOf linear).mapErr (Cpu.walkFault kind cpl) >>= Cpu.checked linear kind cpl c := by
    rw [(Cpu.answers_translateAs linear kind cpl c).outcome, Cpu.usedWalk, hmiss, hpaging]
    rfl
  rw [houtcome]
  have hagrees := walkOf_agrees c linear
  generalize c.walkOf linear = o at hagrees
  generalize c.path linear = path at hagrees
  cases hagrees with
  | mapped answered present allowed shows =>
    show Translates _ _ _ _ _ (Cpu.checked linear kind cpl c _) ↔ _
    rw [checked_eq]
    have hdenied := denied_iff kind cpl shows c.regs
    split
    · rename_i hrefused
      have hnot : ¬ Granted path kind cpl c.regs := fun h => by
        rw [hdenied.mpr h.permits] at hrefused
        cases hrefused
      rw [translates_fault hnot, errorCode_iff (by decide) (by decide) (by decide) (iff_of_true (by decide) present)
        (iff_of_false (by decide) fun ⟨_, v, hv, hreserved⟩ => allowed v hv hreserved)]
      simp only [answered, hnot, true_and, false_or]
    · rename_i hallowed
      have hgranted : Granted path kind cpl c.regs := ⟨present, allowed, hdenied.mp (by simpa using hallowed)⟩
      refine iff_of_true ⟨fun _ => ?_, fun hnot => absurd hgranted hnot⟩ ⟨answered, fun _ => .inl hgranted⟩
      obtain ⟨v, entry, hlast, hentry, hphysical⟩ := physical_toNat shows
      exact ⟨v, entry, _, hlast, hentry, rfl, hphysical⟩
  | absent answered missing =>
    have hnot : ¬ Granted path kind cpl c.regs := fun h => by
      obtain ⟨v, hv, hmissing⟩ := missing
      exact hmissing (h.present v hv)
    have habsent : ¬ ∀ v ∈ path, v.present := fun h => by
      obtain ⟨v, hv, hmissing⟩ := missing
      exact hmissing (h v hv)
    show Translates _ _ _ _ _ (.err (.pageFault linear (0 ||| accessBits kind cpl))) ↔ _
    rw [translates_fault hnot, errorCode_iff (by decide) (by decide) (by decide) (iff_of_false (by decide) habsent)
      (iff_of_false (by decide) fun h => habsent h.1)]
    simp only [answered, hnot, true_and, false_or]
  | reserved answered present forbidden =>
    have hnot : ¬ Granted path kind cpl c.regs := fun h => by
      obtain ⟨v, hv, hreserved⟩ := forbidden
      exact h.allowed v hv hreserved
    show Translates _ _ _ _ _ (.err (.pageFault linear (FAULT_PRESENT ||| FAULT_RESERVED ||| accessBits kind cpl))) ↔ _
    rw [translates_fault hnot, errorCode_iff (by decide) (by decide) (by decide) (iff_of_true (by decide) present)
      (iff_of_true (by decide) ⟨present, forbidden⟩)]
    simp only [answered, hnot, true_and, false_or]
  | aborts unanswered =>
    refine iff_of_false (fun h => ?_) fun h => unanswered h.1
    by_cases hgranted : Granted path kind cpl c.regs
    · obtain ⟨_, _, _, -, -, hok, -⟩ := h.granted hgranted
      cases hok
    · obtain ⟨_, herr, -⟩ := h.refused hgranted
      cases herr

end Translation

/-! ## A fetch that nothing refuses on its own -/

/-- A machine with 32-bit paging and one page directory entry. -/
def oneEntry (entry : List U8) (cr4 : U64) : Cpu :=
  let c := Cpu.new { Memory.withLapic with ram := Memory.withLapic.ram.store 0x1000 entry } 0 0 false
  { c with regs := { c.regs with cr0 := Cr0.PG ||| Cr0.PE, cr3 := 0x1000, cr4 := cr4 } }

/-- A 4 MiB page is read at its place. -/
theorem large_page_translates :
    Translates ((oneEntry [0x83, 0, 0x40, 0] Cr4.PSE).path 0x5000) 0x5000 .read 0
      (oneEntry [0x83, 0, 0x40, 0] Cr4.PSE).regs
      (Cpu.translateAs 0x5000 .read 0 (oneEntry [0x83, 0, 0x40, 0] Cr4.PSE)).outcome :=
  (translates_iff (oneEntry [0x83, 0, 0x40, 0] Cr4.PSE) 0x5000 .read 0 (by decide +kernel) (by decide +kernel)).mpr
    ⟨by unfold Answered; decide +kernel, fun h => by cases h⟩

/-- A fetch from an absent page with neither SMEP nor NXE: the code has the fetch bit. -/
theorem fetch_without_nxe :
    (Cpu.translateAs 0x5000 .execute 3 (oneEntry [0, 0, 0, 0] 0)).outcome = .err (.pageFault 0x5000 0b10100) ∧
      ¬ Translates ((oneEntry [0, 0, 0, 0] 0).path 0x5000) 0x5000 .execute 3 (oneEntry [0, 0, 0, 0] 0).regs
        (Cpu.translateAs 0x5000 .execute 3 (oneEntry [0, 0, 0, 0] 0)).outcome := by
  have houtcome : (Cpu.translateAs 0x5000 .execute 3 (oneEntry [0, 0, 0, 0] 0)).outcome =
      .err (.pageFault 0x5000 0b10100) := by decide +kernel
  refine ⟨houtcome, fun h => ?_⟩
  rw [houtcome] at h
  by_cases hgranted : Granted ((oneEntry [0, 0, 0, 0] 0).path 0x5000) .execute 3 (oneEntry [0, 0, 0, 0] 0).regs
  · obtain ⟨_, _, _, -, -, hok, -⟩ := h.granted hgranted
    cases hok
  · obtain ⟨code, hcode, hx86⟩ := h.refused hgranted
    cases hcode
    have hreports : reportsFetch (oneEntry [0, 0, 0, 0] 0).regs := (hx86.fetch.mp (by decide)).2
    revert hreports
    unfold reportsFetch
    decide +kernel

end Rish.SoftVm
