/-
  Rish.SoftVm.Events — what can happen to the machine between two looks into its caches: an access,
  a fetch, a store of the CPU, a write of a device, an invalidation, a load of a register that
  drives paging, and every other change, which leaves the mapping and RAM alone.

  An event runs the code that makes it happen. A translation asks the page tables or the TLB;
  `freshTranslate` is the translation that always asks the tables.

  Proved: what a translation answers (`answers_translateAs`) and what it leaves in the TLB
  (`Refills`, kept by every translation and by a whole fetch).
-/

import Rish.Lib.Cache
import Rish.SoftVm.Step

namespace Rish.SoftVm

open Lib

/-- The control registers whose load drops every translation. -/
inductive PagingRegister where
  | cr0 | cr3 | cr4
  deriving DecidableEq, Repr

def PagingRegister.number : PagingRegister → Nat
  | .cr0 => 0
  | .cr3 => 3
  | .cr4 => 4

inductive Event where
  | access (linear : U64) (kind : AccessKind) (cpl : Nat)
  | fetch
  | store (physical : U64) (bytes : List U8)
  /-- a device's write into RAM -/
  | dma (address : U64) (bytes : List U8)
  | invlpg (linear : U64)
  | control (register : PagingRegister) (value : U64)
  | efer (value : U64)
  /-- any other change -/
  | other (f : Cpu → Cpu)

namespace Cpu

/-! ## Events -/

/-- A device writes through its own view of RAM, which refuses a range outside it. -/
def deviceWrite (address : U64) (bytes : List U8) (c : Cpu) : Cpu :=
  match Virtio.checkRange ⟨c.memory.ram, false⟩ address bytes.length with
  | .ok _ => { c with memory := { c.memory with ram := c.memory.ram.store address.toNat bytes } }
  | _ => c

def keepMapping (c c' : Cpu) : Cpu :=
  { c' with
    tlb := c.tlb, decoded := c.decoded, tlbDisabled := c.tlbDisabled, memory := { c'.memory with ram := c.memory.ram }
    regs := { c'.regs with cr3 := c.regs.cr3, cr4 := c.regs.cr4, efer := c.regs.efer } }

end Cpu

namespace Event

open Cpu

def perform (decoder : Decoder) : Event → CpuM Unit
  | .access linear kind cpl => do
    let _ ← translateAs linear kind cpl
    return ()
  | .fetch => do
    let _ ← Cpu.fetch decoder
    return ()
  | .store physical bytes => memoryWrite physical bytes
  | .dma address bytes => Exec.update (deviceWrite address bytes)
  | .invlpg linear => invalidatePage linear
  | .control register value => do
    let c ← get
    Ops.finishToControl register.number (Ops.writeControl c.regs register.number value)
  | .efer value => Ops.finishWrmsr (Ops.msrWrite Ops.MSR_EFER value)
  | .other f => Exec.update fun c => keepMapping c (f c)

/-- The machine after an event; a fault leaves it where the event failed. -/
def next (decoder : Decoder) (e : Event) (c : Cpu) : Cpu := (e.perform decoder c).state

end Event

namespace Cpu

/-! ## Translation -/

/-- What the page tables say about an address. -/
def walkOf (c : Cpu) (linear : U64) : Outcome PageFault Translation :=
  (walk c.regs.cr3 c.regs.cr4 c.regs.efer linear c.memory).outcome

def walkFault (kind : AccessKind) (cpl : Nat) (fault : PageFault) : CpuError :=
  pageFault (withAccessBits fault kind cpl)

variable (linear : U64) (kind : AccessKind) (cpl : Nat) (c : Cpu)

def checked (walked : Translation) : Outcome CpuError U64 :=
  match checkAccess walked linear kind cpl c.regs.cr0 c.regs.cr4 c.regs.efer (contains c.regs.rflags RFlags.AC) with
  | .ok _ => .ok (walked.physical linear)
  | .error fault => .err (pageFault fault)

def freshTranslate : Outcome CpuError U64 :=
  if !contains c.regs.cr0 Cr0.PG then .ok linear
  else (c.walkOf linear).mapErr (walkFault kind cpl) >>= checked linear kind cpl c

def usedWalk : Outcome PageFault Translation :=
  match c.tlbLookup linear with
  | some walked => .ok walked
  | none => c.walkOf linear

theorem onMemory_walk (f) (c : Cpu) :
    onMemory ((walk c.regs.cr3 c.regs.cr4 c.regs.efer linear).mapErr f) c =
      ⟨(c.walkOf linear).mapErr f, c, (walk c.regs.cr3 c.regs.cr4 c.regs.efer linear c.memory).accesses⟩ := by
  simp only [onMemory, Exec.zoom_apply, Exec.mapErr_apply, walk_state]
  rfl

/-! ## What a translation leaves behind -/

/-- Only the translation cache changed, and what it holds now it held before or the tables say. -/
structure Refills (c c' : Cpu) : Prop where
  regs : c'.regs = c.regs
  memory : c'.memory = c.memory
  tlbDisabled : c'.tlbDisabled = c.tlbDisabled
  fills : ∀ linear walked, c'.tlb.lookup linear = some walked →
    c.tlb.lookup linear = some walked ∨ c.walkOf linear = .ok walked

theorem Refills.walkOf {c c'} (h : Refills c c') (linear) : c'.walkOf linear = c.walkOf linear := by
  rw [Cpu.walkOf, Cpu.walkOf, h.regs, h.memory]

instance : IsPreorder Cpu Refills where
  refl _ := ⟨rfl, rfl, rfl, fun _ _ h => .inl h⟩
  trans a b c hab hbc := by
    refine ⟨hbc.regs.trans hab.regs, hbc.memory.trans hab.memory, hbc.tlbDisabled.trans hab.tlbDisabled, ?_⟩
    intro linear walked h
    rcases hbc.fills linear walked h with h | h
    · exact hab.fills linear walked h
    · exact .inr ((hab.walkOf linear).symm.trans h)

variable {walked : Translation}

theorem walkOf_page {c : Cpu} {linear linear' : U64} (h : Tlb.page linear' = Tlb.page linear)
    (hw : c.walkOf linear = .ok walked) : c.walkOf linear' = .ok walked := by
  have hpage : linear >>> 12 = linear' >>> 12 := h.symm
  have hp := walk_page hpage c.regs.cr3 c.regs.cr4 c.regs.efer
  rw [Cpu.walkOf, hp, Exec.mapErr_apply]
  rw [Cpu.walkOf] at hw
  rw [hw]
  rfl

theorem refills_insert {c : Cpu} {linear : U64} (hw : c.walkOf linear = .ok walked) :
    Refills c { c with tlb := c.tlb.insert linear walked } := by
  refine ⟨rfl, rfl, rfl, fun linear' walked' h => ?_⟩
  rcases Tlb.lookup_insert h with ⟨hpage, rfl⟩ | h
  · exact .inr (walkOf_page hpage hw)
  · exact .inl h

theorem refills_invalidate (linear) : Refills c { c with tlb := c.tlb.invalidate linear } :=
  ⟨rfl, rfl, rfl, fun _ _ h => .inl (Tlb.lookup_invalidate h).2⟩

/-- The outcome of a program and what it leaves in the translation cache. -/
structure Answers {α : Type} (x : CpuM α) (c : Cpu) (outcome : Outcome CpuError α) : Prop where
  outcome : (x c).outcome = outcome
  refills : Refills c (x c).state

theorem Answers.bind {α β : Type} {x : CpuM α} {f : α → CpuM β} {c : Cpu} {o : Outcome CpuError α}
    {g : α → Outcome CpuError β} (hx : Answers x c o) (hf : ∀ a c', Refills c c' → Answers (f a) c' (g a)) :
    Answers (x >>= f) c (o >>= g) := by
  obtain ⟨ho, hr⟩ := hx
  rcases hx : x c with ⟨a | e | _, c', n⟩ <;> rw [hx] at ho hr <;> subst ho
  · rw [Outcome.bind_ok]
    have h := hf a c' hr
    refine ⟨?_, ?_⟩ <;> rw [Exec.bind_ok hx]
    · exact h.outcome
    · exact IsTrans.trans _ _ _ hr h.refills
  · exact ⟨by rw [Exec.bind_err hx]; rfl, by rw [Exec.bind_err hx]; exact hr⟩
  · exact ⟨by rw [Exec.bind_panic hx]; rfl, by rw [Exec.bind_panic hx]; exact hr⟩

theorem answers_walkAndInsert :
    Answers (walkAndInsert linear kind cpl) c ((c.walkOf linear).mapErr (walkFault kind cpl)) := by
  have hwalk := onMemory_walk linear (walkFault kind cpl) c
  have heq : walkAndInsert linear kind cpl c =
      (onMemory ((walk c.regs.cr3 c.regs.cr4 c.regs.efer linear).mapErr (walkFault kind cpl)) >>= fun walked => do
        tlbInsert linear walked
        return walked) c := by rw [walkAndInsert, get_bind]; rfl
  rcases hw : c.walkOf linear with walked | fault | _ <;> rw [hw] at hwalk
  · rw [Exec.bind_ok hwalk] at heq
    exact ⟨by rw [heq]; rfl, by rw [heq]; exact refills_insert hw⟩
  · rw [Exec.bind_err hwalk] at heq
    exact ⟨by rw [heq]; rfl, by rw [heq]; exact refl c⟩
  · rw [Exec.bind_panic hwalk] at heq
    exact ⟨by rw [heq]; rfl, by rw [heq]; exact refl c⟩

theorem answers_checkWalked (walked c) :
    Answers (checkWalked linear kind cpl walked) c (checked linear kind cpl c walked) := by
  have heq := get_bind (fun c => settleAccess linear walked
    (checkAccess walked linear kind cpl c.regs.cr0 c.regs.cr4 c.regs.efer (contains c.regs.rflags RFlags.AC))) c
  rw [checked]
  cases hc : checkAccess walked linear kind cpl c.regs.cr0 c.regs.cr4 c.regs.efer
    (contains c.regs.rflags RFlags.AC) with
  | ok u =>
    rw [hc] at heq
    exact ⟨congrArg Run.outcome heq, by rw [checkWalked, heq]; exact refl c⟩
  | error fault =>
    rw [hc] at heq
    exact ⟨congrArg Run.outcome heq, by rw [checkWalked, heq]; exact refills_invalidate c linear⟩

theorem answers_cachedWalk :
    Answers (cachedWalk linear kind cpl (c.tlbLookup linear)) c ((c.usedWalk linear).mapErr (walkFault kind cpl)) := by
  unfold usedWalk
  cases c.tlbLookup linear with
  | some walked => exact ⟨rfl, refl c⟩
  | none => exact answers_walkAndInsert linear kind cpl c

theorem answers_translateAs : Answers (translateAs linear kind cpl) c
      (if !contains c.regs.cr0 Cr0.PG then .ok linear
        else (c.usedWalk linear).mapErr (walkFault kind cpl) >>= checked linear kind cpl c) := by
  have heq := get_bind (fun c => if !contains c.regs.cr0 Cr0.PG then pure linear
    else cachedWalk linear kind cpl (c.tlbLookup linear) >>= checkWalked linear kind cpl) c
  by_cases hpg : !contains c.regs.cr0 Cr0.PG
  · rw [if_pos hpg] at heq ⊢
    exact ⟨congrArg Run.outcome heq, by rw [translateAs, heq]; exact refl c⟩
  · rw [if_neg hpg] at heq ⊢
    have h := (answers_cachedWalk linear kind cpl c).bind fun walked c' hr => by
      have hc := answers_checkWalked linear kind cpl walked c'
      have hregs : checked linear kind cpl c' walked = checked linear kind cpl c walked := by
        rw [checked, checked, hr.regs]
      rwa [hregs] at hc
    exact ⟨(congrArg Run.outcome heq).trans h.outcome, by rw [translateAs, heq]; exact h.refills⟩

/-! ## A fetch only refills -/

section Fetch

variable (linear : U64) (kind : AccessKind) (cpl : Nat) (decoder : Decoder)

instance {R : Cpu → Cpu → Prop} [IsPreorder Cpu R] : Keeps R get := inferInstanceAs (Keeps R (Exec.view id))

instance : Keeps Refills (translateAs linear kind cpl) := ⟨fun c => (answers_translateAs linear kind cpl c).refills⟩
instance : Keeps Refills (translate linear kind) := by unfold translate; infer_instance

instance (physical n) : Keeps Refills (memoryRead physical n) := by unfold memoryRead; infer_instance

instance {toPhysical : U64 → CpuM U64} [h : ∀ linear, Keeps Refills (toPhysical linear)] (rounds n) :
    Keeps Refills (readPages toPhysical rounds linear n) := by
  induction rounds generalizing linear n <;> (unfold readPages; infer_instance)

instance (first) : Keeps Refills (readWindow linear first) := by unfold readWindow; infer_instance

variable (mapping : DecodeMapping)

instance (usable) : Keeps Refills (lookupDecoded mapping usable) := by
  have h : Keeps Refills (Exec.update fun c : Cpu => { c with decoded := (c.decoded.lookup mapping).2 } : CpuM Unit) :=
    .update fun _ => ⟨rfl, rfl, rfl, fun _ _ h => .inl h⟩
  unfold lookupDecoded
  infer_instance

instance (i) : Keeps Refills (keepDecoded mapping i) :=
  .update fun _ => ⟨rfl, rfl, rfl, fun _ _ h => .inl h⟩

instance (usable window i) :
    Keeps Refills (finishDecode mapping usable window i) := by unfold finishDecode; infer_instance

instance (usable) : Keeps Refills (decodeFresh decoder mapping usable) := by
  unfold decodeFresh; infer_instance

instance (usable cached) : Keeps Refills (decodeUnless decoder mapping usable cached) := by
  cases cached <;> (unfold decodeUnless; infer_instance)

instance : Keeps Refills (fetchTranslated decoder) := by unfold fetchTranslated; infer_instance

instance (cached) : Keeps Refills (fetchUnless decoder cached) := by
  cases cached <;> (unfold fetchUnless; infer_instance)

instance : Keeps Refills (fetch decoder) := by unfold fetch; infer_instance

end Fetch

end Cpu

end Rish.SoftVm
