/-
  Rish.SoftVm.TlbCoherence — what the translation cache answers after the guest has changed its page
  tables.
-/

import Rish.SoftVm.Events

namespace Rish.SoftVm

open Lib Cpu
open Event (perform)

/-- The events that take an address out of the translation cache. -/
def Event.Drops (linear : U64) : Event → Prop
  | .invlpg linear' => Tlb.page linear' = Tlb.page linear
  | .control _ _ => True
  | .efer _ => True
  | _ => False

/-- After every change of what the tables say about an address, its 4 KiB page was invalidated or the
    whole cache was dropped. -/
def TranslationSettled (decoder : Decoder) (linear : U64) (c : Cpu) (events : List Event) : Prop :=
  Settled (Event.next decoder) (walkOf · linear) (Event.Drops linear) c events

namespace TlbCoherence

variable (decoder : Decoder) (c : Cpu) (linear : U64)

/-! ## One event -/

theorem next_control (register) (value : U64) :
    ∃ r, Event.next decoder (.control register value) c = { c with regs := r, tlb := c.tlb.flush } := by
  cases register <;> exact ⟨_, rfl⟩

theorem next_efer (value) :
    ∃ r, Event.next decoder (.efer value) c = { c with regs := r, tlb := c.tlb.flush } := ⟨_, rfl⟩

theorem next_store (physical bytes) :
    ∃ m, Event.next decoder (.store physical bytes) c = { c with memory := m } := by
  simp only [Event.next, perform, memoryWrite]
  cases c.memory.write physical bytes with
  | ok m => exact ⟨m, rfl⟩
  | err e => exact ⟨c.memory, rfl⟩
  | panic => exact ⟨c.memory, rfl⟩

theorem next_dma (address bytes) :
    ∃ m, Event.next decoder (.dma address bytes) c = { c with memory := m } := by
  simp only [Event.next, perform, Exec.update_apply, deviceWrite]
  cases Virtio.checkRange ⟨c.memory.ram, false⟩ address bytes.length with
  | ok u => exact ⟨_, rfl⟩
  | err e => exact ⟨c.memory, rfl⟩
  | panic => exact ⟨c.memory, rfl⟩

instance : Keeps Refills (perform decoder .fetch) := by unfold perform; infer_instance

instance (kind cpl) : Keeps Refills (perform decoder (.access linear kind cpl)) := by
  unfold perform; infer_instance

/-! ## The cached translation of one address -/

/-- The cached translation of an address, if there is one, is what the tables say. -/
def Coherent (c : Cpu) : Prop := Held (walkOf · linear) (tlbLookup · linear) (fun said walked => said = .ok walked) c

variable {decoder c linear}

theorem tlbLookup_eq_some {walked} :
    c.tlbLookup linear = some walked ↔ c.tlbDisabled = false ∧ c.tlb.lookup linear = some walked := by
  unfold tlbLookup
  cases c.tlbDisabled <;> simp

theorem lookup_dropped {e} (h : e.Drops linear) : (Event.next decoder e c).tlbLookup linear = none := by
  rw [Option.eq_none_iff_forall_ne_some]
  intro walked hit
  rw [tlbLookup_eq_some] at hit
  cases e with
  | invlpg linear' => exact (Tlb.lookup_invalidate hit.2).1 h.symm
  | control register value =>
    obtain ⟨r, hr⟩ := next_control decoder c register value
    rw [hr, Tlb.lookup_flush] at hit
    cases hit.2
  | efer value =>
    obtain ⟨r, hr⟩ := next_efer decoder c value
    rw [hr, Tlb.lookup_flush] at hit
    cases hit.2
  | access | fetch | store | dma | other => cases h

theorem Coherent.of_lookup {c'} (hc : Coherent linear c) (hwalk : c'.walkOf linear = c.walkOf linear)
    (hlookup : ∀ walked, c'.tlbLookup linear = some walked →
      c.tlbLookup linear = some walked ∨ c.walkOf linear = .ok walked) : Coherent linear c' := by
  intro walked hit
  have hsaid : c.walkOf linear = .ok walked := by
    rcases hlookup walked hit with h | h
    · exact hc walked h
    · exact h
  exact hwalk.trans hsaid

theorem Coherent.refills {c'} (hc : Coherent linear c) (h : Refills c c') : Coherent linear c' := by
  refine hc.of_lookup (h.walkOf linear) fun walked hit => ?_
  rw [tlbLookup_eq_some, h.tlbDisabled] at hit
  rcases h.fills linear walked hit.2 with hc | hw
  · exact .inl (tlbLookup_eq_some.mpr ⟨hit.1, hc⟩)
  · exact .inr hw

theorem coherent_next {e} (hd : ¬e.Drops linear)
    (hwalk : (Event.next decoder e c).walkOf linear = c.walkOf linear) (hc : Coherent linear c) :
    Coherent linear (Event.next decoder e c) := by
  cases e with
  | access linear' kind cpl =>
    exact hc.refills (Keeps.keeps (R := Refills) (x := perform decoder (.access linear' kind cpl)) c)
  | fetch => exact hc.refills (Keeps.keeps (R := Refills) (x := perform decoder .fetch) c)
  | store physical bytes =>
    obtain ⟨m, hm⟩ := next_store decoder c physical bytes
    exact hc.of_lookup hwalk fun walked hit => .inl (by rw [hm] at hit; exact hit)
  | dma address bytes =>
    obtain ⟨m, hm⟩ := next_dma decoder c address bytes
    exact hc.of_lookup hwalk fun walked hit => .inl (by rw [hm] at hit; exact hit)
  | invlpg linear' => exact hc.refills (refills_invalidate c linear')
  | control | efer => exact absurd trivial hd
  | other f => exact hc.of_lookup hwalk fun walked hit => .inl hit

/-! ## Runs -/

theorem coherent_of_settled {events} (hc : Coherent linear c)
    (hs : TranslationSettled decoder linear c events) : Coherent linear (after (Event.next decoder) c events) :=
  held_of_settled (fun _ _ => lookup_dropped) (fun _ _ => coherent_next) hc hs

theorem coherent_of_new (h : c.tlb = .new) : Coherent linear c := by
  intro walked hit
  rw [tlbLookup_eq_some, h, Tlb.lookup_new] at hit
  cases hit.2

theorem usedWalk_eq (hc : Coherent linear c) : c.usedWalk linear = c.walkOf linear := by
  unfold usedWalk
  cases hit : c.tlbLookup linear with
  | some walked => exact (hc walked hit).symm
  | none => rfl

end TlbCoherence

open TlbCoherence

/-- From an empty cache on, a translation that is settled is answered as by a fresh walk of the tables
    and the access check: with the same address, or with the same fault. -/
theorem translate_fresh (decoder : Decoder) (c : Cpu) (hnew : c.tlb = .new) (events : List Event) (linear : U64)
    (settled : TranslationSettled decoder linear c events) (kind : AccessKind) (cpl : Nat) :
    (translateAs linear kind cpl (after (Event.next decoder) c events)).outcome =
      freshTranslate linear kind cpl (after (Event.next decoder) c events) := by
  have hc := coherent_of_settled (coherent_of_new hnew) settled
  rw [(answers_translateAs linear kind cpl _).outcome, usedWalk_eq hc]
  rfl

/-! ## A large page -/

/-- A machine with 32-bit paging whose first page directory entry maps 4 MiB from zero on. -/
def largePage : Cpu :=
  let c := Cpu.new { Memory.withLapic with ram := Memory.withLapic.ram.store 0x1000 [0x83, 0, 0, 0] } 0 0 false
  { c with regs := { c.regs with cr0 := Cr0.PG ||| Cr0.PE, cr3 := 0x1000, cr4 := Cr4.PSE } }

/-- The guest uses a piece of the page, maps the page 4 MiB higher, and invalidates an address of it. -/
def remapLargePage (named : U64) : List Event :=
  [.access 0x5000 .read 0, .store 0x1000 [0x83, 0, 0x40, 0]] ++ [.invlpg named]

/-- A decoder of nothing, for machines that do not fetch. -/
def noDecoder : Decoder := fun _ _ _ => .empty

/-- The piece that is named is seen at its new place. -/
theorem named_piece_is_fresh :
    (translateAs 0x5000 .read 0 (after (Event.next noDecoder) largePage (remapLargePage 0x5FFF))).outcome =
      freshTranslate 0x5000 .read 0 (after (Event.next noDecoder) largePage (remapLargePage 0x5FFF)) :=
  have dropped : Event.Drops 0x5000 (.invlpg 0x5FFF) := by unfold Event.Drops; decide
  have settled : TranslationSettled noDecoder 0x5000 largePage (remapLargePage 0x5FFF) :=
    settled_snoc.mpr (.inl dropped)
  translate_fresh noDecoder largePage rfl (remapLargePage 0x5FFF) 0x5000 settled .read 0

/-- The other pieces are not. The guest names the first byte of the 4 MiB page after it changed its
    entry, and both addresses walk to the new page; the sixth 4 KiB piece stays where it was. -/
theorem invlpg_leaves_the_rest_of_a_large_page :
    let c := after (Event.next noDecoder) largePage (remapLargePage 0)
    let moved : Translation := ⟨0x400000, 0x400000, true, false, false, by decide, by decide⟩
    c.walkOf 0 = .ok moved ∧ c.walkOf 0x5000 = .ok moved ∧
      freshTranslate 0x5000 .read 0 c = .ok 0x405000 ∧ (translateAs 0x5000 .read 0 c).outcome = .ok 0x5000 := by
  decide +kernel

end Rish.SoftVm
