/-
  Rish.SoftVm.Ram — guest RAM with a write counter per 4 KiB page.

  The counters are what lets a cached decode notice that its bytes were written: every write, by
  the CPU or by a device, bumps the counter of each page it touches.

  Proved: a write that changes a byte of a page moves that page's counter (`store_page`), by one
  (`store_codeGen`).
-/

import Rish.Lib.Exec
import Rish.Lib.Bytes

namespace Rish.SoftVm

open Lib

inductive CpuError where
  | invalidConfig (message : String)
  | guestFault (message : String)
  /-- A page fault to deliver through the guest IDT. -/
  | pageFault (linear : U64) (errorCode : U16)
  | unimplementedInstruction (code : String) (address : U64) (bytes : List U8)
  | tripleFault
  | halted
  deriving DecidableEq, Repr

def PAGE_SIZE : Nat := 4096

structure Ram where
  bytes : Bytes
  len : U64
  codeGen : Nat → U32

namespace Ram

variable (r : Ram)

def pages : Nat := (r.len.toNat + (PAGE_SIZE - 1)) / PAGE_SIZE

/-- Counter of the page an address lies in; addresses outside RAM have a stable zero. -/
def pageGeneration (physical : U64) : U32 :=
  if physical.toNat / PAGE_SIZE < r.pages then r.codeGen (physical.toNat / PAGE_SIZE) else 0

/-- One more write to every page of a range. An empty range touches no page. -/
def bumpPageCounters (codeGen : Nat → U32) (pages start len : Nat) : Nat → U32 := fun page =>
  if 0 < len ∧ start / PAGE_SIZE ≤ page ∧ page ≤ (start + len - 1) / PAGE_SIZE ∧ page < pages then
    codeGen page + 1
  else codeGen page

/-- The bytes of a range that was checked to lie inside RAM. -/
def load (start n : Nat) : List U8 := readBytes r.bytes start n

def store (start : Nat) (input : List U8) : Ram :=
  { r with
    bytes := writeBytes r.bytes start input
    codeGen := bumpPageCounters r.codeGen r.pages start input.length }

@[simp] theorem store_len (start input) : (r.store start input).len = r.len := rfl
@[simp] theorem store_pages (start input) : (r.store start input).pages = r.pages := rfl
@[simp] theorem store_bytes (start input) :
    (r.store start input).bytes = writeBytes r.bytes start input := rfl

theorem store_page (start input page) (hp : page < r.pages) :
    (∀ a, a / PAGE_SIZE = page → (r.store start input).bytes a = r.bytes a) ∨
      (r.store start input).codeGen page = r.codeGen page + 1 := by
  by_cases h : 0 < input.length ∧ start / PAGE_SIZE ≤ page ∧ page ≤ (start + input.length - 1) / PAGE_SIZE
  · right
    obtain ⟨h0, h1, h2⟩ := h
    exact if_pos ⟨h0, h1, h2, hp⟩
  · left
    intro a ha
    simp only [store_bytes, writeBytes, ite_eq_right_iff]
    rintro ⟨h1, h2⟩
    refine absurd ⟨by omega, ?_, ?_⟩ h
    · rw [← ha]; exact Nat.div_le_div_right h1
    · rw [← ha]; exact Nat.div_le_div_right (by omega)

theorem store_codeGen (start input page) :
    (r.store start input).codeGen page = r.codeGen page ∨
      (r.store start input).codeGen page = r.codeGen page + 1 := by
  simp only [store, bumpPageCounters]
  split
  · exact .inr rfl
  · exact .inl rfl

end Ram

end Rish.SoftVm
