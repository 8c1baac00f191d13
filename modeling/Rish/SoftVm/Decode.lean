/-
  Rish.SoftVm.Decode — the cache of decoded instructions. A mapped hit needs the same translation
  epoch, the same execution context and the same write counter of the page the bytes came from.
  Its hit and miss counters are left out; the decoder itself is a parameter of the machine.
-/

import Rish.SoftVm.Instruction
import Rish.SoftVm.Memory

namespace Rish.SoftVm

open Lib

def MAX_INSTRUCTION_BYTES : Nat := 15

/-- One validated instruction-fetch mapping. -/
structure DecodeMapping where
  ip : U64
  linear : U64
  physical : U64
  pageGeneration : U32
  translationEpoch : U64
  executionContext : U32

namespace DecodeCache

structure Entry where
  /-- the instruction pointer, or `INVALID` -/
  tag : U64
  linear : U64
  physical : U64
  generation : U32
  translationEpoch : U64
  executionContext : U32
  instruction : Instruction

def INVALID : U64 := BitVec.allOnes 64

def Entry.empty : Entry := ⟨INVALID, 0, 0, 0, 0, 0, .empty⟩

end DecodeCache

structure DecodeCache where
  /-- `1 << 15` entries -/
  entries : BitVec 15 → DecodeCache.Entry

namespace DecodeCache

def new : DecodeCache := ⟨fun _ => .empty⟩

def slot (ip : U64) : BitVec 15 := ((ip * 0x9E3779B97F4A7C15) >>> 33).setWidth 15

variable (c : DecodeCache)

/-- The fast path: every fact that could invalidate the mapping is unchanged. -/
def lookupMapped (memory : Memory) (ip linear translationEpoch : U64) (executionContext : U32) : Option Instruction :=
  let entry := c.entries (slot ip)
  if entry.tag ≠ ip ∨ entry.linear ≠ linear ∨ entry.translationEpoch ≠ translationEpoch ∨
      entry.executionContext ≠ executionContext ∨ memory.pageGeneration entry.physical ≠ entry.generation
  then none else some entry.instruction

def Entry.matches (entry : Entry) (mapping : DecodeMapping) : Prop :=
  entry.tag = mapping.ip ∧ entry.linear = mapping.linear ∧ entry.physical = mapping.physical ∧
    entry.generation = mapping.pageGeneration ∧ entry.executionContext = mapping.executionContext

instance (entry : Entry) (mapping : DecodeMapping) : Decidable (entry.matches mapping) :=
  inferInstanceAs (Decidable (_ ∧ _))

/-- After the address was translated; a hit renews the mapping of its entry. -/
def lookup (mapping : DecodeMapping) : Option Instruction × DecodeCache :=
  let entry := c.entries (slot mapping.ip)
  if entry.matches mapping then
    (some entry.instruction,
      ⟨Function.update c.entries (slot mapping.ip)
        { entry with
          translationEpoch := mapping.translationEpoch, executionContext := mapping.executionContext }⟩)
  else (none, c)

def insert (mapping : DecodeMapping) (instruction : Instruction) : DecodeCache :=
  if MAX_INSTRUCTION_BYTES < instruction.len then c
  else ⟨Function.update c.entries (slot mapping.ip)
    ⟨mapping.ip, mapping.linear, mapping.physical, mapping.pageGeneration, mapping.translationEpoch,
      mapping.executionContext, instruction⟩⟩

end DecodeCache

end Rish.SoftVm
