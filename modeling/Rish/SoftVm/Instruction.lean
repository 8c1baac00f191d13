/-
  Rish.SoftVm.Instruction — a decoded instruction, as the interpreter sees it.

  Decoding is the job of an external decoder. What the interpreter reads of its result are the
  accessors collected in `Instruction`; the decoder itself (`Decoder`) is a parameter of the model.
  An operand the instruction does not have reads as a register operand naming no register, as the
  decoder's accessors answer.
-/

import Rish.Lib.Bytes

namespace Rish.SoftVm

open Lib

inductive SegmentName where
  | es | cs | ss | ds | fs | gs
  deriving DecidableEq, Repr

/-- Register operands, by file and number. The four legacy high bytes are the high halves of the
    first four word registers; every register no instruction here names is `other`. -/
inductive Register where
  | none
  | low8 (i : Fin 16)
  | high8 (i : Fin 4)
  | word (i : Fin 16)
  | dword (i : Fin 16)
  | qword (i : Fin 16)
  | segment (s : SegmentName)
  | cr (i : Fin 16)
  | dr (i : Fin 16)
  | st (i : Fin 8)
  | mm (i : Fin 8)
  | xmm (i : Fin 16)
  | other
  deriving DecidableEq, Repr

inductive OpKind where
  | register | nearBranch16 | nearBranch32 | nearBranch64 | farBranch16 | farBranch32 | immediate8
  | immediate8Second | immediate16 | immediate32 | immediate64 | immediate8to16 | immediate8to32
  | immediate8to64 | immediate32to64 | memorySegSI | memorySegESI | memorySegRSI | memorySegDI
  | memorySegEDI | memorySegRDI | memoryESDI | memoryESEDI | memoryESRDI | memory
  deriving DecidableEq, Repr

def OpKind.name : OpKind → String
  | .register => "Register"
  | .nearBranch16 => "NearBranch16"
  | .nearBranch32 => "NearBranch32"
  | .nearBranch64 => "NearBranch64"
  | .farBranch16 => "FarBranch16"
  | .farBranch32 => "FarBranch32"
  | .immediate8 => "Immediate8"
  | .immediate8Second => "Immediate8_2nd"
  | .immediate16 => "Immediate16"
  | .immediate32 => "Immediate32"
  | .immediate64 => "Immediate64"
  | .immediate8to16 => "Immediate8to16"
  | .immediate8to32 => "Immediate8to32"
  | .immediate8to64 => "Immediate8to64"
  | .immediate32to64 => "Immediate32to64"
  | .memorySegSI => "MemorySegSI"
  | .memorySegESI => "MemorySegESI"
  | .memorySegRSI => "MemorySegRSI"
  | .memorySegDI => "MemorySegDI"
  | .memorySegEDI => "MemorySegEDI"
  | .memorySegRDI => "MemorySegRDI"
  | .memoryESDI => "MemoryESDI"
  | .memoryESEDI => "MemoryESEDI"
  | .memoryESRDI => "MemoryESRDI"
  | .memory => "Memory"

inductive MemorySize where
  | uInt8 | uInt16 | uInt32 | uInt64 | uInt128 | uInt256 | uInt512 | int8 | int16 | int32 | int64
  | int128 | int256 | int512 | float32 | float64 | float80 | fword10 | other
  deriving DecidableEq, Repr

inductive CodeSize where
  | unknown | code16 | code32 | code64
  deriving DecidableEq, Repr

/-- Instruction encodings the interpreter tells apart: the moves between the accumulator and an
    absolute offset. -/
inductive Code where
  | movAlMoffs8 | movAxMoffs16 | movEaxMoffs32 | movRaxMoffs64
  | movMoffs8Al | movMoffs16Ax | movMoffs32Eax | movMoffs64Rax
  | other
  deriving DecidableEq, Repr

inductive Mnemonic where
  | mov | lsl | ldmxcsr | stmxcsr | pmovsxbw | pmovsxbd | pmovsxbq | pmovsxwd | pmovsxwq | pmovsxdq
  | pmovzxbw | pmovzxbd | pmovzxbq | pmovzxwd | pmovzxwq | pmovzxdq | haddpd | haddps | hsubpd | hsubps
  | roundsd | roundss | roundpd | roundps | psadbw | packuswb | packusdw | pavgb | phaddd | packssdw
  | packsswb | ptest | pshufb | cvttps2dq | pmulhuw | pmulhw | pmullw | pmaddwd | pmaddubsw | pblendvb
  | pblendw | blendps | blendpd | blendvps | blendvpd | palignr | pextrb | pextrd | pextrq | extractps
  | pinsrb | pinsrd | pinsrq | nop | pause | lea | movzx | movsx | movsxd | xchg | xadd | cmpxchg | cmpxchg8b
  | cmpxchg16b | xlatb | add | sub | cmp | adc | sbb | inc | dec | neg | mul | imul | div | idiv | cbw | cwde
  | cdqe | cwd | cdq | cqo | and | or | xor | test | not | shl | shr | sar | rol | ror | rcl | rcr | bsf
  | bsr | tzcnt | lzcnt | bt | bts | btr | btc | push | pop | pushf | pushfq | pushfd | popf | popfq | popfd
  | enter | leave | jmp | call | ret | retf | loop | loope | loopne | jcxz | jecxz | jrcxz | jo | jno | jb
  | jae | je | jne | jbe | ja | js | jns | jp | jnp | jl | jge | jle | jg | seto | setno | setb | setae
  | sete | setne | setbe | seta | sets | setns | setp | setnp | setl | setge | setle | setg | stc | clc | cmc
  | cld | std | cli | sti | sahf | lahf | insertps | addsubpd | addsubps | movaps | movups | movapd | movupd
  | movdqa | movdqu | movq | movd | movss | movlps | movlpd | movhps | movhpd | movddup | movsldup | movshdup
  | xorps | xorpd | pxor | andps | andpd | pand | andnps | andnpd | pandn | orps | orpd | por | pshufd
  | pshuflw | pshufhw | shufps | shufpd | punpcklbw | punpcklwd | punpckldq | punpcklqdq | punpckhbw
  | punpckhwd | punpckhdq | punpckhqdq | movntdq | movntps | movntq | movnti | pcmpeqb | pcmpeqw | pcmpeqd
  | pcmpeqq | psllw | pslld | psllq | psrlw | psrld | psraw | psrad | psrlq | pslldq | psrldq | cvtsi2sd
  | cvtsi2ss | cvttsd2si | cvttss2si | pinsrw | pextrw | pmovmskb | movmskps | movmskpd | ucomisd | comisd
  | ucomiss | comiss | paddb | paddw | paddd | paddq | psubb | psubw | psubd | psubq | pcmpgtb | pcmpgtw
  | pcmpgtd | pminub | pmaxub | pminsw | pmaxsw | pminsb | pmaxsb | pminsd | pmaxsd | pminuw | pmaxuw
  | pminud | pmaxud | paddusb | paddusw | psubusb | psubusw | paddsb | paddsw | psubsb | psubsw | addsd
  | subsd | mulsd | divsd | minsd | maxsd | addss | subss | mulss | divss | minss | maxss | sqrtsd | sqrtss
  | addps | subps | mulps | divps | minps | maxps | addpd | subpd | mulpd | divpd | minpd | maxpd | pmuludq
  | pmulld | movhlps | movlhps | unpcklps | unpckhps | unpcklpd | unpckhpd | cvtsd2si | cvtss2si | cvtss2sd
  | cvtps2pd | cvtdq2pd | cvtsd2ss | cmpss | cmppd | cmpps | emms | femms | movsd | cmpsd | fld | fild | fld1
  | fldz | fldpi | fldl2e | fldl2t | fldlg2 | fldln2 | fst | fstp | fist | fistp | fisttp | fadd | fsub
  | fsubr | fmul | fdiv | fdivr | fprem | fiadd | fisub | fimul | fidiv | faddp | fsubp | fsubrp | fmulp
  | fdivp | fdivrp | fchs | fabs | fsqrt | frndint | fxch | fcom | fucom | fcomp | fucomp | fcompp | fucompp
  | ficom | ficomp | fcomi | fucomi | fcomip | fucomip | fxam | ftst | fldcw | fnstcw | fnstsw | ffree
  | ffreep | fincstp | fdecstp | finit | fninit | fclex | fnclex | fldenv | frstor | fnstenv | fnsave | cmovo
  | cmovno | cmovb | cmovae | cmove | cmovne | cmovbe | cmova | cmovs | cmovns | cmovp | cmovnp | cmovl
  | cmovge | cmovle | cmovg | movsb | movsw | movsq | stosb | stosw | stosd | stosq | lodsb | lodsw | lodsd
  | lodsq | scasb | scasw | scasd | scasq | cmpsb | cmpsw | cmpsq | in_ | out | hlt | cpuid | rdtsc | rdtscp
  | rdmsr | wrmsr | rdpmc | lgdt | lidt | sgdt | sidt | lldt | sldt | ltr | str | clts | lmsw | smsw | invlpg
  | wbinvd | invd | lfence | sfence | mfence | clac | stac | iretd | iretq | int | int3 | into | bound
  | bswap | popcnt | ud2 | rdrand | rdseed | prefetcht0 | prefetcht1 | prefetcht2 | prefetchnta | clflush
  | clflushopt | fxsave | fxsave64 | fxrstor | fxrstor64 | xsave | xsave64 | xsaveopt | xsaveopt64 | xsavec
  | xsavec64 | xsaves | xsaves64 | xrstor | xrstor64 | xrstors | xrstors64 | wait | shld | shrd | swapgs
  | xgetbv | xsetbv | endbr64 | endbr32 | prefetchw | syscall | sysret | sysretq | pusha | pushad | popa
  | popad | iret | int1 | fstcw | fstsw | fstenv | fsave | other
  deriving DecidableEq

structure Operand where
  kind : OpKind
  register : Register
  /-- The immediate, extended to 64 bits as the operand kind says. -/
  immediate : U64
  deriving DecidableEq, Repr

def Operand.absent : Operand := ⟨.register, .none, 0⟩

structure Instruction where
  len : Nat
  mnemonic : Mnemonic
  /-- Names for error texts. -/
  mnemonicName : String
  codeName : String
  memorySizeName : String
  code : Code
  codeSize : CodeSize
  operands : List Operand
  memorySize : MemorySize
  memoryBase : Register
  memoryIndex : Register
  memoryIndexScale : U32
  memoryDisplacement64 : U64
  memorySegment : Register
  segmentPrefix : Register
  isIpRelMemoryOperand : Bool
  ipRelMemoryAddress : U64
  nearBranchTarget : U64
  farBranchSelector : U16
  farBranch32 : U32
  hasLockPrefix : Bool
  hasRepPrefix : Bool
  hasRepePrefix : Bool
  hasRepnePrefix : Bool
  isInvalid : Bool

namespace Instruction

variable (i : Instruction)

def opCount : Nat := i.operands.length

variable (k : Nat)

def operand : Operand := i.operands.getD k Operand.absent

def opKind : OpKind := (i.operand k).kind

def opRegister : Register := (i.operand k).register

def immediate : U64 := (i.operand k).immediate

/-- The value of an empty cache slot. -/
def empty : Instruction :=
  ⟨0, .other, "INVALID", "INVALID", "Unknown", .other, .unknown, [], .other, .none, .none, 1, 0, .none, .none, false,
    0, 0, 0, 0,
    false, false, false, false, true⟩

end Instruction

/-- The external decoder: bitness, byte window and instruction pointer to an instruction. -/
abbrev Decoder := Nat → List U8 → U64 → Instruction

end Rish.SoftVm
