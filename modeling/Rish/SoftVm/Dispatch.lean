/-
  Rish.SoftVm.Dispatch — which family implements a decoded instruction.
-/

import Rish.SoftVm.Ops.Arithmetic
import Rish.SoftVm.Ops.Logic
import Rish.SoftVm.Ops.LslMxcsr
import Rish.SoftVm.Ops.SseInteger
import Rish.SoftVm.Ops.StringOp
import Rish.SoftVm.Ops.System

namespace Rish.SoftVm

open Lib

/-- The instruction families. -/
inductive Route where
  | lsl | mxcsr | sseWiden | sseHorizontal | sseRound | sseInteger | nop | mov | lea | movx | xchg | xadd
  | cmpxchg | cmpxchg8b | xlatb | add | sub | cmp | adcSbb | incDec | neg | mulDiv | convert | andOrXor | test
  | shiftRotate | bitScanTest | pushPop | jump | call | ret | jcc | setcc | flagOps | insertps | sse3 | sse | x87
  | cmovcc | string | inOut | hlt | cpuid | rdtsc | system | extra
  deriving DecidableEq, Repr

def routes : List (Route × List Mnemonic) :=
  [(.lsl, [.lsl]),
   (.mxcsr, [.ldmxcsr, .stmxcsr]),
   (.sseWiden, [.pmovsxbw, .pmovsxbd, .pmovsxbq, .pmovsxwd, .pmovsxwq, .pmovsxdq, .pmovzxbw, .pmovzxbd, .pmovzxbq,
      .pmovzxwd, .pmovzxwq, .pmovzxdq]),
   (.sseHorizontal, [.haddpd, .haddps, .hsubpd, .hsubps]),
   (.sseRound, [.roundsd, .roundss, .roundpd, .roundps]),
   (.sseInteger, [.psadbw, .packuswb, .packusdw, .pavgb, .phaddd, .packssdw, .packsswb, .ptest, .pshufb, .cvttps2dq,
      .pmulhuw, .pmulhw, .pmullw, .pmaddwd, .pmaddubsw, .pblendvb, .pblendw, .blendps, .blendpd, .blendvps,
      .blendvpd, .palignr, .pextrb, .pextrd, .pextrq, .extractps, .pinsrb, .pinsrd, .pinsrq]),
   (.nop, [.nop, .pause]),
   (.mov, [.mov]),
   (.lea, [.lea]),
   (.movx, [.movzx, .movsx, .movsxd]),
   (.xchg, [.xchg]),
   (.xadd, [.xadd]),
   (.cmpxchg, [.cmpxchg]),
   (.cmpxchg8b, [.cmpxchg8b, .cmpxchg16b]),
   (.xlatb, [.xlatb]),
   (.add, [.add]),
   (.sub, [.sub]),
   (.cmp, [.cmp]),
   (.adcSbb, [.adc, .sbb]),
   (.incDec, [.inc, .dec]),
   (.neg, [.neg]),
   (.mulDiv, [.mul, .imul, .div, .idiv]),
   (.convert, [.cbw, .cwde, .cdqe, .cwd, .cdq, .cqo]),
   (.andOrXor, [.and, .or, .xor]),
   (.test, [.test]),
   (.shiftRotate, [.not, .shl, .shr, .sar, .rol, .ror, .rcl, .rcr]),
   (.bitScanTest, [.bsf, .bsr, .tzcnt, .lzcnt, .bt, .bts, .btr, .btc]),
   (.pushPop, [.push, .pop, .pushf, .pushfq, .pushfd, .popf, .popfq, .popfd, .enter, .leave]),
   (.jump, [.jmp]),
   (.call, [.call]),
   (.ret, [.ret, .retf]),
   (.jump, [.loop, .loope, .loopne, .jcxz, .jecxz, .jrcxz]),
   (.jcc, [.jo, .jno, .jb, .jae, .je, .jne, .jbe, .ja, .js, .jns, .jp, .jnp, .jl, .jge, .jle, .jg]),
   (.setcc, [.seto, .setno, .setb, .setae, .sete, .setne, .setbe, .seta, .sets, .setns, .setp, .setnp, .setl,
      .setge, .setle, .setg]),
   (.flagOps, [.stc, .clc, .cmc, .cld, .std, .cli, .sti, .sahf, .lahf]),
   (.insertps, [.insertps]),
   (.sse3, [.addsubpd, .addsubps]),
   (.sse, [.movaps, .movups, .movapd, .movupd, .movdqa, .movdqu, .movq, .movd, .movss, .movlps, .movlpd, .movhps,
      .movhpd, .movddup, .movsldup, .movshdup, .xorps, .xorpd, .pxor, .andps, .andpd, .pand, .andnps, .andnpd,
      .pandn, .orps, .orpd, .por, .pshufd, .pshuflw, .pshufhw, .shufps, .shufpd, .punpcklbw, .punpcklwd, .punpckldq,
      .punpcklqdq, .punpckhbw, .punpckhwd, .punpckhdq, .punpckhqdq, .movntdq, .movntps, .movntq, .movnti, .pcmpeqb,
      .pcmpeqw, .pcmpeqd, .pcmpeqq, .psllw, .pslld, .psllq, .psrlw, .psrld, .psraw, .psrad, .psrlq, .pslldq,
      .psrldq, .cvtsi2sd, .cvtsi2ss, .cvttsd2si, .cvttss2si, .pinsrw, .pextrw, .pmovmskb, .movmskps, .movmskpd,
      .ucomisd, .comisd, .ucomiss, .comiss, .paddb, .paddw, .paddd, .paddq, .psubb, .psubw, .psubd, .psubq,
      .pcmpgtb, .pcmpgtw, .pcmpgtd, .pminub, .pmaxub, .pminsw, .pmaxsw, .pminsb, .pmaxsb, .pminsd, .pmaxsd, .pminuw,
      .pmaxuw, .pminud, .pmaxud, .paddusb, .paddusw, .psubusb, .psubusw, .paddsb, .paddsw, .psubsb, .psubsw, .addsd,
      .subsd, .mulsd, .divsd, .minsd, .maxsd, .addss, .subss, .mulss, .divss, .minss, .maxss, .sqrtsd, .sqrtss,
      .addps, .subps, .mulps, .divps, .minps, .maxps, .addpd, .subpd, .mulpd, .divpd, .minpd, .maxpd, .pmuludq,
      .pmulld, .movhlps, .movlhps, .unpcklps, .unpckhps, .unpcklpd, .unpckhpd, .cvtsd2si, .cvtss2si, .cvtss2sd,
      .cvtps2pd, .cvtdq2pd, .cvtsd2ss, .cmpss, .cmppd, .cmpps, .emms, .femms]),
   (.x87, [.fld, .fild, .fld1, .fldz, .fldpi, .fldl2e, .fldl2t, .fldlg2, .fldln2, .fst, .fstp, .fist, .fistp,
      .fisttp, .fadd, .fsub, .fsubr, .fmul, .fdiv, .fdivr, .fprem, .fiadd, .fisub, .fimul, .fidiv, .faddp, .fsubp,
      .fsubrp, .fmulp, .fdivp, .fdivrp, .fchs, .fabs, .fsqrt, .frndint, .fxch, .fcom, .fucom, .fcomp, .fucomp,
      .fcompp, .fucompp, .ficom, .ficomp, .fcomi, .fucomi, .fcomip, .fucomip, .fxam, .ftst, .fldcw, .fnstcw,
      .fnstsw, .ffree, .ffreep, .fincstp, .fdecstp, .finit, .fninit, .fclex, .fnclex, .fldenv, .frstor, .fnstenv,
      .fnsave]),
   (.cmovcc, [.cmovo, .cmovno, .cmovb, .cmovae, .cmove, .cmovne, .cmovbe, .cmova, .cmovs, .cmovns, .cmovp, .cmovnp,
      .cmovl, .cmovge, .cmovle, .cmovg]),
   (.string, [.movsb, .movsw, .movsd, .movsq, .stosb, .stosw, .stosd, .stosq, .lodsb, .lodsw, .lodsd, .lodsq,
      .scasb, .scasw, .scasd, .scasq, .cmpsb, .cmpsw, .cmpsd, .cmpsq]),
   (.inOut, [.in_, .out]),
   (.hlt, [.hlt]),
   (.cpuid, [.cpuid]),
   (.rdtsc, [.rdtsc, .rdtscp]),
   (.system, [.rdmsr, .wrmsr, .rdpmc, .lgdt, .lidt, .sgdt, .sidt, .lldt, .sldt, .ltr, .str, .clts, .lmsw, .smsw,
      .invlpg, .wbinvd, .invd, .lfence, .sfence, .mfence, .clac, .stac, .iretd, .iretq, .int, .int3, .into, .bound]),
   (.extra, [.bswap, .popcnt, .ud2, .rdrand, .rdseed, .prefetcht0, .prefetcht1, .prefetcht2, .prefetchnta, .clflush,
      .clflushopt, .fxsave, .fxsave64, .fxrstor, .fxrstor64, .xsave, .xsave64, .xsaveopt, .xsaveopt64, .xsavec,
      .xsavec64, .xsaves, .xsaves64, .xrstor, .xrstor64, .xrstors, .xrstors64, .wait, .shld, .shrd, .swapgs,
      .xgetbv, .xsetbv, .endbr64, .endbr32, .prefetchw, .syscall, .sysret, .sysretq])]

variable (i : Instruction)

def usesControlRegister : Bool :=
  [i.opRegister 0, i.opRegister 1].any fun r => Ops.isControlRegister r || Ops.isDebugRegister r

def usesXmmRegister : Bool := Ops.isXmm (i.opRegister 0) || Ops.isXmm (i.opRegister 1)

/-- A move of a control or debug register is a system instruction, and a form of MOVSD or CMPSD that
    names an XMM register is not the string instruction of that name. -/
def routeOf : Option Route :=
  if i.mnemonic = .mov ∧ usesControlRegister i then some .system
  else if (i.mnemonic = .movsd ∨ i.mnemonic = .cmpsd) ∧ usesXmmRegister i then some .sse
  else (routes.find? fun row => i.mnemonic ∈ row.2).map (·.1)

namespace Ops

def handler (route : Route) (i : Instruction) : CpuM Unit :=
  match route with
  | .lsl => lsl i
  | .mxcsr => mxcsrOp i
  | .sseWiden => sseWiden i
  | .sseHorizontal => sseHorizontal i
  | .sseRound => sseRound i
  | .sseInteger => sseInteger i
  | .nop => return ()
  | .mov => mov i
  | .lea => lea i
  | .movx => movx i
  | .xchg => xchg i
  | .xadd => xadd i
  | .cmpxchg => cmpxchg i
  | .cmpxchg8b => cmpxchg8b i
  | .xlatb => xlatb
  | .add => add i
  | .sub => sub i
  | .cmp => cmp i
  | .adcSbb => adcSbb i
  | .incDec => incDec i
  | .neg => neg i
  | .mulDiv => mulDiv i
  | .convert => convert i
  | .andOrXor => andOrXor i
  | .test => test i
  | .shiftRotate => shiftRotate i
  | .bitScanTest => bitScanTest i
  | .pushPop => pushPop i
  | .jump => jump i
  | .call => call i
  | .ret => ret i
  | .jcc => jcc i
  | .setcc => setcc i
  | .flagOps => flagOps i
  | .insertps => insertSingle i
  | .sse3 => sse3Op i
  | .sse => sseOp i
  | .x87 => x87Op i
  | .cmovcc => cmovcc i
  | .string => stringOp i
  | .inOut => inOut i
  | .hlt => hlt
  | .cpuid => cpuid
  | .rdtsc => rdtsc i
  | .system => systemOp i
  | .extra => extraOp i

def handlerOr (route : Option Route) (i : Instruction) : CpuM Unit :=
  match route with
  | some route => handler route i
  | none => unimplemented i.mnemonicName

end Ops

def Cpu.dispatch (i : Instruction) : CpuM Unit := Ops.handlerOr (routeOf i) i

end Rish.SoftVm
