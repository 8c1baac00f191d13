/-
  Rish.Lib.SoftFloat — binary floating point on bit patterns, rounded to nearest with ties to even.

  A format is its exponent and fraction widths. A pattern decodes to a NaN, an infinity or a dyadic
  number `m * 2 ^ e` with a sign; an operation works on the exact numbers and rounds once. Every NaN
  result is the canonical quiet NaN.
-/

import Mathlib.Data.Nat.Sqrt
import Mathlib.Tactic.Ring

namespace Rish.Lib.SoftFloat

structure Format where
  exponentBits : Nat
  fractionBits : Nat

def binary32 : Format := ⟨8, 23⟩
def binary64 : Format := ⟨11, 52⟩

namespace Format

variable (f : Format)

def bias : Int := 2 ^ (f.exponentBits - 1) - 1

def maxExponent : Nat := 2 ^ f.exponentBits - 1

/-- Exponent of the last place of a subnormal. -/
def minPlace : Int := 1 - f.bias - f.fractionBits

end Format

inductive Value where
  | nan
  | infinite (negative : Bool)
  /-- `m * 2 ^ e` -/
  | finite (negative : Bool) (m : Nat) (e : Int)
  deriving DecidableEq, Repr

variable (f : Format) (bits : Nat)

def exponentField : Nat := bits / 2 ^ f.fractionBits % 2 ^ f.exponentBits

def fractionField : Nat := bits % 2 ^ f.fractionBits

def isNegative : Bool := bits / 2 ^ (f.fractionBits + f.exponentBits) % 2 = 1

def decode : Value :=
  let exponent := exponentField f bits
  let fraction := fractionField f bits
  if exponent = f.maxExponent then if fraction = 0 then .infinite (isNegative f bits) else .nan
  else if exponent = 0 then .finite (isNegative f bits) fraction f.minPlace
  else .finite (isNegative f bits) (fraction + 2 ^ f.fractionBits) (exponent - f.bias - f.fractionBits)

def pack (negative : Bool) (exponent fraction : Nat) : Nat :=
  (if negative then 2 ^ (f.fractionBits + f.exponentBits) else 0) + exponent * 2 ^ f.fractionBits + fraction

def quietNan : Nat := pack f false f.maxExponent (2 ^ (f.fractionBits - 1))

def infinity (negative : Bool) : Nat := pack f negative f.maxExponent 0

/-- `m / 2 ^ shift` rounded to the nearest integer, ties to even. -/
def roundShift (m shift : Nat) : Nat :=
  let quotient := m / 2 ^ shift
  let remainder := m % 2 ^ shift
  let half := 2 ^ shift / 2
  if shift = 0 then m
  else if remainder > half ∨ (remainder = half ∧ quotient % 2 = 1) then quotient + 1
  else quotient

/-- The pattern nearest to `m * 2 ^ e`. -/
def encode (negative : Bool) (m : Nat) (e : Int) : Nat :=
  if m = 0 then pack f negative 0 0
  else
    let place := max f.minPlace (e + (m.log2 : Int) - f.fractionBits)
    let rounded := if place ≤ e then m * 2 ^ (e - place).toNat else roundShift m (place - e).toNat
    -- rounding up to the next power of two moves the place by one
    let carried := rounded = 2 ^ (f.fractionBits + 1)
    let significand := if carried then rounded / 2 else rounded
    let place := if carried then place + 1 else place
    if significand < 2 ^ f.fractionBits then pack f negative 0 significand
    else
      let exponent := (place + f.fractionBits + f.bias).toNat
      if f.maxExponent ≤ exponent then infinity f negative
      else pack f negative exponent (significand - 2 ^ f.fractionBits)

def ofValue : Value → Nat
  | .nan => quietNan f
  | .infinite negative => infinity f negative
  | .finite negative m e => encode f negative m e

/-! ## Arithmetic -/

def signed (negative : Bool) (m : Nat) : Int := if negative then -m else m

def addFinite (n : Bool) (m : Nat) (e : Int) (n' : Bool) (m' : Nat) (e' : Int) : Value :=
  let place := min e e'
  let sum := signed n (m * 2 ^ (e - place).toNat) + signed n' (m' * 2 ^ (e' - place).toNat)
  -- an exact zero is positive, unless both operands are negative
  .finite (if sum = 0 then n && n' else sum < 0) sum.natAbs place

def addValue : Value → Value → Value
  | .nan, _ => .nan
  | _, .nan => .nan
  | .infinite n, .infinite n' => if n = n' then .infinite n else .nan
  | .infinite n, .finite _ _ _ => .infinite n
  | .finite _ _ _, .infinite n => .infinite n
  | .finite n m e, .finite n' m' e' => addFinite n m e n' m' e'

def negValue : Value → Value
  | .nan => .nan
  | .infinite n => .infinite (!n)
  | .finite n m e => .finite (!n) m e

def mulValue : Value → Value → Value
  | .nan, _ => .nan
  | _, .nan => .nan
  | .infinite n, .infinite n' => .infinite (n != n')
  | .infinite n, .finite n' m _ => if m = 0 then .nan else .infinite (n != n')
  | .finite n m _, .infinite n' => if m = 0 then .nan else .infinite (n != n')
  | .finite n m e, .finite n' m' e' => .finite (n != n') (m * m') (e + e')

def add (a b : Nat) : Nat := ofValue f (addValue (decode f a) (decode f b))

def sub (a b : Nat) : Nat := ofValue f (addValue (decode f a) (negValue (decode f b)))

def mul (a b : Nat) : Nat := ofValue f (mulValue (decode f a) (decode f b))

/-- A quotient to more places than the format has; its last bit is set for a remainder. -/
def divFinite (negative : Bool) (m : Nat) (e : Int) (m' : Nat) (e' : Int) : Nat :=
  let extra := 2 * f.fractionBits + 6
  let numerator := m * 2 ^ extra
  encode f negative (2 * (numerator / m') + if numerator % m' = 0 then 0 else 1) (e - e' - extra - 1)

def div (a b : Nat) : Nat :=
  match decode f a, decode f b with
  | .nan, _ => quietNan f
  | _, .nan => quietNan f
  | .infinite _, .infinite _ => quietNan f
  | .infinite n, .finite n' _ _ => infinity f (n != n')
  | .finite n _ _, .infinite n' => pack f (n != n') 0 0
  | .finite n m e, .finite n' m' e' =>
    if m' = 0 then if m = 0 then quietNan f else infinity f (n != n')
    else divFinite f (n != n') m e m' e'

def sqrtFinite (m : Nat) (e : Int) : Nat :=
  let extra := 2 * (f.fractionBits + 3) + (e % 2).toNat
  let radicand := m * 2 ^ extra
  let root := Nat.sqrt radicand
  encode f false (2 * root + if root * root = radicand then 0 else 1) ((e - extra) / 2 - 1)

variable (a : Nat)

def sqrt : Nat :=
  match decode f a with
  | .nan => quietNan f
  | .infinite n => if n then quietNan f else infinity f false
  | .finite n m e => if m = 0 then pack f n 0 0 else if n then quietNan f else sqrtFinite f m e

/-! ## Comparison -/

/-- The order of two numbers; none when either is a NaN. -/
def compareValue : Value → Value → Option Ordering
  | .nan, _ => none
  | _, .nan => none
  | .infinite n, .infinite n' => some (if n = n' then .eq else if n then .lt else .gt)
  | .infinite n, .finite _ _ _ => some (if n then .lt else .gt)
  | .finite _ _ _, .infinite n => some (if n then .gt else .lt)
  | .finite n m e, .finite n' m' e' =>
    let place := min e e'
    some (compare (signed n (m * 2 ^ (e - place).toNat)) (signed n' (m' * 2 ^ (e' - place).toNat)))

def compare (a b : Nat) : Option Ordering := compareValue (decode f a) (decode f b)

def isNan : Bool := decode f a = .nan

def isInfinite : Bool := decode f a = .infinite true ∨ decode f a = .infinite false

def isSubnormal : Bool := exponentField f a = 0 ∧ fractionField f a ≠ 0

/-! ## Conversions -/

inductive Rounding where
  | nearestEven | down | up | towardZero
  deriving DecidableEq, Repr

variable (mode : Rounding)

def roundMagnitude (negative : Bool) (m shift : Nat) : Nat :=
  match mode with
  | .nearestEven => roundShift m shift
  | .down => if negative then (m + 2 ^ shift - 1) / 2 ^ shift else m / 2 ^ shift
  | .up => if negative then m / 2 ^ shift else (m + 2 ^ shift - 1) / 2 ^ shift
  | .towardZero => m / 2 ^ shift

def toIntegralValue : Value → Value
  | .finite n m e => if 0 ≤ e then .finite n m e else .finite n (roundMagnitude mode n m (-e).toNat) 0
  | v => v

def toIntegral (a : Nat) : Nat := ofValue f (toIntegralValue mode (decode f a))

/-- Truncation to an integer of `bits` bits, saturating; a NaN is zero. -/
def toInt : Int :=
  let low : Int := -2 ^ (bits - 1)
  let high : Int := 2 ^ (bits - 1) - 1
  match decode f a with
  | .nan => 0
  | .infinite n => if n then low else high
  | .finite n m e =>
    max low (min high (signed n (if 0 ≤ e then m * 2 ^ e.toNat else m / 2 ^ (-e).toNat)))

def ofInt (i : Int) : Nat := encode f (i < 0) i.natAbs 0

/-- A pattern of the format as a pattern of another. -/
def convert (g : Format) (a : Nat) : Nat := ofValue g (decode f a)

end Rish.Lib.SoftFloat
