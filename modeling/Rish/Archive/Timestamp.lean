/-
  Rish.Archive.Timestamp — the `mtime` of a PAX header (`parse_timestamp` of `rish-guest-importer`).

  The text is a decimal number of seconds; the nanoseconds of the result count up from its seconds, so a
  negative fraction borrows one. `Decimal` is a number as it is written: those that end within nine places
  and whose floor is an `i64` are accepted, and nothing of them is lost (`timestamps_exact`).
-/

import Mathlib.Data.Nat.Digits.Defs
import Mathlib.Data.Rat.Floor
import Rish.Archive.Entry
import Rish.Lib.Checked

namespace Rish.Archive

open Lib Lib.Checked List
open Option (bind_eq_some_iff guard_eq_some' bind_eq_bind bind_some)

structure Timestamp where
  seconds : Int
  nanoseconds : Int

inductive ImportError where
  | invalidTimestamp (path key : Text)

def MINUS : U8 := 0x2d#8
def PLUS : U8 := 0x2b#8
def ZERO : U8 := 0x30#8

def isAsciiDigit (byte : U8) : Bool := ZERO ≤ byte && byte ≤ 0x39#8

/-- The number that digits stand for. -/
def decimal (digits : Text) : Nat := Nat.ofDigits 10 (digits.map (·.toNat - 48)).reverse

def asUnsigned (width n : Nat) : Option Nat := if n < 2 ^ width then some n else none

def asSigned (width : Nat) (n : Int) : Option Int :=
  if -2 ^ (width - 1) ≤ n ∧ n < 2 ^ (width - 1) then some n else none

def fromUtf8 (value : Text) : Option Text :=
  if (value.map UInt8.ofBitVec).toByteArray.validateUTF8 then some value else none

def splitSign (value : Text) : Bool × Text :=
  if value.head? = some MINUS then (true, value.tail)
  else if value.head? = some PLUS then (false, value.tail)
  else (false, value)

/-- `split_once('.')`; a point with nothing after it is refused. -/
def splitPoint (unsigned : Text) : Option (Text × Text) :=
  match unsigned.dropWhile (· ≠ DOT) with
  | [] => some (unsigned, [])
  | _ :: fraction => if fraction = [] then none else some (unsigned.takeWhile (· ≠ DOT), fraction)

def keptValue (kept : Text) : Option Nat := if kept = [] then some 0 else asUnsigned 32 (decimal kept)

/-- The nanoseconds count up from the seconds: a fraction below zero borrows one. -/
def borrowSecond (negative : Bool) (whole : Int) (nanoseconds : Nat) : Option (Int × Int) :=
  if negative ∧ nanoseconds ≠ 0 then do
    let negated ← asSigned 128 (-whole)
    pure (← asSigned 128 (negated - 1), 1000000000 - nanoseconds)
  else if negative then do pure (← asSigned 128 (-whole), 0)
  else pure (whole, nanoseconds)

/-- The sign, and the digits before and after the point. -/
def splitNumber (value : Text) : Option (Bool × Text × Text) := do
  let value ← fromUtf8 value
  let (negative, unsigned) := splitSign value
  let (whole, fraction) ← splitPoint unsigned
  guard (whole ≠ [] ∧ whole.all isAsciiDigit ∧ fraction.all isAsciiDigit)
  pure (negative, whole, fraction)

/-- What the digits stand for; `parse` of digits is `decimal` where that fits the type. -/
def convertNumber (negative : Bool) (whole fraction : Text) : Option Timestamp := do
  let whole ← asUnsigned 128 (decimal whole)
  let (kept, remainder) := if fraction.length > 9 then fraction.splitAt 9 else (fraction, [])
  guard (remainder.all (· = ZERO))
  let fractionValue ← keptValue kept
  let nanoseconds ← asUnsigned 32 (fractionValue * 10 ^ (9 - kept.length))
  let whole ← asSigned 128 whole
  let (seconds, nanoseconds) ← borrowSecond negative whole nanoseconds
  pure ⟨← asSigned 64 seconds, nanoseconds⟩

/-- `parse_timestamp`: whatever fails, the error is the same. -/
def parseTimestamp (value path key : Text) : Except ImportError Timestamp :=
  some? (splitNumber value >>= fun (negative, whole, fraction) => convertNumber negative whole fraction)
    (.invalidTimestamp path key)

/-! ## Written numbers -/

/-- A decimal number as it is written; without digits after the point there is no point. -/
structure Decimal where
  sign : Text
  whole : Text
  fraction : Text
  signed : sign = [] ∨ sign = [PLUS] ∨ sign = [MINUS]
  written : whole ≠ []
  whole_digits : ∀ byte ∈ whole, isAsciiDigit byte
  fraction_digits : ∀ byte ∈ fraction, isAsciiDigit byte

namespace Decimal

/-- What stands after the whole part. -/
def point (fraction : Text) : Text := if fraction = [] then [] else DOT :: fraction

def text (n : Decimal) : Text := n.sign ++ (n.whole ++ point n.fraction)

def value (n : Decimal) : ℚ :=
  (if n.sign = [MINUS] then -1 else 1) * (decimal n.whole + decimal n.fraction / 10 ^ n.fraction.length)

/-- The number ends within nine places. -/
def Exact (n : Decimal) : Prop := ∀ byte ∈ n.fraction.drop 9, byte = ZERO

def FitsI64 (n : Decimal) : Prop := -2 ^ 63 ≤ ⌊n.value⌋ ∧ ⌊n.value⌋ < 2 ^ 63

/-- The nanoseconds that the first nine places stand for. -/
def nanos (n : Decimal) : Nat := decimal (n.fraction.take 9) * 10 ^ (9 - (n.fraction.take 9).length)

/-- The timestamp of an exact number. -/
def stamp (n : Decimal) : Timestamp :=
  if n.sign = [MINUS] ∧ n.nanos ≠ 0 then ⟨-decimal n.whole - 1, 1000000000 - n.nanos⟩
  else if n.sign = [MINUS] then ⟨-decimal n.whole, 0⟩
  else ⟨decimal n.whole, n.nanos⟩

end Decimal

/-! ## What digits stand for -/

theorem decimal_append (a b) : decimal (a ++ b) = decimal a * 10 ^ b.length + decimal b := by
  simp only [decimal, map_append, reverse_append, Nat.ofDigits_append, length_reverse, length_map]
  ring

theorem digit_bounds {byte : U8} (h : isAsciiDigit byte) : 48 ≤ byte.toNat ∧ byte.toNat ≤ 57 := by
  simpa [isAsciiDigit, ZERO, BitVec.le_def] using h

theorem decimal_lt {digits} (h : ∀ byte ∈ digits, isAsciiDigit byte) : decimal digits < 10 ^ digits.length := by
  have hdigits : ∀ d ∈ (digits.map (·.toNat - 48)).reverse, d < 10 := by
    intro d hd
    obtain ⟨byte, hbyte, rfl⟩ := mem_map.mp (mem_reverse.mp hd)
    have := digit_bounds (h byte hbyte)
    omega
  simpa [decimal] using Nat.ofDigits_lt_base_pow_length (by norm_num) hdigits

theorem decimal_zeros {digits} (h : ∀ byte ∈ digits, byte = ZERO) : decimal digits = 0 := by
  rw [eq_replicate_of_mem h, decimal, map_replicate, reverse_replicate]
  exact Nat.ofDigits_replicate_zero

@[simp] theorem asUnsigned_eq_some {width m k} : asUnsigned width m = some k ↔ m < 2 ^ width ∧ m = k := by
  simp [asUnsigned]

@[simp] theorem asSigned_eq_some {width m k} :
    asSigned width m = some k ↔ (-2 ^ (width - 1) ≤ m ∧ m < 2 ^ (width - 1)) ∧ m = k := by
  simp [asSigned]

namespace Decimal

variable (n : Decimal)

theorem nanos_lt : n.nanos < 1000000000 := by
  have hlen : (n.fraction.take 9).length ≤ 9 := by simp
  have hlt : decimal (n.fraction.take 9) < 10 ^ (n.fraction.take 9).length :=
    decimal_lt fun byte hb => n.fraction_digits byte (mem_of_mem_take hb)
  calc n.nanos < 10 ^ (n.fraction.take 9).length * 10 ^ (9 - (n.fraction.take 9).length) :=
        Nat.mul_lt_mul_of_pos_right hlt (by positivity)
    _ = 1000000000 := by rw [← pow_add, Nat.add_sub_cancel' hlen]; rfl

theorem stamp_bounds : 0 ≤ n.stamp.nanoseconds ∧ n.stamp.nanoseconds < 1000000000 := by
  have := n.nanos_lt
  unfold stamp
  split_ifs <;> dsimp only <;> omega

variable {n} (h : n.Exact)
include h

/-- Nothing is cut off where the tenth place and those after it are zeros. -/
theorem fraction_eq : decimal n.fraction * 1000000000 = n.nanos * 10 ^ n.fraction.length := by
  have hnine : (10 : Nat) ^ (9 - (n.fraction.take 9).length) * 10 ^ (n.fraction.take 9).length = 1000000000 := by
    rw [← pow_add, Nat.sub_add_cancel (by simp)]
    rfl
  conv_lhs => rw [← take_append_drop 9 n.fraction, decimal_append, decimal_zeros h]
  conv_rhs => rw [← take_append_drop 9 n.fraction, length_append, pow_add]
  rw [nanos, ← hnine]
  ring

theorem stamp_value : (n.stamp.seconds * 1000000000 + n.stamp.nanoseconds : ℚ) = n.value * 1000000000 := by
  have hfraction : (decimal n.fraction / 10 ^ n.fraction.length : ℚ) = n.nanos / 1000000000 := by
    rw [div_eq_div_iff (by positivity) (by norm_num)]
    exact_mod_cast fraction_eq h
  rw [value, hfraction]
  by_cases hminus : n.sign = [MINUS]
  · by_cases hzero : n.nanos = 0
    · simp [stamp, hminus, hzero]
    · rw [stamp, if_pos ⟨hminus, hzero⟩, if_pos hminus]
      push_cast
      ring
  · rw [stamp, if_neg fun h => hminus h.1, if_neg hminus, if_neg hminus]
    push_cast
    ring

theorem stamp_floor : ⌊n.value⌋ = n.stamp.seconds := by
  have hbounds : (0 : ℚ) ≤ n.stamp.nanoseconds ∧ (n.stamp.nanoseconds : ℚ) < 1000000000 := by
    exact_mod_cast n.stamp_bounds
  have hvalue := stamp_value h
  rw [Int.floor_eq_iff]
  constructor <;> linarith [hbounds.1, hbounds.2]

omit h

/-! ## The two parts of the parser -/

theorem keptValue_eq : keptValue (n.fraction.take 9) = some (decimal (n.fraction.take 9)) := by
  by_cases hempty : n.fraction.take 9 = []
  · rw [hempty]
    rfl
  · have hle : decimal (n.fraction.take 9) ≤ n.nanos := Nat.le_mul_of_pos_right _ (by positivity)
    have := n.nanos_lt
    rw [keptValue, if_neg hempty, asUnsigned_eq_some]
    omega

/-- Within 128 bits the borrowing cannot fail. -/
theorem borrowSecond_eq (h : decimal n.whole < 2 ^ 127) :
    borrowSecond (n.sign = [MINUS]) (decimal n.whole) n.nanos = some (n.stamp.seconds, n.stamp.nanoseconds) := by
  have hneg : asSigned 128 (-(decimal n.whole : Int)) = some (-(decimal n.whole : Int)) := by
    rw [asSigned_eq_some]
    omega
  have hbelow : asSigned 128 (-(decimal n.whole : Int) - 1) = some (-(decimal n.whole : Int) - 1) := by
    rw [asSigned_eq_some]
    omega
  by_cases hminus : n.sign = [MINUS]
  · by_cases hzero : n.nanos = 0 <;> simp [borrowSecond, stamp, hminus, hzero, hneg, hbelow]
  · simp [borrowSecond, stamp, hminus]

theorem whole_lt (h : -2 ^ 63 ≤ n.stamp.seconds ∧ n.stamp.seconds < 2 ^ 63) : decimal n.whole < 2 ^ 127 := by
  unfold stamp at h
  split_ifs at h <;> dsimp only at h <;> omega

theorem convertNumber_iff (t) : convertNumber (n.sign = [MINUS]) n.whole n.fraction = some t ↔
    n.Exact ∧ (-2 ^ 63 ≤ n.stamp.seconds ∧ n.stamp.seconds < 2 ^ 63) ∧ n.stamp = t := by
  have hkept : (if n.fraction.length > 9 then n.fraction.splitAt 9 else (n.fraction, [])) =
      (n.fraction.take 9, n.fraction.drop 9) := by
    split_ifs with hlong
    · exact splitAt_eq
    · rw [take_of_length_le (by omega), drop_of_length_le (by omega)]
  have hnanos : decimal (n.fraction.take 9) * 10 ^ (9 - (n.fraction.take 9).length) < 1000000000 := n.nanos_lt
  have hexact : (n.fraction.drop 9).all (· = ZERO) = true ↔ n.Exact := by simp [Exact]
  rw [convertNumber, hkept]
  dsimp only
  rw [keptValue_eq]
  simp only [bind_eq_bind, bind_eq_some_iff, guard_eq_some', hexact, asUnsigned_eq_some,
    asSigned_eq_some, Option.some.injEq, Option.pure_def]
  constructor
  · rintro ⟨_, ⟨-, rfl⟩, _, hexact, _, rfl, _, ⟨-, rfl⟩, _, ⟨hlt, rfl⟩, pair, hpair, _, ⟨hfits, rfl⟩, ht⟩
    obtain rfl := Option.some.inj ((n.borrowSecond_eq (by omega)).symm.trans hpair)
    exact ⟨hexact, hfits, ht⟩
  · rintro ⟨hexact, hfits, ht⟩
    have hlt := n.whole_lt hfits
    exact ⟨_, ⟨by omega, rfl⟩, (), hexact, _, rfl, _, ⟨by omega, rfl⟩, _, ⟨by omega, rfl⟩, _, n.borrowSecond_eq hlt, _,
      ⟨hfits, rfl⟩, ht⟩

end Decimal

open Decimal

theorem digit_ne {byte : U8} (h : isAsciiDigit byte) : byte ≠ DOT ∧ byte ≠ MINUS ∧ byte ≠ PLUS := by
  have := digit_bounds h
  refine ⟨?_, ?_, ?_⟩ <;> (rintro rfl; simp [DOT, MINUS, PLUS] at this)

theorem fromUtf8_ascii {value} (h : ∀ byte ∈ value, byte.toNat < 128) : fromUtf8 value = some value := by
  rw [fromUtf8, if_pos]
  rw [ByteArray.validateUTF8_eq_true_iff]
  refine .intro (value.map fun byte => Char.ofNat byte.toNat) ?_
  rw [List.utf8Encode, flatMap_map, ← flatMap_singleton' (value.map UInt8.ofBitVec), flatMap_map]
  congr 1
  apply flatMap_congr
  intro byte hbyte
  have hlt := h byte hbyte
  have hval : (Char.ofNat byte.toNat).val.toNat = byte.toNat := by
    rw [Char.ofNat, dif_pos (Or.inl (by omega))]
    rfl
  rw [String.utf8EncodeChar, hval, if_pos (by omega)]
  simp

theorem splitPoint_iff {unsigned whole fraction} (h : ∀ byte ∈ whole, isAsciiDigit byte) :
    splitPoint unsigned = some (whole, fraction) ↔ unsigned = whole ++ point fraction := by
  unfold point
  constructor
  · intro h
    have hwhole := takeWhile_append_dropWhile (p := fun byte => decide (byte ≠ DOT)) (l := unsigned)
    unfold splitPoint at h
    split at h
    · cases h
      simp
    · rename_i point rest hdrop
      split_ifs at h with hempty
      cases h
      have hpoint := head?_dropWhile_not (fun byte => decide (byte ≠ DOT)) unsigned
      rw [hdrop] at hpoint
      obtain rfl : point = DOT := by simpa using hpoint
      rw [if_neg hempty, ← hdrop, hwhole]
  · rintro rfl
    have hwhole : ∀ byte ∈ whole, decide (byte ≠ DOT) = true := fun byte hb => decide_eq_true (digit_ne (h byte hb)).1
    rw [splitPoint, dropWhile_append_of_pos hwhole, takeWhile_append_of_pos hwhole]
    split_ifs with hempty <;> simp [hempty]

theorem Decimal.splitSign_text (n : Decimal) :
    splitSign n.text = (decide (n.sign = [MINUS]), n.whole ++ point n.fraction) := by
  obtain ⟨first, rest, hwhole⟩ := exists_cons_of_ne_nil n.written
  have hfirst := digit_ne (n.whole_digits first (by simp [hwhole]))
  have hsigns : PLUS ≠ MINUS := by decide
  rw [splitSign, text]
  rcases n.signed with h | h | h <;> simp [h, hwhole, hfirst.2.1, hfirst.2.2, hsigns]

theorem splitSign_inv (value) : ∃ sign, (sign = [] ∨ sign = [PLUS] ∨ sign = [MINUS]) ∧
    value = sign ++ (splitSign value).2 ∧ (splitSign value).1 = decide (sign = [MINUS]) := by
  unfold splitSign
  split_ifs with hminus hplus
  · exact ⟨[MINUS], by simp, (cons_head?_tail hminus).symm, by simp⟩
  · exact ⟨[PLUS], by simp, (cons_head?_tail hplus).symm, rfl⟩
  · exact ⟨[], by simp⟩

theorem Decimal.text_ascii (n : Decimal) : ∀ byte ∈ n.text, byte.toNat < 128 := by
  have := n.signed
  have := n.whole_digits
  have := n.fraction_digits
  have : PLUS.toNat < 128 ∧ MINUS.toNat < 128 ∧ DOT.toNat < 128 := by decide
  grind [text, point, digit_bounds]

/-- The texts that are split are those of numbers. -/
theorem splitNumber_iff (value : Text) (parts : Bool × Text × Text) : splitNumber value = some parts ↔
    ∃ n : Decimal, n.text = value ∧ (decide (n.sign = [MINUS]), n.whole, n.fraction) = parts := by
  constructor
  · intro h
    obtain ⟨text, htext, h⟩ := bind_eq_some_iff.mp h
    obtain ⟨-, rfl⟩ : _ ∧ value = text := by simpa [fromUtf8] using htext
    obtain ⟨sign, hsigned, htext, hminus⟩ := splitSign_inv value
    rcases hsplit : splitSign value with ⟨negative, unsigned⟩
    rw [hsplit] at h htext hminus
    obtain ⟨⟨whole, fraction⟩, hpoint, h⟩ := bind_eq_some_iff.mp h
    obtain ⟨_, hdigits, h⟩ := bind_eq_some_iff.mp h
    obtain ⟨hwritten, hwhole, hfraction⟩ := (guard_eq_some' _).mp hdigits
    rw [all_eq_true] at hwhole hfraction
    refine ⟨⟨sign, whole, fraction, hsigned, hwritten, hwhole, hfraction⟩, ?_, ?_⟩
    · rw [htext, (splitPoint_iff hwhole).mp hpoint]
      rfl
    · rw [← Option.some.inj h]
      exact congrArg (·, whole, fraction) hminus.symm
  · rintro ⟨n, rfl, rfl⟩
    rw [splitNumber, fromUtf8_ascii n.text_ascii, bind_eq_bind, bind_some, n.splitSign_text]
    dsimp only
    rw [(splitPoint_iff n.whole_digits).mpr rfl, bind_eq_bind, bind_some, guard, if_pos]
    · rfl
    · exact ⟨n.written, all_eq_true.mpr n.whole_digits, all_eq_true.mpr n.fraction_digits⟩

theorem parseTimestamp_ok_iff (value path key t) : parseTimestamp value path key = .ok t ↔
    ∃ n : Decimal, n.text = value ∧ n.Exact ∧ n.FitsI64 ∧ n.stamp = t := by
  rw [parseTimestamp, some?_eq_ok, bind_eq_bind, bind_eq_some_iff]
  constructor
  · rintro ⟨parts, hparts, h⟩
    obtain ⟨n, htext, rfl⟩ := (splitNumber_iff value parts).mp hparts
    obtain ⟨hexact, hfits, ht⟩ := (convertNumber_iff t).mp h
    exact ⟨n, htext, hexact, by rwa [FitsI64, stamp_floor hexact], ht⟩
  · rintro ⟨n, htext, hexact, hfits, ht⟩
    rw [FitsI64, stamp_floor hexact] at hfits
    exact ⟨_, (splitNumber_iff value _).mpr ⟨n, htext, rfl⟩, (convertNumber_iff t).mpr ⟨hexact, hfits, ht⟩⟩

/-- A text is accepted just when it is a number that ends within nine places and whose floor fits, and the
timestamp is then the number, to the nanosecond. -/
theorem timestamps_exact (value path key : Text) :
    match parseTimestamp value path key with
    | .ok t => ∃ n : Decimal, n.text = value ∧ n.Exact ∧ n.FitsI64 ∧
        (0 ≤ t.nanoseconds ∧ t.nanoseconds < 10 ^ 9) ∧
        (t.seconds * 10 ^ 9 + t.nanoseconds : ℚ) = n.value * 10 ^ 9
    | .error e => e = .invalidTimestamp path key ∧ ¬∃ n : Decimal, n.text = value ∧ n.Exact ∧ n.FitsI64 := by
  have hok := parseTimestamp_ok_iff value path key
  cases h : parseTimestamp value path key with
  | ok t =>
    obtain ⟨n, htext, hexact, hfits, rfl⟩ := (hok t).mp h
    refine ⟨n, htext, hexact, hfits, by simpa using n.stamp_bounds, ?_⟩
    norm_num [stamp_value hexact]
  | error e =>
    constructor
    · rw [parseTimestamp] at h
      generalize (splitNumber value >>= _) = read at h
      cases read with
      | none => exact (Except.error.inj h).symm
      | some t => cases h
    · rintro ⟨n, htext, hexact, hfits⟩
      have := (hok n.stamp).mpr ⟨n, htext, hexact, hfits, rfl⟩
      rw [h] at this
      cases this

end Rish.Archive
