/-
  Rish.Lib.Bytes — machine words as byte strings, and byte-addressed stores.
-/

import Mathlib.Data.List.GetD
import Mathlib.Tactic.Ring

namespace Rish.Lib

open List

abbrev U8 := BitVec 8
abbrev U16 := BitVec 16
abbrev U32 := BitVec 32
abbrev U64 := BitVec 64
abbrev U128 := BitVec 128

/-! The index types of registers and queues have literals. -/

instance neZero_two : NeZero 2 := ⟨by decide⟩
instance neZero_four : NeZero 4 := ⟨by decide⟩
instance neZero_eight : NeZero 8 := ⟨by decide⟩
instance neZero_sixteen : NeZero 16 := ⟨by decide⟩

/-- `{:#x}` of a word. -/
def hex {w : Nat} (v : BitVec w) : String := "0x" ++ String.ofList (Nat.toDigits 16 v.toNat)

/-! ## Little-endian strings -/

/-- The low `n` bytes of a number, least significant first. -/
def leBytes : Nat → Nat → List U8
  | 0, _ => []
  | n + 1, v => BitVec.ofNat 8 v :: leBytes n (v / 256)

def leNat : List U8 → Nat
  | [] => 0
  | b :: bs => b.toNat + 256 * leNat bs

@[simp] theorem leBytes_length (n v) : (leBytes n v).length = n := by
  induction n generalizing v with
  | zero => rfl
  | succ n ih => simp [leBytes, ih]

variable (bs : List U8)

theorem leNat_lt : leNat bs < 256 ^ bs.length := by
  induction bs with
  | nil => simp [leNat]
  | cons b bs ih =>
    have hb : b.toNat < 256 := b.isLt
    simp only [leNat, length_cons, pow_succ]
    omega

theorem leNat_leBytes (n v) : leNat (leBytes n v) = v % 256 ^ n := by
  induction n generalizing v with
  | zero => simp [leBytes, leNat, Nat.mod_one]
  | succ n ih =>
    have hlow : (BitVec.ofNat 8 v).toNat = v % 256 := BitVec.toNat_ofNat v 8
    rw [leBytes, leNat, ih, hlow, pow_succ, Nat.mul_comm (256 ^ n) 256, Nat.mod_mul]

theorem leBytes_leNat : leBytes bs.length (leNat bs) = bs := by
  induction bs with
  | nil => rfl
  | cons b bs ih =>
    have hb : b.toNat < 256 := b.isLt
    have hlow : BitVec.ofNat 8 (b.toNat + 256 * leNat bs) = b := by
      apply BitVec.eq_of_toNat_eq
      simp only [BitVec.toNat_ofNat]
      omega
    have hhigh : (b.toNat + 256 * leNat bs) / 256 = leNat bs := by omega
    simp only [length_cons, leBytes, leNat, hlow, hhigh, ih]

theorem leBytes_add (m n v) : leBytes (m + n) v = leBytes m v ++ leBytes n (v / 256 ^ m) := by
  induction m generalizing v with
  | zero => simp [leBytes]
  | succ m ih =>
    rw [Nat.add_right_comm, leBytes, ih]
    simp only [leBytes, cons_append, pow_succ, Nat.mul_comm (256 ^ m) 256, Nat.div_div_eq_div_mul]

/-! ## Big-endian strings -/

def beBytes (n v : Nat) : List U8 := (leBytes n v).reverse

def beNat : Nat := leNat bs.reverse

@[simp] theorem beBytes_length (n v) : (beBytes n v).length = n := by simp [beBytes]

theorem beNat_beBytes (n v) : beNat (beBytes n v) = v % 256 ^ n := by
  simp only [beNat, beBytes, reverse_reverse, leNat_leBytes]

/-! ## Stores -/

/-- A byte store: what each address holds. -/
abbrev Bytes := Nat → U8

variable (m : Bytes)

def readBytes (start n : Nat) : List U8 := (List.range n).map fun i => m (start + i)

def writeBytes (start : Nat) (bs : List U8) : Bytes := fun a =>
  if start ≤ a ∧ a < start + bs.length then bs.getD (a - start) 0 else m a

@[simp] theorem readBytes_length (start n) : (readBytes m start n).length = n := by
  simp [readBytes]

@[simp] theorem writeBytes_nil (start) : writeBytes m start [] = m := by
  funext a
  simp only [writeBytes, length_nil, ite_eq_right_iff]
  omega

variable {bs : List U8} {m : Bytes} {start : Nat}

theorem writeBytes_of_lt {a} (h : a < start) : writeBytes m start bs a = m a := by
  simp only [writeBytes, ite_eq_right_iff]
  omega

theorem writeBytes_of_ge {a} (h : start + bs.length ≤ a) : writeBytes m start bs a = m a := by
  simp only [writeBytes, ite_eq_right_iff]
  omega

theorem writeBytes_at {i} (h : i < bs.length) : writeBytes m start bs (start + i) = bs.getD i 0 := by
  have hin : start ≤ start + i ∧ start + i < start + bs.length := by omega
  simp only [writeBytes, hin, if_true, Nat.add_sub_cancel_left, and_self]

theorem readBytes_congr {m m' n} (h : ∀ a, start ≤ a → a < start + n → m a = m' a) :
    readBytes m start n = readBytes m' start n := by
  apply map_congr_left
  intro i hi
  have hi' : i < n := mem_range.mp hi
  exact h _ (by omega) (by omega)

theorem readBytes_writeBytes_self (m start bs) :
    readBytes (writeBytes m start bs) start bs.length = bs := by
  apply ext_getElem (by simp)
  intro i hi hi'
  simp only [readBytes, getElem_map, getElem_range]
  rw [writeBytes_at hi', getD_eq_getElem _ _ hi']

theorem readBytes_writeBytes_disjoint {start' n} (h : start + n ≤ start' ∨ start' + bs.length ≤ start) :
    readBytes (writeBytes m start' bs) start n = readBytes m start n := by
  apply readBytes_congr
  intro a ha hn
  rcases h with h | h
  · exact writeBytes_of_lt (by omega)
  · exact writeBytes_of_ge (by omega)

theorem readBytes_add (m start k n) :
    readBytes m start (k + n) = readBytes m start k ++ readBytes m (start + k) n := by
  simp [readBytes, range_add, Nat.add_assoc]

theorem writeBytes_append (m start bs cs) :
    writeBytes m start (bs ++ cs) = writeBytes (writeBytes m start bs) (start + bs.length) cs := by
  funext a
  by_cases h : a < start + bs.length
  · rw [writeBytes_of_lt h]
    by_cases h' : start ≤ a
    · obtain ⟨i, rfl⟩ := Nat.exists_eq_add_of_le h'
      have hi : i < bs.length := by omega
      rw [writeBytes_at hi, writeBytes_at (by simp; omega), getD_append _ _ _ _ hi]
    · rw [writeBytes_of_lt (by omega), writeBytes_of_lt (by omega)]
  · by_cases h' : a < start + bs.length + cs.length
    · obtain ⟨i, rfl⟩ := Nat.exists_eq_add_of_le (Nat.le_of_not_lt h)
      have hi : i < cs.length := by omega
      rw [writeBytes_at hi, Nat.add_assoc, writeBytes_at (by simp; omega),
        getD_append_right _ _ _ _ (by omega), Nat.add_sub_cancel_left]
    · rw [writeBytes_of_ge (by simp; omega), writeBytes_of_ge (by omega), writeBytes_of_ge (by omega)]

end Rish.Lib
