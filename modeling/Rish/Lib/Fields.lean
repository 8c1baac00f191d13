/-
  Rish.Lib.Fields — fields of a byte string at fixed offsets.

  Proved: a field of the same size takes the place of the one that stands there (`putAt_append`).
-/

import Rish.Lib.Bytes

namespace Rish.Lib

/-- Overwrites the bytes from an offset on. -/
def putAt (bytes : List U8) (start : Nat) (field : List U8) : List U8 :=
  bytes.take start ++ field ++ bytes.drop (start + field.length)

theorem putAt_append {a b c field} (h : field.length = b.length) :
    putAt (a ++ (b ++ c)) a.length field = a ++ (field ++ c) := by
  rw [putAt, List.take_left, h, ← List.append_assoc a b c, ← List.length_append, List.drop_left, List.append_assoc]

end Rish.Lib
