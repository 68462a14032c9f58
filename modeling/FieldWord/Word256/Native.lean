import FieldWord.Word256.Basic

/-!
# Words and machine integers

Machine integers of 8 to 128 bits widen to words, and a word narrows to a machine integer when the
bytes above that width are all zero.
-/

namespace FieldWord

/-- The widths of machine integers. -/
inductive Width where
  | w8 | w16 | w32 | w64 | w128
deriving DecidableEq, Repr

/-- The number of bytes of a machine integer. -/
def Width.size : Width → Nat
  | .w8 => 1
  | .w16 => 2
  | .w32 => 4
  | .w64 => 8
  | .w128 => 16

/-- An unsigned machine integer. -/
abbrev Native (width : Width) := BitVec (8 * width.size)

/-- `Width.size` is 16 bytes at most. -/
theorem Width.size_le (width : Width) : width.size ≤ 16 := by
  cases width <;> decide

namespace Word256

/-- The word with the value of a machine integer. -/
def ofNative (width : Width) (n : Native width) : Word256 :=
  ofByteList (List.replicate (32 - width.size) 0 ++ Bytes.ofNat width.size n.toNat) (by
    have := width.size_le
    simp
    omega)

/-- The machine integer with the value of a word, if the higher bytes of the word are all zero. -/
def toNative? (w : Word256) (width : Width) : Option (Native width) :=
  let split := 32 - width.size
  if (w.byteList.take split).all (· == 0) then some (.ofNat _ (Bytes.value (w.byteList.drop split)))
  else none

end Word256

end FieldWord
