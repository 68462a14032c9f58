import FieldWord.Proofs.Conversions
import Mathlib.Data.Nat.Size

/-!
# Bits of words

The zero bits that are counted in front of a word and the bits of its integer make up its width. The
counting goes byte by byte: zero bytes count eight bits each, and the first other byte ends it,
since its highest bit is the highest bit of the integer. Four bits make a hexadecimal digit, which
gives the number of digits.

The bounds of the smaller types are powers of two, so the leading zeros tell which of them hold a
word.

## Key results

- `Bytes.leadingZeros_add_size`, `Word256.leadingZeros_add_size`: leading zeros and bits of the
  integer
- `length_toDigits_sixteen`: the number of hexadecimal digits by the number of bits
- `Word256.toNat_lt_two_pow_iff`: a word is below a power of two by its leading zeros
- `leadingZeros_add_size_eq_width`: the leading zeros of words and bounded words, and what they tell
  about narrowing
-/

namespace FieldWord

/-- In front of `n` further bits, the highest bit of an integer other than zero is the highest bit
    of the whole. -/
private theorem size_mul_two_pow_add {m n r : Nat} (hm : m ≠ 0) (hr : r < 2 ^ n) :
    (m * 2 ^ n + r).size = m.log2 + n + 1 := by
  -- The highest bit of `m` is a bit of the whole.
  have hlow : m.log2 + n < (m * 2 ^ n + r).size := by
    rw [Nat.lt_size]
    calc 2 ^ (m.log2 + n) = 2 ^ m.log2 * 2 ^ n := pow_add _ _ _
      _ ≤ m * 2 ^ n := Nat.mul_le_mul_right _ (Nat.log2_self_le hm)
      _ ≤ m * 2 ^ n + r := Nat.le_add_right _ _
  -- What follows `m` does not reach the next bit.
  have hhigh : (m * 2 ^ n + r).size ≤ m.log2 + 1 + n := by
    rw [Nat.size_le]
    calc m * 2 ^ n + r < (m + 1) * 2 ^ n := by rw [Nat.add_mul]; omega
      _ ≤ 2 ^ (m.log2 + 1) * 2 ^ n := Nat.mul_le_mul_right _ Nat.lt_log2_self
      _ = 2 ^ (m.log2 + 1 + n) := (pow_add _ _ _).symm
  omega

/-- `Nat.toDigits` in base 16 takes a digit for up to four bits, and one for zero, which has no
    bits. -/
theorem length_toDigits_sixteen (n : Nat) :
    (Nat.toDigits 16 n).length = max 1 ((n.size + 3) / 4) := by
  -- Both sides are at most `k` exactly if `n` is below `16 ^ k`, except that neither is zero.
  apply eq_of_forall_ge_iff
  intro k
  have hpos : 0 < (Nat.toDigits 16 n).length := Nat.length_toDigits_pos
  by_cases hk : 0 < k
  · have hbits : n.size ≤ 4 * k ↔ n < 16 ^ k := by
      rw [Nat.size_le, pow_mul]
      norm_num
    rw [Nat.length_toDigits_le_iff (by decide) hk, ← hbits]
    omega
  · omega

/-- `leadingZeros` and the bits of the integer are all bits of the string. -/
theorem Bytes.leadingZeros_add_size (bs : List UInt8) :
    leadingZeros bs + (value bs).size = 8 * bs.length := by
  induction bs with
  | nil => rfl
  | cons b bs ih =>
    rw [leadingZeros, value_cons, List.length_cons]
    by_cases hb : b = 0
    · -- A zero byte adds its bits to those in front, and nothing to the integer.
      rw [if_pos hb, hb, UInt8.toNat_zero, Nat.zero_mul, Nat.zero_add]
      omega
    · -- The highest bit of any other byte is that of the whole, whatever follows.
      have hne : b.toNat ≠ 0 := fun h => hb (UInt8.toNat_inj.mp h)
      have hlog : b.toNat.log2 < 8 := (Nat.log2_lt hne).mpr b.toNat_lt
      have htail := value_lt bs
      rw [base_pow] at htail ⊢
      rw [if_neg hb, size_mul_two_pow_add hne htail]
      omega

/-- `leadingZeros` and the bits of the integer are all 256 bits. -/
theorem Word256.leadingZeros_add_size (w : Word256) : w.leadingZeros + w.toNat.size = 256 := by
  have h := Bytes.leadingZeros_add_size w.byteList
  rwa [length_byteList] at h

/-! ## Bounds by leading zeros -/

/-- `leadingZeros` tells whether a word is below a power of two: all bits from that one on are then
    among them. -/
theorem Word256.toNat_lt_two_pow_iff (w : Word256) (n : Nat) :
    w.toNat < 2 ^ n ↔ 256 - n ≤ w.leadingZeros := by
  have h := w.leadingZeros_add_size
  rw [← Nat.size_le]
  omega

/-- `leadingZeros` of a word other than zero is found by the powers of two next to it. -/
private theorem Word256.eq_leadingZeros_iff {w : Word256} (hw : w.toNat ≠ 0) {k : Nat} :
    k = w.leadingZeros ↔ k ≤ 255 ∧ 2 ^ (255 - k) ≤ w.toNat ∧ w.toNat < 2 ^ (256 - k) := by
  have h := w.leadingZeros_add_size
  have hpos : 0 < w.toNat.size := Nat.size_pos.mpr (Nat.pos_of_ne_zero hw)
  rw [← Nat.lt_size, ← Nat.size_le]
  omega

/-- `leadingZeros` tells whether `toNative?` narrows a word. -/
private theorem Word256.isSome_toNative?_iff (w : Word256) (width : Width) :
    (w.toNative? width).isSome ↔ 256 - 8 * width.size ≤ w.leadingZeros := by
  rw [toNative?_eq, ← toNat_lt_two_pow_iff]
  split <;> simp [*]

/-- `leadingZeros` tells whether `ofWord` narrows a word. -/
private theorem Word248.isSome_ofWord_iff (w : Word256) :
    (ofWord w).value.isSome ↔ 8 ≤ w.leadingZeros := by
  rw [isSome_value_ofWord_iff]
  exact w.toNat_lt_two_pow_iff 248

/-- `leadingZeros` and the bits of the integer are all 248 bits: the word has the eight zeros that
    are not counted. -/
theorem Word248.Bounded.leadingZeros_add_size (u : Bounded) :
    8 ≤ u.word.leadingZeros ∧ u.leadingZeros + u.word.toNat.size = 248 := by
  have htop : 8 ≤ u.word.leadingZeros := (u.word.toNat_lt_two_pow_iff 248).mp u.valid
  have h := u.word.leadingZeros_add_size
  refine ⟨htop, ?_⟩
  show u.word.leadingZeros - 8 + u.word.toNat.size = 248
  omega

/-- `leadingZeros` of a word and the bits of its integer make up 256 bits: all of them for zero, and
    otherwise the one number by which powers of two enclose the integer. A bounded word has at least
    the eight zeros that it does not count, so that its leading zeros and its bits make up 248. A
    word is therefore narrowed to a bounded word, or to a machine integer of 128 or 64 bits, exactly
    if it has the leading zeros for it. -/
theorem leadingZeros_add_size_eq_width :
    (∀ w : Word256,
      w.leadingZeros + w.toNat.size = 256 ∧
      (w.toNat = 0 → w.leadingZeros = 256) ∧
      (w.toNat ≠ 0 → ∀ k,
        k = w.leadingZeros ↔ k ≤ 255 ∧ 2 ^ (255 - k) ≤ w.toNat ∧ w.toNat < 2 ^ (256 - k))) ∧
    (∀ u : Word248, u.Valid →
      8 ≤ u.word.leadingZeros ∧ u.leadingZeros + u.word.toNat.size = 248 ∧ u.leadingZeros ≤ 248) ∧
    ∀ w : Word256,
      ((Word248.ofWord w).value.isSome ↔ 8 ≤ w.leadingZeros) ∧
      ((w.toNative? .w128).isSome ↔ 128 ≤ w.leadingZeros) ∧
      ((w.toNative? .w64).isSome ↔ 192 ≤ w.leadingZeros) := by
  refine ⟨?_, ?_, ?_⟩
  · intro w
    have h := w.leadingZeros_add_size
    refine ⟨h, ?_, fun hw k => Word256.eq_leadingZeros_iff hw⟩
    -- Zero has no bits, so all of them lead.
    intro hzero
    rw [hzero, Nat.size_zero] at h
    exact h
  · intro u hu
    lift u to Word248.Bounded using hu
    obtain ⟨htop, hsize⟩ := u.leadingZeros_add_size
    exact ⟨htop, hsize, by omega⟩
  · intro w
    exact ⟨Word248.isSome_ofWord_iff w, w.isSome_toNative?_iff .w128, w.isSome_toNative?_iff .w64⟩

/-- `Word248.max` has no leading zeros of its own, and the next word has seven, one too few. -/
theorem leadingZeros_add_size_eq_width_limit :
    (Word248.max.Valid ∧ Word248.max.leadingZeros + Word248.max.word.toNat.size = 248 ∧
      Word248.max.leadingZeros = 0) ∧
    Word248.limit.toNat ≠ 0 ∧ 7 = Word248.limit.leadingZeros ∧
    ¬ (Word248.ofWord Word248.limit).value.isSome := by
  obtain ⟨hword, hbounded, hnarrow⟩ := leadingZeros_add_size_eq_width
  have hmax : Word248.max.Valid := by decide
  have hlimit : Word248.limit.toNat = 2 ^ 248 := Word248.toNat_limit
  have hne : Word248.limit.toNat ≠ 0 := by rw [hlimit]; decide
  have hseven : 7 = Word248.limit.leadingZeros := by
    rw [(hword _).2.2 hne 7, hlimit]
    decide
  refine ⟨⟨hmax, (hbounded _ hmax).2.1, by decide⟩, hne, hseven, ?_⟩
  rw [(hnarrow _).1, ← hseven]
  decide

end FieldWord
