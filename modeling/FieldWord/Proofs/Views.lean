import FieldWord.Proofs.Bounded

/-!
# Views of words

A word is seen as four limbs of 64 bits, and a bounded word as the 31 bytes below the top byte of
its word. Nothing is lost in either view: the limbs are the digits of the word in base `2 ^ 64`, and
the byte that the other view leaves out is zero as long as the bounded word keeps to its bound.

## Key results

- `Bytes.value_eq_ofDigits`, `Word256.toNat_ofLimbs_eq`: the integers that bytes and limbs stand for
- `Word256.limbs_ofLimbs`: limbs are found again in the word made of them
- `Word248.Bounded.byteList_word`: the byte in front of the 31 bytes
- `limbs_and_bytes_inverse`: both views, with their inverses
-/

namespace FieldWord

/-! ## Limbs of words -/

/-- `limbValue` tells limb strings of one length apart. -/
private theorem Limbs.limbValue_inj {as bs : List UInt64} (hlen : as.length = bs.length)
    (h : limbValue as = limbValue bs) : as = bs := by
  have hdigit : ∀ (limbs : List UInt64), ∀ n ∈ limbs.map UInt64.toNat, n < 2 ^ 64 := by
    intro limbs n hn
    obtain ⟨limb, -, rfl⟩ := List.mem_map.mp hn
    exact limb.toNat_lt
  have hmap : as.map UInt64.toNat = bs.map UInt64.toNat :=
    Nat.ofDigits_inj_of_len_eq (by norm_num) (by simpa using hlen) (hdigit as) (hdigit bs) h
  exact List.map_injective_iff.mpr (fun _ _ => UInt64.toNat_inj.mp) hmap

/-- `ofLimbs` counts the limbs by their places, the first one most. -/
theorem Word256.toNat_ofLimbs_eq (limbs : Vector UInt64 4) :
    (ofLimbs limbs).toNat =
      limbs[0].toNat * 2 ^ 192 + limbs[1].toNat * 2 ^ 128 + limbs[2].toNat * 2 ^ 64 +
        limbs[3].toNat := by
  have hlist : limbs.toList = [limbs[0], limbs[1], limbs[2], limbs[3]] := by
    apply List.ext_getElem (by simp)
    intro i hi _
    rw [Vector.length_toList] at hi
    match i with
    | 0 | 1 | 2 | 3 => simp
  rw [toNat_ofLimbs, hlist]
  simp only [List.reverse_cons, List.reverse_nil, List.nil_append, List.cons_append,
    Limbs.limbValue_cons, Limbs.limbValue_nil]
  ring

/-- `limbs` gives back what `ofLimbs` was given. -/
theorem Word256.limbs_ofLimbs (limbs : Vector UInt64 4) : (ofLimbs limbs).limbs = limbs := by
  have hvalue : Limbs.limbValue (ofLimbs limbs).limbs.toList.reverse =
      Limbs.limbValue limbs.toList.reverse := by
    rw [limbValue_limbs, toNat_ofLimbs]
  have hreverse := Limbs.limbValue_inj (by simp) hvalue
  exact Vector.toList_inj.mp (List.reverse_inj.mp hreverse)

/-! ## Bytes of bounded words -/

/-- `value` is the numeral of base 256 with the bytes as digits, the first one counting most. -/
theorem Bytes.value_eq_ofDigits (bs : List UInt8) :
    value bs = Nat.ofDigits 256 (bs.map UInt8.toNat).reverse := by
  induction bs with
  | nil => rfl
  | cons b bs ih =>
    rw [value_cons, ih, List.map_cons, List.reverse_cons, Nat.ofDigits_append,
      Nat.ofDigits_singleton, List.length_reverse, List.length_map]
    ring

/-- `bytes` leaves out the first byte of the word. -/
private theorem Word248.toList_bytes (u : Word248) : u.bytes.toList = u.word.byteList.drop 1 := by
  simp [bytes]

/-- The byte that `bytes` leaves out is zero: one unit in it already reaches the bound. -/
theorem Word248.Bounded.byteList_word (u : Bounded) :
    u.word.byteList = 0 :: u.bytes.toList := by
  have hlength := u.word.length_byteList
  have hu := u.valid
  rw [toList_bytes]
  unfold Valid Word256.toNat at hu
  cases hbytes : u.word.byteList with
  | nil => simp [hbytes] at hlength
  | cons b bs =>
    rw [hbytes, List.length_cons] at hlength
    have hpow : 256 ^ bs.length = 2 ^ 248 := by
      rw [show bs.length = 31 by omega]
      norm_num
    rw [hbytes, Bytes.value_cons, hpow] at hu
    -- The first byte counts `2 ^ 248`, so the bound leaves nothing for it.
    have hb : b = 0 := UInt8.toNat_inj.mp (show b.toNat = 0 by omega)
    rw [hb, List.drop_one, List.tail_cons]

/-- `ofBytes` puts a zero byte in front. -/
private theorem Word248.byteList_ofBytes (bytes : Vector UInt8 31) :
    (ofBytes bytes).word.byteList = 0 :: bytes.toList :=
  Word256.byteList_ofByteList (0 :: bytes.toList) (by simp)

/-- `ofBytes` gives a bounded word back from its bytes. -/
theorem Word248.Bounded.ofBytes_bytes (u : Bounded) : Word248.ofBytes u.bytes = u.toWord248 := by
  have hword : (Word248.ofBytes u.bytes).word = u.word := by
    apply Word256.ext
    rw [byteList_ofBytes, byteList_word]
  rw [← toNat_inj, hword]

/-- `bytes` gives back what `ofBytes` was given. -/
theorem Word248.bytes_ofBytes (bytes : Vector UInt8 31) : (ofBytes bytes).bytes = bytes := by
  rw [← Vector.toList_inj, toList_bytes, byteList_ofBytes, List.drop_one, List.tail_cons]

/-- `ofBytes` keeps the integer of which the bytes are the digits. -/
theorem Word248.toNat_ofBytes (bytes : Vector UInt8 31) :
    (ofBytes bytes).word.toNat = Nat.ofDigits 256 (bytes.toList.map UInt8.toNat).reverse := by
  rw [Word256.toNat, byteList_ofBytes, Bytes.value_cons, UInt8.toNat_zero, Nat.zero_mul,
    Nat.zero_add, Bytes.value_eq_ofDigits]

/-- `limbs` and `bytes` lose nothing. Four limbs stand for the integer of which they are the digits
    in base `2 ^ 64`, most significant first, and words and limbs are made of each other without
    loss. Likewise 31 bytes stand for the integer of which they are the digits in base 256, and they
    and the bounded words are made of each other without loss; all bytes of a bounded word are a
    zero byte and those 31. -/
theorem limbs_and_bytes_inverse :
    (∀ limbs : Vector UInt64 4,
      (Word256.ofLimbs limbs).toNat =
        limbs[0].toNat * 2 ^ 192 + limbs[1].toNat * 2 ^ 128 + limbs[2].toNat * 2 ^ 64 +
          limbs[3].toNat ∧
      (Word256.ofLimbs limbs).limbs = limbs) ∧
    (∀ w : Word256, Word256.ofLimbs w.limbs = w) ∧
    (∀ bytes : Vector UInt8 31,
      (Word248.ofBytes bytes).word.toNat = Nat.ofDigits 256 (bytes.toList.map UInt8.toNat).reverse ∧
      (Word248.ofBytes bytes).bytes = bytes) ∧
    ∀ u : Word248, u.Valid →
      Word248.ofBytes u.bytes = u ∧ u.word.byteList = 0 :: u.bytes.toList := by
  refine ⟨?_, Word256.ofLimbs_limbs, ?_, ?_⟩
  · intro limbs
    exact ⟨Word256.toNat_ofLimbs_eq limbs, Word256.limbs_ofLimbs limbs⟩
  · intro bytes
    exact ⟨Word248.toNat_ofBytes bytes, Word248.bytes_ofBytes bytes⟩
  · intro u hu
    lift u to Word248.Bounded using hu
    exact ⟨u.ofBytes_bytes, u.byteList_word⟩

/-- `Word248.max` is a zero byte and 31 bytes with all bits set, which give it back. -/
theorem limbs_and_bytes_inverse_max :
    Word248.max.Valid ∧ Word248.max.word.byteList = 0 :: List.replicate 31 255 ∧
      Word248.ofBytes (.replicate 31 255) = .max := by
  have hvalid : Word248.max.Valid := by decide
  have hbytes : Word248.max.bytes = .replicate 31 255 := by decide
  obtain ⟨hback, hlist⟩ := limbs_and_bytes_inverse.2.2.2 Word248.max hvalid
  rw [hbytes] at hback hlist
  exact ⟨hvalid, hlist, hback⟩

end FieldWord
