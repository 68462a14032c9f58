import FieldWord.Proofs.Conversions
import FieldWord.Proofs.Order
import Mathlib.Data.Nat.ModEq

/-!
# Negative elements

The negative of an element other than zero is the prime less its residue, and zero is its own
negative. Both are least residues again, so that negation is the additive inverse modulo the order
of the field on the whole range. The bounded words are the elements at one end of that range, and
negation takes them to the other end.

## Key results

- `Felt.Residue.toNat_neg_eq_mod`: both cases of negation as one residue
- `Felt.Residue.neg_lt_neg_iff`: negation reverses the order of elements other than zero
- `Felt.neg_additive_inverse`: these facts together, with the involution and its only fixed point
- `Felt.neg_narrows_iff`: the negatives that are narrowed to a bounded word
-/

namespace FieldWord.Felt

/-- `zero` is below every other element. -/
private theorem zero_lt_iff {x : Felt} : zero < x ↔ x.word.toNat ≠ 0 := by
  rw [orderedBy.lt_iff]
  show Word256.zero.toNat < _ ↔ _
  rw [Word256.toNat_zero]
  omega

namespace Residue

/-- `-x` is the difference from the order, reduced by it, and so for zero as well. -/
theorem toNat_neg_eq_mod (x : Residue) : (-x).word.toNat = (order - x.word.toNat) % order := by
  have hx : x.word.toNat < order := x.valid
  rw [toNat_neg]
  split
  · rename_i hzero
    rw [hzero, Nat.sub_zero, Nat.mod_self]
  · rw [Nat.mod_eq_of_lt (by omega)]

/-- `x` and `-x` add up to nothing or to the whole order. -/
theorem toNat_add_neg (x : Residue) : x.word.toNat + (-x).word.toNat ≡ 0 [MOD order] := by
  have hx : x.word.toNat < order := x.valid
  rw [toNat_neg]
  split
  · rename_i hzero
    rw [hzero]
  · rw [Nat.add_sub_cancel' (Nat.le_of_lt hx), Nat.modEq_zero_iff_dvd]

/-- The order is odd, so `-x` is `x` for no residue but zero. -/
theorem neg_eq_self_iff {x : Residue} : -x = x ↔ x.toFelt = zero := by
  have hx : x.word.toNat < order := x.valid
  have hzero : zero.word.toNat = 0 := Word256.toNat_zero
  rw [← toNat_inj, ← Felt.toNat_inj, toNat_neg, hzero]
  unfold order at *
  split <;> omega

/-- `-x` reverses the order of residues other than zero: of the same prime, the greater one leaves
    less. -/
theorem neg_lt_neg_iff {x y : Residue} (hx0 : zero < x.toFelt) (hy0 : zero < y.toFelt) :
    (-y).toFelt < (-x).toFelt ↔ x.toFelt < y.toFelt := by
  have hx : x.word.toNat < order := x.valid
  have hy : y.word.toNat < order := y.valid
  rw [zero_lt_iff] at hx0 hy0
  rw [orderedBy.lt_iff, orderedBy.lt_iff, toNat_neg, toNat_neg, if_neg hx0, if_neg hy0]
  omega

end Residue

/-- `-x` is the additive inverse of an element: the residue of the order less its own residue, again
    a least one, for which the subtraction from the prime never borrows. Negating twice gives the
    element back, only zero is its own negative, and the negatives of other elements stand in the
    reverse order. -/
theorem neg_additive_inverse {x : Felt} (hx : x.Valid) :
    ((-x).word.toNat = (order - x.word.toNat) % order ∧ (-x).word.toNat < order) ∧
    ((prime.subBorrow x.word).2 = false ∧ (prime - x.word).toNat = order - x.word.toNat) ∧
    x.word.toNat + (-x).word.toNat ≡ 0 [MOD order] ∧
    - -x = x ∧ (-x = x ↔ x = zero) ∧
    ∀ y : Felt, y.Valid → zero < x → x < y → -y < -x := by
  lift x to Residue using hx
  have hself : -x.toFelt = x.toFelt ↔ x.toFelt = zero := by
    rw [← Residue.neg_eq_self_iff, ← Felt.toNat_inj, ← Residue.toNat_inj]
    rfl
  refine ⟨⟨x.toNat_neg_eq_mod, (-x).valid⟩, x.toNat_prime_sub, x.toNat_add_neg,
    congrArg Residue.toFelt (neg_neg x), hself, ?_⟩
  intro y hy hx0 hxy
  lift y to Residue using hy
  -- A greater element is not zero either.
  have hy0 : zero < y.toFelt := by
    rw [zero_lt_iff] at hx0 ⊢
    rw [orderedBy.lt_iff] at hxy
    omega
  exact (Residue.neg_lt_neg_iff hx0 hy0).mpr hxy

/-- The two elements in the middle of the field are the negatives of each other. -/
theorem neg_additive_inverse_middle :
    (Felt.mk (.ofNat (2 ^ 250 + 17 * 2 ^ 191))).Valid ∧
      (-Felt.mk (.ofNat (2 ^ 250 + 17 * 2 ^ 191))).word.toNat = 2 ^ 250 + 17 * 2 ^ 191 + 1 ∧
      -max < -Felt.mk (.ofNat (2 ^ 250 + 17 * 2 ^ 191)) := by
  have hvalid : (Felt.mk (.ofNat (2 ^ 250 + 17 * 2 ^ 191))).Valid := by decide +kernel
  obtain ⟨⟨hvalue, -⟩, -, -, -, -, hreverse⟩ := neg_additive_inverse hvalid
  refine ⟨hvalid, ?_, hreverse max (by decide) (by decide +kernel) (by decide +kernel)⟩
  rw [hvalue, Word256.toNat_ofNat_of_lt (by decide)]
  decide

/-! ## Narrowing of negatives -/

namespace Residue

/-- `Word248.ofFelt` narrows `-x` for zero, and for the residues less than `2 ^ 248` below the
    prime. -/
private theorem isSome_ofFelt_neg_iff (x : Residue) :
    (Word248.ofFelt (-x).toFelt).value.isSome ↔
      x.word.toNat = 0 ∨ order - 2 ^ 248 < x.word.toNat := by
  have hx : x.word.toNat < order := x.valid
  have hnarrow : (Word248.ofFelt (-x).toFelt).value.isSome ↔ (-x).word.toNat < 2 ^ 248 :=
    Word248.isSome_value_ofWord_iff
  rw [hnarrow, toNat_neg]
  unfold order at *
  split <;> omega

/-- `Word248.ofFelt` narrows `-x` to what the residue leaves of the order. -/
private theorem toNat_of_ofFelt_neg {x : Residue} {u : Word248}
    (hu : (Word248.ofFelt (-x).toFelt).value = some u) :
    u.word.toNat = if x.word.toNat = 0 then 0 else order - x.word.toNat := by
  rw [← toNat_neg]
  exact Word248.toNat_of_value_ofWord hu

/-- Twice the bound of bounded words is below the prime, so what is narrowed itself is too far from
    it for `-x` to be narrowed. -/
private theorem ofFelt_neg_eq_none {x : Residue} (hne : x.word.toNat ≠ 0)
    (hlt : x.word.toNat < 2 ^ 248) :
    (Word248.ofFelt (-x).toFelt).value = none := by
  rw [← Option.not_isSome_iff_eq_none, isSome_ofFelt_neg_iff]
  unfold order
  omega

end Residue

/-- `-x` is narrowed to a bounded word exactly for zero, which gives zero, and for the elements
    above the order less `2 ^ 248`, which give what they leave of the order. So of an element other
    than zero and its negative one at most is narrowed, and the negative of a bounded word other
    than zero never is. -/
theorem neg_narrows_iff :
    (∀ x : Felt, x.Valid →
      ((Word248.ofFelt (-x)).value.isSome ↔ x.word.toNat = 0 ∨ order - 2 ^ 248 < x.word.toNat) ∧
      (∀ u, (Word248.ofFelt (-x)).value = some u →
        u.word.toNat = if x.word.toNat = 0 then 0 else order - x.word.toNat) ∧
      (x ≠ zero → (Word248.ofFelt x).value = none ∨ (Word248.ofFelt (-x)).value = none)) ∧
    ∀ u : Word248, u.Valid → u ≠ .zero → (Word248.ofFelt (-ofWord248 u)).value = none := by
  have hzero : Word256.zero.toNat = 0 := Word256.toNat_zero
  refine ⟨?_, ?_⟩
  · intro x hx
    lift x to Residue using hx
    refine ⟨x.isSome_ofFelt_neg_iff, fun u => Residue.toNat_of_ofFelt_neg, ?_⟩
    intro hne
    rw [ne_eq, ← toNat_inj, zero, hzero] at hne
    -- An element that is narrowed is too far from the prime for its negative.
    by_cases hlt : x.word.toNat < 2 ^ 248
    · exact .inr (Residue.ofFelt_neg_eq_none hne hlt)
    · exact .inl ((Word248.value_ofFelt x.toFelt).trans (if_neg hlt))
  · intro u hu hne
    lift u to Word248.Bounded using hu
    rw [ne_eq, ← Word248.toNat_inj, Word248.zero, hzero] at hne
    exact Residue.ofFelt_neg_eq_none (x := .ofBounded u) hne u.valid

/-- The negative of the first such element is the largest bounded word, and that of the element
    before it is one too large. -/
theorem neg_narrows_iff_boundary :
    ((Felt.mk (.ofNat (order - 2 ^ 248 + 1))).Valid ∧
      (Word248.ofFelt (-Felt.mk (.ofNat (order - 2 ^ 248 + 1)))).value = some .max ∧
      Word248.max.word.toNat = 2 ^ 248 - 1) ∧
    ((Felt.mk (.ofNat (order - 2 ^ 248))).Valid ∧
      ¬ (Word248.ofFelt (-Felt.mk (.ofNat (order - 2 ^ 248)))).value.isSome) ∧
    Word248.max.Valid ∧ (Word248.ofFelt (-ofWord248 .max)).value = none := by
  obtain ⟨hfelt, hword⟩ := neg_narrows_iff
  have hfirst : (Felt.mk (.ofNat (order - 2 ^ 248 + 1))).Valid := by decide +kernel
  have hbefore : (Felt.mk (.ofNat (order - 2 ^ 248))).Valid := by decide +kernel
  have hmax : (Word248.ofFelt (-Felt.mk (.ofNat (order - 2 ^ 248 + 1)))).value = some .max := by
    decide +kernel
  have hvalid : Word248.max.Valid := by decide
  refine ⟨⟨hfirst, hmax, ?_⟩, ⟨hbefore, ?_⟩, hvalid, hword _ hvalid (by decide)⟩
  · rw [(hfelt _ hfirst).2.1 _ hmax, Word256.toNat_ofNat_of_lt (by decide)]
    decide
  · rw [(hfelt _ hbefore).1, Word256.toNat_ofNat_of_lt (by decide)]
    decide

end FieldWord.Felt
