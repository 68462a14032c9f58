import FieldWord.Proofs.Bounded

/-!
# The order of values

Words are compared by their bytes, from the first one on; bounded words and field elements are
compared as the words in them. In all three types that is the order of the integers, and everything
that rests on it, from the bounds of the checked conversions to sorting, may be read as being about
integers.

## Key results

- `OrderedBy.of_compare`: a comparison by integers settles the relations and the extremes of two
  values
- `OrderedBy.keepsOrder`: a conversion that keeps the integer keeps the order
- `Value.pairwise_sort`: sorted values have ascending integers
- `order_by_integers`: the three types, the conversions between them, and sorting
-/

namespace FieldWord

section

variable {α β : Type} [Ord α] [LT α] [LE α] [Max α] [Min α] [Ord β] [LT β] [LE β] [Max β] [Min β]

/-- The order of a type is that of the integers of its values. -/
structure OrderedBy (integer : α → Nat) : Prop where
  compare_eq (a b : α) : compare a b = compare (integer a) (integer b)
  eq_iff (a b : α) : a = b ↔ integer a = integer b
  lt_iff (a b : α) : a < b ↔ integer a < integer b
  le_iff (a b : α) : a ≤ b ↔ integer a ≤ integer b
  integer_max (a b : α) : integer (max a b) = max (integer a) (integer b)
  integer_min (a b : α) : integer (min a b) = min (integer a) (integer b)

/-- A conversion keeps the order of values, in both directions. -/
def KeepsOrder (convert : α → β) : Prop :=
  ∀ a b, compare (convert a) (convert b) = compare a b ∧
    (convert a < convert b ↔ a < b) ∧ (convert a ≤ convert b ↔ a ≤ b)

/-- `OrderedBy` follows where `compare` goes by integers that tell the values apart: so do then the
    relations, and the choice of the greater and the lesser value. -/
theorem OrderedBy.of_compare {integer : α → Nat}
    (hcompare : ∀ a b : α, compare a b = compare (integer a) (integer b))
    (hinj : ∀ a b : α, integer a = integer b ↔ a = b)
    (hlt : ∀ a b : α, a < b ↔ compare a b = .lt)
    (hle : ∀ a b : α, a ≤ b ↔ (compare a b).isLE = true)
    (hmax : ∀ a b : α, max a b = if (compare a b).isLE then b else a)
    (hmin : ∀ a b : α, min a b = if (compare a b).isLE then a else b) : OrderedBy integer where
  compare_eq := hcompare
  eq_iff a b := (hinj a b).symm
  lt_iff a b := by rw [hlt, hcompare, Nat.compare_eq_lt]
  le_iff a b := by rw [hle, hcompare, Nat.isLE_compare]
  integer_max a b := by
    simp only [hmax, hcompare, Nat.isLE_compare]
    split <;> omega
  integer_min a b := by
    simp only [hmin, hcompare, Nat.isLE_compare]
    split <;> omega

/-- `KeepsOrder` holds of a conversion that keeps the integer. -/
theorem OrderedBy.keepsOrder {integer : α → Nat} {integer' : β → Nat} (h : OrderedBy integer)
    (h' : OrderedBy integer') {convert : α → β} (hconvert : ∀ a, integer' (convert a) = integer a) :
    KeepsOrder convert := by
  intro a b
  rw [h'.compare_eq, h'.lt_iff, h'.le_iff, hconvert, hconvert, h.compare_eq, h.lt_iff, h.le_iff]
  exact ⟨rfl, Iff.rfl, Iff.rfl⟩

end

/-! ## The three types

The bytes of words are compared in `Word256.compare_eq_compare_toNat`; the other two types compare
the words in their values. -/

/-- `OrderedBy` holds of words and their integers. -/
theorem Word256.orderedBy : OrderedBy Word256.toNat :=
  .of_compare compare_eq_compare_toNat (fun _ _ => toNat_inj) (fun _ _ => Iff.rfl)
    (fun _ _ => Iff.rfl)
    (fun _ _ => rfl) (fun _ _ => rfl)

/-- `OrderedBy` holds of bounded words and their integers. -/
theorem Word248.orderedBy : OrderedBy fun u : Word248 => u.word.toNat :=
  .of_compare (fun _ _ => Word256.compare_eq_compare_toNat _ _) (fun _ _ => toNat_inj)
    (fun _ _ => Iff.rfl)
    (fun _ _ => Iff.rfl) (fun _ _ => rfl) (fun _ _ => rfl)

/-- `OrderedBy` holds of field elements and their integers. -/
theorem Felt.orderedBy : OrderedBy fun x : Felt => x.word.toNat :=
  .of_compare (fun _ _ => Word256.compare_eq_compare_toNat _ _) (fun _ _ => toNat_inj)
    (fun _ _ => Iff.rfl)
    (fun _ _ => Iff.rfl) (fun _ _ => rfl) (fun _ _ => rfl)

/-! ## Sorting -/

namespace Value

/-- `comparison?` of two values of one type reports the first as not above the second exactly if its
    integer is not. -/
private theorem any_lessOrEqual_comparison? {a b : Value} (hkind : a.kind = b.kind) :
    (a.comparison? b).any (·.lessOrEqual) = true ↔ a.word.toNat ≤ b.word.toNat := by
  -- Values of different types do not compare.
  cases a with
  | word256 v =>
    cases b with
    | word256 w => exact decide_eq_true_iff.trans (Word256.orderedBy.le_iff v w)
    | word248 | felt => simp [kind] at hkind
  | word248 u =>
    cases b with
    | word248 v => exact decide_eq_true_iff.trans (Word248.orderedBy.le_iff u v)
    | word256 | felt => simp [kind] at hkind
  | felt x =>
    cases b with
    | felt y => exact decide_eq_true_iff.trans (Felt.orderedBy.le_iff x y)
    | word256 | word248 => simp [kind] at hkind

/-- `sort` gives ascending integers, of whatever types the values are. -/
theorem pairwise_sort (values : List Value) :
    (sort values).Pairwise fun a b => a.word.toNat ≤ b.word.toNat := by
  have hle : ∀ a b : Value, (compare a.word b.word).isLE = true ↔ a.word.toNat ≤ b.word.toNat :=
    fun _ _ => Word256.le_iff_toNat_le
  -- What the sort asks of its comparison, that it is transitive and total, holds of the integers.
  refine (List.pairwise_mergeSort ?_ ?_ values).imp fun {a b} => (hle a b).mp
  · intro a b c
    rw [hle, hle, hle]
    exact Nat.le_trans
  · intro a b
    rw [Bool.or_eq_true, hle, hle]
    exact Nat.le_total _ _

end Value

/-- `compare` of each type is that of the integers, and with it equality, both relations, and the
    greater and the lesser of two values. Bounded words keep this order as field elements and as
    words, and field elements keep it as words. `Value.sort` sorts values of one type by it, and so
    into ascending integers. -/
theorem order_by_integers :
    (OrderedBy Word256.toNat ∧ (OrderedBy fun u : Word248 => u.word.toNat) ∧
      OrderedBy fun x : Felt => x.word.toNat) ∧
    (KeepsOrder Felt.ofWord248 ∧ KeepsOrder Word248.word ∧ KeepsOrder Felt.word) ∧
    ∀ (kind : Kind) (values : List Value), (∀ v ∈ values, v.kind = kind) →
      (Value.sort values).Perm values ∧
      ((Value.sort values).Pairwise fun a b => (a.comparison? b).any (·.lessOrEqual) = true) ∧
      ((Value.sort values).map fun v => v.word.toNat).Pairwise (· ≤ ·) := by
  refine ⟨⟨Word256.orderedBy, Word248.orderedBy, Felt.orderedBy⟩, ⟨?_, ?_, ?_⟩, ?_⟩
  · exact Word248.orderedBy.keepsOrder Felt.orderedBy fun _ => rfl
  · exact Word248.orderedBy.keepsOrder Word256.orderedBy fun _ => rfl
  · exact Felt.orderedBy.keepsOrder Word256.orderedBy fun _ => rfl
  · intro kind values hkind
    have hperm : (Value.sort values).Perm values := List.mergeSort_perm values _
    have hsorted := Value.pairwise_sort values
    refine ⟨hperm, ?_, List.pairwise_map.mpr hsorted⟩
    -- Sorting keeps the values, so they are still of one type and compare.
    refine hsorted.imp_of_mem fun {a b} ha hb hle => ?_
    have hab : a.kind = b.kind :=
      (hkind a (hperm.mem_iff.mp ha)).trans (hkind b (hperm.mem_iff.mp hb)).symm
    exact (Value.any_lessOrEqual_comparison? hab).mpr hle

/-- `Word248.limit` comes behind the largest bounded word, from which it differs in every byte. -/
theorem order_by_integers_limit :
    (∀ v ∈ [Value.word256 Word248.limit, .word256 Word248.max.word], v.kind = .word256) ∧
      ((Value.sort [.word256 Word248.limit, .word256 Word248.max.word]).map
        fun v => v.word.toNat).Pairwise
        (· ≤ ·) ∧
      Word248.max.word < Word248.limit := by
  obtain ⟨⟨hword, -⟩, -, hsort⟩ := order_by_integers
  have hkind : ∀ v ∈ [Value.word256 Word248.limit, .word256 Word248.max.word],
      v.kind = .word256 := by decide
  exact ⟨hkind, (hsort _ _ hkind).2.2, (hword.lt_iff _ _).mpr (by decide)⟩

end FieldWord
