import FieldWord.Value
import FieldWord.Proofs.Bounded

/-!
# Conversions

Machine integers, words, bounded words and field elements convert into each other by their integers.
A conversion keeps the integer, and fails exactly when the type it leads to does not hold it. A
chain of conversions therefore depends on the types it passes, and on nothing else of the way it
takes.

## Key results

- `Word248.narrowings_agree`: the narrowings to a bounded word agree, and succeed exactly below
  `2 ^ 248`
- `Conversion.apply_eq_some_iff`: what one conversion does with the integer
- `Chain.apply_eq_some_iff`, `Chain.isSome_apply_iff_bounds`: what a chain of conversions does with
  it
-/

namespace FieldWord.Word248

/-! ## Narrowing -/

/-- `ofFelt` keeps the residue, if it is below the bound. -/
theorem value_ofFelt (x : Felt) :
    (ofFelt x).value = if x.word.toNat < 2 ^ 248 then some ⟨x.word⟩ else none :=
  value_ofWord x.word

/-- `ofWord` narrows a word exactly below the bound. -/
theorem isSome_value_ofWord_iff {w : Word256} : (ofWord w).value.isSome ↔ w.toNat < 2 ^ 248 := by
  simp [value_ofWord]

/-- `ofWord` keeps the integer of a word. -/
theorem toNat_of_value_ofWord {w : Word256} {u : Word248} (hu : (ofWord w).value = some u) :
    u.word.toNat = w.toNat := by
  rw [value_ofWord] at hu
  obtain ⟨-, ⟨⟩⟩ := Option.ite_none_right_eq_some.mp hu
  rfl

/-- `ofFelt` finds a bounded word again in the field element it becomes. -/
theorem Bounded.ofFelt_ofWord248 (u : Bounded) :
    (ofFelt (.ofWord248 u.toWord248)).value = some u.toWord248 := by
  rw [value_ofFelt]
  exact if_pos u.valid

/-- All ways to narrow a field element agree: by `ofFelt`, by `Felt.toWord248`, by `Value.convert`
    and by `ofWord` through the word of the residue. An element is narrowed exactly below `2 ^ 248`,
    to a bounded word of the same integer, which is found again on the way to the field and back.
    Any word, in the field or not, is narrowed below the same bound. -/
theorem narrowings_agree :
    (∀ x : Felt,
      (x.toWord248.value = (ofFelt x).value ∧
        ((Value.felt x).convert .word248).value = (ofFelt x).value.map .word248 ∧
        (ofWord x.word).value = (ofFelt x).value) ∧
      ((ofFelt x).value.isSome ↔ x.word.toNat < 2 ^ 248) ∧
      ∀ u, (ofFelt x).value = some u →
        u.word.toNat = x.word.toNat ∧ (ofFelt (.ofWord248 u)).value = some u) ∧
    ∀ w : Word256,
      ((ofWord w).value.isSome ↔ w.toNat < 2 ^ 248) ∧
      ∀ u, (ofWord w).value = some u → u.word.toNat = w.toNat := by
  constructor
  · intro x
    -- Whichever way is taken, it is the word of the residue that is narrowed.
    refine ⟨⟨rfl, rfl, rfl⟩, isSome_value_ofWord_iff, ?_⟩
    intro u hu
    exact ⟨toNat_of_value_ofWord hu, Bounded.ofFelt_ofWord248 ⟨u, valid_of_ofWord hu⟩⟩
  · intro w
    exact ⟨isSome_value_ofWord_iff, fun u => toNat_of_value_ofWord⟩

/-- `max` is found in the field, and the next element is not narrowed. -/
theorem narrowings_agree_at_limit :
    (ofFelt (.ofWord248 .max)).value = some .max ∧
    max.word.toNat = (Felt.ofWord248 .max).word.toNat ∧
      (Felt.mk limit).Valid ∧ ¬ (ofFelt ⟨limit⟩).value.isSome := by
  have hmax : (ofFelt (.ofWord248 .max)).value = some .max := by decide +kernel
  obtain ⟨-, hlimit, -⟩ := narrowings_agree.1 ⟨limit⟩
  refine ⟨hmax, ((narrowings_agree.1 _).2.2 _ hmax).1, by decide, ?_⟩
  rw [hlimit, toNat_limit]
  exact Nat.lt_irrefl _

end FieldWord.Word248

namespace FieldWord

/-! ## Types and their bounds -/

/-- The types that hold integers. -/
inductive IntType where
  | native (width : Width)
  | word256
  | word248
  | felt
deriving DecidableEq, Repr

namespace IntType

/-- The least integer that a type does not hold. -/
def bound : IntType → Nat
  | native .w8 => 2 ^ 8
  | native .w16 => 2 ^ 16
  | native .w32 => 2 ^ 32
  | native .w64 => 2 ^ 64
  | native .w128 => 2 ^ 128
  | word256 => 2 ^ 256
  | word248 => 2 ^ 248
  | felt => 2 ^ 251 + 17 * 2 ^ 192 + 1

/-- `bound` of a machine integer goes by the number of its bytes. -/
private theorem bound_native (width : Width) : (native width).bound = 2 ^ (8 * width.size) := by
  cases width <;> rfl

/-- The values of a type. -/
inductive Carrier : IntType → Type where
  | native {width : Width} (n : Native width) : Carrier (.native width)
  | word256 (w : Word256) : Carrier .word256
  | word248 (u : Word248) : Carrier .word248
  | felt (x : Felt) : Carrier .felt
deriving DecidableEq, Repr

namespace Carrier

variable {type : IntType} {n : Nat}

/-- The integer of a value. -/
def toNat : type.Carrier → Nat
  | native n => BitVec.toNat n
  | word256 w => w.toNat
  | word248 u => u.word.toNat
  | felt x => x.word.toNat

/-- A value keeps to the bound of its type, as machine integers and words always do. -/
def Valid (v : type.Carrier) : Prop := v.toNat < type.bound

instance (v : type.Carrier) : Decidable v.Valid :=
  inferInstanceAs (Decidable (v.toNat < type.bound))

/-- `Valid` holds of a value whose integer is below the bound. -/
private theorem valid_of_toNat_eq {v : type.Carrier} (hv : v.toNat = n) (hn : n < type.bound) :
    v.Valid := by
  rw [Valid, hv]
  exact hn

/-- `toNat` tells the values of a type apart. -/
theorem toNat_inj {v w : type.Carrier} : v.toNat = w.toNat ↔ v = w := by
  constructor
  · intro h
    -- The type fixes the constructor of both values.
    cases v with
    | native n =>
      cases w with
      | native m => rw [BitVec.toNat_inj.mp h]
    | word256 v =>
      cases w with
      | word256 w => rw [Word256.toNat_inj.mp h]
    | word248 v =>
      cases w with
      | word248 w => rw [Word248.toNat_inj.mp h]
    | felt v =>
      cases w with
      | felt w => rw [Felt.toNat_inj.mp h]
  · rintro rfl
    rfl

/-- `toNat` of a machine integer below the bound is exact. -/
private theorem toNat_native {width : Width} (h : n < (IntType.native width).bound) :
    (native (BitVec.ofNat _ n) : (IntType.native width).Carrier).toNat = n := by
  rw [bound_native] at h
  exact (BitVec.toNat_ofNat _ _).trans (Nat.mod_eq_of_lt h)

/-- `bound` has a value of the type for every integer below it. -/
private theorem exists_toNat_eq (h : n < type.bound) : ∃ v : type.Carrier, v.toNat = n := by
  cases type with
  | native width => exact ⟨_, toNat_native h⟩
  -- The others are words, and the bounds of the smaller ones are below that of words.
  | word256 => exact ⟨.word256 (.ofNat n), Word256.toNat_ofNat_of_lt h⟩
  | word248 => exact ⟨.word248 ⟨.ofNat n⟩, Word256.toNat_ofNat_of_lt (Nat.lt_trans h (by decide))⟩
  | felt => exact ⟨.felt ⟨.ofNat n⟩, Word256.toNat_ofNat_of_lt (Nat.lt_trans h (by decide))⟩

/-- A value is the valid one of its integer. -/
private theorem some_eq_some_iff {v r : type.Carrier} (hv : v.Valid) (hn : v.toNat = n) :
    some v = some r ↔ n < type.bound ∧ r.toNat = n := by
  subst hn
  rw [Option.some.injEq, ← toNat_inj]
  constructor
  · intro h
    exact ⟨hv, h.symm⟩
  · rintro ⟨-, h⟩
    exact h.symm

/-- A value that is given only below the bound is the valid one of its integer. -/
private theorem map_ite_eq_some_iff {α : Type} {x : α} {make : α → type.Carrier} {r : type.Carrier}
    (hx : n < type.bound → (make x).toNat = n) :
    (if n < type.bound then some x else none).map make = some r ↔ n < type.bound ∧ r.toNat = n := by
  by_cases hfits : n < type.bound
  · have hvalid := valid_of_toNat_eq (hx hfits) hfits
    rw [if_pos hfits, Option.map_some, some_eq_some_iff hvalid (hx hfits)]
  · -- From the bound on there is nothing on either side.
    simp [hfits]

end Carrier

end IntType

/-! ## One conversion -/

/-- The widths of the machine integers that words narrow to. -/
def narrowWidths : List Width := [.w64, .w128]

/-- A conversion from one type to another. -/
inductive Conversion : IntType → IntType → Type where
  | nativeToWord256 {width : Width} : Conversion (.native width) .word256
  | nativeToWord248 {width : Width} : Conversion (.native width) .word248
  | nativeToFelt {width : Width} : Conversion (.native width) .felt
  | word248ToWord256 : Conversion .word248 .word256
  | word248ToFelt : Conversion .word248 .felt
  | feltToWord256 : Conversion .felt .word256
  | word256ToWord248 : Conversion .word256 .word248
  | word256ToFelt : Conversion .word256 .felt
  | feltToWord248 : Conversion .felt .word248
  | word256ToNative (width : Width) (hwidth : width ∈ narrowWidths) :
      Conversion .word256 (.native width)
  | word248ToNative (width : Width) (hwidth : width ∈ narrowWidths) :
      Conversion .word248 (.native width)
deriving DecidableEq, Repr

namespace Conversion

open IntType

variable {a b : IntType}

/-- Carries out a conversion. -/
def apply : Conversion a b → a.Carrier → Option b.Carrier
  | nativeToWord256, .native n => some (.word256 (.ofNative _ n))
  | nativeToWord248, .native n => some (.word248 (.ofNative _ n))
  | nativeToFelt, .native n => some (.felt (.ofNative _ n))
  | word248ToWord256, .word248 u => some (.word256 u.word)
  | word248ToFelt, .word248 u => some (.felt (.ofWord248 u))
  | feltToWord256, .felt x => some (.word256 x.word)
  | word256ToWord248, .word256 w => (Word248.ofWord w).value.map .word248
  | word256ToFelt, .word256 w => (Felt.ofWord? w).map .felt
  | feltToWord248, .felt x => (Word248.ofFelt x).value.map .word248
  | word256ToNative width _, .word256 w => (w.toNative? width).map .native
  | word248ToNative width _, .word248 u => (u.toNative? width).map .native

/-- `apply` gives the value of the same integer, if the type it leads to holds that. -/
theorem apply_eq_some_iff (step : Conversion a b) {v : a.Carrier} (hv : v.Valid) {r : b.Carrier} :
    step.apply v = some r ↔ v.toNat < b.bound ∧ r.toNat = v.toNat := by
  cases step with
  -- These check nothing: the type they lead to holds all integers of the one they start from.
  | nativeToWord256 =>
    cases v with
    | native n => exact Carrier.some_eq_some_iff (Word256.toNat_lt _) (Word256.toNat_ofNative _ n)
  | nativeToWord248 =>
    cases v with
    | native n =>
      exact Carrier.some_eq_some_iff (Word248.Bounded.ofNative _ n).valid
        (Word256.toNat_ofNative _ n)
  | nativeToFelt =>
    cases v with
    | native n =>
      exact Carrier.some_eq_some_iff (Felt.Residue.ofNative _ n).valid (Word256.toNat_ofNative _ n)
  | word248ToWord256 =>
    cases v with
    | word248 u => exact Carrier.some_eq_some_iff u.word.toNat_lt rfl
  | word248ToFelt =>
    cases v with
    | word248 u => exact Carrier.some_eq_some_iff (Felt.Residue.ofBounded ⟨u, hv⟩).valid rfl
  | feltToWord256 =>
    cases v with
    | felt x => exact Carrier.some_eq_some_iff x.word.toNat_lt rfl
  -- These compare with the bound, or look for a byte that is not zero.
  | word256ToWord248 =>
    cases v with
    | word256 w =>
      rw [apply, Word248.value_ofWord]
      exact Carrier.map_ite_eq_some_iff fun _ => rfl
  | word256ToFelt =>
    cases v with
    | word256 w =>
      rw [apply, Felt.ofWord?_eq]
      exact Carrier.map_ite_eq_some_iff fun _ => rfl
  | feltToWord248 =>
    cases v with
    | felt x =>
      rw [apply, Word248.value_ofFelt]
      exact Carrier.map_ite_eq_some_iff fun _ => rfl
  | word256ToNative width _ =>
    cases v with
    | word256 w =>
      rw [apply, Word256.toNative?_eq, ← bound_native]
      exact Carrier.map_ite_eq_some_iff Carrier.toNat_native
  | word248ToNative width _ =>
    cases v with
    | word248 u =>
      rw [apply, Word248.toNative?, Word256.toNative?_eq, ← bound_native]
      exact Carrier.map_ite_eq_some_iff Carrier.toNat_native

end Conversion

/-! ## Chains -/

/-- Conversions one after the other, each from the type that the one before it leads to. -/
inductive Chain : IntType → IntType → Type where
  | nil {a : IntType} : Chain a a
  | cons {a b c : IntType} (step : Conversion a b) (rest : Chain b c) : Chain a c

namespace Chain

variable {a b : IntType}

/-- Carries out the conversions, up to the first that fails. -/
def apply {a b : IntType} : Chain a b → a.Carrier → Option b.Carrier
  | nil, v => some v
  | cons step rest, v => (step.apply v).bind rest.apply

/-- The types that a chain passes, from its first to its last. -/
def types {a b : IntType} : Chain a b → List IntType
  | nil => [a]
  | cons _ rest => a :: rest.types

private theorem first_mem_types (chain : Chain a b) : a ∈ chain.types := by
  cases chain <;> simp [types]

private theorem last_mem_types (chain : Chain a b) : b ∈ chain.types := by
  induction chain with
  | nil => simp [types]
  | cons step rest ih => exact List.mem_cons_of_mem _ ih

/-- `apply` gives the value of the same integer, if all types that the chain passes hold that. -/
theorem apply_eq_some_iff (chain : Chain a b) {v : a.Carrier} (hv : v.Valid) {r : b.Carrier} :
    chain.apply v = some r ↔ (∀ type ∈ chain.types, v.toNat < type.bound) ∧ r.toNat = v.toNat := by
  induction chain with
  | nil =>
    rw [types, List.forall_mem_singleton]
    exact IntType.Carrier.some_eq_some_iff hv rfl
  | cons step rest ih =>
    rw [apply, types, Option.bind_eq_some_iff, List.forall_mem_cons]
    constructor
    · rintro ⟨c, hstep, hrest⟩
      obtain ⟨hfits, hc⟩ := (step.apply_eq_some_iff hv).mp hstep
      -- What the first conversion gives is valid again, and has the same integer.
      rw [ih (IntType.Carrier.valid_of_toNat_eq hc hfits), hc] at hrest
      exact ⟨⟨hv, hrest.1⟩, hrest.2⟩
    · rintro ⟨⟨-, hrest⟩, hr⟩
      have hfits := hrest _ rest.first_mem_types
      -- The type that the first conversion leads to holds the integer.
      obtain ⟨c, hc⟩ := IntType.Carrier.exists_toNat_eq hfits
      refine ⟨c, (step.apply_eq_some_iff hv).mpr ⟨hfits, hc⟩, ?_⟩
      rw [ih (IntType.Carrier.valid_of_toNat_eq hc hfits), hc]
      exact ⟨hrest, hr⟩

/-- `apply` of a chain of conversions of any length succeeds exactly if the integer it starts from
    is below the bounds of all types it passes, and ends at the same integer. Two chains that start
    at one value and end at one type therefore give the same value wherever both succeed. -/
theorem isSome_apply_iff_bounds (chain : Chain a b) {v : a.Carrier} (hv : v.Valid) :
    ((chain.apply v).isSome ↔ ∀ type ∈ chain.types, v.toNat < type.bound) ∧
      (∀ r, chain.apply v = some r → r.toNat = v.toNat) ∧
      ∀ (other : Chain a b) (r s : b.Carrier), chain.apply v = some r → other.apply v = some s →
        r = s := by
  have hexact : ∀ (chain : Chain a b) (r : b.Carrier), chain.apply v = some r → r.toNat = v.toNat :=
    fun chain r hr => ((chain.apply_eq_some_iff hv).mp hr).2
  refine ⟨?_, hexact chain, ?_⟩
  · rw [Option.isSome_iff_exists]
    constructor
    · rintro ⟨r, hr⟩
      exact ((chain.apply_eq_some_iff hv).mp hr).1
    · intro hbounds
      -- The last type is among those that hold the integer, so there is a value to give.
      obtain ⟨r, hr⟩ := IntType.Carrier.exists_toNat_eq (hbounds _ chain.last_mem_types)
      exact ⟨r, (chain.apply_eq_some_iff hv).mpr ⟨hbounds, hr⟩⟩
  · intro other r s hr hs
    rw [← IntType.Carrier.toNat_inj, hexact chain r hr, hexact other s hs]

/-- The largest machine integer of 64 bits passes through all large types, and the next integer only
    up to the last conversion. -/
theorem isSome_apply_iff_bounds_w64 :
    ((cons .word256ToFelt
      (cons .feltToWord248 (cons (.word248ToNative .w64 (by decide)) nil))).apply
        (.word256 (.ofNat (2 ^ 64 - 1)))).isSome ∧
      ¬ ((cons .word256ToFelt
        (cons .feltToWord248 (cons (.word248ToNative .w64 (by decide)) nil))).apply
        (.word256 (.ofNat (2 ^ 64)))).isSome := by
  have hvalid : ∀ w : Word256, (IntType.Carrier.word256 w).Valid := Word256.toNat_lt
  rw [(isSome_apply_iff_bounds _ (hvalid _)).1, (isSome_apply_iff_bounds _ (hvalid _)).1]
  decide +kernel

end Chain

end FieldWord
