import FieldWord.Program
import FieldWord.Proofs.Bounded

/-!
# What can be made

The values that calls of the library make, one after the other, each from values made before. Every
bounded word that is ever made is below `2 ^ 248`, and every field element is a least residue: some
functions check the bound, others start from values that keep to it, and none lets a word of unknown
size through.

## Key results

- `valid_of_makes`: one call makes a valid value of valid values
- `History.valid`: so do all calls of a history
- `history_keeps_bounds`: the bounds of both types, over every history
-/

namespace FieldWord

/-- The constants of the library, and the default values. -/
def constants : List Value :=
  [.word256 .zero, .word256 .one, .word256 .max, .word256 default,
    .word256 Word248.limit, .word256 Felt.prime,
    .word248 .zero, .word248 .one, .word248 .max, .word248 default,
    .felt .zero, .felt .one, .felt .max, .felt default]

/-- The values that one call can make of those made before. -/
inductive Makes (made : List Value) : Value → Prop where
  /-- A constant. -/
  | constant {v : Value} (hv : v ∈ constants) : Makes made v
  /-- A value of any type from a machine integer. -/
  | native (kind : Kind) (width : Width) (n : Native width) : Makes made (.ofNative kind width n)
  /-- A value of any type from a literal. -/
  | read {kind : Kind} {literal : String} {v : Value}
      (hv : (Value.read kind literal).value = .ok v) :
      Makes made v
  /-- A word from its bytes. -/
  | word256OfBytes (bytes : Vector UInt8 32) : Makes made (.word256 ⟨bytes⟩)
  /-- A word from its limbs. -/
  | word256OfLimbs (limbs : Vector UInt64 4) : Makes made (.word256 (.ofLimbs limbs))
  /-- A power of two. -/
  | pow2 (exponent : Nat) : Makes made (.word256 (.pow2 exponent))
  /-- A sum, difference or product that wraps around. -/
  | wrapping (operation : Program.Wrapping) {v w : Word256} (hv : .word256 v ∈ made)
      (hw : .word256 w ∈ made) : Makes made (.word256 (operation.apply v w).1)
  /-- A sum or product that fits. -/
  | checked {operation : Program.Checked} {v w result : Word256} (hv : .word256 v ∈ made)
      (hw : .word256 w ∈ made) (hresult : operation.apply? v w = some result) :
      Makes made (.word256 result)
  /-- The difference alone. -/
  | minus {v w : Word256} (hv : .word256 v ∈ made) (hw : .word256 w ∈ made) :
      Makes made (.word256 (v - w))
  /-- The word of any value. -/
  | widen {v : Value} (hv : v ∈ made) : Makes made (.word256 v.word)
  /-- A bounded word from its bytes. -/
  | word248OfBytes (bytes : Vector UInt8 31) : Makes made (.word248 (.ofBytes bytes))
  /-- A bounded word from a word. -/
  | narrow {w : Word256} {u : Word248} (hw : .word256 w ∈ made)
      (hu : (Word248.ofWord w).value = some u) :
      Makes made (.word248 u)
  /-- A bounded word from a field element, by the function of the bounded words. -/
  | narrowFelt {x : Felt} {u : Word248} (hx : .felt x ∈ made)
      (hu : (Word248.ofFelt x).value = some u) :
      Makes made (.word248 u)
  /-- A bounded word from a field element, by the function of the elements. -/
  | feltToWord248 {x : Felt} {u : Word248} (hx : .felt x ∈ made) (hu : x.toWord248.value = some u) :
      Makes made (.word248 u)
  /-- A field element from a bounded word. -/
  | embed {u : Word248} (hu : .word248 u ∈ made) : Makes made (.felt (.ofWord248 u))
  /-- A field element from a word. -/
  | canonical {w : Word256} {x : Felt} (hw : .word256 w ∈ made) (hx : Felt.ofWord? w = some x) :
      Makes made (.felt x)
  /-- A value of any type with the integer of another value, by the conversion of values. -/
  | convert {kind : Kind} {v result : Value} (hv : v ∈ made)
      (hresult : (v.convert kind).value = some result) : Makes made result
  /-- The negative of a field element. -/
  | negate {x : Felt} (hx : .felt x ∈ made) : Makes made (.felt (-x))
  /-- The greater or lesser of two values of one type. -/
  | compared {a b v : Value} {comparison : Comparison} (ha : a ∈ made) (hb : b ∈ made)
      (hcomparison : a.comparison? b = some comparison)
      (hv : v = comparison.greatest ∨ v = comparison.least) : Makes made v

/-- The values made by calls one after the other, the last one first. -/
inductive History : List Value → Prop where
  | start : History []
  | call {made : List Value} {v : Value} (hmade : History made) (hv : Makes made v) :
      History (v :: made)

/-! ## One call -/

/-- `constants` has valid values only. -/
private theorem valid_of_mem_constants : ∀ v ∈ constants, v.Valid := by
  decide

/-- `Value.ofNative` gives valid values of every type. -/
private theorem valid_ofNative (kind : Kind) (width : Width) (n : Native width) :
    (Value.ofNative kind width n).Valid := by
  cases kind with
  | word256 => trivial
  | word248 => exact (Word248.Bounded.ofNative width n).valid
  | felt => exact (Felt.Residue.ofNative width n).valid

/-- `Value.read` gives valid values of every type. -/
theorem valid_of_read {kind : Kind} {literal : String} {v : Value}
    (h : (Value.read kind literal).value = .ok v) : v.Valid := by
  cases kind with
  | word256 =>
    obtain ⟨w, -, rfl⟩ := map_eq_ok_iff.mp h
    trivial
  | word248 =>
    obtain ⟨u, hu, rfl⟩ := map_eq_ok_iff.mp h
    exact (Word248.read_eq_ok_iff.mp hu).1
  | felt =>
    obtain ⟨x, hx, rfl⟩ := map_eq_ok_iff.mp h
    obtain ⟨magnitude, hmagnitude, -, rfl⟩ := Felt.read_eq_ok_iff.mp hx
    -- The sign is applied to a magnitude that is in range.
    split
    · exact (-(⟨magnitude, hmagnitude⟩ : Felt.Residue)).valid
    · exact hmagnitude

/-- `Value.convert` checks the bound where it has to: what it gives is valid if it was given a valid
    value. -/
theorem valid_of_convert {kind : Kind} {v result : Value} (hv : v.Valid)
    (h : (v.convert kind).value = some result) : result.Valid := by
  cases kind with
  | word256 =>
    obtain rfl := Option.some.inj h
    trivial
  | word248 =>
    -- A bounded word is given as it is, and the others are compared with the bound.
    cases v with
    | word256 w =>
      obtain ⟨u, hu, rfl⟩ := Option.map_eq_some_iff.mp h
      exact Word248.valid_of_ofWord hu
    | word248 u =>
      obtain rfl := Option.some.inj h
      exact hv
    | felt x =>
      obtain ⟨u, hu, rfl⟩ := Option.map_eq_some_iff.mp h
      exact Word248.valid_of_ofWord hu
  | felt =>
    -- Bounded words are below the prime, and words are compared with it.
    cases v with
    | word256 w =>
      obtain ⟨x, hx, rfl⟩ := Option.map_eq_some_iff.mp h
      exact Felt.valid_of_ofWord? hx
    | word248 u =>
      obtain rfl := Option.some.inj h
      exact (Felt.Residue.ofBounded ⟨u, hv⟩).valid
    | felt x =>
      obtain rfl := Option.some.inj h
      exact hv

/-- `Value.comparison?` finds the greater and the lesser of two values among the two. -/
private theorem comparison_mem {a b : Value} {comparison : Comparison}
    (h : a.comparison? b = some comparison) :
    comparison.greatest ∈ [a, b] ∧ comparison.least ∈ [a, b] := by
  -- Only the pairs of one type are left.
  cases a <;> cases b <;> simp only [Value.comparison?, reduceCtorEq, Option.some.injEq] at h
  all_goals
    subst h
    simp only [Comparison.of, max, min]
    constructor <;> split <;> simp

/-- `Makes` gives a valid value of valid values. -/
theorem valid_of_makes {made : List Value} (hmade : ∀ v ∈ made, v.Valid) {v : Value}
    (h : Makes made v) :
    v.Valid := by
  cases h with
  | constant hv => exact valid_of_mem_constants v hv
  | native kind width n => exact valid_ofNative kind width n
  | read hv => exact valid_of_read hv
  -- Any word is valid, however it was computed.
  | word256OfBytes | word256OfLimbs | pow2 | wrapping | checked | minus | widen => trivial
  | word248OfBytes bytes => exact (Word248.Bounded.ofBytes bytes).valid
  | narrow _ hu => exact Word248.valid_of_ofWord hu
  | narrowFelt _ hu => exact Word248.valid_of_ofWord hu
  | feltToWord248 _ hu => exact Word248.valid_of_ofWord hu
  -- These two check nothing: they rest on the bound of what they are given.
  | embed hu => exact (Felt.Residue.ofBounded ⟨_, hmade _ hu⟩).valid
  | negate hx => exact (-(⟨_, hmade _ hx⟩ : Felt.Residue)).valid
  | canonical _ hx => exact Felt.valid_of_ofWord? hx
  | convert hv hresult => exact valid_of_convert (hmade _ hv) hresult
  | compared ha hb hcomparison hv =>
    obtain ⟨hgreatest, hleast⟩ := comparison_mem hcomparison
    have hpair : ∀ c ∈ [_, _], Value.Valid c :=
      List.forall_mem_cons.mpr ⟨hmade _ ha, List.forall_mem_singleton.mpr (hmade _ hb)⟩
    rcases hv with rfl | rfl
    · exact hpair _ hgreatest
    · exact hpair _ hleast

/-! ## All calls -/

/-- `History` has valid values only. -/
theorem History.valid {made : List Value} (h : History made) : ∀ v ∈ made, v.Valid := by
  induction h with
  | start => simp
  | call _ hv ih => exact List.forall_mem_cons.mpr ⟨valid_of_makes ih hv, ih⟩

/-- Along every `History`, whatever is called and in whatever order, a bounded word stays below
    `2 ^ 248` and a field element below the order of the field. -/
theorem history_keeps_bounds {made : List Value} (h : History made) :
    (∀ u, .word248 u ∈ made → u.word.toNat < 2 ^ 248) ∧
      ∀ x, .felt x ∈ made → x.word.toNat < 2 ^ 251 + 17 * 2 ^ 192 + 1 :=
  ⟨fun _ hu => h.valid _ hu, fun _ hx => h.valid _ hx⟩

/-- The greatest word and one wrap around to zero, which is narrowed; one becomes an element, which
    is converted to a bounded word and negated. -/
theorem history_keeps_bounds_wrapped :
    History [.felt (-Felt.one), .word248 .one, .felt .one, .word248 .zero, .word256 .zero,
      .word256 .one, .word256 .max] ∧
      Word248.zero.word.toNat < 2 ^ 248 ∧ Word248.one.word.toNat < 2 ^ 248 ∧
      (-Felt.one).word.toNat < 2 ^ 251 + 17 * 2 ^ 192 + 1 := by
  have hmax : History [.word256 .max] := .call .start (.constant (by decide))
  have hone : History [.word256 .one, .word256 .max] := .call hmax (.constant (by decide))
  have hsum : (Program.Wrapping.add.apply Word256.max Word256.one).1 = .zero := by decide +kernel
  have hzero : History [.word256 .zero, .word256 .one, .word256 .max] :=
    .call hone (hsum ▸ .wrapping .add (by simp) (by simp))
  have hnarrow : History [.word248 .zero, .word256 .zero, .word256 .one, .word256 .max] :=
    .call hzero (.narrow List.mem_cons_self (by decide +kernel))
  -- One becomes an element, which is converted and negated.
  have hfelt := hnarrow.call (.canonical (w := .one) (x := .one) (by simp) (by decide +kernel))
  have hconvert : ((Value.felt .one).convert .word248).value = some (.word248 .one) := by
    decide +kernel
  have hnarrowed := hfelt.call (.convert List.mem_cons_self hconvert)
  have h := hnarrowed.call (.negate (x := .one) (by simp))
  exact ⟨h, (history_keeps_bounds h).1 _ (by simp), (history_keeps_bounds h).1 _ (by simp),
    (history_keeps_bounds h).2 _ (by simp)⟩

end FieldWord
