import FieldWord.Value
import FieldWord.Proofs.Literal.Grammar
import Mathlib.Algebra.Group.Defs
import Mathlib.Tactic.Lift

/-!
# Bounded words and field elements as integers

`Word248` and `Felt` are words with a bound: `2 ^ 248` and the order of the field. Narrowing and
negation are exact on the integers, and what the readers give follows from the reading of the word.

## Key results

- `Word248.Bounded`, `Felt.Residue`: the values that keep to their bounds
- `Word248.value_ofWord`, `Felt.ofWord?_eq`: narrowing succeeds exactly below the bound
- `Felt.Residue.toNat_prime_sub`: the subtraction of a residue from the prime is exact
- `Felt.Residue.toNat_neg`: the negative of a residue, which is a residue again
- `Word248.value_read`, `Felt.value_read`: the readers, without the events
-/

namespace FieldWord

/-- `Except.map` keeps an error. -/
theorem map_eq_error_iff {α β ε : Type} {f : α → β} {x : Except ε α} {e : ε} :
    x.map f = .error e ↔ x = .error e := by
  cases x <;> simp [Except.map]

/-- `Except.map` gives the image of a result. -/
theorem map_eq_ok_iff {α β ε : Type} {f : α → β} {x : Except ε α} {b : β} :
    x.map f = .ok b ↔ ∃ a, x = .ok a ∧ f a = b := by
  cases x <;> simp [Except.map]

/-- A result that is given under a condition is there only where the condition holds. -/
theorem ite_eq_ok_iff {α ε : Type} {p : Prop} [Decidable p] {a b : α} {e : ε} :
    (if p then Except.ok a else .error e) = .ok b ↔ p ∧ a = b := by
  split <;> simp [*]

end FieldWord

namespace FieldWord.Word248

/-- A bounded word keeps to its bound. -/
def Valid (u : Word248) : Prop := u.word.toNat < 2 ^ 248

instance (u : Word248) : Decidable u.Valid := inferInstanceAs (Decidable (u.word.toNat < 2 ^ 248))

theorem toNat_limit : limit.toNat = 2 ^ 248 := by decide

/-- Bounded words are told apart by their integers. -/
theorem toNat_inj {u v : Word248} : u.word.toNat = v.word.toNat ↔ u = v := by
  rw [Word256.toNat_inj, Word248.mk.injEq]

/-- `ofWord` keeps the word, if it is below the bound. -/
theorem value_ofWord (w : Word256) :
    (ofWord w).value = if w.toNat < 2 ^ 248 then some ⟨w⟩ else none := by
  unfold ofWord
  simp only [Word256.lt_iff_toNat_lt, toNat_limit]
  split <;> rfl

/-- `ofWord` gives valid bounded words. -/
theorem valid_of_ofWord {w : Word256} {u : Word248} (h : (ofWord w).value = some u) : u.Valid := by
  rw [value_ofWord, Option.ite_none_right_eq_some] at h
  obtain ⟨hfits, ⟨⟩⟩ := h
  exact hfits

/-- A bounded word together with its bound. -/
structure Bounded extends Word248 where
  /-- The word is below `2 ^ 248`. -/
  valid : toWord248.Valid

instance : CanLift Word248 Bounded Bounded.toWord248 Valid where
  prf u hu := ⟨⟨u, hu⟩, rfl⟩

namespace Bounded

/-- `Word248.ofNative` keeps to the bound: a machine integer has far fewer bits. -/
def ofNative (width : Width) (n : Native width) : Bounded where
  toWord248 := .ofNative width n
  valid := Nat.lt_trans (Word256.toNat_ofNative_lt width n) (by norm_num)

/-- `Word248.ofBytes` keeps to the bound: the byte in front of the 31 bytes is zero. -/
def ofBytes (bytes : Vector UInt8 31) : Bounded where
  toWord248 := .ofBytes bytes
  valid := by
    have hlt := Bytes.value_lt bytes.toList
    rw [Vector.length_toList, show 256 ^ 31 = 2 ^ 248 by norm_num] at hlt
    rwa [Valid, Word248.ofBytes, Word256.toNat_ofByteList, Bytes.value_cons, UInt8.toNat_zero,
      Nat.zero_mul, Nat.zero_add]

end Bounded

/-- `read` gives the word that is read, if it is below the bound. -/
theorem value_read (literal : String) :
    (read literal).value =
      match Literal.readWord literal.toList 0 with
      | .error error => .error error
      | .ok w => if w.toNat < 2 ^ 248 then .ok ⟨w⟩ else .error .overflow := by
  unfold read
  rw [Traced.value_bind, Word256.value_read]
  cases Literal.readWord literal.toList 0 with
  | error error => rfl
  | ok w =>
    by_cases hfits : w.toNat < 2 ^ 248
    · simp only [Traced.value_bind, value_ofWord, if_pos hfits, Traced.value_pure]
    · simp only [Traced.value_bind, value_ofWord, if_neg hfits, Traced.value_pure]

/-- `read` accepts the literals of integers below the bound. -/
theorem read_eq_ok_iff {literal : String} {u : Word248} :
    (read literal).value = .ok u ↔ u.Valid ∧ Literal.Denotes literal.toList u.word.toNat := by
  have hread : Literal.readWord literal.toList 0 = .ok u.word ↔ _ := Literal.readWord_eq_ok_iff
  rw [value_read, ← hread]
  cases Literal.readWord literal.toList 0 with
  | error error => simp
  | ok w =>
    rw [ite_eq_ok_iff, Except.ok.injEq]
    constructor
    · rintro ⟨hfits, rfl⟩
      exact ⟨hfits, rfl⟩
    · rintro ⟨hu, rfl⟩
      exact ⟨hu, rfl⟩

end FieldWord.Word248

namespace FieldWord.Felt

/-- The order of the field. -/
def order : Nat := 2 ^ 251 + 17 * 2 ^ 192 + 1

/-- A field element is the least residue. -/
def Valid (x : Felt) : Prop := x.word.toNat < order

instance (x : Felt) : Decidable x.Valid := inferInstanceAs (Decidable (x.word.toNat < order))

theorem toNat_prime : prime.toNat = order := by decide

/-- Field elements are told apart by their integers. -/
theorem toNat_inj {x y : Felt} : x.word.toNat = y.word.toNat ↔ x = y := by
  rw [Word256.toNat_inj, Felt.mk.injEq]

/-- `ofWord?` builds an element from a word that is below the prime, and from no other. -/
theorem ofWord?_eq (w : Word256) : ofWord? w = if w.toNat < order then some ⟨w⟩ else none := by
  simp only [ofWord?, Word256.lt_iff_toNat_lt, toNat_prime]

/-- `ofWord?` gives least residues. -/
theorem valid_of_ofWord? {w : Word256} {x : Felt} (h : ofWord? w = some x) : x.Valid := by
  rw [ofWord?_eq, Option.ite_none_right_eq_some] at h
  obtain ⟨hfits, ⟨⟩⟩ := h
  exact hfits

/-- A field element together with its bound. -/
structure Residue extends Felt where
  /-- The element is the least residue. -/
  valid : toFelt.Valid

instance : CanLift Felt Residue Residue.toFelt Valid where
  prf x hx := ⟨⟨x, hx⟩, rfl⟩

namespace Residue

/-- `Felt.ofNative` keeps to the bound: a machine integer has far fewer bits. -/
def ofNative (width : Width) (n : Native width) : Residue where
  toFelt := .ofNative width n
  valid := Nat.lt_trans (Word256.toNat_ofNative_lt width n) (by norm_num [order])

/-- `Felt.ofWord248` keeps to the bound: that of bounded words is below the prime. -/
def ofBounded (u : Word248.Bounded) : Residue where
  toFelt := .ofWord248 u.toWord248
  valid := Nat.lt_trans u.valid (by norm_num [order])

/-- Residues are told apart by their integers. -/
theorem toNat_inj {x y : Residue} : x.word.toNat = y.word.toNat ↔ x = y := by
  rw [Felt.toNat_inj]
  constructor
  · intro h
    cases x
    cases y
    cases h
    rfl
  · exact congrArg toFelt

/-- `subBorrow` of a residue from `prime` does not borrow, so what is left is the exact difference.
    -/
theorem toNat_prime_sub (x : Residue) :
    (prime.subBorrow x.word).2 = false ∧ (prime - x.word).toNat = order - x.word.toNat := by
  obtain ⟨hvalue, hborrow⟩ := Word256.toNat_subBorrow prime x.word
  have hlt := prime.toNat_lt
  have hx : x.word.toNat < order := x.valid
  rw [toNat_prime] at hvalue hborrow hlt
  constructor
  · rw [hborrow, decide_eq_false_iff_not]
    omega
  · show (prime.subBorrow x.word).1.toNat = _
    omega

/-- `-x` leaves zero alone, and takes any other residue from the prime. -/
private theorem toNat_neg_toFelt (x : Residue) :
    (-x.toFelt).word.toNat = if x.word.toNat = 0 then 0 else order - x.word.toNat := by
  change (if x.isZero then x.toFelt else ⟨prime - x.word⟩ : Felt).word.toNat = _
  simp only [isZero, Word256.isZero_iff_toNat_eq_zero]
  split
  · assumption
  · exact x.toNat_prime_sub.2

instance : Neg Residue where
  neg x := {
    toFelt := -x.toFelt
    valid := by
      have hx : x.word.toNat < order := x.valid
      rw [Valid, toNat_neg_toFelt]
      split <;> omega }

/-- `-x` of a residue has the residue of the negative. -/
theorem toNat_neg (x : Residue) :
    (-x).word.toNat = if x.word.toNat = 0 then 0 else order - x.word.toNat :=
  x.toNat_neg_toFelt

instance : InvolutiveNeg Residue where
  neg_neg x := by
    have hx : x.word.toNat < order := x.valid
    rw [← toNat_inj, toNat_neg, toNat_neg]
    split <;> split <;> omega

end Residue

/-- `splitSign` splits a sign off, or leaves the literal as it is. -/
theorem splitSign_cases (literal : String) :
    (∃ magnitude, literal.toList = '-' :: magnitude ∧
      splitSign literal = (true, String.ofList magnitude)) ∨
      literal.toList.head? ≠ some '-' ∧ splitSign literal = (false, literal) := by
  unfold splitSign
  split
  · rename_i magnitude htext
    exact .inl ⟨magnitude, htext, rfl⟩
  · rename_i hsign
    refine .inr ⟨?_, rfl⟩
    intro hhead
    obtain ⟨magnitude, htext⟩ := List.head?_eq_some_iff.mp hhead
    exact hsign magnitude htext

/-- `splitSign` leaves a text without a sign as it is. -/
private theorem splitSign_unsigned {literal : String} (hsign : literal.toList.head? ≠ some '-') :
    splitSign literal = (false, literal) := by
  rcases splitSign_cases literal with ⟨magnitude, htext, -⟩ | ⟨-, hsplit⟩
  · rw [htext] at hsign
    exact absurd rfl hsign
  · exact hsplit

/-- `splitSign` splits off the sign that was put in front. -/
theorem splitSign_signed (literal : String) : splitSign ("-" ++ literal) = (true, literal) := by
  have htext : ("-" ++ literal).toList = '-' :: literal.toList := by
    rw [String.toList_append]
    rfl
  simp only [splitSign, htext, String.ofList_toList]

/-- `read` gives the word behind the sign, if it is below the prime, and its negative behind a sign.
    -/
theorem value_read (literal : String) :
    (read literal).value =
      match Literal.readWord (splitSign literal).2.toList
          (if (splitSign literal).1 then 1 else 0) with
      | .error error => .error error
      | .ok w =>
        if w.toNat < order then .ok (if (splitSign literal).1 then -⟨w⟩ else ⟨w⟩)
        else .error .notInField := by
  unfold read
  rw [Traced.value_bind, Word256.value_readAt]
  cases Literal.readWord (splitSign literal).2.toList (if (splitSign literal).1 then 1 else 0) with
  | error error => rfl
  | ok w =>
    by_cases hfits : w.toNat < order <;> simp [ofWord?_eq, hfits]

/-- `read` of a text without a sign gives its word, if that is below the prime. -/
theorem value_read_unsigned {literal : String} (hsign : literal.toList.head? ≠ some '-') :
    (read literal).value =
      match Literal.readWord literal.toList 0 with
      | .error error => .error error
      | .ok w => if w.toNat < order then .ok ⟨w⟩ else .error .notInField := by
  rw [value_read, splitSign_unsigned hsign]
  rfl

/-- `read` behind a sign gives the negative of the word, if that is below the prime. -/
theorem value_read_signed (literal : String) :
    (read ("-" ++ literal)).value =
      match Literal.readWord literal.toList 1 with
      | .error error => .error error
      | .ok w => if w.toNat < order then .ok (-⟨w⟩) else .error .notInField := by
  rw [value_read, splitSign_signed]
  rfl

/-- `read` gives an element for a magnitude below the prime, which a sign negates. -/
theorem read_eq_ok_iff {literal : String} {x : Felt} :
    (read literal).value = .ok x ↔
      ∃ magnitude : Felt, magnitude.Valid ∧
        Literal.Denotes (splitSign literal).2.toList magnitude.word.toNat ∧
        x = if (splitSign literal).1 then -magnitude else magnitude := by
  rw [value_read]
  constructor
  · intro h
    split at h
    · simp at h
    · -- The word behind the sign is the magnitude.
      rename_i w hw
      split at h
      · rename_i hfits
        exact ⟨⟨w⟩, hfits, Literal.readWord_eq_ok_iff.mp hw, (Except.ok.inj h).symm⟩
      · simp at h
  · rintro ⟨⟨w⟩, hfits, hw, rfl⟩
    rw [Literal.readWord_eq_ok_iff.mpr hw]
    exact if_pos hfits

end FieldWord.Felt

namespace FieldWord.Value

/-- A value keeps to the bound of its type. -/
def Valid : Value → Prop
  | word256 _ => True
  | word248 u => u.Valid
  | felt x => x.Valid

instance : DecidablePred Valid
  | word256 _ => inferInstanceAs (Decidable True)
  | word248 u => inferInstanceAs (Decidable u.Valid)
  | felt x => inferInstanceAs (Decidable x.Valid)

theorem value_read_word256 (literal : String) :
    (read .word256 literal).value = (Word256.read literal).value.map word256 := rfl

theorem value_read_word248 (literal : String) :
    (read .word248 literal).value = (Word248.read literal).value.map word248 := rfl

theorem value_read_felt (literal : String) :
    (read .felt literal).value = (Felt.read literal).value.map felt := rfl

/-- `read` takes a text without a sign for the value of which it is a literal, if that is valid. -/
theorem read_eq_ok_iff {v : Value} {literal : String} (hsign : literal.toList.head? ≠ some '-') :
    (read v.kind literal).value = .ok v ↔
      v.Valid ∧ Literal.Denotes literal.toList v.word.toNat := by
  cases v with
  | word256 w =>
    have hread : Literal.readWord literal.toList 0 = .ok w ↔ _ := Literal.readWord_eq_ok_iff
    simp [kind, value_read_word256, map_eq_ok_iff, word, Valid, hread]
  | word248 u => simp [kind, value_read_word248, map_eq_ok_iff, word, Valid, Word248.read_eq_ok_iff]
  | felt x =>
    have hsplit := Felt.splitSign_unsigned hsign
    simp [kind, value_read_felt, map_eq_ok_iff, word, Valid, Felt.read_eq_ok_iff, hsplit]

end FieldWord.Value
