import Mathlib.Data.BitVec
import Mathlib.Data.Prod.Lex
import Mathlib.Data.String.Basic
import RTLola.Storage.Value

/-!
# The operators of `Value`

Model of `Add`, `Sub`, `Mul`, `Div`, `Rem`, `BitOr`, `BitAnd` and `Not` for `Value`
(`rtlola/src/storage/value.rs:32-123`), and of its derived `PartialEq` and `PartialOrd`
(`value.rs:7-16`).

* `add`, `sub`, `mul`, `div` and `rem` have one body up to the operation (`Value.arith`): the
  operation of the variant both operands share, `Unsigned`, `Signed` or `Float`, and for any other
  pair the panic `Incompatible types.` (`none`). `bitor` and `bitand` share another body
  (`Value.logic`), on two `Bool`s. `not` has its own.
* `u128` and `i128` addition, subtraction, multiplication and negation wrap, as in a release build
  (a debug build panics on overflow): the choice made for the `u32` counter of
  `condense_deadlines`. Division and remainder panic in every build on a zero divisor and on
  `i128::MIN` by `-1`; `/` on `i128` rounds toward zero (`BitVec.sdiv`) and `%` takes the sign of
  the dividend (`BitVec.srem`).
* `f64` arithmetic is not modelled: the operators are given the IEEE operation on the bits.
  `NotNan<f64>` (of `ordered_float`, not part of the sources) panics when a result is a NaN
  (`NotNan.lift`). Its negation flips the sign bit, which never makes a NaN (`NotNan.neg`).
* The derived `PartialEq` and `PartialOrd` compare the payloads of one variant, and values of
  two variants by the order in which the variants are declared.
  `f64::partial_cmp` and `==` of two values that are not NaN are modelled by the IEEE order: that
  of the sign-magnitude key `floatKey`, in which `-0.0` and `+0.0` are equal.

Results:
* `div_mul_add_rem`: on integer values, `/` and `%` panic on the same operands, and otherwise
  `(a / b) * b + a % b` is `a` with the wrapping `*` and `+` of `Value`, for `u128` and `i128`
  alike, `i128::MIN` included.
* `value_partialCmp_lawful`: the derived `partial_cmp` never returns `None` (no value is a NaN),
  says `Equal` exactly when `==` holds, and is antisymmetric and transitive; values of different
  variants compare by variant, where the arithmetic operators panic.
-/

namespace RTLola.Storage

open RTLola.Ir

/-! ## `NotNan<f64>` -/

/-- An operation of `NotNan<f64>`, given the IEEE operation `f` on the bits: the panic of `NotNan`
when the result is a NaN. -/
def NotNan.lift (f : UInt64 → UInt64 → UInt64) (a b : NotNan) : Option NotNan :=
  if h : isNaNBits (f a.bits b.bits) = false then some ⟨_, h⟩ else none

/-- The sign bit of an `f64`. -/
def signBit : UInt64 := 0x8000000000000000

theorem getLsbD_ofNat_two_pow (k j : Nat) :
    (BitVec.ofNat 64 (2 ^ k)).getLsbD j = (decide (j < 64) && decide (k = j)) := by
  rw [BitVec.getLsbD_ofNat, Nat.testBit_two_pow]

theorem getLsbD_ofNat_two_pow_sub_one (k j : Nat) :
    (BitVec.ofNat 64 (2 ^ k - 1)).getLsbD j = (decide (j < 64) && decide (j < k)) := by
  rw [BitVec.getLsbD_ofNat, Nat.testBit_two_pow_sub_one]

/-- The sign bit is not among the exponent bits. -/
theorem exponent_xor_signBit (b : BitVec 64) :
    ((b ^^^ BitVec.ofNat 64 (2 ^ 63)) >>> 52) &&& BitVec.ofNat 64 (2 ^ 11 - 1) =
      (b >>> 52) &&& BitVec.ofNat 64 (2 ^ 11 - 1) := by
  ext ⟨i, hi⟩
  simp only [BitVec.getLsbD_and, BitVec.getLsbD_xor, BitVec.getLsbD_ushiftRight,
    getLsbD_ofNat_two_pow, getLsbD_ofNat_two_pow_sub_one]
  by_cases h : i < 11
  · have : ¬ 63 = 52 + i := by omega
    simp [h, this]
  · simp [h]

/-- The sign bit is not among the mantissa bits. -/
theorem mantissa_xor_signBit (b : BitVec 64) :
    (b ^^^ BitVec.ofNat 64 (2 ^ 63)) &&& BitVec.ofNat 64 (2 ^ 52 - 1) =
      b &&& BitVec.ofNat 64 (2 ^ 52 - 1) := by
  ext ⟨i, hi⟩
  simp only [BitVec.getLsbD_and, BitVec.getLsbD_xor, getLsbD_ofNat_two_pow,
    getLsbD_ofNat_two_pow_sub_one]
  by_cases h : i < 52
  · have : ¬ 63 = i := by omega
    simp [h, this]
  · simp [h]

/-- Flipping the sign bit neither makes nor removes a NaN. -/
theorem isNaNBits_xor_signBit (b : UInt64) : isNaNBits (b ^^^ signBit) = isNaNBits b := by
  obtain ⟨b⟩ := b
  have hexp : ((UInt64.mk b ^^^ signBit) >>> 52) &&& (0x7FF : UInt64) =
      (UInt64.mk b >>> 52) &&& 0x7FF :=
    congrArg UInt64.mk (exponent_xor_signBit b)
  have hman : (UInt64.mk b ^^^ signBit) &&& 0xFFFFFFFFFFFFF = UInt64.mk b &&& 0xFFFFFFFFFFFFF :=
    congrArg UInt64.mk (mantissa_xor_signBit b)
  simp only [isNaNBits, hexp, hman]

/-- `Neg` of `NotNan<f64>`: the sign bit flipped. -/
def NotNan.neg (a : NotNan) : NotNan :=
  ⟨a.bits ^^^ signBit, (isNaNBits_xor_signBit a.bits).trans a.not_nan⟩

/-! ## The operators -/

/-- The body of `add`, `sub`, `mul`, `div` and `rem`: the operation of the variant both operands
share, or the panic `Incompatible types.`. -/
def Value.arith (onUnsigned onSigned : BitVec 128 → BitVec 128 → Option (BitVec 128))
    (onFloat : NotNan → NotNan → Option NotNan) : Value → Value → Option Value
  | .unsigned v1, .unsigned v2 => (onUnsigned v1 v2).map .unsigned
  | .signed v1, .signed v2 => (onSigned v1 v2).map .signed
  | .float v1, .float v2 => (onFloat v1 v2).map .float
  | _, _ => none

/-- A wrapping operation of `u128` or `i128`: it never panics. -/
def wrapping (op : BitVec 128 → BitVec 128 → BitVec 128) (v1 v2 : BitVec 128) :
    Option (BitVec 128) :=
  some (op v1 v2)

/-- `u128` division: the panic on a zero divisor. -/
def divU128 (v1 v2 : BitVec 128) : Option (BitVec 128) :=
  if v2 = 0 then none else some (v1 / v2)

/-- `i128` division: the panics on a zero divisor and on `i128::MIN / -1`. -/
def divI128 (v1 v2 : BitVec 128) : Option (BitVec 128) :=
  if v2 = 0 ∨ (v1 = BitVec.intMin 128 ∧ v2 = -1) then none else some (v1.sdiv v2)

/-- `u128` remainder: the panic on a zero divisor. -/
def remU128 (v1 v2 : BitVec 128) : Option (BitVec 128) :=
  if v2 = 0 then none else some (v1 % v2)

/-- `i128` remainder: the panics on a zero divisor and on `i128::MIN % -1`. -/
def remI128 (v1 v2 : BitVec 128) : Option (BitVec 128) :=
  if v2 = 0 ∨ (v1 = BitVec.intMin 128 ∧ v2 = -1) then none else some (v1.srem v2)

@[simp] theorem divU128_eq_none_iff (v1 v2 : BitVec 128) : divU128 v1 v2 = none ↔ v2 = 0 := by
  unfold divU128; split_ifs <;> simp_all

@[simp] theorem divI128_eq_none_iff (v1 v2 : BitVec 128) :
    divI128 v1 v2 = none ↔ v2 = 0 ∨ (v1 = BitVec.intMin 128 ∧ v2 = -1) := by
  unfold divI128; split_ifs <;> simp_all

@[simp] theorem remU128_eq_none_iff (v1 v2 : BitVec 128) : remU128 v1 v2 = none ↔ v2 = 0 := by
  unfold remU128; split_ifs <;> simp_all

@[simp] theorem remI128_eq_none_iff (v1 v2 : BitVec 128) :
    remI128 v1 v2 = none ↔ v2 = 0 ∨ (v1 = BitVec.intMin 128 ∧ v2 = -1) := by
  unfold remI128; split_ifs <;> simp_all

/-- `Value::add`, given the IEEE addition `fadd`. -/
def Value.add (fadd : UInt64 → UInt64 → UInt64) : Value → Value → Option Value :=
  Value.arith (wrapping (· + ·)) (wrapping (· + ·)) (NotNan.lift fadd)

/-- `Value::sub`, given the IEEE subtraction `fsub`. -/
def Value.sub (fsub : UInt64 → UInt64 → UInt64) : Value → Value → Option Value :=
  Value.arith (wrapping (· - ·)) (wrapping (· - ·)) (NotNan.lift fsub)

/-- `Value::mul`, given the IEEE multiplication `fmul`. -/
def Value.mul (fmul : UInt64 → UInt64 → UInt64) : Value → Value → Option Value :=
  Value.arith (wrapping (· * ·)) (wrapping (· * ·)) (NotNan.lift fmul)

/-- `Value::div`, given the IEEE division `fdiv`. -/
def Value.div (fdiv : UInt64 → UInt64 → UInt64) : Value → Value → Option Value :=
  Value.arith divU128 divI128 (NotNan.lift fdiv)

/-- `Value::rem`, given the IEEE remainder `frem`. -/
def Value.rem (frem : UInt64 → UInt64 → UInt64) : Value → Value → Option Value :=
  Value.arith remU128 remI128 (NotNan.lift frem)

/-- The body of `bitor` and `bitand`: the operation on two `Bool`s, or the panic. -/
def Value.logic (op : Bool → Bool → Bool) : Value → Value → Option Value
  | .bool v1, .bool v2 => some (.bool (op v1 v2))
  | _, _ => none

/-- `Value::bitor`. -/
def Value.bitor : Value → Value → Option Value := Value.logic (· || ·)

/-- `Value::bitand`. -/
def Value.bitand : Value → Value → Option Value := Value.logic (· && ·)

/-- `Value::not`: negation on `Signed` and `Float`, `!` on `Bool`, the panic otherwise. -/
def Value.not : Value → Option Value
  | .signed v => some (.signed (-v))
  | .float v => some (.float v.neg)
  | .bool v => some (.bool (!v))
  | _ => none

/-! ## Division and remainder -/

/-- `u128` division and remainder give back the dividend; nothing overflows. -/
theorem udiv_mul_add_umod {w : Nat} (x y : BitVec w) : x / y * y + x % y = x := by
  apply BitVec.eq_of_toNat_eq
  have hle : x.toNat / y.toNat * y.toNat ≤ x.toNat := Nat.div_mul_le_self _ _
  have hlt := x.isLt
  rw [BitVec.toNat_add, BitVec.toNat_mul, BitVec.toNat_udiv, BitVec.toNat_umod,
    Nat.mod_eq_of_lt (by omega : x.toNat / y.toNat * y.toNat < 2 ^ w), Nat.div_add_mod',
    Nat.mod_eq_of_lt hlt]

/-- `i128` division, rounding toward zero, and remainder, with the sign of the dividend, give back
the dividend in wrapping arithmetic: each sign case is the unsigned one. -/
theorem sdiv_mul_add_srem {w : Nat} (x y : BitVec w) : x.sdiv y * y + x.srem y = x := by
  rw [BitVec.sdiv_eq, BitVec.srem_eq]
  cases x.msb <;> cases y.msb <;> dsimp only
  · exact udiv_mul_add_umod x y
  · calc -(x.udiv (-y)) * y + x % -y = x / -y * -y + x % -y := by rw [neg_mul, mul_neg]; rfl
      _ = x := udiv_mul_add_umod x (-y)
  · calc -((-x).udiv y) * y + -((-x) % y) = -((-x) / y * y + (-x) % y) := by
          rw [neg_mul, neg_add]; rfl
      _ = x := by rw [udiv_mul_add_umod, neg_neg]
  · calc (-x).udiv (-y) * y + -((-x) % (-y)) = -((-x) / (-y) * (-y) + (-x) % (-y)) := by
          rw [mul_neg, neg_add, neg_neg]; rfl
      _ = x := by rw [udiv_mul_add_umod, neg_neg]

/-- **Division and remainder fit together** on integer values: `Div` and `Rem` panic on the same
operands, and when they do not, `(a / b) * b + a % b == a` with the `Mul` and `Add` of `Value`,
for `u128` and `i128` alike. -/
theorem div_mul_add_rem (fadd fmul fdiv frem : UInt64 → UInt64 → UInt64) {a b : Value}
    (ha : ∀ f, a ≠ .float f) :
    (Value.div fdiv a b = none ↔ Value.rem frem a b = none) ∧
      ∀ q, Value.div fdiv a b = some q → ∃ r p, Value.rem frem a b = some r ∧
        Value.mul fmul q b = some p ∧ Value.add fadd p r = some a := by
  cases a with
  | float f => exact absurd rfl (ha f)
  | unsigned x =>
    cases b with
    | unsigned y =>
      by_cases hy : y = 0
      · simp [Value.div, Value.rem, Value.arith, divU128, remU128, hy]
      · refine ⟨by simp [Value.div, Value.rem, Value.arith, hy], fun q hq => ?_⟩
        simp only [Value.div, Value.arith, divU128, if_neg hy, Option.map_some',
          Option.some_inj] at hq
        subst hq
        exact ⟨.unsigned (x % y), .unsigned (x / y * y),
          by simp only [Value.rem, Value.arith, remU128, if_neg hy, Option.map_some'], rfl,
          by simp [Value.add, Value.arith, wrapping, udiv_mul_add_umod]⟩
    | _ => simp [Value.div, Value.rem, Value.arith]
  | signed x =>
    cases b with
    | signed y =>
      by_cases hy : y = 0 ∨ (x = BitVec.intMin 128 ∧ y = -1)
      · simp only [Value.div, Value.rem, Value.arith, divI128, remI128, if_pos hy,
          Option.map_none', true_iff, reduceCtorEq, false_implies, implies_true, and_self]
      · refine ⟨by simp only [Value.div, Value.rem, Value.arith, Option.map_eq_none',
          divI128_eq_none_iff, remI128_eq_none_iff], fun q hq => ?_⟩
        simp only [Value.div, Value.arith, divI128, if_neg hy, Option.map_some',
          Option.some_inj] at hq
        subst hq
        exact ⟨.signed (x.srem y), .signed (x.sdiv y * y),
          by simp only [Value.rem, Value.arith, remI128, if_neg hy, Option.map_some'], rfl,
          by simp [Value.add, Value.arith, wrapping, sdiv_mul_add_srem]⟩
    | _ => simp [Value.div, Value.rem, Value.arith]
  | _ => simp [Value.div, Value.rem, Value.arith]

theorem div_mul_add_rem_signed :
    (∀ f, Value.signed (-7) ≠ .float f) ∧
      (Value.div (fun _ _ => 0) (.signed (-7)) (.signed 2) = none ↔
        Value.rem (fun _ _ => 0) (.signed (-7)) (.signed 2) = none) ∧
      ∀ q, Value.div (fun _ _ => 0) (.signed (-7)) (.signed 2) = some q →
        ∃ r p, Value.rem (fun _ _ => 0) (.signed (-7)) (.signed 2) = some r ∧
          Value.mul (fun _ _ => 0) q (.signed 2) = some p ∧
          Value.add (fun _ _ => 0) p r = some (.signed (-7)) :=
  have ha : ∀ f, Value.signed (-7) ≠ .float f := fun _ h => Value.noConfusion h
  ⟨ha, div_mul_add_rem (fun _ _ => 0) (fun _ _ => 0) (fun _ _ => 0) (fun _ _ => 0) ha⟩

example : Value.div (fun _ _ => 0) (.signed (-7)) (.signed 2) = some (.signed (-3)) ∧
    Value.rem (fun _ _ => 0) (.signed (-7)) (.signed 2) = some (.signed (-1)) := by decide

/-! ## Comparison: the derived `PartialEq` and `PartialOrd` -/

/-- The sign-magnitude key of the bits of an `f64`: for values that are not NaN, IEEE comparison is
the order of their keys, and `-0.0` and `+0.0` both have key `0`. -/
def floatKey (bits : UInt64) : Int :=
  if bits >>> 63 = 1 then -((bits &&& 0x7FFFFFFFFFFFFFFF).toNat : Int)
  else ((bits &&& 0x7FFFFFFFFFFFFFFF).toNat : Int)

/-- The discriminant of a `Value`: the index of its variant in the declaration. -/
def Value.discriminant : Value → Nat
  | .unsigned _ => 0
  | .signed _ => 1
  | .float _ => 2
  | .bool _ => 3
  | .str _ => 4

/-- The derived `PartialOrd::partial_cmp` of `Value`. -/
def Value.partialCmp : Value → Value → Option Ordering
  | .unsigned a, .unsigned b => some (compare a.toNat b.toNat)
  | .signed a, .signed b => some (compare a.toInt b.toInt)
  | .float a, .float b => some (compare (floatKey a.bits) (floatKey b.bits))
  | .bool a, .bool b => some (compare a b)
  | .str a, .str b => some (compare a b)
  | a, b => some (compare a.discriminant b.discriminant)

/-- The derived `PartialEq::eq` of `Value`. -/
def Value.eq : Value → Value → Bool
  | .unsigned a, .unsigned b => a == b
  | .signed a, .signed b => a == b
  | .float a, .float b => floatKey a.bits == floatKey b.bits
  | .bool a, .bool b => a == b
  | .str a, .str b => a == b
  | _, _ => false

/-- A key in one linear order that `partial_cmp` compares: the discriminant, then the payload. -/
def Value.key : Value → Lex (Nat × Lex (Int × String))
  | .unsigned a => toLex (0, toLex ((a.toNat : Int), ""))
  | .signed a => toLex (1, toLex (a.toInt, ""))
  | .float a => toLex (2, toLex (floatKey a.bits, ""))
  | .bool a => toLex (3, toLex ((a.toNat : Int), ""))
  | .str a => toLex (4, toLex (0, a))

theorem bool_lt_iff_toNat (a b : Bool) : a < b ↔ (a.toNat : Int) < b.toNat := by
  cases a <;> cases b <;> decide

theorem bool_eq_iff_toNat (a b : Bool) : a = b ↔ a.toNat = b.toNat := by
  cases a <;> cases b <;> decide

namespace Value

theorem partialCmp_lt_iff_key (a b : Value) : a.partialCmp b = some .lt ↔ a.key < b.key := by
  cases a <;> cases b <;>
    simp [partialCmp, key, Prod.Lex.lt_iff, compare_lt_iff_lt, discriminant, bool_lt_iff_toNat]

theorem partialCmp_gt_iff_key (a b : Value) : a.partialCmp b = some .gt ↔ b.key < a.key := by
  cases a <;> cases b <;>
    simp [partialCmp, key, Prod.Lex.lt_iff, compare_gt_iff_gt, discriminant, bool_lt_iff_toNat]

theorem partialCmp_eq_iff_key (a b : Value) : a.partialCmp b = some .eq ↔ a.key = b.key := by
  cases a <;> cases b <;>
    simp [partialCmp, key, compare_eq_iff_eq, discriminant, BitVec.toNat_eq, BitVec.toInt_inj]
  exact bool_eq_iff_toNat _ _

theorem eq_iff_key (a b : Value) : a.eq b ↔ a.key = b.key := by
  cases a <;> cases b <;> simp [Value.eq, key, BitVec.toNat_eq, BitVec.toInt_inj]
  exact bool_eq_iff_toNat _ _

theorem key_fst (a : Value) : (ofLex a.key).1 = a.discriminant := by
  cases a <;> rfl

end Value

/-- **The derived order of `Value` is total and consistent with `==`**: `partial_cmp` never returns
`None`, says `Equal` exactly when `==` holds, is antisymmetric and transitive, and orders values of
different variants by their declaration. -/
theorem value_partialCmp_lawful :
    (∀ a b : Value, (a.partialCmp b).isSome) ∧
    (∀ a b : Value, a.partialCmp b = some .eq ↔ a.eq b) ∧
    (∀ a b : Value, a.partialCmp b = some .lt ↔ b.partialCmp a = some .gt) ∧
    (∀ a b c : Value, a.partialCmp b = some .lt → b.partialCmp c = some .lt →
      a.partialCmp c = some .lt) ∧
    (∀ a b : Value, a.discriminant < b.discriminant → a.partialCmp b = some .lt) := by
  refine ⟨fun a b => ?_, fun a b => ?_, fun a b => ?_, fun a b c => ?_, fun a b h => ?_⟩
  · cases a <;> cases b <;> rfl
  · rw [Value.partialCmp_eq_iff_key, Value.eq_iff_key]
  · rw [Value.partialCmp_lt_iff_key, Value.partialCmp_gt_iff_key]
  · simp only [Value.partialCmp_lt_iff_key]
    exact lt_trans
  · rw [Value.partialCmp_lt_iff_key]
    have hfst : (ofLex a.key).1 < (ofLex b.key).1 := by rwa [Value.key_fst, Value.key_fst]
    exact (Prod.Lex.lt_iff (ofLex a.key) (ofLex b.key)).mpr (.inl hfst)

example : (Value.unsigned 5).partialCmp (.signed (-3)) = some .lt := rfl

example : (Value.float ⟨0x8000000000000000, by decide⟩).eq (.float ⟨0, by decide⟩) := by
  decide

end RTLola.Storage
