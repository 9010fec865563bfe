import Mathlib.Data.UInt
import Mathlib.Order.Basic

/-!
# The intermediate representation: references, streams, memorization bounds

Model of the part of `LolaIR` (`frontend/src/ir.rs`) that the runtime's schedule builder, the
layer planner and the input parser read.

* `StreamReference` (`ir.rs:280-306`) is `InRef(ix)` / `OutRef(ix)`. `out_ix` and `in_ix` panic
  on the other variant; here they return `none` there.
* `LolaIR::get_out` (`ir.rs:399-404`) indexes `outputs`; both of its panics (an `InRef`, an index
  past the end) are `none`.
* `MemorizationBound` (`ir.rs:56-73`) with its hand-written `partial_cmp`. The derived
  `PartialEq` is Lean's equality (`deriving DecidableEq`), and `<` is Rust's default
  `PartialOrd::lt`: `partial_cmp` returned `Some(Less)`.
* `Type` (`ir.rs:28-39`) is `IrType`, with the width enums `IntTy`, `UIntTy`, `FloatTy` of `crate::ty`, which
  is not part of the sources; their variants are the ones `Type::size` matches on
  (`ir.rs:482-504`).

Durations (`std::time::Duration`) are natural numbers of nanoseconds, at most `Duration::MAX`
(`durationMax`): `dur_as_nanos` and `dur_from_nanos` of the schedule builder are the identity.

Results:
* `partialCmp_eq_iff`: `partial_cmp` says `Equal` exactly on equal *bounded* values. The
  explicit arm `(Unbounded, Unbounded) => None` makes `Unbounded` incomparable with itself
  although the derived equality says `Unbounded == Unbounded`
  (`partialCmp_unbounded_not_refl`).
* `partialCmp_lt_iff_gt`, `lt_trans`, `bounded_lt_bounded`: the other laws of a partial order
  hold; `Bounded` values compare as their `u16`, and every `Bounded` is below `Unbounded`.
* `size_eq_byteWidth`: `Type::size` is the size in bytes of a value of the type, modulo `2 ^ 32`;
  it is `None` only for a function type, and panics for every other type without a size, a tuple
  with a function component among them.
-/

namespace RTLola.Ir

/-- `IntTy` of `crate::ty`. -/
inductive IntTy where
  | i8 | i16 | i32 | i64
  deriving DecidableEq, Repr

/-- `UIntTy` of `crate::ty`. -/
inductive UIntTy where
  | u8 | u16 | u32 | u64
  deriving DecidableEq, Repr

/-- `FloatTy` of `crate::ty`. -/
inductive FloatTy where
  | f32 | f64
  deriving DecidableEq, Repr

/-- `Type`: a value type of the IR (`Type` is a keyword in Lean). -/
inductive IrType where
  | bool
  | int (i : IntTy)
  | uint (u : UIntTy)
  | float (f : FloatTy)
  | string
  | tuple (ts : List IrType)
  | option (t : IrType)
  | function (args : List IrType) (ret : IrType)
  deriving Repr

/-! ## Stream references -/

/-- `StreamReference`: an index into the inputs or into the outputs. -/
inductive StreamReference where
  | inRef (ix : Nat)
  | outRef (ix : Nat)
  deriving DecidableEq, Repr

namespace StreamReference

/-- `out_ix`; `none` where the Rust panics. -/
def outIx : StreamReference → Option Nat
  | inRef _ => none
  | outRef ix => some ix

/-- `in_ix`; `none` where the Rust panics. -/
def inIx : StreamReference → Option Nat
  | outRef _ => none
  | inRef ix => some ix

/-- `ix_unchecked`. -/
def ixUnchecked : StreamReference → Nat
  | inRef ix | outRef ix => ix

end StreamReference

/-! ## Streams and the IR -/

/-- `OutputStream`, with the one field the modelled functions read: its evaluation layer. -/
structure OutputStream where
  layer : UInt32
  deriving DecidableEq, Repr

/-- `Stream::eval_layer` of an output stream. -/
def OutputStream.evalLayer (o : OutputStream) : UInt32 := o.layer

/-- `Duration::MAX` in nanoseconds: `u64::MAX` seconds and `999_999_999` nanoseconds. -/
def durationMax : Nat := 18446744073709551615 * 1000000000 + 999999999

/-- `TimeDrivenStream`: a reference and its extend rate, a `Duration`, in nanoseconds. -/
structure TimeDrivenStream where
  reference : StreamReference
  extendRate : Nat
  /-- A `Duration` is at most `Duration::MAX`. -/
  extendRate_le : extendRate ≤ durationMax
  deriving DecidableEq, Repr

/-- `EventDrivenStream`. -/
structure EventDrivenStream where
  reference : StreamReference
  deriving DecidableEq, Repr

/-- `LolaIR`, restricted to the fields read by the modelled functions. -/
structure LolaIR where
  outputs : List OutputStream
  timeDriven : List TimeDrivenStream
  eventDriven : List EventDrivenStream
  deriving DecidableEq, Repr

/-- `LolaIR::get_out`; `none` where the Rust panics. -/
def LolaIR.getOut (ir : LolaIR) : StreamReference → Option OutputStream
  | .inRef _ => none
  | .outRef ix => ir.outputs[ix]?

theorem LolaIR.getOut_outRef (ir : LolaIR) (ix : Nat) : ir.getOut (.outRef ix) = ir.outputs[ix]? :=
  rfl

/-! ## Memorization bounds and their partial order -/

/-- `MemorizationBound`: how many values of a stream are kept. -/
inductive MemorizationBound where
  | unbounded
  | bounded (b : UInt16)
  deriving DecidableEq, Repr

namespace MemorizationBound

/-- `partial_cmp` (`ir.rs:62-73`). -/
def partialCmp : MemorizationBound → MemorizationBound → Option Ordering
  | unbounded, unbounded => none
  | bounded _, unbounded => some .lt
  | unbounded, bounded _ => some .gt
  | bounded b1, bounded b2 => some (compare b1 b2)

/-- Rust's default `PartialOrd::lt`: `partial_cmp` returned `Some(Less)`. -/
def Lt (a b : MemorizationBound) : Prop := partialCmp a b = some .lt

instance (a b : MemorizationBound) : Decidable (Lt a b) :=
  inferInstanceAs (Decidable (partialCmp a b = some .lt))

theorem uint16_toNat_inj {a b : UInt16} : a.toNat = b.toNat ↔ a = b :=
  ⟨UInt16.toNat.inj, congrArg _⟩

/-- `u16::cmp` is the comparison of the values. -/
theorem compare_uint16 (a b : UInt16) : compare a b = compare a.toNat b.toNat := by
  simp only [compare, compareOfLessAndEq, UInt16.lt_def, BitVec.lt_def, ← uint16_toNat_inj]
  rfl

theorem partialCmp_bounded (x y : UInt16) :
    partialCmp (bounded x) (bounded y) = some (compare x.toNat y.toNat) := by
  rw [partialCmp, compare_uint16]

/-- **`Equal` only on equal bounded values.** -/
theorem partialCmp_eq_iff (a b : MemorizationBound) :
    partialCmp a b = some .eq ↔ a = b ∧ a ≠ unbounded := by
  cases a <;> cases b <;> simp [partialCmp, compare_uint16, Nat.compare_eq_eq, uint16_toNat_inj]

/-- The derived equality is reflexive on `Unbounded`; `partial_cmp` is not. -/
theorem partialCmp_unbounded_not_refl :
    ¬ (partialCmp unbounded unbounded = some .eq ↔ unbounded = unbounded) := by
  decide

theorem partialCmp_lt_iff_gt (a b : MemorizationBound) :
    partialCmp a b = some .lt ↔ partialCmp b a = some .gt := by
  cases a <;> cases b <;> simp [partialCmp, compare_uint16, Nat.compare_eq_lt, Nat.compare_eq_gt]

theorem bounded_lt_bounded (x y : UInt16) : Lt (bounded x) (bounded y) ↔ x < y := by
  rw [Lt, partialCmp_bounded, Option.some_inj, Nat.compare_eq_lt, UInt16.lt_def, BitVec.lt_def]
  rfl

theorem lt_unbounded_iff (a : MemorizationBound) : Lt a unbounded ↔ a ≠ unbounded := by
  cases a <;> simp [Lt, partialCmp]

theorem not_unbounded_lt (b : MemorizationBound) : ¬ Lt unbounded b := by
  cases b <;> simp [Lt, partialCmp]

theorem lt_trans {a b c : MemorizationBound} (hab : Lt a b) (hbc : Lt b c) : Lt a c := by
  cases a with
  | unbounded => exact absurd hab (not_unbounded_lt b)
  | bounded x =>
    cases c with
    | unbounded => simp [lt_unbounded_iff]
    | bounded z =>
      cases b with
      | unbounded => exact absurd hbc (not_unbounded_lt _)
      | bounded y =>
        rw [bounded_lt_bounded] at *
        exact UInt16.lt_trans hab hbc

/-- **The order laws of `partial_cmp`**, with `Equal` restricted to bounded values. -/
theorem partialCmp_laws :
    (∀ a b, partialCmp a b = some .eq ↔ a = b ∧ a ≠ unbounded) ∧
    (∀ a b, partialCmp a b = some .lt ↔ partialCmp b a = some .gt) ∧
    (∀ a b c, Lt a b → Lt b c → Lt a c) ∧
    (∀ x y, Lt (bounded x) (bounded y) ↔ x < y) :=
  ⟨partialCmp_eq_iff, partialCmp_lt_iff_gt, fun _ _ _ => lt_trans, bounded_lt_bounded⟩

end MemorizationBound

/-! ## `Type::size` -/

mutual

/-- `Type::size` (`ir.rs:482-505`): `some (some n)` is `Some(ValSize(n))`, `some none` is `None`,
and `none` a panic: `unimplemented!`, or `unwrap` of a tuple component without a size. The `u32`
sum over a tuple wraps as in a release build. -/
def IrType.size : IrType → Option (Option UInt32)
  | .bool => some (some 1)
  | .int .i8 => some (some 1)
  | .int .i16 => some (some 2)
  | .int .i32 => some (some 4)
  | .int .i64 => some (some 8)
  | .uint .u8 => some (some 1)
  | .uint .u16 => some (some 2)
  | .uint .u32 => some (some 4)
  | .uint .u64 => some (some 8)
  | .float .f32 => some (some 4)
  | .float .f64 => some (some 8)
  | .option _ => none
  | .tuple t => do
    let sizes ← IrType.componentSizes t
    pure (some (sizes.foldl (· + ·) 0))
  | .string => none
  | .function _ _ => some none

/-- The components of a tuple in `Type::size`: `t.iter().map(|t| Type::size(t).unwrap().0)`. -/
def IrType.componentSizes : List IrType → Option (List UInt32)
  | [] => some []
  | t :: ts => do
    let size ← t.size
    let n ← size
    let ns ← IrType.componentSizes ts
    pure (n :: ns)

end

/-- The width in bytes of an `IntTy`. -/
def IntTy.width : IntTy → Nat
  | .i8 => 1 | .i16 => 2 | .i32 => 4 | .i64 => 8

/-- The width in bytes of a `UIntTy`. -/
def UIntTy.width : UIntTy → Nat
  | .u8 => 1 | .u16 => 2 | .u32 => 4 | .u64 => 8

/-- The width in bytes of a `FloatTy`. -/
def FloatTy.width : FloatTy → Nat
  | .f32 => 4 | .f64 => 8

mutual

/-- The size in bytes of a value of a type: the width of a scalar, the sum over a tuple, and no
size for an option, a string or a function. -/
def IrType.byteWidth : IrType → Option Nat
  | .bool => some 1
  | .int i => some i.width
  | .uint u => some u.width
  | .float f => some f.width
  | .tuple ts => IrType.byteWidthSum ts
  | .option _ | .string | .function _ _ => none

/-- The sum of the sizes of the components of a tuple, if they all have one. -/
def IrType.byteWidthSum : List IrType → Option Nat
  | [] => some 0
  | t :: ts => do
    let n ← t.byteWidth
    let rest ← IrType.byteWidthSum ts
    pure (n + rest)

end

/-- Whether a type is a function type. -/
def IrType.isFunction : IrType → Bool
  | .function _ _ => true
  | _ => false

theorem uint32_ofNat_add (x y : Nat) : UInt32.ofNat (x + y) = UInt32.ofNat x + UInt32.ofNat y := by
  apply UInt32.toNat.inj
  simp [UInt32.toNat, UInt32.add_def, UInt32.ofNat, BitVec.toNat_add]

mutual

theorem IrType.size_eq : ∀ t : IrType,
    t.size = if t.isFunction then some none else t.byteWidth.map fun n => some (UInt32.ofNat n)
  | .tuple ts => by
    have h := IrType.foldl_componentSizes ts 0
    cases hc : IrType.componentSizes ts <;> cases hs : IrType.byteWidthSum ts <;>
      simp_all [IrType.size, IrType.isFunction, IrType.byteWidth]
  | .bool | .int .i8 | .int .i16 | .int .i32 | .int .i64 | .uint .u8 | .uint .u16 | .uint .u32
  | .uint .u64 | .float .f32 | .float .f64 | .option _ | .string | .function _ _ => rfl

/-- The `u32` sum over the components, from `a`: the sum of their sizes modulo `2 ^ 32`. -/
theorem IrType.foldl_componentSizes : ∀ (ts : List IrType) (a : UInt32),
    (IrType.componentSizes ts).map (·.foldl (· + ·) a) =
      (IrType.byteWidthSum ts).map fun n => a + UInt32.ofNat n
  | [], a => by simp [IrType.componentSizes, IrType.byteWidthSum]
  | t :: ts, a => by
    simp only [IrType.componentSizes, IrType.byteWidthSum, IrType.size_eq t]
    cases hf : t.isFunction
    · cases hw : t.byteWidth with
      | none => rfl
      | some n =>
        have ih := IrType.foldl_componentSizes ts (a + UInt32.ofNat n)
        cases hc : IrType.componentSizes ts <;> cases hs : IrType.byteWidthSum ts <;>
          simp_all [uint32_ofNat_add, add_assoc]
    · have : t.byteWidth = none := by cases t <;> simp_all [IrType.isFunction, IrType.byteWidth]
      simp [this]

end

/-- **`Type::size` is the size in bytes modulo `2 ^ 32`**: for every type with a size; it returns
`None` only for a function type itself, and panics on every other type without a size, among them
a tuple with a function component. -/
theorem size_eq_byteWidth (t : IrType) :
    t.size = if t.isFunction then some none else t.byteWidth.map fun n => some (UInt32.ofNat n) :=
  IrType.size_eq t

example : (IrType.tuple [.bool, .function [] .bool]).size = none := by decide

end RTLola.Ir
