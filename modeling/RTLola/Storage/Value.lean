import Mathlib.Data.Nat.Digits
import RTLola.Ir.Basic

/-!
# Parsing an input cell: `Value::try_from`

Model of `Value` and `Value::try_from` (`rtlola/src/storage/value.rs:7-30`), with the parsers of
the standard library it calls: `str::parse` for `u128` and `i128` (`from_str_radix` with radix
`10`) and for `bool`.

* `Unsigned(u128)` and `Signed(i128)` hold a `BitVec 128`; `Float(NotNan<f64>)` holds the bits of
  the `f64`, which are not a NaN (`NotNan`).
* `from_str_radix` is modelled for an integer type with values `lo ..= hi`: an optional sign (a
  `-` only for a signed type, `0 > T::min_value()`), then digits, accumulated by `checked_mul` and
  `checked_add` (`checked_sub` for a negative number), each checked against `lo ..= hi`. Every
  `ParseIntError` is `none`: `try_from` discards it with `.ok()`. The source is read as `char`s where
  the standard library reads bytes; an ASCII digit, `+` or `-` is one byte, and the bytes of any
  other character are no digit, so both readings accept the same strings with the same value.
* Parsing an `f64` is not modelled: `parseF64` gives the bits of `source.parse::<f64>()`.
* `try_from` panics (`none`) on `Option` (`panic!`), `String` and `Tuple` (`unimplemented!`), and
  when the parsed `f64` is a NaN (`NotNan::new(f).unwrap()`). The `Type` it matches on is
  `lola_parser::Type`, not part of the sources, and has no `Function` arm; the `function` type of
  `IrType` is a panic too.

Results:
* `fromStrRadix_eq`: `from_str_radix` accepts exactly an optional sign and a nonempty decimal
  numeral, with the numeral's value, when that value is in the type's range: the checks of the
  loop reject exactly the out-of-range values.
* `tryFrom_spec`: for `UInt`, `Int` and `Bool` of every width, `try_from` never panics. It
  returns `Unsigned` of every literal below `2 ^ 128` and `Signed` of every literal in
  `[-2 ^ 127, 2 ^ 127)`, whatever the declared width, and `Bool` of exactly `true` and `false`.
* `tryFrom_ignores_width`: `"256"` is an `Unsigned` value for `UInt8`, and `"-129"` a `Signed`
  value for `Int8`.
-/

namespace RTLola.Storage

open RTLola.Ir

/-! ## `from_str_radix` with radix `10` -/

/-- `char::to_digit(10)`. -/
def toDigit (c : Char) : Option Nat :=
  if '0' ≤ c ∧ c ≤ '9' then some (c.toNat - '0'.toNat) else none

/-- `checked_mul`, `checked_add` and `checked_sub` of an integer type with values `lo ..= hi`:
the exact result when it is in range. -/
def checked (lo hi z : Int) : Option Int :=
  if lo ≤ z ∧ z ≤ hi then some z else none

/-- The loop of `from_str_radix` for a positive number: `result = result * 10 + x`. -/
def accumPositive (lo hi : Int) : Int → List Char → Option Int
  | result, [] => some result
  | result, c :: digits => do
    let x ← toDigit c
    let result ← checked lo hi (result * 10)
    let result ← checked lo hi (result + x)
    accumPositive lo hi result digits

/-- The loop of `from_str_radix` for a negative number: `result = result * 10 - x`. -/
def accumNegative (lo hi : Int) : Int → List Char → Option Int
  | result, [] => some result
  | result, c :: digits => do
    let x ← toDigit c
    let result ← checked lo hi (result * 10)
    let result ← checked lo hi (result - x)
    accumNegative lo hi result digits

/-- `from_str_radix(src, 10)` for the integer type with values `lo ..= hi`. The type is signed
(`is_signed_ty`) when `lo < 0`. -/
def fromStrRadix (lo hi : Int) (src : String) : Option Int :=
  match src.toList with
  | [] => none
  | c :: rest =>
    let (isPositive, digits) :=
      if c = '+' then (true, rest)
      else if c = '-' ∧ lo < 0 then (false, rest)
      else (true, c :: rest)
    if digits.isEmpty then none
    else if isPositive then accumPositive lo hi 0 digits
    else accumNegative lo hi 0 digits

/-- `u128::MAX`. -/
def u128Max : Int := 340282366920938463463374607431768211455

/-- `i128::MIN`. -/
def i128Min : Int := -170141183460469231731687303715884105728

/-- `i128::MAX`. -/
def i128Max : Int := 170141183460469231731687303715884105727

theorem u128Max_eq : u128Max = 2 ^ 128 - 1 := by norm_num [u128Max]

theorem i128Min_eq : i128Min = -2 ^ 127 := by norm_num [i128Min]

theorem i128Max_eq : i128Max = 2 ^ 127 - 1 := by norm_num [i128Max]

/-- `source.parse::<u128>()`. -/
def parseU128 (source : String) : Option Int := fromStrRadix 0 u128Max source

/-- `source.parse::<i128>()`. -/
def parseI128 (source : String) : Option Int := fromStrRadix i128Min i128Max source

/-- `source.parse::<bool>()`. -/
def parseBool (source : String) : Option Bool :=
  if source = "true" then some true else if source = "false" then some false else none

/-! ## `Value` -/

/-- The bits of an `f64` are a NaN: all exponent bits set and a nonzero mantissa. -/
def isNaNBits (bits : UInt64) : Bool :=
  (bits >>> 52) &&& 0x7FF == 0x7FF && bits &&& 0xFFFFFFFFFFFFF != 0

/-- `NotNan<f64>`: the bits of an `f64` that is not a NaN. -/
structure NotNan where
  bits : UInt64
  not_nan : isNaNBits bits = false
  deriving DecidableEq

/-- `Value`. -/
inductive Value where
  | unsigned (v : BitVec 128)
  | signed (v : BitVec 128)
  | float (v : NotNan)
  | bool (v : Bool)
  | str (v : String)
  deriving DecidableEq

section TryFrom

variable (parseF64 : String → Option UInt64)

/-- `Value::try_from`: `none` is a panic, `some none` a cell that does not parse. -/
def Value.tryFrom (source : String) : IrType → Option (Option Value)
  | .option _ => none
  | .string => none
  | .tuple _ => none
  | .function _ _ => none
  | .float _ =>
    match parseF64 source with
    | none => some none
    | some f => if h : isNaNBits f = false then some (some (.float ⟨f, h⟩)) else none
  | .uint _ => some ((parseU128 source).map fun u => .unsigned (BitVec.ofInt 128 u))
  | .int _ => some ((parseI128 source).map fun i => .signed (BitVec.ofInt 128 i))
  | .bool => some ((parseBool source).map .bool)

end TryFrom

/-! ## The literals the parser accepts -/

/-- A decimal numeral: one or more ASCII digits, with its value. -/
def numeralValue (ds : List Char) : Option Nat :=
  if ds = [] then none else (ds.mapM toDigit).map fun xs => Nat.ofDigits 10 xs.reverse

/-- The integer literals of the standard library: an optional `+`, or `-` for a signed type,
before a decimal numeral, with their value. -/
def literalValue (signed : Bool) (s : String) : Option Int :=
  match s.toList with
  | [] => none
  | c :: ds =>
    if c = '+' then (numeralValue ds).map Int.ofNat
    else if c = '-' then (if signed then (numeralValue ds).map fun n => -(n : Int) else none)
    else (numeralValue (c :: ds)).map Int.ofNat

theorem checked_of_mem {lo hi z : Int} (hlo : lo ≤ z) (hhi : z ≤ hi) : checked lo hi z = some z := by
  simp [checked, hlo, hhi]

theorem checked_of_gt {lo hi z : Int} (h : hi < z) : checked lo hi z = none := by
  simp [checked]; omega

theorem checked_neg (lo hi z : Int) : (checked (-hi) (-lo) z).map (- ·) = checked lo hi (-z) := by
  unfold checked
  by_cases h : -hi ≤ z ∧ z ≤ -lo
  · rw [if_pos h, if_pos (by omega)]; rfl
  · rw [if_neg h, if_neg (by omega)]; rfl

/-- The negative loop is the positive loop on the negated range. -/
theorem accumNegative_eq (lo hi : Int) :
    ∀ (result : Int) (ds : List Char),
      accumNegative lo hi result ds = (accumPositive (-hi) (-lo) (-result) ds).map (- ·)
  | result, [] => by simp [accumNegative, accumPositive]
  | result, c :: ds => by
    simp only [accumNegative, accumPositive]
    cases toDigit c with
    | none => rfl
    | some x =>
      have hmul : checked lo hi (result * 10) = (checked (-hi) (-lo) (-result * 10)).map (- ·) := by
        rw [checked_neg]; congr 1; ring
      simp only [Option.bind_eq_bind, Option.some_bind, hmul]
      cases checked (-hi) (-lo) (-result * 10) with
      | none => rfl
      | some r =>
        have hsub : checked lo hi (-r - x) = (checked (-hi) (-lo) (r + x)).map (- ·) := by
          rw [checked_neg]; congr 1; ring
        simp only [Option.map_some', Option.some_bind, hsub]
        cases checked (-hi) (-lo) (r + x) with
        | none => rfl
        | some r' => simpa using accumNegative_eq lo hi (-r') ds

/-- Reading one more digit `x` in front of the digits `xs`. -/
theorem numeral_cons (r : Int) (x : Nat) (xs : List Nat) :
    r * 10 ^ (x :: xs).length + ((Nat.ofDigits 10 (x :: xs).reverse : Nat) : Int) =
      (r * 10 + x) * 10 ^ xs.length + ((Nat.ofDigits 10 xs.reverse : Nat) : Int) := by
  simp only [List.length_cons, List.reverse_cons, Nat.ofDigits_append, Nat.ofDigits_singleton,
    List.length_reverse, pow_succ]
  push_cast
  ring

/-- The positive loop, from an accumulator in range, computes the value of the digits after it and
fails exactly when a character is no digit or the value is above `hi`. -/
theorem accumPositive_eq {lo hi : Int} (hlo : lo ≤ 0) :
    ∀ (result : Int) (ds : List Char), 0 ≤ result → result ≤ hi →
      accumPositive lo hi result ds = (ds.mapM toDigit).bind fun xs =>
        checked lo hi (result * 10 ^ xs.length + ((Nat.ofDigits 10 xs.reverse : Nat) : Int))
  | result, [], h0, hh => by
    rw [accumPositive, List.mapM_nil]
    simp [checked_of_mem (by omega : lo ≤ result) hh]
  | result, c :: ds, h0, hh => by
    simp only [accumPositive, List.mapM_cons]
    cases toDigit c with
    | none => rfl
    | some x =>
      simp only [Option.bind_eq_bind, Option.some_bind, Option.pure_def, Option.bind_assoc]
      by_cases h1 : result * 10 + x ≤ hi
      · rw [checked_of_mem (by omega) (by omega : result * 10 ≤ hi), Option.some_bind,
          checked_of_mem (by omega) h1, Option.some_bind,
          accumPositive_eq hlo _ ds (by omega) h1]
        simp only [numeral_cons]
      · have hL : ((checked lo hi (result * 10)).bind fun r =>
            (checked lo hi (r + x)).bind fun r => accumPositive lo hi r ds) = none := by
          by_cases h2 : result * 10 ≤ hi
          · rw [checked_of_mem (by omega) h2, Option.some_bind, checked_of_gt (by omega)]; rfl
          · rw [checked_of_gt (by omega)]; rfl
        rw [hL]
        cases ds.mapM toDigit with
        | none => rfl
        | some xs =>
          have hp : (1 : Int) ≤ 10 ^ xs.length := by exact_mod_cast Nat.one_le_pow _ _ (by norm_num)
          have hv : (0 : Int) ≤ ((Nat.ofDigits 10 xs.reverse : Nat) : Int) := Int.natCast_nonneg _
          have := mul_le_mul_of_nonneg_left hp (by omega : (0 : Int) ≤ result * 10 + x)
          rw [Option.some_bind, numeral_cons, checked_of_gt (by linarith)]

/-- The positive loop from `0` over a nonempty numeral: its value, when at most `hi`. -/
theorem accumPositive_zero {lo hi : Int} (hlo : lo ≤ 0) (hhi : 0 ≤ hi) {ds : List Char}
    (hds : ds ≠ []) : accumPositive lo hi 0 ds = ((numeralValue ds).map Int.ofNat).bind (checked lo hi) := by
  rw [accumPositive_eq hlo 0 ds le_rfl hhi, numeralValue, if_neg hds]
  cases ds.mapM toDigit <;> simp

/-- The negative loop from `0` over a nonempty numeral: minus its value, when at least `lo`. -/
theorem accumNegative_zero {lo hi : Int} (hlo : lo ≤ 0) (hhi : 0 ≤ hi) {ds : List Char}
    (hds : ds ≠ []) :
    accumNegative lo hi 0 ds = ((numeralValue ds).map fun n => -(n : Int)).bind (checked lo hi) := by
  rw [accumNegative_eq, neg_zero, accumPositive_zero (by omega) (by omega) hds]
  cases numeralValue ds with
  | none => rfl
  | some n => exact checked_neg lo hi n

theorem toDigit_minus : toDigit '-' = none := by decide

/-- **`from_str_radix` accepts exactly the literals whose value is in range**: the checks of its
loop reject exactly the out-of-range values, whatever the intermediate results. -/
theorem fromStrRadix_eq {lo hi : Int} (hlo : lo ≤ 0) (hhi : 0 ≤ hi) (src : String) :
    fromStrRadix lo hi src = (literalValue (decide (lo < 0)) src).bind (checked lo hi) := by
  unfold fromStrRadix literalValue
  cases src.toList with
  | nil => rfl
  | cons c rest =>
    by_cases hplus : c = '+'
    · by_cases hr : rest = []
      · simp [hplus, hr, numeralValue]
      · simp [hplus, hr, accumPositive_zero hlo hhi hr]
    by_cases hminus : c = '-'
    · by_cases hs : lo < 0
      · by_cases hr : rest = []
        · simp [hminus, hs, hr, numeralValue]
        · simp [hminus, hs, hr, accumNegative_zero hlo hhi hr]
      · simp [hminus, hs, accumPositive, toDigit_minus]
    · simp [hplus, hminus, accumPositive_zero hlo hhi (List.cons_ne_nil c rest)]

theorem bind_checked (lo hi : Int) (x : Option Int) :
    x.bind (checked lo hi) = x.filter fun z => lo ≤ z ∧ z ≤ hi := by
  cases x with
  | none => rfl
  | some z => by_cases h : lo ≤ z ∧ z ≤ hi <;> simp [checked, Option.filter, h]

theorem literalValue_nonneg {s : String} {z : Int} (h : literalValue false s = some z) : 0 ≤ z := by
  simp only [literalValue, Bool.false_eq_true, if_false] at h
  split at h
  · cases h
  · split_ifs at h
    all_goals
      obtain ⟨n, -, rfl⟩ := Option.map_eq_some'.mp h
      exact Int.natCast_nonneg n

/-- `str::parse::<u128>()`: the unsigned literals up to `u128::MAX`. -/
theorem parseU128_eq (s : String) :
    parseU128 s = (literalValue false s).filter fun z => z ≤ u128Max := by
  rw [parseU128, fromStrRadix_eq le_rfl (by decide), bind_checked,
    show decide ((0 : Int) < 0) = false by decide]
  cases h : literalValue false s with
  | none => rfl
  | some z => simp [Option.filter, literalValue_nonneg h]

/-- `str::parse::<i128>()`: the signed literals from `i128::MIN` to `i128::MAX`. -/
theorem parseI128_eq (s : String) :
    parseI128 s = (literalValue true s).filter fun z => i128Min ≤ z ∧ z ≤ i128Max := by
  rw [parseI128, fromStrRadix_eq (by decide) (by decide), bind_checked]
  rfl

section TryFrom

variable (parseF64 : String → Option UInt64)

/-- **`try_from` for `UInt`, `Int` and `Bool` of every width**: it never panics, returns `Unsigned`
of every unsigned literal up to `u128::MAX` and `Signed` of every signed literal from `i128::MIN`
to `i128::MAX`, whatever the declared width, `Bool` of exactly `true` and `false`, and `None`
otherwise. -/
theorem tryFrom_spec (s : String) :
    (∀ u, Value.tryFrom parseF64 s (.uint u) = some
      (((literalValue false s).filter fun z => z ≤ u128Max).map
        fun z => .unsigned (BitVec.ofInt 128 z))) ∧
    (∀ i, Value.tryFrom parseF64 s (.int i) = some
      (((literalValue true s).filter fun z => i128Min ≤ z ∧ z ≤ i128Max).map
        fun z => .signed (BitVec.ofInt 128 z))) ∧
    Value.tryFrom parseF64 s .bool = some
      (if s = "true" then some (.bool true) else if s = "false" then some (.bool false) else none) := by
  refine ⟨fun u => ?_, fun i => ?_, ?_⟩
  · rw [Value.tryFrom, parseU128_eq]
  · rw [Value.tryFrom, parseI128_eq]
  · rw [Value.tryFrom, parseBool]
    split_ifs <;> rfl

end TryFrom

/-- `"256"` is an `Unsigned` value for `UInt8`, and `"-129"` a `Signed` value for `Int8`: the
declared width is not checked. (The `f64` parser plays no part; here it rejects everything.) -/
theorem tryFrom_ignores_width :
    Value.tryFrom (fun _ => none) "256" (.uint .u8) = some (some (.unsigned 256)) ∧
      Value.tryFrom (fun _ => none) "-129" (.int .i8) =
        some (some (.signed (BitVec.ofInt 128 (-129)))) :=
  ⟨rfl, rfl⟩

end RTLola.Storage
