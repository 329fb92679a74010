/-
# Arithmetic on integers

Integers are computed with as doubles: both operands are rounded, the result is rounded, and cut
to 64 bits it is an integer again (`applyArithmetic_integers`).  So there IS an integer for every
sum, difference and product and for every remainder but that of a division by zero, and it need
not be the exact one.

* For all operands: the integer that is given is the exact result of the rounded operands, rounded
  and cut, and no double of 64 bits is closer to that result (`resultInt64_closest`).
* For operands that are doubles: it is the exact result when that is a double of 64 bits, and else
  only when cutting happens to give it back, at `2^63 - 1` (`resultInt64_eq_iff`).  All integers
  of 53 bits are doubles.
* The minus is the difference from zero, and is as exact as that.

`integers_exact_iff` says this for expressions.  Beyond 53 bits `2^53 + 1` plus nothing is `2^53`,
and one more than `2^63 - 1` is the same again (`integers_rounded_and_cut`).  Division is left
out; it gives no integer.
-/
import DocQuery.Proofs.ComparisonOutcomes
import DocQuery.Proofs.HeldValues

namespace DocQuery

open Double (HoldsInt nearestInt)

/-- The operations that give an integer for two integers. -/
inductive IntegerOp where
  | add
  | subtract
  | multiply
  | modulo

namespace IntegerOp

def toBinary : IntegerOp → BinaryOp
  | .add => .add
  | .subtract => .subtract
  | .multiply => .multiply
  | .modulo => .modulo

/-- The exact result; a remainder has the sign of the dividend. -/
def exact : IntegerOp → Int → Int → Int
  | .add, x, y => x + y
  | .subtract, x, y => x - y
  | .multiply, x, y => x * y
  | .modulo, x, y => x.tmod y

end IntegerOp

/-- What becomes of an integer that is a result: the nearest one that is a double, cut to 64 bits. -/
def resultInt64 (z : Int) : Int := clampInt64 (nearestInt z)

/-- The results that are given as they are: the doubles of 64 bits, and the greatest integer, since
larger ones are cut to it. -/
def GivenExactly (z : Int) : Prop :=
  HoldsInt z ∧ fitsInt64 z = true ∨ z = 0x7fffffffffffffff

variable {op : IntegerOp} {x y z m n : Int} {a b : Double}

/-! ## 1. Results -/

theorem resultInt64_eq_iff : resultInt64 z = z ↔ GivenExactly z := by
  have fits : fitsInt64 z = true ↔ -0x8000000000000000 ≤ z ∧ z < 0x8000000000000000 := by
    simp only [fitsInt64, Bool.and_eq_true, decide_eq_true_eq]
  have least : nearestInt (-0x8000000000000000) = -0x8000000000000000 := by decide +kernel
  have greatest : nearestInt 0x7fffffffffffffff = 0x8000000000000000 := by decide +kernel
  rw [GivenExactly, Double.holdsInt_iff, fits, resultInt64, clampInt64]
  constructor
  · intro same
    by_cases cut : z = -0x8000000000000000
    · rw [cut]
      exact .inl ⟨least, by decide⟩
    · omega
  · rintro (⟨held, range⟩ | rfl)
    · rw [held]
      omega
    · rw [greatest]
      decide

/-- **No double of 64 bits is closer than the integer that is given.** -/
theorem resultInt64_closest (h : HoldsInt m) (fits : fitsInt64 m = true) (z : Int) :
    (resultInt64 z - z).natAbs ≤ (m - z).natAbs := by
  have closest := Double.nearestInt_closest z h
  simp only [fitsInt64, Bool.and_eq_true, decide_eq_true_eq] at fits
  rw [resultInt64, clampInt64]
  omega

/-- An operation on doubles that are integers. -/
theorem arithmetic?_isInt (ha : a.IsInt m) (hb : b.IsInt n) (hm : HoldsInt m) (hn : HoldsInt n)
    (smallM : m.natAbs ≤ 2 ^ 63) (smallN : n.natAbs ≤ 2 ^ 63) (defined : op = .modulo → n ≠ 0) :
    ∃ r, arithmetic? op.toBinary a b = some r ∧ r.IsInt (nearestInt (op.exact m n)) := by
  have far : ∀ k : Nat, k ≤ 2 ^ 126 → k ≤ 2 ^ 1023 := fun k h =>
    Nat.le_trans h (Nat.pow_le_pow_right Nat.two_pos (by decide))
  cases op with
  | add => exact ⟨_, rfl, ha.add hb (far _ (by omega))⟩
  | subtract => exact ⟨_, rfl, ha.sub hb (far _ (by omega))⟩
  | multiply =>
    refine ⟨_, rfl, ha.mul hb (far _ ?_)⟩
    rw [Int.natAbs_mul]
    calc m.natAbs * n.natAbs ≤ 2 ^ 63 * 2 ^ 63 := Nat.mul_le_mul smallM smallN
      _ = 2 ^ 126 := (Nat.pow_add ..).symm
  | modulo =>
    have divisor : ¬ b.equal .zero = true := mt hb.equal_zero_iff.1 (defined rfl)
    refine ⟨a.mod b, if_neg divisor, ?_⟩
    rw [IntegerOp.exact, Double.holdsInt_iff.1 (hm.tmod hn)]
    exact ha.mod hb (defined rfl)

/-- A whole result of integers is cut to 64 bits. -/
theorem arithmeticResult_isInt (h : a.IsInt z) :
    arithmeticResult op.toBinary true a = .ofInt (clampInt64 z) := by
  obtain ⟨v, rfl, hv⟩ := h
  have whole : op.toBinary ≠ .divide := by cases op <;> decide
  simp only [arithmeticResult, hv.isWhole, hv.truncate, whole, ne_eq, not_false_eq_true, decide_true,
    Bool.and_self, if_true]

/-- What an operation makes of two integers. -/
theorem applyArithmetic_integers (fitsX : fitsInt64 x = true) (fitsY : fitsInt64 y = true)
    (defined : op = .modulo → y ≠ 0) : applyArithmetic op.toBinary (.ofInt x) (.ofInt y) =
      .ofInt (resultInt64 (op.exact (nearestInt x) (nearestInt y))) := by
  have small : ∀ {k : Int}, fitsInt64 k = true → k.natAbs ≤ 2 ^ 63 := by
    intro k fits
    simp only [fitsInt64, Bool.and_eq_true, decide_eq_true_eq] at fits
    omega
  have isInt : ∀ {k : Int}, fitsInt64 k = true → (Double.ofInt k).IsInt (nearestInt k) :=
    fun fits => Double.isInt_ofInt
      (Nat.le_trans (small fits) (Nat.pow_le_pow_right Nat.two_pos (by decide)))
  obtain ⟨r, computed, hr⟩ := arithmetic?_isInt (isInt fitsX) (isInt fitsY)
    (Double.holdsInt_nearestInt x) (Double.holdsInt_nearestInt y)
    (Double.natAbs_nearestInt_le (small fitsX)) (Double.natAbs_nearestInt_le (small fitsY))
    fun remainder => Double.nearestInt_ne_zero (defined remainder)
  have doubles : ∀ k : Int, (Json.ofInt k).asDouble? = some (.ofInt k) := fun _ => rfl
  have integers : ∀ {k : Int}, fitsInt64 k = true → (Json.ofInt k).asInt64? = some k :=
    fun fits => if_pos fits
  simp only [applyArithmetic, doubles, computed, integers fitsX, integers fitsY, Option.isSome_some,
    Bool.and_self]
  exact arithmeticResult_isInt hr

/-- The minus of an integer is its difference from zero. -/
theorem applyUnary_negate_integer (fits : fitsInt64 x = true) :
    applyUnary .negate (.ofInt x) = .ofInt (resultInt64 (-nearestInt x)) := by
  have difference : applyArithmetic IntegerOp.subtract.toBinary (.ofInt 0) (.ofInt x) = _ :=
    applyArithmetic_integers rfl fits nofun
  have zero : nearestInt 0 = 0 := rfl
  rw [IntegerOp.exact, zero, Int.zero_sub] at difference
  exact difference

/-- There is no remainder of a division by zero. -/
theorem applyArithmetic_modulo_zero (x : Int) :
    applyArithmetic .modulo (.ofInt x) (.ofInt 0) = .null := by
  have zero : (Double.ofInt 0).equal .zero = true :=
    (Double.isInt_ofInt (Nat.zero_le _)).equal_zero_iff.2 rfl
  have doubles : ∀ k : Int, (Json.ofInt k).asDouble? = some (.ofInt k) := fun _ => rfl
  simp only [applyArithmetic, doubles, arithmetic?, zero, if_true]

/-! ## 2. Expressions -/

theorem eval_arithmetic {env : Environment} {l r : Expr} {a b : Json} (hl : l.eval env = .ok a)
    (hr : r.eval env = .ok b) (op : IntegerOp) (mapping : Option TypeMapping) :
    (Expr.binary op.toBinary l r mapping).eval env = .ok (applyArithmetic op.toBinary a b) := by
  rw [Expr.eval, hl, hr]
  cases op <;> rfl

/-- **Arithmetic on integers.**  Of two integers every operation gives an integer, remainders of a
division by zero aside, and so does the minus: the operands are rounded to doubles, the exact result
of these is rounded and cut to 64 bits, and no double of 64 bits is closer to it than what is given.
Of operands that are doubles it is the exact result exactly when that is a double and fits 64 bits,
or is the greatest integer of 64 bits. -/
theorem integers_exact_iff {env : Environment} {l r : Expr} (hl : l.eval env = .ok (.ofInt x))
    (hr : r.eval env = .ok (.ofInt y)) (fitsX : fitsInt64 x = true) (fitsY : fitsInt64 y = true)
    (mapping : Option TypeMapping) :
    (∀ op : IntegerOp, (op = .modulo → y ≠ 0) →
      (Expr.binary op.toBinary l r mapping).eval env =
        .ok (.ofInt (resultInt64 (op.exact (nearestInt x) (nearestInt y)))) ∧
      (HoldsInt x → HoldsInt y →
        ((Expr.binary op.toBinary l r mapping).eval env = .ok (.ofInt (op.exact x y)) ↔
          GivenExactly (op.exact x y)))) ∧
    (y = 0 → (Expr.binary .modulo l r mapping).eval env = .ok .null) ∧
    (Expr.unary .negate l mapping).eval env = .ok (.ofInt (resultInt64 (-nearestInt x))) ∧
    (HoldsInt x → ((Expr.unary .negate l mapping).eval env = .ok (.ofInt (-x)) ↔
      GivenExactly (-x))) ∧
    ∀ m z : Int, HoldsInt m → fitsInt64 m = true →
      (resultInt64 z - z).natAbs ≤ (m - z).natAbs := by
  have given : ∀ {n k : Int},
      (Except.ok (.ofInt n) : Except RunError Json) = .ok (.ofInt k) ↔ n = k := by
    intro n k
    rw [Except.ok.injEq, Json.ofInt, Json.ofInt, Json.number.injEq, Number.integer.injEq]
  have negated : (Expr.unary .negate l mapping).eval env =
      .ok (.ofInt (resultInt64 (-nearestInt x))) := by
    rw [Expr.eval, hl, ← applyUnary_negate_integer fitsX]
    rfl
  refine ⟨fun op defined => ?_, ?_, negated, fun holdsX => ?_,
    fun m z holdsM fitsM => resultInt64_closest holdsM fitsM z⟩
  · have result : (Expr.binary op.toBinary l r mapping).eval env =
        .ok (.ofInt (resultInt64 (op.exact (nearestInt x) (nearestInt y)))) := by
      rw [eval_arithmetic hl hr, applyArithmetic_integers fitsX fitsY defined]
    refine ⟨result, fun holdsX holdsY => ?_⟩
    rw [result, Double.holdsInt_iff.1 holdsX, Double.holdsInt_iff.1 holdsY, given,
      resultInt64_eq_iff]
  · rintro rfl
    rw [← applyArithmetic_modulo_zero x]
    exact eval_arithmetic hl hr .modulo mapping
  · rw [negated, Double.holdsInt_iff.1 holdsX, given, resultInt64_eq_iff]

/-- Integers at the ends of 53 and of 64 bits, as members of one document. -/
def wideIntegers : Environment where
  source := "c"
  document := .object [("even", .ofInt 4611686018427388928), ("most", .ofInt 0x7fffffffffffffff),
    ("none", .ofInt 0), ("odd", .ofInt 9007199254740993), ("one", .ofInt 1), ("two", .ofInt 2)]
  parameters := .empty

/-- A member of the document of wide integers. -/
def wideInteger (name : String) : Expr := .column "c" [name] .int64 none

/-- From an integer of 63 bits that is a double zero is subtracted exactly, and by zero it leaves no
remainder. -/
theorem integers_exact_iff_wideIntegers :
    (wideInteger "even").eval wideIntegers = .ok (.ofInt 4611686018427388928) ∧
    (wideInteger "none").eval wideIntegers = .ok (.ofInt 0) ∧
    HoldsInt 4611686018427388928 ∧ HoldsInt 0 ∧
    (Expr.binary .subtract (wideInteger "even") (wideInteger "none") none).eval wideIntegers =
      .ok (.ofInt 4611686018427388928) ∧
    (Expr.binary .modulo (wideInteger "even") (wideInteger "none") none).eval wideIntegers =
      .ok .null := by
  have left : (wideInteger "even").eval wideIntegers = .ok (.ofInt 4611686018427388928) := rfl
  have right : (wideInteger "none").eval wideIntegers = .ok (.ofInt 0) := rfl
  have even : HoldsInt 4611686018427388928 :=
    ⟨4503599627370497, 10, by decide, Nat.zero_le _, rfl⟩
  have zero : HoldsInt 0 := Double.holdsInt_of_lt (by decide)
  obtain ⟨operations, remainder, -, -⟩ := integers_exact_iff left right rfl rfl none
  exact ⟨left, right, even, zero, ((operations .subtract nofun).2 even zero).2 (.inl ⟨even, rfl⟩),
    remainder rfl⟩

/-- Integers are given that are not the exact results, though these fit 64 bits: `2^53 + 1` is rounded
before anything is done with it.  One more than the greatest integer does not fit, and the greatest
is given. -/
theorem integers_rounded_and_cut :
    (Expr.binary .add (wideInteger "odd") (wideInteger "none") none).eval wideIntegers =
      .ok (.ofInt 9007199254740992) ∧
    (Expr.binary .subtract (wideInteger "odd") (wideInteger "one") none).eval wideIntegers =
      .ok (.ofInt 9007199254740991) ∧
    (Expr.binary .multiply (wideInteger "odd") (wideInteger "one") none).eval wideIntegers =
      .ok (.ofInt 9007199254740992) ∧
    (Expr.binary .modulo (wideInteger "odd") (wideInteger "two") none).eval wideIntegers =
      .ok (.ofInt 0) ∧
    (Expr.unary .negate (wideInteger "odd") none).eval wideIntegers =
      .ok (.ofInt (-9007199254740992)) ∧
    (Expr.binary .add (wideInteger "most") (wideInteger "one") none).eval wideIntegers =
      .ok (.ofInt 0x7fffffffffffffff) := by
  have outcome : ∀ {l r : Expr} {x y z : Int} (op : IntegerOp), l.eval wideIntegers = .ok (.ofInt x) →
      r.eval wideIntegers = .ok (.ofInt y) → fitsInt64 x = true → fitsInt64 y = true →
      (op = .modulo → y ≠ 0) → resultInt64 (op.exact (nearestInt x) (nearestInt y)) = z →
      (Expr.binary op.toBinary l r none).eval wideIntegers = .ok (.ofInt z) := by
    rintro l r x y _ op hl hr fitsX fitsY defined rfl
    rw [eval_arithmetic hl hr, applyArithmetic_integers fitsX fitsY defined]
  have odd : (wideInteger "odd").eval wideIntegers = .ok (.ofInt 9007199254740993) := rfl
  have most : (wideInteger "most").eval wideIntegers = .ok (.ofInt 0x7fffffffffffffff) := rfl
  have one : (wideInteger "one").eval wideIntegers = .ok (.ofInt 1) := rfl
  have two : (wideInteger "two").eval wideIntegers = .ok (.ofInt 2) := rfl
  have none : (wideInteger "none").eval wideIntegers = .ok (.ofInt 0) := rfl
  refine ⟨outcome .add odd none rfl rfl nofun (by decide +kernel),
    outcome .subtract odd one rfl rfl nofun (by decide +kernel),
    outcome .multiply odd one rfl rfl nofun (by decide +kernel),
    outcome .modulo odd two rfl rfl (fun _ => by decide) (by decide +kernel), ?_,
    outcome .add most one rfl rfl nofun (by decide +kernel)⟩
  have rounded : resultInt64 (-nearestInt 9007199254740993) = -9007199254740992 := by decide +kernel
  rw [Expr.eval, odd, ← rounded, ← applyUnary_negate_integer rfl]
  rfl

end DocQuery
