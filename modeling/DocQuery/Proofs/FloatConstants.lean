/-
# Comparing with a float constant

A constant is compared as the JSON value it becomes, and JSON has no infinities.

* A FINITE float becomes a number, and every comparison with it goes by doubles, so a number that
  is a double compares with it as the two stand on the line (`compareOrdered_double`).  Integers
  stand for themselves on that line (`Number.place`); one that is no double has been rounded when
  it is compared, and of it nothing is said.
* An INFINITE one becomes null, and comparing with null is undefined: no number is found below
  infinity, although the line puts all of them there (`infinite_constants_undefined`).  NaN
  becomes null as well.

`float_constants_compare` says both for all six comparisons, by what each says of two places
(`BinaryOp.holdsOf`).
-/
import DocQuery.Proofs.ComparisonOutcomes
import DocQuery.Proofs.HeldValues

namespace DocQuery

/-- What a comparison says of two numbers in this order. -/
def BinaryOp.holdsOf (op : BinaryOp) (order : Ordering) : Bool :=
  match op with
  | .equal => order == .eq
  | .notEqual => order != .eq
  | .lessThan => order == .lt
  | .lessThanOrEqual => order != .gt
  | .greaterThan => order == .gt
  | .greaterThanOrEqual => order != .lt
  | _ => false

namespace Number

/-- The place of a number on the line, where integers stand for themselves and not for the nearest
double. -/
def place : Number → ℤ ×ₗ ℤ
  | .integer n => toLex (0, n * unitsPerOne)
  | .double v | .single v => toLex (0, v.value)

/-- A number that a double represents exactly. -/
def IsDouble (x : Number) : Prop := x.toDouble.place = x.place

variable {x : Number}

theorem isDouble_of_holdsInt {n : Int} (small : n.natAbs ≤ 2 ^ 1023) (held : Double.HoldsInt n) :
    (integer n).IsDouble := by
  obtain ⟨v, double, hv⟩ := Double.isInt_ofInt small
  rw [Double.holdsInt_iff.1 held] at hv
  rw [IsDouble, toDouble, double, Double.place, Finite.isInt_iff.1 hv]
  rfl

end Number

variable {x : Number} {v : Finite} {op : BinaryOp}

/-- Against a double the order goes by doubles. -/
theorem compare_double (x : Number) (v : Finite) : (Json.number x).compare (.number (.double v)) =
    Ord.compare x.toDouble.place (Double.finite v).place := by
  have float : (Scalar.ofJson (.number (.double v))).dataType? ≠ some .int64 := nofun
  rw [Json.compare, Scalar.compare_numbers (Scalar.asDouble?_ofJson (.number x))
    (Scalar.asDouble?_ofJson (.number (.double v))), Scalar.compareExactly_of_ne (.inr float),
    Ordering.then_eq]
  rfl

theorem equal_double (x : Number) (v : Finite) : (Json.number x).equal (.number (.double v)) =
    (Ord.compare x.toDouble.place (Double.finite v).place == .eq) := by
  have equal : (Json.number x).equal (.number (.double v)) = x.toDouble.equal (.finite v) := rfl
  rw [equal, Bool.eq_iff_iff, Double.equal_iff_place x.isNaN_toDouble rfl, beq_iff_eq,
    compare_eq_iff_eq]

/-- **Numbers that are doubles compare with a double as they stand on the line.** -/
theorem compareOrdered_double (exact : x.IsDouble) :
    compareOrdered op (.number x) (.number (.double v)) =
      op.holdsOf (Ord.compare x.place (Double.finite v).place) := by
  rw [← exact]
  cases op <;> simp only [compareOrdered, BinaryOp.holdsOf, compare_double, equal_double]
  rfl

/-- **Comparing with a float constant.**  With a finite constant, of either width, the six
comparisons of a number that is a double are what the line says of the two.  With an infinite one,
or NaN, all of them are undefined, which a predicate treats as not true. -/
theorem float_constants_compare {env : Environment} {l : Expr} {s : Scalar} {d : Double}
    (hl : l.eval env = .ok (.number x)) (exact : x.IsDouble)
    (float : s = .float32 d ∨ s = .float64 d) (comparison : op.isComparison = true)
    (type : DataType) (mapping mapping' : Option TypeMapping) :
    (∀ v, d = .finite v →
      (Expr.binary op l (.constant s type mapping) mapping').eval env =
        .ok (.bool (op.holdsOf (Ord.compare x.place d.place)))) ∧
    (d.finite? = none →
      (Expr.binary op l (.constant s type mapping) mapping').eval env = .ok .null) := by
  have value : (Expr.constant s type mapping).eval env = .ok (.ofDouble d) := by
    rw [Expr.eval]
    rcases float with rfl | rfl <;> rfl
  constructor
  · rintro v rfl
    rw [← compareOrdered_double exact]
    exact eval_comparison hl value rfl comparison mapping'
  · intro infinite
    have null : Json.ofDouble d = .null := by
      rw [Json.ofDouble, Number.ofDouble?, infinite]
      rfl
    rw [Expr.eval, hl, value, null]
    show applyBinary op (.number x) (.ok .null) = _
    rw [applyBinary_comparison comparison]
    rfl

/-- The integer `2^53` is at most its double, and undefined against infinity. -/
theorem float_constants_compare_closeNumbers :
    (closeNumber "even").eval closeNumbers = .ok (.number (.integer 9007199254740992)) ∧
    (Number.integer 9007199254740992).IsDouble ∧
    (Expr.binary .lessThanOrEqual (closeNumber "even") (.constant Scalar.sharedDouble .float64 none)
      none).eval closeNumbers = .ok (.bool true) ∧
    (Expr.binary .equal (closeNumber "even") (.constant (.float32 (.infinite true)) .float32 none)
      none).eval closeNumbers = .ok .null := by
  have read : (closeNumber "even").eval closeNumbers =
      .ok (.number (.integer 9007199254740992)) := rfl
  have exact : (Number.integer 9007199254740992).IsDouble :=
    Number.isDouble_of_holdsInt (Nat.le_trans (Nat.le_of_lt (by decide : _ < 2 ^ 54))
      (Nat.pow_le_pow_right Nat.two_pos (by decide))) ⟨1, 53, by decide, Nat.zero_le _, rfl⟩
  have finite := (float_constants_compare read exact (.inr (Eq.refl Scalar.sharedDouble))
    (rfl : BinaryOp.lessThanOrEqual.isComparison = true) .float64 none none).1 _ rfl
  have infinite := (float_constants_compare read exact
    (.inl (Eq.refl (Scalar.float32 (.infinite true))))
    (rfl : BinaryOp.equal.isComparison = true) .float32 none none).2 rfl
  have holds : BinaryOp.lessThanOrEqual.holdsOf (Ord.compare
      (Number.integer 9007199254740992).place
      (Double.finite ⟨false, 9007199254740992 * unitsPerOne⟩).place) = true := by decide +kernel
  rw [holds] at finite
  exact ⟨read, exact, finite, infinite⟩

/-- An integer lies between the infinities, and the comparisons that say so are undefined. -/
theorem infinite_constants_undefined :
    Ord.compare (Number.integer 9007199254740992).place (Double.infinite false).place = .lt ∧
    Ord.compare (Number.integer 9007199254740992).place (Double.infinite true).place = .gt ∧
    (Expr.binary .lessThan (closeNumber "even") (.constant (.float64 (.infinite false)) .float64 none)
      none).eval closeNumbers = .ok .null ∧
    (Expr.binary .greaterThan (closeNumber "even") (.constant (.float64 (.infinite true)) .float64
      none) none).eval closeNumbers = .ok .null := by
  have read : (closeNumber "even").eval closeNumbers =
      .ok (.number (.integer 9007199254740992)) := rfl
  refine ⟨by decide +kernel, by decide +kernel, ?_, ?_⟩
  · rw [Expr.eval, read]
    rfl
  · rw [Expr.eval, read]
    rfl

end DocQuery
