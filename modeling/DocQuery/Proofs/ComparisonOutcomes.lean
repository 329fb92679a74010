/-
# Outcomes of comparisons

The six comparisons of two numbers, texts or booleans give booleans that should fit together: one
of `<`, `=` and `>` holds, the other three are made of these, and `<` is `>` the other way round
(`Coherent`).  The orders are taken from `Json.compare` and equality from `Json.equal`, two
functions that were written apart, so the outcomes fit exactly when these two agree
(`coherent_iff`).

* Texts and booleans agree.
* For numbers equality goes by the doubles, and the order by the doubles too BUT for two integers
  of 64 bits, which it compares exactly.  So the two agree for all numbers but for different
  integers with one double (`agree_number_iff`).

Hence the outcomes fit for all values of one kind but for these (`comparisons_coherent_iff`): of
`2^53 + 1` and `2^53` the first is greater, and they are equal (`integers_equal_and_greater`).

Values of two kinds are not compared, and nothing is said of them here.
-/
import DocQuery.Proofs.ScalarOrder

namespace DocQuery

/-- The outcomes of the comparisons of two values fit together with those the other way round. -/
structure Coherent (holds back : BinaryOp → Bool) : Prop where
  /-- Exactly one of the three holds. -/
  one : (holds .lessThan).toNat + (holds .equal).toNat + (holds .greaterThan).toNat = 1
  atMost : holds .lessThanOrEqual = (holds .lessThan || holds .equal)
  atLeast : holds .greaterThanOrEqual = (holds .greaterThan || holds .equal)
  notEqual : holds .notEqual = !holds .equal
  converse : holds .lessThan = back .greaterThan

/-- Different integers of 64 bits with one double. -/
inductive Coincide : Json → Json → Prop where
  | mk {m n : Int} (left : fitsInt64 m = true) (right : fitsInt64 n = true) (different : m ≠ n)
      (double : (Double.ofInt m).equal (.ofInt n) = true) :
      Coincide (.number (.integer m)) (.number (.integer n))

/-! ## 1. Equality and order -/

namespace Scalar

/-- Only integers are read as 64-bit integers. -/
theorem exists_integer {x : Number} (h : (ofJson (.number x)).dataType? = some .int64) :
    ∃ n, x = .integer n ∧ fitsInt64 n = true := by
  cases x with
  | integer n =>
    rw [ofJson] at h
    split at h
    · cases h
    · split at h
      · next wide => exact ⟨n, rfl, wide⟩
      · cases h
  | double x | single x => cases h

theorem compareExactly_self (s : Scalar) : compareExactly s s = .eq := by
  cases s with
  | int64 n => exact compare_eq_iff_eq.2 rfl
  | _ => rfl

end Scalar

namespace Json

theorem compare_swap (a b : Json) : a.compare b = (b.compare a).swap := Scalar.compare_swap ..

end Json

variable {a b : Json}

theorem coherent_iff : Coherent (fun op => compareOrdered op a b) (fun op => compareOrdered op b a) ↔
    (a.equal b = true ↔ a.compare b = .eq) := by
  have swapped := b.compare_swap a
  constructor
  · rintro ⟨one, -, -, -, -⟩
    simp only [compareOrdered] at one
    cases order : a.compare b <;> cases same : a.equal b <;> rw [order, same] at one <;>
      simp at one ⊢
  · intro agree
    cases order : a.compare b <;> cases same : a.equal b <;> rw [order] at swapped <;>
      simp [order, same] at agree <;> constructor <;> simp [compareOrdered, order, same, swapped]

/-- Numbers come equal in the order when their doubles are equal and nothing tells them apart. -/
theorem compare_number_eq_iff (x y : Number) :
    (Json.number x).compare (.number y) = .eq ↔ (Json.number x).equal (.number y) = true ∧
      Scalar.compareExactly (.ofJson (.number x)) (.ofJson (.number y)) = .eq := by
  have equal : (Json.number x).equal (.number y) = x.toDouble.equal y.toDouble := rfl
  rw [Json.compare, Scalar.compare_eq, Ordering.then_eq_eq, equal,
    Scalar.compare_place_of_numbers (Scalar.asDouble?_ofJson (.number x))
      (Scalar.asDouble?_ofJson (.number y)),
    compare_eq_iff_eq, Double.equal_iff_place x.isNaN_toDouble y.isNaN_toDouble]

/-- Integers with one double are told apart when both are too long for 32 bits. -/
theorem compareExactly_ofJson {m n : Int} (left : fitsInt64 m = true) (right : fitsInt64 n = true)
    (double : (Double.ofInt m).equal (.ofInt n) = true) (different : m ≠ n) :
    Scalar.compareExactly (.ofJson (.number (.integer m))) (.ofJson (.number (.integer n))) =
      Ord.compare m n := by
  have small : ∀ {k : Int}, fitsInt32 k = true → k.natAbs < Nat.pow 2 52 := by
    intro k fits
    have : Nat.pow 2 52 = 4503599627370496 := rfl
    simp only [fitsInt32, Bool.and_eq_true, decide_eq_true_eq] at fits
    omega
  have longLeft : ¬ fitsInt32 m = true := fun fits =>
    different (Double.eq_of_ofInt_equal (small fits) double)
  have longRight : ¬ fitsInt32 n = true := fun fits =>
    different (Double.eq_of_ofInt_equal (small fits) (Double.equal_symm double)).symm
  rw [Scalar.ofJson, Scalar.ofJson, if_neg longLeft, if_neg longRight, if_pos left, if_pos right,
    Scalar.compareExactly, Scalar.toInt_ofInt_of_fits64 left, Scalar.toInt_ofInt_of_fits64 right]

/-- Equality and the order of numbers agree but on different integers with one double. -/
theorem agree_number_iff (x y : Number) :
    ((Json.number x).equal (.number y) = true ↔ (Json.number x).compare (.number y) = .eq) ↔
      ¬ Coincide (.number x) (.number y) := by
  rw [compare_number_eq_iff]
  constructor
  · rintro agree ⟨left, right, different, double⟩
    have exactly := (agree.1 double).2
    rw [compareExactly_ofJson left right double different] at exactly
    exact different (compare_eq_iff_eq.1 exactly)
  · intro apart
    refine ⟨fun equal => ⟨equal, ?_⟩, And.left⟩
    by_cases wide : (Scalar.ofJson (.number x)).dataType? = some .int64 ∧
      (Scalar.ofJson (.number y)).dataType? = some .int64
    · obtain ⟨m, rfl, left⟩ := Scalar.exists_integer wide.1
      obtain ⟨n, rfl, right⟩ := Scalar.exists_integer wide.2
      by_cases same : m = n
      · rw [same, Scalar.compareExactly_self]
      · exact absurd ⟨left, right, same, equal⟩ apart
    · exact Scalar.compareExactly_of_ne (not_and_or.1 wide)

/-- **Equality and the order agree but on different integers with one double.** -/
theorem agree_iff (ordered : areOrdered a b = true) :
    (a.equal b = true ↔ a.compare b = .eq) ↔ ¬ Coincide a b := by
  cases a with
  | bool x => cases b with
    | bool y =>
      refine iff_of_true ?_ nofun
      cases x <;> cases y <;> decide
    | _ => cases ordered
  | string x => cases b with
    | string y =>
      refine iff_of_true ?_ nofun
      simp [Json.equal, Json.asDouble?, Json.same, Json.compare, Scalar.ofJson, Scalar.compare]
    | _ => cases ordered
  | number x => cases b with
    | number y => exact agree_number_iff x y
    | _ => cases ordered
  | _ => cases ordered

/-! ## 2. Comparisons of expressions -/

theorem areOrdered_symm (ordered : areOrdered a b = true) : areOrdered b a = true := by
  unfold areOrdered at ordered
  split at ordered
  · rfl
  · rfl
  · rfl
  · cases ordered

theorem isNull_of_areOrdered (ordered : areOrdered a b = true) :
    (a.isNull || b.isNull) = false := by
  unfold areOrdered at ordered
  split at ordered
  · rfl
  · rfl
  · rfl
  · cases ordered

theorem applyBinary_comparison {l : Json} {right : Except RunError Json} : ∀ {op : BinaryOp},
    op.isComparison = true → applyBinary op l right = right.map (applyComparison op l)
  | .equal, _ | .notEqual, _ | .lessThan, _ | .lessThanOrEqual, _ | .greaterThan, _
  | .greaterThanOrEqual, _ => rfl

/-- A comparison of values of one ordered kind gives a boolean. -/
theorem eval_comparison {env : Environment} {l r : Expr} (hl : l.eval env = .ok a)
    (hr : r.eval env = .ok b) (ordered : areOrdered a b = true) {op : BinaryOp}
    (comparison : op.isComparison = true) (mapping : Option TypeMapping) :
    (Expr.binary op l r mapping).eval env = .ok (.bool (compareOrdered op a b)) := by
  have compared : applyComparison op a b = .bool (compareOrdered op a b) := by
    unfold applyComparison
    rw [isNull_of_areOrdered ordered, if_neg Bool.false_ne_true, if_pos ordered]
  rw [Expr.eval, hl, hr]
  show applyBinary op a (.ok b) = _
  rw [applyBinary_comparison comparison, Except.map, compared]

/-- **Comparisons fit together but on different integers with one double.**  Each of the six
comparisons of two values of one ordered kind gives a boolean, either way round.  The twelve
outcomes fit together exactly when the values are not different integers of 64 bits that are rounded
to one double; doubles, and integers of fewer bits, are never in the way. -/
theorem comparisons_coherent_iff {env : Environment} {l r : Expr} (hl : l.eval env = .ok a)
    (hr : r.eval env = .ok b) (ordered : areOrdered a b = true) (mapping : Option TypeMapping) :
    ∃ holds back : BinaryOp → Bool,
      (∀ op, op.isComparison = true →
        (Expr.binary op l r mapping).eval env = .ok (.bool (holds op)) ∧
        (Expr.binary op r l mapping).eval env = .ok (.bool (back op))) ∧
      (Coherent holds back ↔ ¬ Coincide a b) := by
  refine ⟨fun op => compareOrdered op a b, fun op => compareOrdered op b a, ?_, ?_⟩
  · intro op comparison
    exact ⟨eval_comparison hl hr ordered comparison mapping,
      eval_comparison hr hl (areOrdered_symm ordered) comparison mapping⟩
  · rw [coherent_iff, agree_iff ordered]

/-- The integers `2^53 + 1` and `2^53` and the double of both, as members of one document. -/
def closeNumbers : Environment where
  source := "c"
  document := .object [("double", Scalar.sharedDouble.toJson), ("even", Scalar.evenInteger.toJson),
    ("odd", Scalar.oddInteger.toJson)]
  parameters := .empty

/-- A member of the document of close numbers. -/
def closeNumber (name : String) : Expr := .column "c" [name] .object none

/-- An integer and its double compare as equal, and nothing contradicts that: one of the two is no
integer. -/
theorem comparisons_coherent_iff_closeNumbers :
    (closeNumber "odd").eval closeNumbers = .ok Scalar.oddInteger.toJson ∧
    (closeNumber "double").eval closeNumbers = .ok Scalar.sharedDouble.toJson ∧
    areOrdered Scalar.oddInteger.toJson Scalar.sharedDouble.toJson = true ∧
    ∃ holds back : BinaryOp → Bool,
      (Expr.binary .equal (closeNumber "odd") (closeNumber "double") none).eval closeNumbers =
        .ok (.bool (holds .equal)) ∧ Coherent holds back := by
  have left : (closeNumber "odd").eval closeNumbers = .ok Scalar.oddInteger.toJson := rfl
  have right : (closeNumber "double").eval closeNumbers = .ok Scalar.sharedDouble.toJson := rfl
  have ordered : areOrdered Scalar.oddInteger.toJson Scalar.sharedDouble.toJson = true := rfl
  obtain ⟨holds, back, outcomes, coherent⟩ := comparisons_coherent_iff left right ordered none
  exact ⟨left, right, ordered, holds, back, (outcomes .equal rfl).1, coherent.2 nofun⟩

/-- The first of two integers with one double is greater, and they are equal; it is not at most the
second. -/
theorem integers_equal_and_greater :
    (Expr.binary .greaterThan (closeNumber "odd") (closeNumber "even") none).eval closeNumbers =
      .ok (.bool true) ∧
    (Expr.binary .equal (closeNumber "odd") (closeNumber "even") none).eval closeNumbers =
      .ok (.bool true) ∧
    (Expr.binary .lessThanOrEqual (closeNumber "odd") (closeNumber "even") none).eval closeNumbers =
      .ok (.bool false) := by
  have left : (closeNumber "odd").eval closeNumbers = .ok Scalar.oddInteger.toJson := rfl
  have right : (closeNumber "even").eval closeNumbers = .ok Scalar.evenInteger.toJson := rfl
  have outcome : ∀ {op : BinaryOp} {holds : Bool}, op.isComparison = true →
      compareOrdered op Scalar.oddInteger.toJson Scalar.evenInteger.toJson = holds →
      (Expr.binary op (closeNumber "odd") (closeNumber "even") none).eval closeNumbers =
        .ok (.bool holds) :=
    fun comparison h => h ▸ eval_comparison left right rfl comparison none
  exact ⟨outcome rfl (by decide +kernel), outcome rfl (by decide +kernel),
    outcome rfl (by decide +kernel)⟩

end DocQuery
