/-
# `IN` as a chain of equalities

`x IN (a, b, c)` searches its list in one pass and keeps track of undefined comparisons by itself;
`((x = a) OR (x = b)) OR (x = c)` goes through the table of `OR`, which stops at the first true
operand.  Both come to the same value: true when some comparison is true, else undefined when some
comparison is undefined, else false (`anyOutcome`).

* **The search** goes along its list, with what it has met so far.
* **The chain** adds one more outcome with each `OR`, whether or not `OR` evaluates its right
  operand (`applyBinary_or_anyOutcome`); for that the outcomes have to be truth values, which
  those of equalities are.

Evaluation gives an expression its value from the values of its operands, so the one may stand for
the other inside any expression (`Context.eval_fill_congr`), and under a negation an undefined
outcome stays undefined on both sides.  The item and the listed expressions are assumed to have
values.
-/
import DocQuery.Evaluation
import DocQuery.Proofs.Outcome

namespace DocQuery

/-! ## 1. Disjunctions of truth values -/

/-- A value of a predicate: true, false or undefined. -/
inductive Json.IsTruthValue : Json → Prop
  | undefined : IsTruthValue .null
  | bool (b : Bool) : IsTruthValue (.bool b)

theorem applyComparison_isTruthValue (op : BinaryOp) (a b : Json) :
    (applyComparison op a b).IsTruthValue := by
  unfold applyComparison
  split
  · exact .undefined
  · split
    · exact .bool _
    · split
      · exact .bool _
      · exact .bool _
      · exact .undefined

/-- True when one of the outcomes is, else undefined when one of them is, else false. -/
def anyOutcome (outcomes : List Json) : Json :=
  if outcomes.any Json.isTrue then .bool true
  else if outcomes.any Json.isNull then .null
  else .bool false

theorem anyOutcome_isTruthValue (outcomes : List Json) : (anyOutcome outcomes).IsTruthValue := by
  unfold anyOutcome
  split
  · exact .bool _
  · split
    · exact .undefined
    · exact .bool _

theorem anyOutcome_singleton {v : Json} (hv : v.IsTruthValue) : anyOutcome [v] = v := by
  cases hv with
  | undefined => rfl
  | bool b => cases b <;> rfl

theorem membership_eq_anyOutcome (needle : Json) (items : List Json) :
    membership needle items = anyOutcome (items.map (applyComparison .equal needle)) := rfl

/-- `OR` adds one more outcome to those of its left operand, whether or not it evaluates the right
one. -/
theorem applyBinary_or_anyOutcome (outcomes : List Json) {v : Json} (hv : v.IsTruthValue) :
    applyBinary .or (anyOutcome outcomes) (.ok v) = .ok (anyOutcome (outcomes ++ [v])) := by
  simp only [anyOutcome, List.any_append, List.any_cons, List.any_nil, Bool.or_false]
  cases hv with
  | undefined =>
    cases outcomes.any Json.isTrue
    · cases outcomes.any Json.isNull <;> rfl
    · rfl
  | bool b =>
    cases outcomes.any Json.isTrue
    · cases outcomes.any Json.isNull <;> cases b <;> rfl
    · rfl

namespace Expr

/-! ## 2. The chain -/

/-- Joins `item = value` to a chain of equalities. -/
def orEquals (item joined value : Expr) : Expr :=
  .binary .or joined (.binary .equal item value none) none

/-- `((item = e₁) OR (item = e₂)) OR ... OR (item = eₙ)`, and false for no expressions. -/
def equalsAny (item : Expr) : List Expr → Expr
  | [] => .ofScalar (.bool false) none
  | e :: rest => rest.foldl item.orEquals (.binary .equal item e none)

variable {env : Environment} {item : Expr} {needle : Json}

theorem evalList_cons_eq_ok {e : Expr} {rest : List Expr} {vs : List Json} :
    evalList env (e :: rest) = .ok vs ↔
      ∃ v vs', e.eval env = .ok v ∧ evalList env rest = .ok vs' ∧ v :: vs' = vs := by
  simp only [evalList, bind_eq_ok, pure_eq_ok]
  constructor
  · rintro ⟨v, he, vs', hrest, rfl⟩
    exact ⟨v, vs', he, hrest, rfl⟩
  · rintro ⟨v, vs', he, hrest, rfl⟩
    exact ⟨v, he, vs', hrest, rfl⟩

theorem eval_equal (hitem : item.eval env = .ok needle) {e : Expr} {v : Json}
    (he : e.eval env = .ok v) :
    (Expr.binary .equal item e none).eval env = .ok (applyComparison .equal needle v) := by
  rw [eval, hitem, he]
  rfl

/-- Every equality of the chain adds its outcome to those before it. -/
theorem eval_foldl_orEquals (hitem : item.eval env = .ok needle) :
    ∀ {values : List Expr} {vs outcomes : List Json} {joined : Expr},
      evalList env values = .ok vs → joined.eval env = .ok (anyOutcome outcomes) →
      (values.foldl item.orEquals joined).eval env =
        .ok (anyOutcome (outcomes ++ vs.map (applyComparison .equal needle)))
  | [], _, outcomes, joined, hvs, hjoined => by
    cases hvs
    rw [List.foldl_nil, List.map_nil, List.append_nil]
    exact hjoined
  | e :: rest, _, outcomes, joined, hvs, hjoined => by
    -- the chain so far has the outcomes of the values before `e`
    obtain ⟨v, vs, he, hrest, rfl⟩ := evalList_cons_eq_ok.1 hvs
    have hnext : (item.orEquals joined e).eval env =
        .ok (anyOutcome (outcomes ++ [applyComparison .equal needle v])) := by
      rw [orEquals, eval, hjoined, eval_equal hitem he]
      exact applyBinary_or_anyOutcome outcomes (applyComparison_isTruthValue .equal needle v)
    rw [List.foldl_cons, eval_foldl_orEquals hitem hrest hnext, List.append_assoc]
    rfl

theorem eval_equalsAny (hitem : item.eval env = .ok needle) {values : List Expr} {vs : List Json}
    (hvalues : evalList env values = .ok vs) :
    (item.equalsAny values).eval env = .ok (membership needle vs) := by
  cases values with
  | nil =>
    cases hvalues
    rfl
  | cons e rest =>
    obtain ⟨v, vs, he, hrest, rfl⟩ := evalList_cons_eq_ok.1 hvalues
    have hfirst : (Expr.binary .equal item e none).eval env =
        .ok (anyOutcome [applyComparison .equal needle v]) := by
      rw [eval_equal hitem he, anyOutcome_singleton (applyComparison_isTruthValue ..)]
    exact eval_foldl_orEquals hitem hrest hfirst

theorem eval_inList (hitem : item.eval env = .ok needle) {values : List Expr} {vs : List Json}
    (hvalues : evalList env values = .ok vs) :
    (Expr.inList item values).eval env = .ok (membership needle vs) := by
  rw [eval, hitem, hvalues]
  rfl

theorem evalList_of_forall : ∀ {values : List Expr},
    (∀ e ∈ values, ∃ v, e.eval env = .ok v) → ∃ vs, evalList env values = .ok vs
  | [], _ => ⟨[], rfl⟩
  | e :: rest, h => by
    obtain ⟨v, he⟩ := h e List.mem_cons_self
    obtain ⟨vs, hrest⟩ := evalList_of_forall fun x hx => h x (List.mem_cons_of_mem _ hx)
    exact ⟨v :: vs, evalList_cons_eq_ok.2 ⟨v, vs, he, hrest, rfl⟩⟩

/-! ## 3. Enclosing expressions -/

/-- An expression with a hole for one of its subexpressions.  The selects of subqueries have no
holes: they are never evaluated. -/
inductive Context where
  | hole
  | left (op : BinaryOp) (context : Context) (right : Expr) (mapping : Option TypeMapping)
  | right (op : BinaryOp) (left : Expr) (context : Context) (mapping : Option TypeMapping)
  | operand (op : UnaryOp) (context : Context) (mapping : Option TypeMapping)
  | argument (name : String) (before : List Expr) (context : Context) (after : List Expr)
      (isScoring : Bool) (type : DataType) (mapping : Option TypeMapping)
  | listItem (context : Context) (values : List Expr)
  | listValue (item : Expr) (before : List Expr) (context : Context) (after : List Expr)
  | parameterItem (context : Context) (values : CollectionParameter)
  | subqueryItem (context : Context) (values : Select)

namespace Context

/-- The expression with `e` in the hole. -/
def fill (e : Expr) : Context → Expr
  | .hole => e
  | .left op c r mapping => .binary op (c.fill e) r mapping
  | .right op l c mapping => .binary op l (c.fill e) mapping
  | .operand op c mapping => .unary op (c.fill e) mapping
  | .argument name before c after isScoring type mapping =>
    .function name (before ++ c.fill e :: after) isScoring type mapping
  | .listItem c values => .inList (c.fill e) values
  | .listValue item before c after => .inList item (before ++ c.fill e :: after)
  | .parameterItem c values => .inParameter (c.fill e) values
  | .subqueryItem c values => .inSubquery (c.fill e) values

end Context

theorem evalList_append_cons {a b : Expr} (h : a.eval env = b.eval env) (after : List Expr) :
    ∀ before : List Expr,
      evalList env (before ++ a :: after) = evalList env (before ++ b :: after)
  | [] => by rw [List.nil_append, List.nil_append, evalList, evalList, h]
  | e :: rest => by
    rw [List.cons_append, List.cons_append, evalList, evalList, evalList_append_cons h after rest]

/-- Expressions of one value may stand for each other in every expression. -/
theorem Context.eval_fill_congr {a b : Expr} (h : a.eval env = b.eval env) :
    ∀ c : Context, (c.fill a).eval env = (c.fill b).eval env
  | .hole => h
  | .left _ c _ _ | .right _ _ c _ | .operand _ c _ | .listItem c _ | .parameterItem c _
  | .subqueryItem c _ => by
    rw [fill, fill, eval, eval, eval_fill_congr h c]
  | .argument _ _ c _ _ _ _ | .listValue _ _ c _ => by
    rw [fill, fill, eval, eval, evalList_append_cons (eval_fill_congr h c)]

/-! ## 4. `IN` and its chain -/

/-- **Membership is a chain of equalities.**  When the item and the listed expressions have values,
`item IN (e₁, ..., eₙ)` has a truth value, false for an empty list, and wherever it stands, in
expressions of any form and depth, the chain of equalities may stand.  Undefined comparisons are
covered: a null in the list leaves both undefined unless some comparison is true. -/
theorem inList_eq_equalsAny {values : List Expr} (hitem : ∃ v, item.eval env = .ok v)
    (hvalues : ∀ e ∈ values, ∃ v, e.eval env = .ok v) :
    (∃ v, (Expr.inList item values).eval env = .ok v ∧ v.IsTruthValue ∧
      (values = [] → v = .bool false)) ∧
    ∀ c : Context,
      (c.fill (.inList item values)).eval env = (c.fill (item.equalsAny values)).eval env := by
  obtain ⟨needle, hitem⟩ := hitem
  obtain ⟨vs, hvs⟩ := evalList_of_forall hvalues
  have hin := eval_inList hitem hvs
  refine ⟨⟨membership needle vs, hin, ?_, ?_⟩, fun c => c.eval_fill_congr ?_⟩
  · rw [membership_eq_anyOutcome]
    exact anyOutcome_isTruthValue _
  · rintro rfl
    cases hvs
    rfl
  · rw [hin, eval_equalsAny hitem hvs]

/-- A document that is tagged `b`. -/
def taggedDocument : Environment where
  source := "c"
  document := .object [("tag", .string "b")]
  parameters := .empty

def tagColumn : Expr := .column "c" ["tag"] .utf8 none

/-- A null, a number and a text that the document does not have. -/
def otherTags : List Expr :=
  [.ofScalar .null none, .ofScalar (.int32 1) none, .ofScalar (.text "a") none]

theorem exists_eval_otherTags : ∀ e ∈ otherTags, ∃ v, e.eval taggedDocument = .ok v := by
  intro e he
  simp only [otherTags, List.mem_cons, List.not_mem_nil, or_false] at he
  rcases he with rfl | rfl | rfl
  · exact ⟨.null, rfl⟩
  · exact ⟨.ofInt 1, rfl⟩
  · exact ⟨.string "a", rfl⟩

/-- No comparison with the other tags is true and the one with null is undefined, so the search is
undefined, and its negation too; with the tag itself at the end of the list the search is true. -/
theorem inList_eq_equalsAny_otherTags :
    (∀ c : Context, (c.fill (.inList tagColumn otherTags)).eval taggedDocument =
      (c.fill (tagColumn.equalsAny otherTags)).eval taggedDocument) ∧
    (Expr.unary .not (tagColumn.equalsAny otherTags) none).eval taggedDocument = .ok .null ∧
    (tagColumn.equalsAny (otherTags ++ [.ofScalar (.text "b") none])).eval taggedDocument =
      .ok (.bool true) := by
  have item : ∃ v, tagColumn.eval taggedDocument = .ok v := ⟨.string "b", rfl⟩
  exact ⟨(inList_eq_equalsAny item exists_eval_otherTags).2, rfl, rfl⟩

end Expr

end DocQuery
