/-
# Joined conditions

The conditions of a list are joined from the left into a tree of `AND` or of `OR`, which does not
evaluate its right operand when the left one decides.  Where each of them has a truth value the
tree has one too, a function of theirs WITHOUT their order (`Expr.eval_join`): the least of them,
or the greatest, with undefined between false and true.

The three shapes of single conditions, memberships and comparisons of a column and tests for null,
have truth values wherever the parameters that they mention are bound (`Expr.IsCondition`).  So no
condition of a joined list can fail where another would have kept it from being evaluated, which
is what an order could be seen by.

Joining commutes with inlining and with the names that are mentioned (`Expr.inline_foldl_join`,
`Expr.mem_mentionedNames_foldl`).
-/
import DocQuery.Definition.Build
import DocQuery.Proofs.CommandParameters
import DocQuery.Proofs.MembershipChains

namespace DocQuery

/-! ## 1. Joined truth values -/

def Json.isFalse : Json → Bool
  | .bool b => !b
  | _ => false

/-- False when one of the outcomes is, else undefined when one of them is, else true. -/
def allOutcomes (outcomes : List Json) : Json :=
  if outcomes.any Json.isFalse then .bool false
  else if outcomes.any Json.isNull then .null
  else .bool true

/-- An operator that takes together truth values, however they are ordered. -/
structure Joins (op : BinaryOp) (total : List Json → Json) : Prop where
  single : ∀ {v : Json}, v.IsTruthValue → total [v] = v
  add : ∀ (outcomes : List Json) {v : Json}, v.IsTruthValue →
    applyBinary op (total outcomes) (.ok v) = .ok (total (outcomes ++ [v]))
  isTruthValue : ∀ outcomes, (total outcomes).IsTruthValue
  perm : ∀ {outcomes others : List Json}, outcomes.Perm others → total outcomes = total others

theorem joins_or : Joins .or anyOutcome where
  single := anyOutcome_singleton
  add := applyBinary_or_anyOutcome
  isTruthValue := anyOutcome_isTruthValue
  perm h := by rw [anyOutcome, anyOutcome, h.any_eq, h.any_eq]

theorem joins_and : Joins .and allOutcomes where
  single hv := by
    cases hv with
    | undefined => rfl
    | bool b => cases b <;> rfl
  add outcomes v hv := by
    simp only [allOutcomes, List.any_append, List.any_cons, List.any_nil, Bool.or_false]
    cases hv with
    | undefined =>
      cases outcomes.any Json.isFalse
      · cases outcomes.any Json.isNull <;> rfl
      · rfl
    | bool b =>
      cases outcomes.any Json.isFalse
      · cases outcomes.any Json.isNull <;> cases b <;> rfl
      · rfl
  isTruthValue outcomes := by
    unfold allOutcomes
    split
    · exact .bool _
    · split
      · exact .undefined
      · exact .bool _
  perm h := by rw [allOutcomes, allOutcomes, h.any_eq, h.any_eq]

/-! ## 2. Conditions -/

/-- Columns and the parameters of these names have values. -/
def Environment.Serves (env : Environment) (names : List String) : Prop :=
  env.source = "c" ∧ ∀ name ∈ names, ∃ v, env.parameter name = .ok v

namespace Expr

theorem mem_mentionedNamesOfList {name : String} {es : List Expr} :
    name ∈ mentionedNamesOfList es ↔ ∃ e ∈ es, name ∈ e.mentionedNames := by
  induction es with
  | nil => simp [mentionedNamesOfList]
  | cons e es ih => simp [mentionedNamesOfList, ih]

/-- The value of an expression that has one. -/
def outcome (env : Environment) (e : Expr) : Json := (e.eval env).toOption.getD .null

/-- A truth value wherever the parameters have values. -/
def IsCondition (e : Expr) : Prop :=
  ∀ env : Environment, env.Serves e.mentionedNames → ∃ v, v.IsTruthValue ∧ e.eval env = .ok v

variable {env : Environment} {e : Expr} {op : BinaryOp} {total : List Json → Json}

theorem outcome_of_eval {v : Json} (h : e.eval env = .ok v) : e.outcome env = v := by
  rw [outcome, h]
  rfl

theorem IsCondition.eval_eq (condition : e.IsCondition) (serves : env.Serves e.mentionedNames) :
    e.eval env = .ok (e.outcome env) ∧ (e.outcome env).IsTruthValue := by
  obtain ⟨v, truth, hv⟩ := condition env serves
  rw [outcome_of_eval hv]
  exact ⟨hv, truth⟩

/-- Joined conditions mention what they mention one by one. -/
theorem mem_mentionedNames_foldl {name : String} : ∀ {es : List Expr} {first : Expr},
    name ∈ (es.foldl (fun joined e => .binary op joined e none) first).mentionedNames ↔
      name ∈ first.mentionedNames ∨ name ∈ mentionedNamesOfList es
  | [], first => by simp [mentionedNamesOfList]
  | e :: es, first => by
    rw [List.foldl_cons, mem_mentionedNames_foldl, mentionedNames, mentionedNamesOfList,
      List.mem_append, List.mem_append, or_assoc]

theorem mem_mentionedNames_join {name : String} {es : List Expr}
    (h : joinConditions op es = .ok e) :
    name ∈ e.mentionedNames ↔ name ∈ mentionedNamesOfList es := by
  cases es with
  | nil => cases h
  | cons first rest =>
    rw [← Except.ok.inj h, mem_mentionedNames_foldl, mentionedNamesOfList, List.mem_append]

/-- Every condition adds its outcome to those before it. -/
theorem eval_foldl_join (joins : Joins op total) : ∀ {es : List Expr} {outcomes : List Json}
    {first : Expr}, (∀ e ∈ es, e.eval env = .ok (e.outcome env) ∧ (e.outcome env).IsTruthValue) →
    first.eval env = .ok (total outcomes) →
    (es.foldl (fun joined e => .binary op joined e none) first).eval env =
      .ok (total (outcomes ++ es.map (outcome env)))
  | [], outcomes, first, _, hfirst => by
    rw [List.foldl_nil, List.map_nil, List.append_nil]
    exact hfirst
  | e :: es, outcomes, first, evals, hfirst => by
    obtain ⟨he, truth⟩ := evals e List.mem_cons_self
    have next : (Expr.binary op first e none).eval env =
        .ok (total (outcomes ++ [e.outcome env])) := by
      rw [eval, hfirst, he]
      exact joins.add outcomes truth
    have others := fun x hx => evals x (List.mem_cons_of_mem _ hx)
    rw [List.foldl_cons, eval_foldl_join joins others next, List.append_assoc, List.map_cons]
    rfl

/-- The value of joined conditions. -/
theorem eval_join (joins : Joins op total) {es : List Expr} (h : joinConditions op es = .ok e)
    (conditions : ∀ x ∈ es, x.IsCondition) (serves : env.Serves (mentionedNamesOfList es)) :
    e.eval env = .ok (total (es.map (outcome env))) := by
  have evals : ∀ x ∈ es, x.eval env = .ok (x.outcome env) ∧ (x.outcome env).IsTruthValue :=
    fun x hx => (conditions x hx).eval_eq ⟨serves.1, fun name member =>
      serves.2 name (mem_mentionedNamesOfList.2 ⟨x, hx, member⟩)⟩
  cases es with
  | nil => cases h
  | cons first rest =>
    obtain ⟨hfirst, truth⟩ := evals first List.mem_cons_self
    rw [← joins.single truth] at hfirst
    rw [← Except.ok.inj h, eval_foldl_join joins (fun x hx => evals x (List.mem_cons_of_mem _ hx))
      hfirst]
    rfl

theorem isCondition_join (joins : Joins op total) {es : List Expr}
    (h : joinConditions op es = .ok e) (conditions : ∀ x ∈ es, x.IsCondition) : e.IsCondition := by
  intro env serves
  refine ⟨_, joins.isTruthValue _, eval_join joins h conditions ⟨serves.1, fun name member => ?_⟩⟩
  exact serves.2 name ((mem_mentionedNames_join h).2 member)

theorem isCondition_not (condition : e.IsCondition) : (Expr.unary .not e none).IsCondition := by
  intro env serves
  obtain ⟨v, truth, hv⟩ := condition env serves
  refine ⟨applyUnary .not v, ?_, by rw [eval, hv]; rfl⟩
  cases truth with
  | undefined => exact .undefined
  | bool b => exact .bool _

/-- Joining commutes with inlining. -/
theorem inline_foldl_join {p : Parameters} {x : Expr} : ∀ {es : List Expr} {first : Expr},
    (es.foldl (fun joined e => .binary op joined e none) first).inline p = .ok x ↔
      ∃ first' es', first.inline p = .ok first' ∧ es.mapM (inline p) = .ok es' ∧
        es'.foldl (fun joined e => .binary op joined e none) first' = x
  | [], first => by
    constructor
    · exact fun h => ⟨x, [], h, rfl, rfl⟩
    · rintro ⟨first', es', hfirst, hes, rfl⟩
      rw [mapM_nil_eq_ok.1 hes]
      exact hfirst
  | e :: es, first => by
    rw [List.foldl_cons, inline_foldl_join]
    simp only [inline, bind_eq_ok, pure_eq_ok, mapM_cons_eq_ok]
    constructor
    · rintro ⟨_, es', ⟨first', hfirst, e', he, rfl⟩, hes, rfl⟩
      exact ⟨first', e' :: es', hfirst, ⟨e', es', he, hes, rfl⟩, rfl⟩
    · rintro ⟨first', _, hfirst, ⟨e', es', he, hes, rfl⟩, rfl⟩
      exact ⟨_, es', ⟨first', hfirst, e', he, rfl⟩, hes, rfl⟩

theorem inline_join {p : Parameters} {x : Expr} {es : List Expr}
    (h : joinConditions op es = .ok e) :
    e.inline p = .ok x ↔ ∃ xs, es.mapM (inline p) = .ok xs ∧ joinConditions op xs = .ok x := by
  cases es with
  | nil => cases h
  | cons first rest =>
    rw [← Except.ok.inj h, inline_foldl_join]
    simp only [mapM_cons_eq_ok]
    constructor
    · rintro ⟨first', rest', hfirst, hrest, rfl⟩
      exact ⟨_, ⟨first', rest', hfirst, hrest, rfl⟩, rfl⟩
    · rintro ⟨_, ⟨first', rest', hfirst, hrest, rfl⟩, joined⟩
      exact ⟨first', rest', hfirst, hrest, Except.ok.inj joined⟩

theorem isCondition_inList (c : Column) {values : List Expr}
    (constants : ∀ v ∈ values, ∃ value t m, v = .constant value t m) :
    (Expr.inList c.toExpr values).IsCondition := by
  rintro env ⟨source, -⟩
  have item : c.toExpr.eval env = .ok (env.document.readPath c.path) := by
    rw [Column.toExpr, eval, if_neg (not_not.2 source.symm)]
  have evals : ∀ v ∈ values, ∃ j, v.eval env = .ok j := by
    intro v member
    obtain ⟨value, t, m, rfl⟩ := constants v member
    exact ⟨_, rfl⟩
  obtain ⟨vs, hvs⟩ := evalList_of_forall evals
  exact ⟨_, anyOutcome_isTruthValue _, eval_inList item hvs⟩

theorem isCondition_comparison (c : Column) (hop : op.isComparison = true) {right : Expr}
    (value : ∀ env : Environment, env.Serves right.mentionedNames → ∃ v, right.eval env = .ok v) :
    (Expr.binary op c.toExpr right none).IsCondition := by
  rintro env ⟨source, bound⟩
  have serves : env.Serves right.mentionedNames :=
    ⟨source, fun name member => bound name (List.mem_append_right _ member)⟩
  obtain ⟨v, hv⟩ := value env serves
  refine ⟨_, applyComparison_isTruthValue op (env.document.readPath c.path) v, ?_⟩
  rw [eval, hv, Column.toExpr, eval, if_neg (not_not.2 source.symm)]
  cases op <;> first | rfl | cases hop

theorem isCondition_isNull (c : Column) : (Expr.unary .isNull c.toExpr none).IsCondition := by
  rintro env ⟨source, -⟩
  refine ⟨.bool (env.document.readPath c.path).isNull, .bool _, ?_⟩
  rw [eval, Column.toExpr, eval, if_neg (not_not.2 source.symm)]
  rfl

end Expr

end DocQuery
