/-
# Inlining parameters

Placeholders that cannot travel as bound parameters are replaced by the values of one execution:

* `x IN @list` becomes `x IN (v1, v2, …)`, and `false` when the collection is empty or null;
* on score-ordered selects, `LIMIT @n` and `OFFSET @m` become constants.

Everything else is rebuilt unchanged, so inlining what has been inlined gives the same tree.
-/
import DocQuery.Parameters
import DocQuery.Query

namespace DocQuery

/-- The elements that a deferred collection is bound to; null stands for none. -/
def CollectionParameter.elements (c : CollectionParameter) (p : Parameters) :
    Except QueryError (List Scalar) := do
  match ← p.get c.name with
  | .collection values => .ok values
  | .scalar .null => .ok []
  | .scalar _ => .error (.unreachable (.scalarForCollection c.name))

/-- The constant that stands for an element; null takes the declared element type. -/
def CollectionParameter.constant (c : CollectionParameter) (value : Scalar) : Expr :=
  .constant value (value.dataType?.getD c.elementType) c.typeMapping

namespace Expr

/-- What an `IN` over no elements becomes. -/
def falseConstant : Expr := withDefaultMapping (.constant (.bool false) .boolean none)

mutual

def inline (p : Parameters) : Expr → Except QueryError Expr
  | .column source path type mapping => .ok (.column source path type mapping)
  | .constant value type mapping => .ok (.constant value type mapping)
  | .parameter name type mapping => .ok (.parameter name type mapping)
  | .binary op left right mapping => do
    let left ← left.inline p
    let right ← right.inline p
    return .binary op left right mapping
  | .unary op operand mapping => do return .unary op (← operand.inline p) mapping
  | .function name args isScoring type mapping => do
    return .function name (← inlineList p args) isScoring type mapping
  | .inList item values => do
    let item ← item.inline p
    return .inList item (← inlineList p values)
  | .inParameter item values => do
    match ← values.elements p with
    | [] => return falseConstant
    | elements => return .inList (← item.inline p) (elements.map values.constant)
  | .inSubquery _ _ => .error (.notSupported .subquery)

def inlineList (p : Parameters) : List Expr → Except QueryError (List Expr)
  | [] => .ok []
  | e :: rest => do
    let first ← e.inline p
    return first :: (← inlineList p rest)

end

/-- Inlines a limit or offset, which has to be a constant when the rows are ranked. -/
def inlineBound (p : Parameters) (scoreOrdered : Bool) (e : Expr) : Except QueryError Expr :=
  match scoreOrdered, e with
  | true, .parameter name type mapping => do return .constant (← p.scalar name) type mapping
  | _, e => e.inline p

end Expr

/-- Applies a fallible step to a value that may be absent. -/
def inlineOption (f : Expr → Except QueryError Expr) : Option Expr → Except QueryError (Option Expr)
  | none => .ok none
  | some e => (f e).map some

def ProjectionItem.inline (p : Parameters) :
    ProjectionItem Expr → Except QueryError (ProjectionItem Expr)
  | .scalar e => (e.inline p).map .scalar
  | .entity entityType path => .ok (.entity entityType path)

/-- Inlines every deferred placeholder of a select. -/
def SelectOf.inline (s : Select) (p : Parameters) : Except QueryError Select := do
  let projection ← s.projection.mapM fun pr => (pr.item.inline p).map (Projection.mk · pr.name)
  let predicate ← inlineOption (Expr.inline p) s.predicate
  let orderings ← s.orderings.mapM fun o => (o.expr.inline p).map (OrderingTerm.mk · o.ascending)
  let limit ← inlineOption (Expr.inlineBound p s.isScoreOrdered) s.limit
  let offset ← inlineOption (Expr.inlineBound p s.isScoreOrdered) s.offset
  return { s with projection, predicate, orderings, limit, offset }

end DocQuery
