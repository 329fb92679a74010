/-
# Expressions and selects

Expressions are plain trees; a pass builds a new tree and leaves the old one alone, so that a
cached plan can be shared by every execution that uses it.

A select holds expressions and an expression may hold a select (`x IN (subquery)`), so the parts of
a select are types over an arbitrary type of expressions and `Expr` closes the loop.
-/
import DocQuery.Model
import DocQuery.Scalar

namespace DocQuery

inductive BinaryOp where
  | equal
  | notEqual
  | lessThan
  | lessThanOrEqual
  | greaterThan
  | greaterThanOrEqual
  | and
  | or
  | add
  | subtract
  | multiply
  | divide
  | modulo
deriving DecidableEq

def BinaryOp.isComparison : BinaryOp → Bool
  | .equal | .notEqual | .lessThan | .lessThanOrEqual | .greaterThan | .greaterThanOrEqual => true
  | _ => false

inductive UnaryOp where
  | not
  | negate
  | isNull
  | isNotNull
deriving DecidableEq

/-- A parameter that is bound to the collection an `IN` searches. -/
structure CollectionParameter where
  name : String
  /-- The declared element type, used for null elements. -/
  elementType : DataType
  /-- The mapping given to every inlined element. -/
  typeMapping : Option TypeMapping
deriving DecidableEq

/-! ## 1. The parts of a select -/

structure OrderingTerm (E : Type) where
  expr : E
  ascending : Bool

inductive ProjectionItem (E : Type) where
  | scalar (expr : E)
  /-- The document of an entity, or the sub-object at `path`. -/
  | entity (entityType : String) (path : List String)

structure Projection (E : Type) where
  item : ProjectionItem E
  name : String

structure SelectOf (E : Type) where
  container : String
  /-- The name by which columns refer to a document. -/
  source : String
  projection : List (Projection E)
  predicate : Option E
  orderings : List (OrderingTerm E)
  limit : Option E
  offset : Option E
  distinct : Bool

/-! ## 2. Expressions -/

inductive Expr where
  /-- A path into the source document. -/
  | column (source : String) (path : List String) (type : DataType) (mapping : Option TypeMapping)
  | constant (value : Scalar) (type : DataType) (mapping : Option TypeMapping)
  | parameter (name : String) (type : DataType) (mapping : Option TypeMapping)
  | binary (op : BinaryOp) (left right : Expr) (mapping : Option TypeMapping)
  | unary (op : UnaryOp) (operand : Expr) (mapping : Option TypeMapping)
  /-- A scoring function ranks the rows when it orders a select. -/
  | function (name : String) (args : List Expr) (isScoring : Bool) (type : DataType)
      (mapping : Option TypeMapping)
  | inList (item : Expr) (values : List Expr)
  | inParameter (item : Expr) (values : CollectionParameter)
  | inSubquery (item : Expr) (values : SelectOf Expr)

abbrev Select := SelectOf Expr

namespace Expr

instance : Inhabited Expr := ⟨.constant .null .object none⟩

def typeMapping? : Expr → Option TypeMapping
  | .column _ _ _ m | .constant _ _ m | .parameter _ _ m | .binary _ _ _ m | .unary _ _ m
  | .function _ _ _ _ m => m
  | .inList .. | .inParameter .. | .inSubquery .. => none

/-- Fills in a missing mapping of a constant or parameter from its type. -/
def withDefaultMapping : Expr → Expr
  | .constant value type none => .constant value type (some type.defaultMapping)
  | .parameter name type none => .parameter name type (some type.defaultMapping)
  | e => e

/-- A constant of its own type; null is of type object. -/
def ofScalar (value : Scalar) (mapping : Option TypeMapping) : Expr :=
  .constant value (value.dataType?.getD .object) mapping

def isScoring : Expr → Bool
  | .function _ _ isScoring _ _ => isScoring
  | _ => false

mutual

/-- Whether the tree holds a collection that has to be bound for each execution. -/
def hasDeferredCollection : Expr → Bool
  | .column .. | .constant .. | .parameter .. => false
  | .binary _ left right _ => left.hasDeferredCollection || right.hasDeferredCollection
  | .unary _ operand _ => operand.hasDeferredCollection
  | .function _ args _ _ _ => anyDeferredCollection args
  | .inList item values => item.hasDeferredCollection || anyDeferredCollection values
  | .inParameter .. | .inSubquery .. => true

def anyDeferredCollection : List Expr → Bool
  | [] => false
  | e :: rest => e.hasDeferredCollection || anyDeferredCollection rest

end

/-! ## 3. Equality

Trees are equal when they have the same shape and equal parts, with scalars compared by
`Scalar.same`. -/

mutual

def same : Expr → Expr → Bool
  | .column s p t m, .column s' p' t' m' => s == s' && p == p' && t == t' && m == m'
  | .constant v t m, .constant v' t' m' => v.same v' && t == t' && m == m'
  | .parameter n t m, .parameter n' t' m' => n == n' && t == t' && m == m'
  | .binary o l r m, .binary o' l' r' m' => o == o' && same l l' && same r r' && m == m'
  | .unary o e m, .unary o' e' m' => o == o' && same e e' && m == m'
  | .function n a s t m, .function n' a' s' t' m' =>
    n == n' && sameList a a' && s == s' && t == t' && m == m'
  | .inList e vs, .inList e' vs' => same e e' && sameList vs vs'
  | .inParameter e p, .inParameter e' p' => same e e' && p == p'
  | .inSubquery e s, .inSubquery e' s' => same e e' && sameSelect s s'
  | _, _ => false

def sameList : List Expr → List Expr → Bool
  | [], [] => true
  | a :: as, b :: bs => same a b && sameList as bs
  | _, _ => false

def sameOption : Option Expr → Option Expr → Bool
  | none, none => true
  | some a, some b => same a b
  | _, _ => false

def sameItem : ProjectionItem Expr → ProjectionItem Expr → Bool
  | .scalar a, .scalar b => same a b
  | .entity t p, .entity t' p' => t == t' && p == p'
  | _, _ => false

def sameProjection : List (Projection Expr) → List (Projection Expr) → Bool
  | [], [] => true
  | ⟨a, n⟩ :: as, ⟨b, n'⟩ :: bs => sameItem a b && n == n' && sameProjection as bs
  | _, _ => false

def sameOrderings : List (OrderingTerm Expr) → List (OrderingTerm Expr) → Bool
  | [], [] => true
  | ⟨a, d⟩ :: as, ⟨b, d'⟩ :: bs => same a b && d == d' && sameOrderings as bs
  | _, _ => false

def sameSelect : SelectOf Expr → SelectOf Expr → Bool
  | ⟨c, a, ps, w, os, l, o, d⟩, ⟨c', a', ps', w', os', l', o', d'⟩ =>
    c == c' && a == a' && sameProjection ps ps' && sameOption w w' && sameOrderings os os' &&
      sameOption l l' && sameOption o o' && d == d'

end

end Expr

namespace SelectOf

/-- Whether the first ordering is a scoring function, so that the rows are ranked. -/
def isScoreOrdered (s : Select) : Bool :=
  match s.orderings with
  | o :: _ => o.expr.isScoring
  | [] => false

/-- All documents of an entity type's container, each as a whole. -/
def ofEntity (t : EntityType) : Select where
  container := t.container
  source := "c"
  projection := [⟨.entity t.name [], "c"⟩]
  predicate := none
  orderings := []
  limit := none
  offset := none
  distinct := false

def same (a b : Select) : Bool := Expr.sameSelect a b

end SelectOf

end DocQuery
