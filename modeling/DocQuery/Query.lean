/-
# Queries and shapers

A query says what to fetch and a shaper how each row becomes a result.  The shaper refers to the
query's projection by position and never to values, so one shaper serves every execution.
-/
import DocQuery.Expr

namespace DocQuery

/-- The look-up of one document by its key. -/
structure PointLookup where
  container : String
  entityType : EntityType
  /-- The parameter that carries the value of each property. -/
  propertyParameters : Dictionary String
deriving DecidableEq

def PointLookup.ofEntity (t : EntityType) : PointLookup := ⟨t.container, t, .empty⟩

inductive SetOperator where
  | union
  | intersect
  | except
deriving DecidableEq

def SetOperator.name : SetOperator → String
  | .union => "Union"
  | .intersect => "Intersect"
  | .except => "Except"

inductive Query where
  | select (s : Select)
  | lookup (l : PointLookup)
  /-- A recognized query that document stores cannot run. -/
  | setOperation (op : SetOperator) (left right : Select)

/-- The short text of a query. -/
def Query.text : Query → String
  | .select s => s!"Select(root {s.container})"
  | .lookup l => s!"ReadItem({l.entityType.name} in {l.container})"
  | .setOperation op left right => s!"SetOperation({op.name}: {left.container} / {right.container})"

inductive Shaper where
  /-- The scalar projected at `index`. -/
  | binding (index : Nat) (type : DataType) (nullable : Bool)
  /-- The entity projected at `index`. -/
  | entity (entityType : String) (index : Nat) (nullable : Bool)
  | record (fields : List (String × Shaper))
  | constant (value : Scalar)

namespace Shaper

mutual

/-- Equality with constants compared by `Scalar.same`. -/
def same : Shaper → Shaper → Bool
  | .binding i t n, .binding i' t' n' => i == i' && t == t' && n == n'
  | .entity e b n, .entity e' b' n' => e == e' && b == b' && n == n'
  | .record fs, .record fs' => sameFields fs fs'
  | .constant v, .constant v' => v.same v'
  | _, _ => false

def sameFields : List (String × Shaper) → List (String × Shaper) → Bool
  | [], [] => true
  | (n, a) :: as, (n', b) :: bs => n == n' && same a b && sameFields as bs
  | _, _ => false

end

end Shaper

def Query.same : Query → Query → Bool
  | .select s, .select s' => s.same s'
  | .lookup l, .lookup l' => l == l'
  | .setOperation o l r, .setOperation o' l' r' => o == o' && l.same l' && r.same r'
  | _, _ => false

structure ShapedQuery where
  query : Query
  shaper : Shaper

def ShapedQuery.same (a b : ShapedQuery) : Bool := a.query.same b.query && a.shaper.same b.shaper

end DocQuery
