/-
# Quoted lookups

A lookup holds the entity type it was written against.  Its quoted form names lifted constants
instead, one for the entity type and one for each property, and keeps only the parameter names, so
that the node can be rebuilt in whatever context runs the plan.
-/
import DocQuery.Constants
import DocQuery.Query

namespace DocQuery

structure QuotedLookup where
  container : String
  /-- The constant of the entity type. -/
  entityType : String
  /-- The constant of each property with the parameter that carries its value. -/
  propertyParameters : List (String × String)
deriving DecidableEq

/-- A provider's say in how a constant is made. -/
abbrev ConstantFactory := LiftedConstant → LiftedConstant

namespace PointLookup

def entityTypeConstant (l : PointLookup) : LiftedConstant where
  captured := .entityType l.entityType
  resolution := .entityType l.entityType.name
  name := l.entityType.name ++ "EntityType"
  declared := .entityType

def propertyConstant (l : PointLookup) (p : Property) : LiftedConstant where
  captured := .property p
  resolution := .property l.entityType.name p.name
  name := p.name ++ "Property"
  declared := .property

/-- Lifts the properties one after another. -/
def quoteProperties (l : PointLookup) (factory : ConstantFactory) :
    ConstantTable → List (String × String) → Except QueryError (List (String × String) × ConstantTable)
  | t, [] => .ok ([], t)
  | t, (property, parameter) :: rest => do
    let p ← l.entityType.property property
    let (name, t) := t.lift (factory (l.propertyConstant p))
    let (quoted, t) ← l.quoteProperties factory t rest
    return ((name, parameter) :: quoted, t)

/-- Quotes a lookup, lifting its constants into the table. -/
def quote (l : PointLookup) (factory : ConstantFactory) (t : ConstantTable) :
    Except QueryError (QuotedLookup × ConstantTable) := do
  let (entityType, t) := t.lift (factory l.entityTypeConstant)
  let (propertyParameters, t) ← l.quoteProperties factory t l.propertyParameters.entries
  return (⟨l.container, entityType, propertyParameters⟩, t)

end PointLookup

namespace QuotedLookup

/-- Rebuilds the lookup from the constants of one execution. -/
def resolve (q : QuotedLookup) (constants : ResolvedConstants) : Except QueryError PointLookup := do
  let entityType ← constants.entityType q.entityType
  let parameters ← q.propertyParameters.mapM fun (property, parameter) => do
    return ((← constants.property property).name, parameter)
  return ⟨q.container, entityType, .ofList parameters⟩

/-- The constants that a quoted lookup refers to. -/
def constantNames (q : QuotedLookup) : List String :=
  q.entityType :: q.propertyParameters.map Prod.fst

end QuotedLookup

end DocQuery
