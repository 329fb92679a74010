/-
# Query definitions

What a definition file says: the entity types of a model, one query over them, and settings.
Nothing in it has been resolved yet: types, properties and comparisons are still names.
-/
import DocQuery.Config
import DocQuery.Json.Basic
import DocQuery.RunError

namespace DocQuery

/-! ## 1. Models -/

structure PropertyDefinition where
  name : String
  type : String
  nullable : Bool
  /-- The name in documents, if it differs. -/
  jsonName : Option String
  storeType : Option String

structure NavigationDefinition where
  name : String
  target : String
  isCollection : Bool
  jsonName : Option String

structure EntityDefinition where
  name : String
  container : String
  properties : List PropertyDefinition
  key : List String
  partitionKey : Option String
  embedded : List NavigationDefinition

/-! ## 2. Queries -/

/-- What a condition or bound refers to: a parameter or a value. -/
inductive Argument (α : Type) where
  | parameter (name : String)
  | value (a : α)
  /-- Neither is given, or both are. -/
  | unclear

/-- The argument of which a parameter and a value may be given. -/
def Argument.of {α : Type} : Option String → Option α → Argument α
  | some name, none => .parameter name
  | none, some a => .value a
  | _, _ => .unclear

/-- A condition on documents.  Properties are dotted paths. -/
inductive Filter where
  | membership (property : String) (values : Argument (List Json))
  | comparison (property op : String) (value : Argument Json)
  | isNull (property : String)
  | all (filters : List Filter)
  | any (filters : List Filter)
  | negation (filter : Filter)
  /-- Not exactly one condition is given. -/
  | unclear

inductive OrderDefinition where
  | property (path : String) (descending : Bool)
  /-- Ranking by a scoring function. -/
  | rank (function property : String) (terms : List String)
  | unclear

inductive QueryDefinition where
  /-- Whole entities, or records of the projected properties if there are any. -/
  | select (entity : String) (filter : Option Filter) (orderings : List OrderDefinition)
      (limit offset : Option (Argument Json)) (projection : List String) (distinct : Bool)
  /-- The keys are properties with the parameters that carry their values. -/
  | lookup (entity : String) (keys : Dictionary String)

structure Definition where
  overrides : Overrides
  entityTypes : List EntityDefinition
  query : QueryDefinition

/-! ## 3. Errors -/

inductive DefinitionFault where
  | unknownType (name : String)
  | notOwnedReference (segment entityType : String)
  | unclearArgument
  | unclearMembership (property : String)
  | unknownComparison (op : String)
  | unclearFilter
  | unclearOrdering
deriving DecidableEq

inductive DefinitionError where
  /-- The text is not a definition. -/
  | unreadable
  | invalid (fault : DefinitionFault)
  | query (e : QueryError)
deriving DecidableEq

def DefinitionFault.message : DefinitionFault → String
  | .unknownType name => s!"unknown type '{name}'"
  | .notOwnedReference segment entityType =>
    s!"'{segment}' is not an owned reference of '{entityType}'"
  | .unclearArgument => "exactly one of 'parameter' or 'value' must be given"
  | .unclearMembership property =>
    s!"'in' on '{property}' needs exactly one of 'parameter' or 'values'"
  | .unknownComparison op => s!"unknown comparison '{op}'"
  | .unclearFilter =>
    "a predicate needs exactly one of 'in', 'compare', 'is_null', 'and', 'or', 'not'"
  | .unclearOrdering => "an ordering needs exactly one of 'property' or 'rank'"

def DefinitionError.message : DefinitionError → String
  | .unreadable => "YAML parse error"
  | .invalid fault => "invalid query definition: " ++ fault.message
  | .query e => e.message

/-- A step of compilation inside a definition. -/
def DefinitionError.lift {α : Type} : Except QueryError α → Except DefinitionError α
  | .ok a => .ok a
  | .error e => .error (.query e)

end DocQuery
