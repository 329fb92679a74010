/-
# Row shapers

A row shaper says where in a row each value lies: at a path of a document or at a position of a
value list.  It holds no reference to a projection, so a shaper that is not bound yet cannot reach
execution.
-/
import DocQuery.Config
import DocQuery.Query

namespace DocQuery

inductive ValueAccess where
  /-- A path from the row's root; empty for the root. -/
  | path (names : List String)
  | ordinal (index : Nat)
deriving DecidableEq

/-- How repeated appearances of one key are treated. -/
inductive IdentityMode where
  /-- Every row makes a new instance. -/
  | none
  /-- Instances are shared within one result. -/
  | perQuery
  /-- Instances are shared through the session. -/
  | tracked
deriving DecidableEq

def IdentityMode.ofTracking : Tracking → IdentityMode
  | .trackAll => .tracked
  | .identityResolution => .perQuery
  | .noTracking => .none

structure PropertyRead where
  name : String
  jsonName : String
  dataType : DataType
  nullable : Bool
deriving DecidableEq

def PropertyRead.ofProperty (p : Property) : PropertyRead := ⟨p.name, p.jsonName, p.dataType, p.nullable⟩

structure EntityRead where
  entityType : String
  /-- The path of the entity's node inside the enclosing node. -/
  path : List String
  nullable : Bool
  properties : List PropertyRead
  /-- Key property names, in key order. -/
  key : List String
  identity : IdentityMode
deriving DecidableEq

inductive RowShaper where
  | read (access : ValueAccess) (type : DataType) (nullable : Bool)
  /-- An entity and its owned navigations. -/
  | entity (info : EntityRead) (embedded : List (String × RowShaper))
  /-- An array at a path, each element shaped by `element`. -/
  | collection (path : List String) (element : RowShaper)
  | record (fields : List (String × RowShaper))
  | constant (value : Scalar)

namespace RowShaper

instance : Inhabited RowShaper := ⟨.constant .null⟩

mutual

/-- The names of the entity types that a shaper materializes, outermost first. -/
def entityTypes : RowShaper → List String
  | .read .. | .constant _ => []
  | .entity info embedded => info.entityType :: fieldEntityTypes embedded
  | .collection _ element => element.entityTypes
  | .record fields => fieldEntityTypes fields

def fieldEntityTypes : List (String × RowShaper) → List String
  | [] => []
  | (_, s) :: rest => s.entityTypes ++ fieldEntityTypes rest

end

end RowShaper

end DocQuery
