/-
# Entity models

The mapped entity types: their properties, keys, partition keys and owned navigations.  Entity
types are values; a model rebuilt from the same definitions is equal to the first.
-/
import DocQuery.DataType
import DocQuery.Dictionary
import DocQuery.Error

namespace DocQuery

structure Property where
  name : String
  dataType : DataType
  nullable : Bool
  /-- The name of the member in the stored document. -/
  jsonName : String
  typeMapping : Option TypeMapping
deriving DecidableEq

/-- An owned type stored inside its owner's document: a sub-object or an array of them. -/
structure Navigation where
  name : String
  target : String
  jsonName : String
  isCollection : Bool
deriving DecidableEq

structure EntityType where
  name : String
  /-- Empty for owned types. -/
  container : String
  properties : List Property
  /-- Key property names, in key order. -/
  key : List String
  partitionKey : Option String
  embedded : List Navigation
deriving DecidableEq

namespace EntityType

def property? (t : EntityType) (name : String) : Option Property :=
  t.properties.find? (·.name == name)

/-- The property of a name; its absence is a fault of the model. -/
def property (t : EntityType) (name : String) : Except QueryError Property :=
  match t.property? name with
  | some p => .ok p
  | none => .error (.model (.unknownProperty t.name name))

theorem property_eq_ok {t : EntityType} {name : String} {p : Property}
    (h : t.property name = .ok p) : p ∈ t.properties ∧ p.name = name := by
  unfold property property? at h
  split at h
  · next q hq =>
    rw [← Except.ok.inj h]
    have named := List.find?_some hq
    exact ⟨List.mem_of_find?_eq_some hq, by simpa using named⟩
  · cases h

/-- The key properties in key order. -/
def keyProperties (t : EntityType) : Except QueryError (List Property) := t.key.mapM t.property

end EntityType

/-- The mapped entity types by name. -/
structure Model where
  entityTypes : Dictionary EntityType
deriving DecidableEq

namespace Model

def empty : Model := ⟨.empty⟩

instance : Inhabited Model := ⟨empty⟩

/-- Adds an entity type, replacing one of the same name. -/
def add (m : Model) (t : EntityType) : Model := ⟨m.entityTypes.insert t.name t⟩

def ofList (types : List EntityType) : Model := types.foldl add empty

def entityType? (m : Model) (name : String) : Option EntityType := m.entityTypes.find? name

/-- The entity type of a name; its absence is a fault of the model. -/
def entityType (m : Model) (name : String) : Except QueryError EntityType :=
  match m.entityType? name with
  | some t => .ok t
  | none => .error (.model (.unknownEntityType name))

/-- Checks that the keys, the partition key and the navigations of one type resolve. -/
def validateType (m : Model) (t : EntityType) : Except QueryError Unit := do
  t.key.forM fun k => (t.property k).map fun _ => ()
  t.partitionKey.toList.forM fun k => (t.property k).map fun _ => ()
  t.embedded.forM fun n => (m.entityType n.target).map fun _ => ()

/-- The first fault of the types in name order. -/
def validate (m : Model) : Except QueryError Unit :=
  m.entityTypes.values.forM m.validateType

end Model

end DocQuery
