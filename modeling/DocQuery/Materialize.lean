/-
# Materialization

Shaping a row makes the values, entities and records that its shaper describes.  Entities with an
identity mode are looked up by type and key first; the first instance made for a key is the one that
all later rows with that key get.

Shaping changes the identity maps as it goes, and what it has recorded stays when a later part of
the row fails.
-/
import DocQuery.DocumentKey
import DocQuery.Execution

namespace DocQuery

/-! ## 1. Identity maps -/

structure IdentityEntry where
  entityType : String
  key : List Scalar
  entity : Item

/-- Entities by type and key, in the order they were recorded. -/
structure IdentityMap where
  entries : List IdentityEntry

namespace IdentityMap

def empty : IdentityMap := ⟨[]⟩

instance : Inhabited IdentityMap := ⟨empty⟩

def size (m : IdentityMap) : Nat := m.entries.length

def isEmpty (m : IdentityMap) : Bool := m.entries.isEmpty

def find? (m : IdentityMap) (entityType : String) (key : List Scalar) : Option Item :=
  (m.entries.find? fun e => e.entityType == entityType && sameKey e.key key).map (·.entity)

/-- Records an entity unless its key is taken, and returns the entity of that key. -/
def track (m : IdentityMap) (entityType : String) (key : List Scalar) (entity : Item) :
    Item × IdentityMap :=
  match m.find? entityType key with
  | some existing => (existing, m)
  | none => (entity, ⟨m.entries ++ [⟨entityType, key, entity⟩]⟩)

end IdentityMap

/-- What shaping reads and changes. -/
structure ShapingState where
  /-- The identity map of the session. -/
  tracked : IdentityMap
  /-- The identity map of one enumeration, if it has its own. -/
  perQuery : Option IdentityMap
  /-- The number of the next instance. -/
  nextId : Nat

/-- Steps that keep their effect on the state when they fail. -/
abbrev Shaping := ExceptT RunError (StateM ShapingState)

namespace Shaping

def fail {α : Type} (fault : MaterializeFault) : Shaping α := throw (.materialize fault)

def ofExcept {α : Type} : Except RunError α → Shaping α
  | .ok a => pure a
  | .error e => throw e

/-- The entity recorded for a key. -/
def findEntity (mode : IdentityMode) (entityType : String) (key : List Scalar) :
    Shaping (Option Item) := do
  let s ← get
  return match mode with
    | .none => none
    | .tracked => s.tracked.find? entityType key
    | .perQuery => s.perQuery.bind (·.find? entityType key)

/-- Records an entity under its key and returns the one that counts. -/
def recordEntity (mode : IdentityMode) (entityType : String) (key : List Scalar) (entity : Item) :
    Shaping Item := do
  let s ← get
  match mode, s.perQuery with
  | .tracked, _ =>
    let (kept, tracked) := s.tracked.track entityType key entity
    set { s with tracked }
    return kept
  | .perQuery, some m =>
    let (kept, m) := m.track entityType key entity
    set { s with perQuery := some m }
    return kept
  | _, _ => return entity

/-- A number that no instance has. -/
def freshId : Shaping Nat := do
  let s ← get
  set { s with nextId := s.nextId + 1 }
  return s.nextId

end Shaping

/-! ## 2. Values -/

/-- Reads a node at a type; null must be allowed. -/
def readValue (type : DataType) (nullable : Bool) (node : Json) : Except RunError Scalar :=
  match Scalar.ofJsonAs? type node with
  | none => .error (.materialize (.badValue node type))
  | some s => if s.isNull && !nullable then .error (.materialize .nullValue) else .ok s

/-- The node that an access reads in a row: a path in a document, a position in a value list. -/
def ValueAccess.node (access : ValueAccess) (node : Json) (ordinals : Option (List Json)) :
    Except RunError Json :=
  match access, ordinals with
  | .path names, none => .ok (node.readPath names)
  | .ordinal index, some values => match values[index]? with
    | some v => .ok v
    | none => .error (.materialize (.noOrdinal index))
  | access, _ => .error (.materialize (.layoutMismatch access))

namespace EntityRead

/-- Reads one property of an entity's node. -/
def readProperty (r : EntityRead) (node : Json) (name : String) : Except RunError Scalar :=
  match r.properties.find? (·.name == name) with
  | none => .error (.materialize (.unknownProperty r.entityType name))
  | some p =>
    let raw := node.propertyNode p.jsonName
    match Scalar.ofJsonAs? p.dataType raw with
    | none => .error (.materialize (.badProperty r.entityType p.name raw p.dataType))
    | some s =>
      if s.isNull && !p.nullable then
        .error (.materialize (.missingProperty r.entityType p.name))
      else .ok s

/-- Reads all properties by name. -/
def readProperties (r : EntityRead) (node : Json) : Except RunError (Dictionary Scalar) := do
  let values ← r.properties.mapM fun p => do return (p.name, ← r.readProperty node p.name)
  return .ofList values

end EntityRead

/-! ## 3. Rows -/

namespace RowShaper

mutual

/-- Shapes a node; `ordinals` are the values of an ordinal row. -/
def shapeNode (ordinals : Option (List Json)) (node : Json) : RowShaper → Shaping Item
  | .read access type nullable => do
    let raw ← Shaping.ofExcept (access.node node ordinals)
    return .value (← Shaping.ofExcept (readValue type nullable raw))
  | .entity info embedded =>
    if ordinals.isSome then Shaping.fail .entityFromOrdinals
    else shapeEntity info (node.readPath info.path) embedded
  | .collection path element => match node.readPath path with
    | .null => return .list []
    | .array items => do return .list (← items.mapM fun item => element.shapeNode none item)
    | other => Shaping.fail (.notAnArray other)
  | .record fields => do return .record (← shapeFields ordinals node fields)
  | .constant value => return .value value

/-- Shapes an entity's node.  An entity whose key is known already is not read again. -/
def shapeEntity (info : EntityRead) (node : Json) (embedded : List (String × RowShaper)) :
    Shaping Item := do
  if node.isNull then
    if info.nullable then return .null else Shaping.fail (.missingEntity info.entityType)
  else if info.identity = .none then makeEntity info node embedded
  else do
    let key ← Shaping.ofExcept (info.key.mapM (info.readProperty node))
    match ← Shaping.findEntity info.identity info.entityType key with
    | some existing => return existing
    | none =>
      let entity ← makeEntity info node embedded
      Shaping.recordEntity info.identity info.entityType key entity

/-- Makes a new instance. -/
def makeEntity (info : EntityRead) (node : Json) (embedded : List (String × RowShaper)) :
    Shaping Item := do
  let values ← Shaping.ofExcept (info.readProperties node)
  let fields ← shapeFields none node embedded
  let id ← Shaping.freshId
  return .entity id info.entityType values
    (fields.foldl (fun sorted f => insertAscending f.1 f.2 sorted) [])

def shapeFields (ordinals : Option (List Json)) (node : Json) :
    List (String × RowShaper) → Shaping (List (String × Item))
  | [] => return []
  | (name, s) :: rest => do
    let first ← s.shapeNode ordinals node
    return (name, first) :: (← shapeFields ordinals node rest)

end

/-- Shapes one row. -/
def shapeRow (s : RowShaper) : Row → Shaping Item
  | .document body => s.shapeNode none body
  | .ordinal values => s.shapeNode (some values) .null

end RowShaper

end DocQuery
