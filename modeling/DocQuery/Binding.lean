/-
# Binding shapers to rows

`SelectBinding.bind` and `PointLookup.bind` turn a shaper, which refers to projections, into a row
shaper.  Entities are expanded along their owned navigations; the expansion ends because no entity
type may own itself, directly or through others.
-/
import DocQuery.RowShaper

namespace DocQuery

/-! ## 1. Expanding entities -/

/-- The entity types of the model that are not among the owners. -/
def Model.unowned (m : Model) (owners : List String) : List EntityType :=
  m.entityTypes.values.filter fun t => t.name ∉ owners

theorem Model.mem_values_of_entityType? {m : Model} {name : String} {t : EntityType}
    (h : m.entityType? name = some t) : t ∈ m.entityTypes.values :=
  List.mem_map.2 ⟨(name, t), mem_of_lookup_eq_some h, rfl⟩

/-- Owning one more type of the model leaves fewer unowned. -/
theorem Model.length_unowned_cons_lt {m : Model} {owners : List String} {t : EntityType}
    (mem : t ∈ m.entityTypes.values) (fresh : t.name ∉ owners) :
    (m.unowned (t.name :: owners)).length < (m.unowned owners).length := by
  have split : m.unowned (t.name :: owners) = (m.unowned owners).filter fun s => s.name ≠ t.name := by
    simp only [unowned, List.filter_filter]
    congr 1
    funext s
    simp [List.mem_cons, not_or]
  rw [split]
  apply List.length_filter_lt_length_iff_exists.2
  exact ⟨t, by simp [unowned, mem, fresh], by simp⟩

/-- The row shaper of an entity type at a path.  `owners` are the names on the chain of navigations
from the root down to this type. -/
def expandEntity (m : Model) (t : EntityType) (path : List String) (nullable : Bool)
    (identity : IdentityMode) (owners : List String) : Except QueryError RowShaper := do
  if identity ≠ .none && t.key.isEmpty then .error (.model (.keyless t.name))
  let _ ← t.keyProperties
  let embedded ← t.embedded.mapM fun nav =>
    match h : m.entityType? nav.target with
    | none => .error (.model (.unknownEntityType nav.target))
    | some target =>
      if owned : target.name ∈ owners then .error (.model (.ownershipCycle target.name))
      else
        have := Model.length_unowned_cons_lt (Model.mem_values_of_entityType? h) owned
        if nav.isCollection then
          (expandEntity m target [] false .none (target.name :: owners)).map fun s =>
            (nav.name, .collection [nav.jsonName] s)
        else
          (expandEntity m target [nav.jsonName] true .none (target.name :: owners)).map fun s =>
            (nav.name, s)
  return .entity {
    entityType := t.name, path, nullable, key := t.key, identity
    properties := t.properties.map .ofProperty } embedded
termination_by (m.unowned owners).length

/-- The row shaper of an entity type and everything it owns. -/
def Model.entityShaper (m : Model) (t : EntityType) (path : List String) (nullable : Bool)
    (identity : IdentityMode) : Except QueryError RowShaper :=
  expandEntity m t path nullable identity [t.name]

/-! ## 2. Selects -/

/-- What the binding of a select's shaper depends on. -/
structure SelectBinding where
  model : Model
  select : Select
  layout : RowLayout
  identity : IdentityMode

namespace SelectBinding

def projection (b : SelectBinding) (index : Nat) : Except QueryError (Projection Expr) :=
  match b.select.projection[index]? with
  | some p => .ok p
  | none => .error (.unreachable (.missingProjection index b.select.projection.length))

/-- Where a projection lies in a row: a single one is the row, several are its members. -/
def basePath (b : SelectBinding) (p : Projection Expr) : List String :=
  if b.select.projection.length = 1 then [] else [p.name]

def bindScalar (b : SelectBinding) (index : Nat) (type : DataType) (nullable : Bool) :
    Except QueryError RowShaper := do
  let p ← b.projection index
  match p.item with
  | .entity entityType _ => .error (.unreachable (.scalarBindsEntity index entityType))
  | .scalar _ =>
    let access := match b.layout with
      | .document => .path (b.basePath p)
      | .ordinal => .ordinal index
    return .read access type nullable

def bindEntity (b : SelectBinding) (entityType : String) (index : Nat) (nullable : Bool) :
    Except QueryError RowShaper := do
  let p ← b.projection index
  match p.item with
  | .scalar _ => .error (.unreachable (.entityBindsScalar entityType index))
  | .entity projected _ =>
    if projected ≠ entityType then .error (.invariant (.projectionMismatch entityType projected))
    if b.layout = .ordinal then .error (.notSupported (.entityOverOrdinals entityType))
    b.model.entityShaper (← b.model.entityType entityType) (b.basePath p) nullable b.identity

mutual

def bind (b : SelectBinding) : Shaper → Except QueryError RowShaper
  | .binding index type nullable => b.bindScalar index type nullable
  | .entity entityType index nullable => b.bindEntity entityType index nullable
  | .record fields => do return .record (← b.bindFields fields)
  | .constant v => .ok (.constant v)

def bindFields (b : SelectBinding) :
    List (String × Shaper) → Except QueryError (List (String × RowShaper))
  | [] => .ok []
  | (name, s) :: rest => do
    let first ← b.bind s
    return (name, first) :: (← b.bindFields rest)

end

end SelectBinding

/-! ## 3. Point lookups -/

namespace PointLookup

mutual

/-- Binds a shaper to the one document that a lookup reads. -/
def bind (l : PointLookup) (model : Model) (identity : IdentityMode) :
    Shaper → Except QueryError RowShaper
  | .entity entityType _ nullable =>
    if entityType ≠ l.entityType.name then
      .error (.invariant (.lookupMismatch l.entityType.name entityType))
    else model.entityShaper l.entityType [] nullable identity
  | .binding index _ _ => .error (.unreachable (.bindingInLookup index))
  | .record fields => do return .record (← l.bindFields model identity fields)
  | .constant v => .ok (.constant v)

def bindFields (l : PointLookup) (model : Model) (identity : IdentityMode) :
    List (String × Shaper) → Except QueryError (List (String × RowShaper))
  | [] => .ok []
  | (name, s) :: rest => do
    let first ← l.bind model identity s
    return (name, first) :: (← l.bindFields model identity rest)

end

end PointLookup

end DocQuery
