/-
# Building definitions

Resolves the names of a definition: its model, then its query against that model.  The first fault
in the order of the definition counts.
-/
import DocQuery.Definition.Reader
import DocQuery.Query

namespace DocQuery

def invalid {α : Type} (fault : DefinitionFault) : Except DefinitionError α :=
  .error (.invalid fault)

/-! ## 1. Models -/

def PropertyDefinition.build (d : PropertyDefinition) : Except DefinitionError Property :=
  match DataType.parse? d.type with
  | none => invalid (.unknownType d.type)
  | some type => .ok {
      name := d.name, dataType := type, nullable := d.nullable
      jsonName := d.jsonName.getD d.name, typeMapping := d.storeType.map (TypeMapping.mk type) }

def NavigationDefinition.build (d : NavigationDefinition) : Navigation :=
  ⟨d.name, d.target, d.jsonName.getD d.name, d.isCollection⟩

def EntityDefinition.build (d : EntityDefinition) : Except DefinitionError EntityType := do
  let properties ← d.properties.mapM PropertyDefinition.build
  return ⟨d.name, d.container, properties, d.key, d.partitionKey,
    d.embedded.map NavigationDefinition.build⟩

/-- The model of some entity types, of which the last of a name counts. -/
def buildModel (types : List EntityDefinition) : Except DefinitionError Model := do
  let m := Model.ofList (← types.mapM EntityDefinition.build)
  DefinitionError.lift m.validate
  return m

/-! ## 2. Columns -/

/-- A property with the path to it in a document. -/
structure Column where
  path : List String
  property : Property

def Column.toExpr (c : Column) : Expr :=
  .column "c" c.path c.property.dataType c.property.typeMapping

/-- Follows owned references to a property. -/
def Model.columnAlong (m : Model) (t : EntityType) : List String → Except DefinitionError Column
  | [] => do return ⟨[], ← DefinitionError.lift (t.property "")⟩
  | [name] => do
    let p ← DefinitionError.lift (t.property name)
    return ⟨[p.jsonName], p⟩
  | segment :: rest =>
    match t.embedded.find? fun n => n.name == segment && !n.isCollection with
    | none => invalid (.notOwnedReference segment t.name)
    | some n => do
      let c ← m.columnAlong (← DefinitionError.lift (m.entityType n.target)) rest
      return ⟨n.jsonName :: c.path, c.property⟩

/-- The column of a dotted path. -/
def Model.column (m : Model) (t : EntityType) (path : String) : Except DefinitionError Column :=
  m.columnAlong t (path.splitOn ".")

/-! ## 3. Conditions -/

/-- A value as a constant of a type, or of its own type if it does not fit. -/
def Expr.ofJson (type : DataType) (mapping : Option TypeMapping) (j : Json) : Expr :=
  .constant ((Scalar.ofJsonAs? type j).getD (Scalar.ofJson j)) type mapping

def Argument.build (a : Argument Json) (type : DataType) (mapping : Option TypeMapping) :
    Except DefinitionError Expr :=
  match a with
  | .parameter name => .ok (.parameter name type mapping)
  | .value j => .ok (.ofJson type mapping j)
  | .unclear => invalid .unclearArgument

def comparisonOp (op : String) : Except DefinitionError BinaryOp :=
  match op with
  | "=" | "==" => .ok .equal
  | "!=" | "<>" => .ok .notEqual
  | "<" => .ok .lessThan
  | "<=" => .ok .lessThanOrEqual
  | ">" => .ok .greaterThan
  | ">=" => .ok .greaterThanOrEqual
  | other => invalid (.unknownComparison other)

/-- Joins conditions from the left; there has to be one. -/
def joinConditions (op : BinaryOp) : List Expr → Except DefinitionError Expr
  | [] => invalid .unclearFilter
  | first :: rest => .ok (rest.foldl (fun joined e => .binary op joined e none) first)

def buildMembership (c : Column) (property : String) (values : Argument (List Json)) :
    Except DefinitionError Expr :=
  let type := c.property.dataType
  let mapping := c.property.typeMapping
  match values with
  | .parameter name => .ok (.inParameter c.toExpr ⟨name, type, mapping⟩)
  | .value items => .ok (.inList c.toExpr (items.map (Expr.ofJson type mapping)))
  | .unclear => invalid (.unclearMembership property)

def buildComparison (c : Column) (op : String) (value : Argument Json) :
    Except DefinitionError Expr := do
  let right ← value.build c.property.dataType c.property.typeMapping
  return .binary (← comparisonOp op) c.toExpr right none

namespace Filter

mutual

/-- The condition on documents of an entity type. -/
def build (m : Model) (t : EntityType) : Filter → Except DefinitionError Expr
  | .membership property values => do buildMembership (← m.column t property) property values
  | .comparison property op value => do buildComparison (← m.column t property) op value
  | .isNull property => do return .unary .isNull (← m.column t property).toExpr none
  | .all filters => do joinConditions .and (← buildList m t filters)
  | .any filters => do joinConditions .or (← buildList m t filters)
  | .negation filter => do return .unary .not (← filter.build m t) none
  | .unclear => invalid .unclearFilter

def buildList (m : Model) (t : EntityType) : List Filter → Except DefinitionError (List Expr)
  | [] => .ok []
  | f :: rest => do
    let e ← f.build m t
    return e :: (← buildList m t rest)

end

end Filter

/-! ## 4. Queries -/

def OrderDefinition.build (m : Model) (t : EntityType) :
    OrderDefinition → Except DefinitionError (OrderingTerm Expr)
  | .property path descending => do return ⟨(← m.column t path).toExpr, !descending⟩
  | .rank function path terms => do
    let c ← m.column t path
    let args := c.toExpr :: terms.map fun term => .constant (.text term) .utf8 none
    return ⟨.function function args true .float64 none, false⟩
  | .unclear => invalid .unclearOrdering

/-- A name for a projected path. -/
def projectionName (path : String) : String := path.map fun c => if c == '.' then '_' else c

def buildProjection (m : Model) (t : EntityType) (path : String) :
    Except DefinitionError (Projection Expr × DataType) := do
  let c ← m.column t path
  return (⟨.scalar c.toExpr, projectionName path⟩, c.property.dataType)

/-- A record of the projected values. -/
def recordShaper (columns : List (Projection Expr × DataType)) : Shaper :=
  .record (columns.zipIdx.map fun ((p, type), i) => (p.name, .binding i type true))

/-- A bound of the page, if there is one. -/
def buildBound : Option (Argument Json) → Except DefinitionError (Option Expr)
  | none => .ok none
  | some a => (a.build .int32 none).map some

def QueryDefinition.build (m : Model) : QueryDefinition → Except DefinitionError ShapedQuery
  | .select entity filter orderings limit offset projection distinct => do
    let t ← DefinitionError.lift (m.entityType entity)
    let predicate ← match filter with
      | none => .ok none
      | some f => (f.build m t).map some
    let orderings ← orderings.mapM (OrderDefinition.build m t)
    let limit ← buildBound limit
    let offset ← buildBound offset
    let columns ← projection.mapM (buildProjection m t)
    let base := SelectOf.ofEntity t
    let s : Select := { base with
      predicate, orderings, limit, offset, distinct
      projection := if columns.isEmpty then base.projection else columns.map Prod.fst }
    return ⟨.select s, if columns.isEmpty then .entity t.name 0 false else recordShaper columns⟩
  | .lookup entity keys => do
    let t ← DefinitionError.lift (m.entityType entity)
    return ⟨.lookup { PointLookup.ofEntity t with propertyParameters := keys },
      .entity t.name 0 true⟩

/-! ## 5. Definitions -/

/-- A definition with its names resolved. -/
structure LoadedQuery where
  model : Model
  shaped : ShapedQuery
  overrides : Overrides

def Definition.build (d : Definition) : Except DefinitionError LoadedQuery := do
  let m ← buildModel d.entityTypes
  return ⟨m, ← d.query.build m, d.overrides⟩

/-- Reads and builds the definition that a text holds. -/
def LoadedQuery.ofText (text : String) : Except DefinitionError LoadedQuery :=
  match Definition.ofText? text with
  | none => .error .unreadable
  | some d => d.build

end DocQuery
