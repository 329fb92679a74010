/-
# Serialized form of expressions, queries and shapers
-/
import DocQuery.Codec.Model
import DocQuery.Query

namespace DocQuery

open Codec

/-! ## 1. Operators -/

namespace BinaryOp

def all : List BinaryOp :=
  [.equal, .notEqual, .lessThan, .lessThanOrEqual, .greaterThan, .greaterThanOrEqual, .and, .or,
    .add, .subtract, .multiply, .divide, .modulo]

def name : BinaryOp → String
  | .equal => "Equal"
  | .notEqual => "NotEqual"
  | .lessThan => "LessThan"
  | .lessThanOrEqual => "LessThanOrEqual"
  | .greaterThan => "GreaterThan"
  | .greaterThanOrEqual => "GreaterThanOrEqual"
  | .and => "And"
  | .or => "Or"
  | .add => "Add"
  | .subtract => "Subtract"
  | .multiply => "Multiply"
  | .divide => "Divide"
  | .modulo => "Modulo"

def encode (op : BinaryOp) : Json := .string op.name

def decode? : Json → Option BinaryOp := named? all name

end BinaryOp

namespace UnaryOp

def name : UnaryOp → String
  | .not => "Not"
  | .negate => "Negate"
  | .isNull => "IsNull"
  | .isNotNull => "IsNotNull"

def encode (op : UnaryOp) : Json := .string op.name

def decode? : Json → Option UnaryOp := named? [.not, .negate, .isNull, .isNotNull] name

end UnaryOp

namespace CollectionParameter

def encode (c : CollectionParameter) : Json :=
  .object [("name", .string c.name), ("element_type", c.elementType.encode),
    ("type_mapping", optionally TypeMapping.encode c.typeMapping)]

def decode? {w : Json} (p : Part w) : Option CollectionParameter := do
  let f ← fields? ["name", "element_type", "type_mapping"] p
  return ⟨← f.required "name" (plain text?), ← f.required "element_type" (plain DataType.decode?),
    ← f.optional "type_mapping" TypeMapping.decode?⟩

end CollectionParameter

/-! ## 2. Encoding expressions and selects -/

/-- The last two members of most expressions. -/
def typed (type : DataType) (mapping : Option TypeMapping) : List (String × Json) :=
  [("data_type", type.encode), ("type_mapping", optionally TypeMapping.encode mapping)]

def inVariant (item values : Json) : Json := variant "In" (.object [("item", item), ("values", values)])

namespace Expr

mutual

def encode : Expr → Json
  | .column source path type mapping =>
    variant "Column" (.object (("source", .string source) :: ("path", textList path) ::
      typed type mapping))
  | .constant value type mapping =>
    variant "Constant" (.object (("value", value.encode) :: typed type mapping))
  | .parameter name type mapping =>
    variant "Parameter" (.object (("name", .string name) :: typed type mapping))
  | .binary op left right mapping =>
    variant "Binary" (.object [("op", op.encode), ("left", left.encode), ("right", right.encode),
      ("type_mapping", optionally TypeMapping.encode mapping)])
  | .unary op operand mapping =>
    variant "Unary" (.object [("op", op.encode), ("operand", operand.encode),
      ("type_mapping", optionally TypeMapping.encode mapping)])
  | .function name args isScoring type mapping =>
    variant "Function" (.object (("name", .string name) :: ("args", .array (encodeList args)) ::
      ("is_scoring", .bool isScoring) :: typed type mapping))
  | .inList item values => inVariant item.encode (variant "List" (.array (encodeList values)))
  | .inParameter item values => inVariant item.encode (variant "Parameter" values.encode)
  | .inSubquery item values => inVariant item.encode (variant "Subquery" (encodeSelect values))

def encodeList : List Expr → List Json
  | [] => []
  | e :: rest => e.encode :: encodeList rest

def encodeOption : Option Expr → Json
  | none => .null
  | some e => e.encode

def encodeItem : ProjectionItem Expr → Json
  | .scalar e => variant "Scalar" e.encode
  | .entity entityType path =>
    variant "Entity" (.object [("entity_type", .string entityType), ("path", textList path)])

def encodeProjection : List (Projection Expr) → List Json
  | [] => []
  | ⟨item, name⟩ :: rest =>
    .object [("item", encodeItem item), ("alias", .string name)] :: encodeProjection rest

def encodeOrderings : List (OrderingTerm Expr) → List Json
  | [] => []
  | ⟨e, ascending⟩ :: rest =>
    .object [("expr", e.encode), ("ascending", .bool ascending)] :: encodeOrderings rest

def encodeSelect : SelectOf Expr → Json
  | ⟨container, source, projection, predicate, orderings, limit, offset, distinct⟩ =>
    .object [("container", .string container), ("alias", .string source),
      ("projection", .array (encodeProjection projection)), ("predicate", encodeOption predicate),
      ("orderings", .array (encodeOrderings orderings)), ("limit", encodeOption limit),
      ("offset", encodeOption offset), ("distinct", .bool distinct)]

end

end Expr

def SelectOf.encode (s : Select) : Json := Expr.encodeSelect s

/-! ## 3. Decoding expressions and selects -/

namespace Codec

variable {E : Type} {w : Json}

def projectionItem? (expr : Part w → Option E) (p : Part w) : Option (ProjectionItem E) := do
  match ← variant? p with
  | ("Scalar", data) => return .scalar (← expr data)
  | ("Entity", data) =>
    let f ← fields? ["entity_type", "path"] data
    return .entity (← f.required "entity_type" (plain text?)) (← f.required "path" texts?)
  | _ => none

def projection? (expr : Part w → Option E) (p : Part w) : Option (Projection E) := do
  let f ← fields? ["item", "alias"] p
  return ⟨← f.required "item" (projectionItem? expr), ← f.required "alias" (plain text?)⟩

def ordering? (expr : Part w → Option E) (p : Part w) : Option (OrderingTerm E) := do
  let f ← fields? ["expr", "ascending"] p
  return ⟨← f.required "expr" expr, ← f.required "ascending" (plain flag?)⟩

/-- A select over expressions read by `expr`. -/
def select? (expr : Part w → Option E) (p : Part w) : Option (SelectOf E) := do
  let f ← fields? ["container", "alias", "projection", "predicate", "orderings", "limit", "offset",
    "distinct"] p
  return {
    container := ← f.required "container" (plain text?)
    source := ← f.required "alias" (plain text?)
    projection := ← f.required "projection" (list? (projection? expr))
    predicate := ← f.optional "predicate" expr
    orderings := ← f.required "orderings" (list? (ordering? expr))
    limit := ← f.optional "limit" expr
    offset := ← f.optional "offset" expr
    distinct := ← f.required "distinct" (plain flag?) }

end Codec

namespace Expr

/-- Reads the node of a tag; `expr` reads the expressions inside it. -/
def ofVariant? {w : Json} (expr : Part w → Option Expr) (tag : String) (data : Part w) :
    Option Expr := do
  match tag with
  | "Column" =>
    let f ← fields? ["source", "path", "data_type", "type_mapping"] data
    return .column (← f.required "source" (plain text?)) (← f.required "path" texts?)
      (← f.required "data_type" (plain DataType.decode?))
      (← f.optional "type_mapping" TypeMapping.decode?)
  | "Constant" =>
    let f ← fields? ["value", "data_type", "type_mapping"] data
    return .constant (← f.required "value" (plain Scalar.decode?))
      (← f.required "data_type" (plain DataType.decode?))
      (← f.optional "type_mapping" TypeMapping.decode?)
  | "Parameter" =>
    let f ← fields? ["name", "data_type", "type_mapping"] data
    return .parameter (← f.required "name" (plain text?))
      (← f.required "data_type" (plain DataType.decode?))
      (← f.optional "type_mapping" TypeMapping.decode?)
  | "Binary" =>
    let f ← fields? ["op", "left", "right", "type_mapping"] data
    return .binary (← f.required "op" (plain BinaryOp.decode?)) (← f.required "left" expr)
      (← f.required "right" expr) (← f.optional "type_mapping" TypeMapping.decode?)
  | "Unary" =>
    let f ← fields? ["op", "operand", "type_mapping"] data
    return .unary (← f.required "op" (plain UnaryOp.decode?)) (← f.required "operand" expr)
      (← f.optional "type_mapping" TypeMapping.decode?)
  | "Function" =>
    let f ← fields? ["name", "args", "is_scoring", "data_type", "type_mapping"] data
    return .function (← f.required "name" (plain text?)) (← f.required "args" (list? expr))
      (← f.required "is_scoring" (plain flag?)) (← f.required "data_type" (plain DataType.decode?))
      (← f.optional "type_mapping" TypeMapping.decode?)
  | "In" =>
    let f ← fields? ["item", "values"] data
    let item ← f.required "item" expr
    match ← f.required "values" variant? with
    | ("List", values) => return .inList item (← list? expr values)
    | ("Parameter", values) => return .inParameter item (← CollectionParameter.decode? values)
    | ("Subquery", values) => return .inSubquery item (← select? expr values)
    | _ => none
  | _ => none

theorem sizeOf_tagged_lt (tag : String) (data : Json) :
    sizeOf data < sizeOf (Json.object [(tag, data)]) := by
  simp only [Json.object.sizeOf_spec, List.cons.sizeOf_spec, Prod.mk.sizeOf_spec]
  omega

def decode? (j : Json) : Option Expr := do
  match h : j with
  | .object [(tag, data)] =>
    ofVariant? (w := j) (fun part => decode? part.1) tag ⟨data, h ▸ sizeOf_tagged_lt tag data⟩
  | _ => none
termination_by sizeOf j
decreasing_by
  have := part.2
  simp_all

end Expr

def SelectOf.decode? {w : Json} (p : Part w) : Option Select := select? (plain Expr.decode?) p

/-! ## 4. Queries and shapers -/

namespace PointLookup

def encode (l : PointLookup) : Json :=
  .object [("container", .string l.container), ("entity_type", l.entityType.encode),
    ("property_parameters", dictionaryOf Json.string l.propertyParameters)]

def decode? {w : Json} (p : Part w) : Option PointLookup := do
  let f ← fields? ["container", "entity_type", "property_parameters"] p
  return {
    container := ← f.required "container" (plain text?)
    entityType := ← f.required "entity_type" EntityType.decode?
    propertyParameters := ← f.required "property_parameters" (dictionary? (plain text?)) }

end PointLookup

def SetOperator.encode (op : SetOperator) : Json := .string op.name

def SetOperator.decode? : Json → Option SetOperator :=
  named? [.union, .intersect, .except] SetOperator.name

namespace Query

def encode : Query → Json
  | .select s => variant "Select" s.encode
  | .lookup l => variant "ReadItem" l.encode
  | .setOperation op left right =>
    variant "SetOperation" (.object [("kind", op.encode), ("left", left.encode),
      ("right", right.encode)])

def decode? {w : Json} (p : Part w) : Option Query := do
  match ← variant? p with
  | ("Select", data) => return .select (← SelectOf.decode? data)
  | ("ReadItem", data) => return .lookup (← PointLookup.decode? data)
  | ("SetOperation", data) =>
    let f ← fields? ["kind", "left", "right"] data
    return .setOperation (← f.required "kind" (plain SetOperator.decode?))
      (← f.required "left" SelectOf.decode?) (← f.required "right" SelectOf.decode?)
  | _ => none

end Query

namespace Shaper

mutual

def encode : Shaper → Json
  | .binding index type nullable =>
    variant "ProjectionBinding" (.object [("index", .ofInt index), ("data_type", type.encode),
      ("nullable", .bool nullable)])
  | .entity entityType index nullable =>
    variant "Entity" (.object [("entity_type", .string entityType), ("binding", .ofInt index),
      ("nullable", .bool nullable)])
  | .record fields => variant "Record" (.array (encodeFields fields))
  | .constant value => variant "Constant" value.encode

def encodeFields : List (String × Shaper) → List Json
  | [] => []
  | (name, shaper) :: rest => .array [.string name, shaper.encode] :: encodeFields rest

end

/-- Reads the node of a tag; `shaper` reads the shapers inside it. -/
def ofVariant? {w : Json} (shaper : Part w → Option Shaper) (tag : String) (data : Part w) :
    Option Shaper := do
  match tag with
  | "ProjectionBinding" =>
    let f ← fields? ["index", "data_type", "nullable"] data
    return .binding (← f.required "index" (plain nat?))
      (← f.required "data_type" (plain DataType.decode?)) (← f.required "nullable" (plain flag?))
  | "Entity" =>
    let f ← fields? ["entity_type", "binding", "nullable"] data
    return .entity (← f.required "entity_type" (plain text?)) (← f.required "binding" (plain nat?))
      (← f.required "nullable" (plain flag?))
  | "Record" => return .record (← list? (pair? (plain text?) shaper) data)
  | "Constant" => return .constant (← plain Scalar.decode? data)
  | _ => none

def decode? (j : Json) : Option Shaper := do
  match h : j with
  | .object [(tag, data)] =>
    ofVariant? (w := j) (fun part => decode? part.1) tag ⟨data, by simp [h]; omega⟩
  | _ => none
termination_by sizeOf j
decreasing_by
  have := part.2
  simp_all

end Shaper

namespace ShapedQuery

def encode (s : ShapedQuery) : Json :=
  .object [("query", s.query.encode), ("shaper", s.shaper.encode)]

def decode? {w : Json} (p : Part w) : Option ShapedQuery := do
  let f ← fields? ["query", "shaper"] p
  return ⟨← f.required "query" Query.decode?, ← f.required "shaper" (plain Shaper.decode?)⟩

end ShapedQuery

end DocQuery
