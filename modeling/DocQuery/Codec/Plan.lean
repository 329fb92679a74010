/-
# Serialized form of row shapers, constants and plans
-/
import DocQuery.Codec.Query
import DocQuery.Plan

namespace DocQuery

open Codec

/-! ## 1. Row shapers -/

namespace ValueAccess

def encode : ValueAccess → Json
  | .path names => variant "Path" (textList names)
  | .ordinal index => variant "Ordinal" (.ofInt index)

def decode? {w : Json} (p : Part w) : Option ValueAccess := do
  match ← variant? p with
  | ("Path", data) => return .path (← texts? data)
  | ("Ordinal", data) => return .ordinal (← plain nat? data)
  | _ => none

end ValueAccess

namespace IdentityMode

def name : IdentityMode → String
  | .none => "None"
  | .perQuery => "PerQuery"
  | .tracked => "Tracked"

def encode (m : IdentityMode) : Json := .string m.name

def decode? : Json → Option IdentityMode := named? [.none, .perQuery, .tracked] name

end IdentityMode

namespace PropertyRead

def encode (r : PropertyRead) : Json :=
  .object [("name", .string r.name), ("json_name", .string r.jsonName),
    ("data_type", r.dataType.encode), ("nullable", .bool r.nullable)]

def decode? {w : Json} (p : Part w) : Option PropertyRead := do
  let f ← fields? ["name", "json_name", "data_type", "nullable"] p
  return {
    name := ← f.required "name" (plain text?)
    jsonName := ← f.required "json_name" (plain text?)
    dataType := ← f.required "data_type" (plain DataType.decode?)
    nullable := ← f.required "nullable" (plain flag?) }

end PropertyRead

namespace RowShaper

mutual

def encode : RowShaper → Json
  | .read access type nullable =>
    variant "Read" (.object [("access", access.encode), ("data_type", type.encode),
      ("nullable", .bool nullable)])
  | .entity info embedded =>
    variant "Entity" (.object [("entity_type", .string info.entityType),
      ("path", textList info.path), ("nullable", .bool info.nullable),
      ("properties", listOf PropertyRead.encode info.properties), ("key", textList info.key),
      ("identity", info.identity.encode), ("embedded", .array (encodeFields embedded))])
  | .collection path element =>
    variant "Collection" (.object [("path", textList path), ("element", element.encode)])
  | .record fields => variant "Record" (.array (encodeFields fields))
  | .constant value => variant "Constant" value.encode

def encodeFields : List (String × RowShaper) → List Json
  | [] => []
  | (name, s) :: rest => .array [.string name, s.encode] :: encodeFields rest

end

/-- Reads the node of a tag; `shaper` reads the shapers inside it. -/
def ofVariant? {w : Json} (shaper : Part w → Option RowShaper) (tag : String) (data : Part w) :
    Option RowShaper := do
  match tag with
  | "Read" =>
    let f ← fields? ["access", "data_type", "nullable"] data
    return .read (← f.required "access" ValueAccess.decode?)
      (← f.required "data_type" (plain DataType.decode?)) (← f.required "nullable" (plain flag?))
  | "Entity" =>
    let f ← fields? ["entity_type", "path", "nullable", "properties", "key", "identity",
      "embedded"] data
    let info : EntityRead := {
      entityType := ← f.required "entity_type" (plain text?)
      path := ← f.required "path" texts?
      nullable := ← f.required "nullable" (plain flag?)
      properties := ← f.required "properties" (list? PropertyRead.decode?)
      key := ← f.required "key" texts?
      identity := ← f.required "identity" (plain IdentityMode.decode?) }
    return .entity info (← f.required "embedded" (list? (pair? (plain text?) shaper)))
  | "Collection" =>
    let f ← fields? ["path", "element"] data
    return .collection (← f.required "path" texts?) (← f.required "element" shaper)
  | "Record" => return .record (← list? (pair? (plain text?) shaper) data)
  | "Constant" => return .constant (← plain Scalar.decode? data)
  | _ => none

def decode? (j : Json) : Option RowShaper := do
  match h : j with
  | .object [(tag, data)] =>
    ofVariant? (w := j) (fun part => decode? part.1) tag ⟨data, by simp [h]; omega⟩
  | _ => none
termination_by sizeOf j
decreasing_by
  have := part.2
  simp_all

end RowShaper

/-! ## 2. Constants -/

namespace ConstantType

def name : ConstantType → String
  | .sqlGeneratorFactory => "SqlGeneratorFactory"
  | .sqlExpressionFactory => "SqlExpressionFactory"
  | .entityType => "EntityType"
  | .property => "Property"

def encode (t : ConstantType) : Json := .string t.name

def decode? : Json → Option ConstantType :=
  named? [.sqlGeneratorFactory, .sqlExpressionFactory, .entityType, .property] name

end ConstantType

namespace Resolution

def encode : Resolution → Json
  | .sqlGeneratorFactory => .string "SqlGeneratorFactory"
  | .sqlExpressionFactory => .string "SqlExpressionFactory"
  | .entityType name => variant "EntityType" (.object [("name", .string name)])
  | .property owner name =>
    variant "Property" (.object [("entity_type", .string owner), ("property", .string name)])

def ofVariant? {w : Json} (p : Part w) : Option Resolution := do
  match ← variant? p with
  | ("EntityType", data) =>
    let f ← fields? ["name"] data
    return .entityType (← f.required "name" (plain text?))
  | ("Property", data) =>
    let f ← fields? ["entity_type", "property"] data
    return .property (← f.required "entity_type" (plain text?))
      (← f.required "property" (plain text?))
  | _ => none

def decode? {w : Json} (p : Part w) : Option Resolution :=
  match tag? p.1 with
  | some "SqlGeneratorFactory" => some .sqlGeneratorFactory
  | some "SqlExpressionFactory" => some .sqlExpressionFactory
  | _ => ofVariant? p

end Resolution

namespace ConstantSlot

def encode (s : ConstantSlot) : Json :=
  .object [("name", .string s.name), ("resolution", s.resolution.encode),
    ("declared", s.declared.encode)]

def decode? {w : Json} (p : Part w) : Option ConstantSlot := do
  let f ← fields? ["name", "resolution", "declared"] p
  return ⟨← f.required "name" (plain text?), ← f.required "resolution" Resolution.decode?,
    ← f.required "declared" (plain ConstantType.decode?)⟩

end ConstantSlot

namespace FrozenConstants

def encode (c : FrozenConstants) : Json := .object [("slots", listOf ConstantSlot.encode c.slots)]

def decode? {w : Json} (p : Part w) : Option FrozenConstants := do
  let f ← fields? ["slots"] p
  return ⟨← f.required "slots" (list? ConstantSlot.decode?)⟩

end FrozenConstants

/-! ## 3. Plans -/

namespace QuotedLookup

def encode (q : QuotedLookup) : Json :=
  .object [("container", .string q.container), ("entity_type", .string q.entityType),
    ("property_parameters",
      listOf (fun e => .array [.string e.1, .string e.2]) q.propertyParameters)]

def decode? {w : Json} (p : Part w) : Option QuotedLookup := do
  let f ← fields? ["container", "entity_type", "property_parameters"] p
  return {
    container := ← f.required "container" (plain text?)
    entityType := ← f.required "entity_type" (plain text?)
    propertyParameters :=
      ← f.required "property_parameters" (list? (pair? (plain text?) (plain text?))) }

end QuotedLookup

namespace Plan

/-- The members that both kinds of plan end with. -/
def encodeRest (p : Plan) : List (String × Json) :=
  [("shaper", p.shaper.encode), ("context_type", .string p.contextType),
    ("partition_key", optionally Json.string p.partitionKey),
    ("standalone_state_manager", .bool p.standaloneStateManager),
    ("thread_safety_checks_enabled", .bool p.threadSafetyChecks)]

def encodeSource (p : Plan) : Json :=
  match p.source with
  | .select generator expressions s =>
    variant "Querying" (.object (("sql_generator_factory", .string generator) ::
      ("sql_expression_factory", .string expressions) :: ("select", s.encode) :: p.encodeRest))
  | .lookup l => variant "ReadItem" (.object (("read_item", l.encode) :: p.encodeRest))

def encode (p : Plan) : Json :=
  .object [("constructor", p.encodeSource), ("constants", p.constants.encode)]

def restFields : List String :=
  ["shaper", "context_type", "partition_key", "standalone_state_manager",
    "thread_safety_checks_enabled"]

/-- The plan of a source, its other fields and its constants. -/
def ofFields? {w : Json} (source : PlanSource) (f : Fields w) (constants : FrozenConstants) :
    Option Plan := do
  return {
    source
    shaper := ← f.required "shaper" (plain RowShaper.decode?)
    contextType := ← f.required "context_type" (plain text?)
    partitionKey := ← f.optional "partition_key" (plain text?)
    standaloneStateManager := ← f.required "standalone_state_manager" (plain flag?)
    threadSafetyChecks := ← f.required "thread_safety_checks_enabled" (plain flag?)
    constants }

def decode? {w : Json} (p : Part w) : Option Plan := do
  let f ← fields? ["constructor", "constants"] p
  let constants ← f.required "constants" FrozenConstants.decode?
  match ← f.required "constructor" variant? with
  | ("Querying", data) =>
    let f ← fields? ("sql_generator_factory" :: "sql_expression_factory" :: "select" :: restFields)
      data
    let source : PlanSource := .select (← f.required "sql_generator_factory" (plain text?))
      (← f.required "sql_expression_factory" (plain text?)) (← f.required "select" SelectOf.decode?)
    ofFields? source f constants
  | ("ReadItem", data) =>
    let f ← fields? ("read_item" :: restFields) data
    ofFields? (.lookup (← f.required "read_item" QuotedLookup.decode?)) f constants
  | _ => none

end Plan

end DocQuery
