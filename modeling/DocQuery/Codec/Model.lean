/-
# Serialized form of scalars, parameters, models and configurations

Members are written in declared order.  Floats that are not finite are written as the strings
`NaN`, `Infinity` and `-Infinity`, so that they differ from null and from each other.
-/
import DocQuery.Codec.Fields
import DocQuery.Config
import DocQuery.Model
import DocQuery.Parameters

namespace DocQuery

open Codec

/-! ## 1. Types and scalars -/

def DataType.encode (t : DataType) : Json := .string t.name

def DataType.decode? : Json → Option DataType := named? DataType.all DataType.name

def TypeMapping.encode (m : TypeMapping) : Json :=
  .object [("data_type", m.dataType.encode), ("store_type", .string m.storeType)]

def TypeMapping.decode? {w : Json} (p : Part w) : Option TypeMapping := do
  let f ← fields? ["data_type", "store_type"] p
  return ⟨← f.required "data_type" (plain DataType.decode?), ← f.required "store_type" (plain text?)⟩

/-- A float as a number of the given kind or, when it is not finite, as a string. -/
def Double.encode (number : Finite → Number) : Double → Json
  | .nan => .string "NaN"
  | .infinite false => .string "Infinity"
  | .infinite true => .string "-Infinity"
  | .finite x => .number (number x)

def Double.decode? : Json → Option Double
  | .number n => some n.toDouble
  | .string "NaN" => some .nan
  | .string "Infinity" => some (.infinite false)
  | .string "-Infinity" => some (.infinite true)
  | _ => none

namespace Scalar

def encode : Scalar → Json
  | .null => .string "Null"
  | .bool b => variant "Bool" (.bool b)
  | .int32 n => variant "I32" (.ofInt n.toInt)
  | .int64 n => variant "I64" (.ofInt n.toInt)
  | .float32 x => variant "F32" (x.encode .single)
  | .float64 x => variant "F64" (x.encode .double)
  | .text s => variant "Str" (.string s)
  | .binary bytes => variant "Bin" (.array (bytes.map fun b => .ofInt b.toNat))

def int32? (j : Json) : Option Int32 :=
  j.asInt64?.bind fun n => if fitsInt32 n then some (.ofInt n) else none

def int64? (j : Json) : Option Int64 := j.asInt64?.map .ofInt

/-- The scalar of a tag and its data. -/
def ofVariant? (tag : String) (data : Json) : Option Scalar :=
  match tag with
  | "Bool" => (flag? data).map .bool
  | "I32" => (int32? data).map .int32
  | "I64" => (int64? data).map .int64
  | "F32" => (Double.decode? data).map fun x => .float32 x.toSingle
  | "F64" => (Double.decode? data).map .float64
  | "Str" => (text? data).map .text
  | "Bin" => (data.asArray?.bind fun items => items.mapM byte?).map .binary
  | _ => none

def decode? (j : Json) : Option Scalar :=
  if tag? j = some "Null" then some .null
  else match j with
    | .object [(tag, data)] => ofVariant? tag data
    | _ => none

end Scalar

namespace ParameterValue

def encode : ParameterValue → Json
  | .scalar s => variant "Scalar" s.encode
  | .collection items => variant "Collection" (listOf Scalar.encode items)

def decode? {w : Json} (p : Part w) : Option ParameterValue := do
  match ← variant? p with
  | ("Scalar", data) => return .scalar (← plain Scalar.decode? data)
  | ("Collection", data) => return .collection (← list? (plain Scalar.decode?) data)
  | _ => none

end ParameterValue

def Parameters.encode (p : Parameters) : Json := dictionaryOf ParameterValue.encode p

def Parameters.decode? {w : Json} (p : Part w) : Option Parameters :=
  dictionary? ParameterValue.decode? p

/-! ## 2. Models -/

namespace Property

def encode (p : Property) : Json :=
  .object [("name", .string p.name), ("data_type", p.dataType.encode), ("nullable", .bool p.nullable),
    ("json_name", .string p.jsonName), ("type_mapping", optionally TypeMapping.encode p.typeMapping)]

def decode? {w : Json} (p : Part w) : Option Property := do
  let f ← fields? ["name", "data_type", "nullable", "json_name", "type_mapping"] p
  return {
    name := ← f.required "name" (plain text?)
    dataType := ← f.required "data_type" (plain DataType.decode?)
    nullable := ← f.required "nullable" (plain flag?)
    jsonName := ← f.required "json_name" (plain text?)
    typeMapping := ← f.optionalDefaulted "type_mapping" TypeMapping.decode? }

end Property

namespace Navigation

def encode (n : Navigation) : Json :=
  .object [("name", .string n.name), ("target", .string n.target), ("json_name", .string n.jsonName),
    ("is_collection", .bool n.isCollection)]

def decode? {w : Json} (p : Part w) : Option Navigation := do
  let f ← fields? ["name", "target", "json_name", "is_collection"] p
  return {
    name := ← f.required "name" (plain text?)
    target := ← f.required "target" (plain text?)
    jsonName := ← f.required "json_name" (plain text?)
    isCollection := ← f.required "is_collection" (plain flag?) }

end Navigation

namespace EntityType

def encode (t : EntityType) : Json :=
  .object [("name", .string t.name), ("container", .string t.container),
    ("properties", listOf Property.encode t.properties), ("key", textList t.key),
    ("partition_key", optionally Json.string t.partitionKey),
    ("embedded", listOf Navigation.encode t.embedded)]

def decode? {w : Json} (p : Part w) : Option EntityType := do
  let f ← fields? ["name", "container", "properties", "key", "partition_key", "embedded"] p
  return {
    name := ← f.required "name" (plain text?)
    container := ← f.required "container" (plain text?)
    properties := ← f.required "properties" (list? Property.decode?)
    key := ← f.required "key" texts?
    partitionKey := ← f.optionalDefaulted "partition_key" (plain text?)
    embedded := ← f.defaulted "embedded" [] (list? Navigation.decode?) }

end EntityType

namespace Model

def encode (m : Model) : Json :=
  .object [("entity_types", dictionaryOf EntityType.encode m.entityTypes)]

def decode? {w : Json} (p : Part w) : Option Model := do
  let f ← fields? ["entity_types"] p
  return ⟨← f.required "entity_types" (dictionary? EntityType.decode?)⟩

end Model

/-! ## 3. Configurations -/

def Tracking.encode (t : Tracking) : Json := .string t.name

def Tracking.decode? : Json → Option Tracking :=
  named? [.trackAll, .noTracking, .identityResolution] Tracking.name

def RowLayout.encode (l : RowLayout) : Json := .string l.name

def RowLayout.decode? : Json → Option RowLayout := named? [.document, .ordinal] RowLayout.name

namespace Overrides

def encode (o : Overrides) : Json :=
  .object [("context", optionally Json.string o.context),
    ("tracking", optionally Json.string o.tracking),
    ("partition_key", optionally Json.string o.partitionKey),
    ("thread_safety_checks", optionally Json.bool o.threadSafetyChecks),
    ("row_layout", optionally RowLayout.encode o.rowLayout)]

def decode? {w : Json} (p : Part w) : Option Overrides := do
  let f ← fields? ["context", "tracking", "partition_key", "thread_safety_checks", "row_layout"] p
  return {
    context := ← f.optionalDefaulted "context" (plain text?)
    tracking := ← f.optionalDefaulted "tracking" (plain text?)
    partitionKey := ← f.optionalDefaulted "partition_key" (plain text?)
    threadSafetyChecks := ← f.optionalDefaulted "thread_safety_checks" (plain flag?)
    rowLayout := ← f.optionalDefaulted "row_layout" (plain RowLayout.decode?) }

end Overrides

namespace Config

def encode (c : Config) : Json :=
  .object [("thread_safety_checks_enabled", .bool c.threadSafetyChecks),
    ("tracking_behavior", c.tracking.encode),
    ("partition_key", optionally Json.string c.partitionKey),
    ("row_layout", c.rowLayout.encode),
    ("plan_cache_capacity", .ofInt c.planCacheCapacity),
    ("sensitive_data_logging", .bool c.sensitiveDataLogging)]

def decode? {w : Json} (p : Part w) : Option Config := do
  let f ← fields? ["thread_safety_checks_enabled", "tracking_behavior", "partition_key",
    "row_layout", "plan_cache_capacity", "sensitive_data_logging"] p
  return {
    threadSafetyChecks := ← f.required "thread_safety_checks_enabled" (plain flag?)
    tracking := ← f.required "tracking_behavior" (plain Tracking.decode?)
    partitionKey := ← f.optional "partition_key" (plain text?)
    rowLayout := ← f.required "row_layout" (plain RowLayout.decode?)
    planCacheCapacity := ← f.required "plan_cache_capacity" (plain nat?)
    sensitiveDataLogging := ← f.required "sensitive_data_logging" (plain flag?) }

end Config

end DocQuery
