/-
# Data types

The declared types of properties and expressions, and the mapping of a type to the name it has in
a store.
-/

namespace DocQuery

inductive DataType where
  | boolean
  | int32
  | int64
  | float32
  | float64
  | utf8
  | binary
  | date64
  | decimal128
  /-- No static type is known. -/
  | object
deriving DecidableEq

namespace DataType

/-- All types, in declaration order. -/
def all : List DataType :=
  [.boolean, .int32, .int64, .float32, .float64, .utf8, .binary, .date64, .decimal128, .object]

/-- The name a type is written with. -/
def name : DataType → String
  | .boolean => "Boolean"
  | .int32 => "Int32"
  | .int64 => "Int64"
  | .float32 => "Float32"
  | .float64 => "Float64"
  | .utf8 => "Utf8"
  | .binary => "Binary"
  | .date64 => "Date64"
  | .decimal128 => "Decimal128"
  | .object => "Object"

/-- The type with exactly this name. -/
def ofName? (s : String) : Option DataType := all.find? fun t => t.name == s

/-- Reads a name or one of the short spellings that definitions may use. -/
def parse? (s : String) : Option DataType :=
  match s with
  | "Boolean" | "bool" => some .boolean
  | "Int32" | "i32" | "int" => some .int32
  | "Int64" | "i64" | "long" => some .int64
  | "Float32" | "f32" => some .float32
  | "Float64" | "f64" | "double" => some .float64
  | "Utf8" | "string" => some .utf8
  | "Binary" | "bytes" => some .binary
  | "Date64" => some .date64
  | "Decimal128" | "decimal" => some .decimal128
  | "Object" | "object" => some .object
  | _ => none

end DataType

/-- A type together with the name of the store type it is bound as. -/
structure TypeMapping where
  dataType : DataType
  storeType : String
deriving DecidableEq

/-- The kind of document value that holds a type. -/
def DataType.defaultStoreType : DataType → String
  | .boolean => "boolean"
  | .int32 | .int64 | .float32 | .float64 | .date64 | .decimal128 => "number"
  | .utf8 => "string"
  | .binary => "array"
  | .object => "any"

def DataType.defaultMapping (t : DataType) : TypeMapping := ⟨t, t.defaultStoreType⟩

end DocQuery
