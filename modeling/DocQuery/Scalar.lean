/-
# Scalars

The values of constants, parameters and result columns.  This module holds the passage between
scalars and JSON values and the order in which scalars sort.

* `Scalar.ofJsonAs?` reads a JSON value at a declared type and refuses what does not fit.
* `Scalar.compare` puts null first, then booleans, numbers, texts and byte strings.  Integers of one
  width compare exactly and other pairs of numbers as doubles, so numbers far apart in kind but close
  in value need not sort transitively.
-/
import DocQuery.DataType
import DocQuery.Json.Writer

namespace DocQuery

inductive Scalar where
  | null
  | bool (value : Bool)
  | int32 (value : Int32)
  | int64 (value : Int64)
  | float32 (value : Double)
  | float64 (value : Double)
  | text (value : String)
  | binary (bytes : List UInt8)
deriving DecidableEq

namespace Scalar

/-- The type of a value; null carries none. -/
def dataType? : Scalar → Option DataType
  | .null => none
  | .bool _ => some .boolean
  | .int32 _ => some .int32
  | .int64 _ => some .int64
  | .float32 _ => some .float32
  | .float64 _ => some .float64
  | .text _ => some .utf8
  | .binary _ => some .binary

def isNull : Scalar → Bool
  | .null => true
  | _ => false

/-- The number a scalar stands for, rounded to a double. -/
def asDouble? : Scalar → Option Double
  | .int32 n => some (.ofInt n.toInt)
  | .int64 n => some (.ofInt n.toInt)
  | .float32 x | .float64 x => some x
  | _ => none

/-- Equality with floats compared by value: NaN differs from itself and the zeros are equal. -/
def same : Scalar → Scalar → Bool
  | .float32 x, .float32 y | .float64 x, .float64 y => x.equal y
  | a, b => a == b

/-! ## 1. Passage to and from JSON values -/

/-- The JSON value of a scalar; floats that are not finite become null. -/
def toJson : Scalar → Json
  | .null => .null
  | .bool b => .bool b
  | .int32 n => .ofInt n.toInt
  | .int64 n => .ofInt n.toInt
  | .float32 x | .float64 x => .ofDouble x
  | .text s => .string s
  | .binary bytes => .array (bytes.map fun b => .ofInt b.toNat)

/-- Reads a JSON value by its own kind.  Integers take the narrowest width, integers beyond 64
signed bits become floats, and arrays and objects are held as their JSON text. -/
def ofJson : Json → Scalar
  | .null => .null
  | .bool b => .bool b
  | .number n => match n with
    | .integer i =>
      if fitsInt32 i then .int32 (.ofInt i)
      else if fitsInt64 i then .int64 (.ofInt i)
      else .float64 n.toDouble
    | n => .float64 n.toDouble
  | .string s => .text s
  | j => .text j.text

/-- A JSON integer between 0 and 255. -/
def byte? (j : Json) : Option UInt8 :=
  j.asNat?.bind fun n => if n < 256 then some (.ofNat n) else none

/-- Reads a JSON value as the declared type; null fits every type. -/
def ofJsonAs? (type : DataType) (j : Json) : Option Scalar :=
  if j.isNull then some .null
  else match type with
    | .boolean => j.asBool?.map .bool
    | .int32 => j.asInt64?.bind fun n => if fitsInt32 n then some (.int32 (.ofInt n)) else none
    | .int64 | .date64 => j.asInt64?.map fun n => .int64 (.ofInt n)
    | .float32 => j.asDouble?.map fun x => .float32 x.toSingle
    | .float64 | .decimal128 => j.asDouble?.map .float64
    | .utf8 => j.asString?.map .text
    | .binary => j.asArray?.bind fun items => (items.mapM byte?).map .binary
    | .object => some (ofJson j)

/-! ## 2. Order -/

/-- The place of a kind of scalar among the others. -/
def rank : Scalar → Nat
  | .null => 0
  | .bool _ => 1
  | .int32 _ | .int64 _ | .float32 _ | .float64 _ => 2
  | .text _ => 3
  | .binary _ => 4

/-- Lexicographic comparison of two lists; a list comes before its extensions. -/
def compareLists {α : Type} (cmp : α → α → Ordering) : List α → List α → Ordering
  | [], [] => .eq
  | [], _ :: _ => .lt
  | _ :: _, [] => .gt
  | a :: as, b :: bs => (cmp a b).then (compareLists cmp as bs)

/-- Compares two scalars for sorting.  Integers of one width compare exactly, all other pairs of
numbers as doubles with NaN last, and values of unrelated kinds by their kind. -/
def compare : Scalar → Scalar → Ordering
  | .bool a, .bool b => Ord.compare a.toNat b.toNat
  | .int32 a, .int32 b => Ord.compare a.toInt b.toInt
  | .int64 a, .int64 b => Ord.compare a.toInt b.toInt
  | .text a, .text b => Ord.compare a b
  | .binary a, .binary b => compareLists (fun x y => Ord.compare x.toNat y.toNat) a b
  | a, b => match a.asDouble?, b.asDouble? with
    | some x, some y => x.compareNaNLast y
    | _, _ => Ord.compare a.rank b.rank

/-- Compares two tuples lexicographically. -/
def compareTuples (a b : List Scalar) : Ordering := compareLists compare a b

/-! ## 3. Texts -/

/-- Two lower-case hexadecimal digits. -/
def hexByte (b : UInt8) : List Char := [Json.hexDigit (b.toNat / 16), Json.hexDigit b.toNat]

def boolText (b : Bool) : String := if b then "true" else "false"

/-- The text of a key value inside a document id or as a partition key. -/
def keyText : Scalar → String
  | .null => ""
  | .bool b => boolText b
  | .int32 n => String.ofList (Layout.integerText n.toInt)
  | .int64 n => String.ofList (Layout.integerText n.toInt)
  | .float32 x => String.ofList (Layout.plainSingle.writeDouble x)
  | .float64 x => String.ofList (Layout.plainDouble.writeDouble x)
  | .text s => s
  | .binary bytes => String.ofList (bytes.flatMap hexByte)

end Scalar

/-- The JSON form in which a scalar is given to a store as a command literal. -/
def Scalar.literal : Scalar → List Char
  | .null => ['n', 'u', 'l', 'l']
  | .text s => Json.quote s
  | .binary bytes => (Scalar.binary bytes).toJson.write
  | s => s.keyText.toList

/-- The key of one entity instance.  Keys are equal when they compare equal. -/
def sameKey (a b : List Scalar) : Bool := Scalar.compareTuples a b == .eq

end DocQuery
