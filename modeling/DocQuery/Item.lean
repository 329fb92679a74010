/-
# Results

What rows are shaped into.  An entity instance has an identity, a number that is given to it once
when it is made: two entities are the same object when their numbers are equal, whatever they hold.
-/
import DocQuery.RowShaper
import DocQuery.Text.Debug

namespace DocQuery

inductive Item where
  | null
  | value (s : Scalar)
  /-- An instance with its properties and its owned navigations, which are sorted by name. -/
  | entity (id : Nat) (entityType : String) (values : Dictionary Scalar)
      (embedded : List (String × Item))
  | record (fields : List (String × Item))
  | list (items : List Item)

instance : Inhabited Item := ⟨.null⟩

namespace Item

/-! ## 1. JSON values of results -/

mutual

/-- The JSON value of a result: an entity is the object of its properties and navigations. -/
def toJson : Item → Json
  | .null => .null
  | .value s => s.toJson
  | .entity _ _ values embedded => .object (insertFields (values.map Scalar.toJson).entries embedded)
  | .record fields => .object (insertFields [] fields)
  | .list items => .array (itemsToJson items)

/-- Adds the values of fields to a sorted object; of repeated names the last one counts. -/
def insertFields (sorted : List (String × Json)) : List (String × Item) → List (String × Json)
  | [] => sorted
  | (name, item) :: rest => insertFields (insertAscending name item.toJson sorted) rest

def itemsToJson : List Item → List Json
  | [] => []
  | item :: rest => item.toJson :: itemsToJson rest

end

theorem insertFields_eq_foldl : ∀ (fields : List (String × Item)) (sorted : List (String × Json)),
    insertFields sorted fields =
      (fields.map fun f => (f.1, f.2.toJson)).foldl
        (fun sorted f => insertAscending f.1 f.2 sorted) sorted
  | [], sorted => by
    rw [insertFields]
    rfl
  | (name, item) :: rest, sorted => by
    rw [insertFields, insertFields_eq_foldl rest]
    rfl

theorem itemsToJson_eq_map : ∀ items : List Item, itemsToJson items = items.map toJson
  | [] => by
    rw [itemsToJson]
    rfl
  | item :: rest => by
    rw [itemsToJson, itemsToJson_eq_map rest]
    rfl

end Item

/-! ## 2. Diagnostic texts -/

/-- Puts `, ` between texts. -/
def commaSeparated (parts : List (List Char)) : List Char := List.intercalate [',', ' '] parts

/-- A tag around a text. -/
def wrapped (tag : String) (body : List Char) : List Char := tag.toList ++ '(' :: body ++ [')']

def bracketed (parts : List (List Char)) : List Char := '[' :: commaSeparated parts ++ [']']

def braced (parts : List (List Char)) : List Char := '\x7b' :: commaSeparated parts ++ ['\x7d']

namespace Scalar

def debug : Scalar → List Char
  | .null => "Null".toList
  | .bool b => wrapped "Bool" (boolText b).toList
  | .int32 n => wrapped "I32" (Layout.integerText n.toInt)
  | .int64 n => wrapped "I64" (Layout.integerText n.toInt)
  | .float32 x => wrapped "F32" (Layout.debugSingle.writeDouble x)
  | .float64 x => wrapped "F64" (Layout.debugDouble.writeDouble x)
  | .text s => wrapped "Str" (Text.debugQuote s)
  | .binary bytes => wrapped "Bin" (bracketed (bytes.map fun b => Layout.digitsOf b.toNat))

end Scalar

def ValueAccess.debug : ValueAccess → List Char
  | .path names => wrapped "Path" (bracketed (names.map Text.debugQuote))
  | .ordinal index => wrapped "Ordinal" (Layout.digitsOf index)

namespace Item

mutual

def debug : Item → List Char
  | .null => "Null".toList
  | .value s => wrapped "Value" s.debug
  | .entity _ entityType values embedded =>
    let properties := values.entries.map fun e => Text.debugQuote e.1 ++ ':' :: ' ' :: e.2.debug
    wrapped "Entity" ("EntityInstance ".toList ++ braced [
      " entity_type: ".toList ++ Text.debugQuote entityType,
      "values: ".toList ++ braced properties,
      "embedded: ".toList ++ braced (debugMembers embedded) ++ [' ']])
  | .record fields => wrapped "Record" (bracketed (debugFields fields))
  | .list items => wrapped "List" (bracketed (debugItems items))

/-- Members of a map: `"name": item`. -/
def debugMembers : List (String × Item) → List (List Char)
  | [] => []
  | (name, item) :: rest =>
    (Text.debugQuote name ++ ':' :: ' ' :: item.debug) :: debugMembers rest

/-- Fields of a record: `("name", item)`. -/
def debugFields : List (String × Item) → List (List Char)
  | [] => []
  | (name, item) :: rest =>
    ('(' :: Text.debugQuote name ++ ',' :: ' ' :: item.debug ++ [')']) :: debugFields rest

def debugItems : List Item → List (List Char)
  | [] => []
  | item :: rest => item.debug :: debugItems rest

end

end Item

end DocQuery
