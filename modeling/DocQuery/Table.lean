/-
# Documents in tables

A table has a header and a record per document.  A column is a property by its name or by its name
in documents; the property's type says how the cells are read, and an empty cell is null.  Other
columns hold texts.
-/
import DocQuery.Csv
import DocQuery.Number.Literal
import DocQuery.Store

namespace DocQuery

inductive TableFault where
  /-- A record is longer or shorter than the header, or the text is not UTF-8. -/
  | malformed
  | badCell (column cell : String) (type : DataType)
  | refused (e : RunError)

def TableFault.message : TableFault → String
  | .malformed => "CSV error"
  | .badCell column cell type => s!"column '{column}' value '{cell}' is not a {type.name}"
  | .refused e => e.message

/-! ## 1. Cells -/

/-- A cell that is not empty as a value of a type.  A number without a finite value is null. -/
def DataType.readCell? (type : DataType) (cell : String) : Option Json :=
  match type with
  | .boolean => (Config.boolOfText? cell).map .bool
  | .int32 | .int64 | .date64 =>
    (integer? cell.toList).bind fun n => if fitsInt64 n then some (.ofInt n) else none
  | .float32 | .float64 | .decimal128 => (Double.ofText? cell.toList).map .ofDouble
  | .utf8 => some (.string cell)
  | .binary | .object => (Json.parse? cell).map Json.canonical

namespace EntityType

/-- The property that a column holds. -/
def column? (t : EntityType) (header : String) : Option Property :=
  t.properties.find? fun p => p.name == header || p.jsonName == header

/-- The member of a document that a cell gives. -/
def readCell (t : EntityType) (header cell : String) : Except TableFault (String × Json) :=
  match t.column? header with
  | none => .ok (header, .string cell)
  | some p =>
    if cell.isEmpty then .ok (p.jsonName, .null)
    else match p.dataType.readCell? cell with
      | none => .error (.badCell header cell p.dataType)
      | some value => .ok (p.jsonName, value)

/-- The document of a record; of the cells for one member the last counts. -/
def readRecord (t : EntityType) (header record : List String) : Except TableFault Json := do
  let members ← (header.zip record).mapM fun c => t.readCell c.1 c.2
  return .ofDictionary (.ofList members)

end EntityType

/-! ## 2. Tables -/

namespace Store

/-- Stores the document of a record. -/
def loadRecord (s : Store) (t : EntityType) (header record : List String) :
    Except TableFault Store :=
  if record.length ≠ header.length then .error .malformed
  else do
    let document ← t.readRecord header record
    match s.insert t document with
    | .error e => .error (.refused e)
    | .ok (_, s) => return s

/-- Stores the documents of a table in their order. -/
def loadTable (s : Store) (t : EntityType) (bytes : List UInt8) : Except TableFault Store :=
  match utf8? bytes with
  | none => .error .malformed
  | some text => match Csv.records text.toList with
    | [] => .ok s
    | header :: records => records.foldlM (fun s record => s.loadRecord t header record) s

end Store

end DocQuery
