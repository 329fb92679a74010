/-
# Keys and ids of documents

A document is found by the values of its key.  Its id is the text of the key: the parts with `\` and
`|` escaped, joined by `|`, so that different keys of one shape have different ids.
-/
import DocQuery.Model
import DocQuery.RunError

namespace DocQuery

/-- Escapes the separator and the escape character. -/
def escapePart : List Char → List Char
  | [] => []
  | c :: rest => if c = '\\' ∨ c = '|' then '\\' :: c :: escapePart rest else c :: escapePart rest

/-- Joins the escaped parts of an id. -/
def joinParts (parts : List (List Char)) : List Char :=
  List.intercalate ['|'] (parts.map escapePart)

/-- The id of a document with this key; a key has at least one part and no nulls. -/
def documentId (key : List Scalar) : Except RunError String :=
  if key.isEmpty then .error (.storage .emptyKey)
  else if key.any Scalar.isNull then .error (.storage .nullInKey)
  else .ok (String.ofList (joinParts (key.map fun s => s.keyText.toList)))

/-- The member of a document that holds a property; null when it is missing. -/
def Json.propertyNode (document : Json) (name : String) : Json :=
  (document.member? name).getD .null

namespace EntityType

/-- The value of one key property in a document. -/
def keyValue (t : EntityType) (document : Json) (p : Property) : Except RunError Scalar :=
  match Scalar.ofJsonAs? p.dataType (document.propertyNode p.jsonName) with
  | some s => .ok s
  | none => .error (.storage (.badKey p.name t.name p.dataType))

/-- The key of a document. -/
def keyValues (t : EntityType) (document : Json) : Except RunError (List Scalar) := do
  (← RunError.lift t.keyProperties).mapM (t.keyValue document)

/-- The partition a document belongs to: the text of its partition key property.  A document whose
property is null or unreadable belongs to none. -/
def partition (t : EntityType) (document : Json) : Except RunError (Option String) :=
  match t.partitionKey with
  | none => .ok none
  | some name => do
    let p ← RunError.lift (t.property name)
    return match Scalar.ofJsonAs? p.dataType (document.propertyNode p.jsonName) with
      | none | some .null => none
      | some s => some s.keyText

end EntityType

end DocQuery
