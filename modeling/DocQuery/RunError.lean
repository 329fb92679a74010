/-
# Errors of execution

What a store refuses, what a row does to its shaper, and what a session refuses.  Errors of
compilation may also arise while a plan runs and stay what they are.
-/
import DocQuery.Error
import DocQuery.Item

namespace DocQuery

inductive StorageFault where
  | unknownSource (source : String)
  | unsupportedFunction (name : String)
  /-- An offset or limit that is not a natural number. -/
  | badBound (what : String) (value : Json)
  | notAnObject (entityType : String)
  /-- A line that is not JSON, counted from 1. -/
  | badLine (number : Nat)
  | notUtf8
  | emptyKey
  | nullInKey
  | badKey (property entityType : String) (type : DataType)

inductive MaterializeFault where
  | noOrdinal (index : Nat)
  | layoutMismatch (access : ValueAccess)
  | badValue (value : Json) (type : DataType)
  | nullValue
  | entityFromOrdinals
  | notAnArray (value : Json)
  | unknownProperty (entityType property : String)
  | badProperty (entityType property : String) (value : Json) (type : DataType)
  | missingProperty (entityType property : String)
  | missingEntity (entityType : String)
  | keyWithoutParameter (key : String)
  | notAScalar (item : Item)
  | notAnEntity (item : Item)

inductive RunError where
  | query (e : QueryError)
  | storage (fault : StorageFault)
  | materialize (fault : MaterializeFault)
  /-- An operation was started while another one was under way. -/
  | concurrentUse
  | contextMismatch (expected actual : String)
  /-- The sort found that the comparison of the rows is no order.  The process ends with this. -/
  | unordered

def StorageFault.message : StorageFault → String
  | .unknownSource source => s!"unknown source alias '{source}'"
  | .unsupportedFunction name => s!"function '{name}' is not supported"
  | .badBound what value => s!"{what} must be a non-negative integer, got {value.text}"
  | .notAnObject entityType => s!"'{entityType}' documents must be JSON objects"
  | .badLine number => s!"line {number}"
  | .notUtf8 => "stream did not contain valid UTF-8"
  | .emptyKey => "document id needs at least one key value"
  | .nullInKey => "document id cannot contain null key values"
  | .badKey property entityType type => s!"key '{property}' of '{entityType}' is not a {type.name}"

def MaterializeFault.message : MaterializeFault → String
  | .noOrdinal index => s!"row has no ordinal {index}"
  | .layoutMismatch access => s!"{String.ofList access.debug} does not match the row layout"
  | .badValue value type => s!"value {value.text} is not a {type.name}"
  | .nullValue => "null read for a non-nullable value"
  | .entityFromOrdinals => "entities cannot be read from ordinal rows"
  | .notAnArray value => s!"expected an array, found {value.text}"
  | .unknownProperty entityType property => s!"'{entityType}' has no property '{property}'"
  | .badProperty entityType property value type =>
    s!"property '{entityType}.{property}' holds {value.text} which is not a {type.name}"
  | .missingProperty entityType property =>
    s!"required property '{entityType}.{property}' is missing"
  | .missingEntity entityType => s!"required '{entityType}' entity is missing from the row"
  | .keyWithoutParameter key => s!"point lookup has no parameter for key '{key}'"
  | .notAScalar item => s!"expected a scalar result, got {String.ofList item.debug}"
  | .notAnEntity item => s!"expected an entity result, got {String.ofList item.debug}"

def RunError.message : RunError → String
  | .query e => e.message
  | .storage fault => "storage: " ++ fault.message
  | .materialize fault => "materialize: " ++ fault.message
  | .concurrentUse =>
    "a second operation was started on this context instance before a previous operation completed"
  | .contextMismatch expected actual =>
    s!"plan compiled for context '{expected}' cannot run on context '{actual}'"
  | .unordered => "user-provided comparison function does not correctly implement a total order"

/-- A sort inside an execution. -/
def RunError.ofSort {α : Type} : Option α → Except RunError α
  | some sorted => .ok sorted
  | none => .error .unordered

/-- A step of compilation inside an execution. -/
def RunError.lift {α : Type} : Except QueryError α → Except RunError α
  | .ok a => .ok a
  | .error e => .error (.query e)

end DocQuery
