/-
# Errors of compilation

One constructor per cause; `QueryError.message` holds the wording.
-/

namespace DocQuery

/-- A reference in the model that does not resolve, or an entity type that cannot be used. -/
inductive ModelFault where
  | unknownEntityType (name : String)
  | unknownProperty (entityType property : String)
  | ownershipCycle (entityType : String)
  | keyless (entityType : String)
deriving DecidableEq

inductive ConfigFault where
  | unknownTracking (text : String)
  | zeroCapacity
deriving DecidableEq

/-- A recognized query that cannot be run. -/
inductive Unsupported where
  /-- A set operation, given by its text. -/
  | setOperation (text : String)
  | subquery
  | entityOverOrdinals (entityType : String)
deriving DecidableEq

/-- A query and shaper that do not fit together, or parameters that do not fit the query. -/
inductive ShapeFault where
  | noProjection (container : String)
  | nothingSelected
  | missingProjection (index count : Nat)
  | scalarBindsEntity (index : Nat) (entityType : String)
  | entityBindsScalar (entityType : String) (index : Nat)
  | bindingInLookup (index : Nat)
  | keyWithoutParameter (entityType key : String)
  | collectionForScalar (parameter : String)
  | scalarForCollection (parameter : String)
deriving DecidableEq

inductive InvariantFault where
  | projectionMismatch (shaped projected : String)
  | lookupMismatch (lookedUp shaped : String)
  | unresolvedConstant (name : String)
  | quoteMismatch (entityType : String)
deriving DecidableEq

inductive QueryError where
  | config (fault : ConfigFault)
  | model (fault : ModelFault)
  | notSupported (what : Unsupported)
  | unreachable (fault : ShapeFault)
  | unboundParameter (name : String)
  /-- A constant's declared type and the type of its value, by their names. -/
  | typeMismatch (name declared actual : String)
  | invariant (fault : InvariantFault)
deriving DecidableEq

def ModelFault.message : ModelFault → String
  | .unknownEntityType name => s!"entity type '{name}' is not in the model"
  | .unknownProperty entityType property =>
    s!"entity type '{entityType}' has no property '{property}'"
  | .ownershipCycle entityType => s!"ownership cycle through entity type '{entityType}'"
  | .keyless entityType =>
    s!"entity type '{entityType}' has no key and cannot be identity-resolved"

def ConfigFault.message : ConfigFault → String
  | .unknownTracking text => s!"unknown tracking behavior '{text}'"
  | .zeroCapacity => "plan_cache_capacity must be at least 1"

def Unsupported.text : Unsupported → String
  | .setOperation text => text
  | .subquery => "IN (subquery)"
  | .entityOverOrdinals entityType => s!"entity projection of '{entityType}' over ordinal rows"

def ShapeFault.message : ShapeFault → String
  | .noProjection container => s!"select over '{container}' has no projection"
  | .nothingSelected => "select without projection"
  | .missingProjection index count =>
    s!"shaper binds projection {index} but the select projects {count} value(s)"
  | .scalarBindsEntity index entityType =>
    s!"scalar binding {index} targets the '{entityType}' entity projection"
  | .entityBindsScalar entityType index =>
    s!"entity shaper for '{entityType}' bound to scalar projection {index}"
  | .bindingInLookup index =>
    s!"point lookups materialize whole documents; found projection binding {index}"
  | .keyWithoutParameter entityType key =>
    s!"point lookup of '{entityType}' has no parameter for key property '{key}'"
  | .collectionForScalar parameter =>
    s!"parameter '{parameter}' is bound to a collection where a scalar is expected"
  | .scalarForCollection parameter => s!"IN parameter '{parameter}' is bound to a scalar"

def InvariantFault.message : InvariantFault → String
  | .projectionMismatch shaped projected =>
    s!"entity shaper for '{shaped}' bound to a '{projected}' projection"
  | .lookupMismatch lookedUp shaped => s!"point lookup of '{lookedUp}' shaped as '{shaped}'"
  | .unresolvedConstant name => s!"liftable constant '{name}' was never resolved"
  | .quoteMismatch entityType => s!"quoted point lookup of '{entityType}' does not round-trip"

def QueryError.message : QueryError → String
  | .config fault => "Invalid configuration: " ++ fault.message
  | .model fault => "Model error: " ++ fault.message
  | .notSupported what => s!"The query expression '{what.text}' is not supported"
  | .unreachable fault => "Unreachable query shape: " ++ fault.message
  | .unboundParameter name => s!"No value was bound for query parameter '{name}'"
  | .typeMismatch name declared actual =>
    s!"Liftable constant '{name}' is declared as {declared} but resolves to {actual}"
  | .invariant fault => "Internal invariant failed: " ++ fault.message

end DocQuery
