/-
# Parameter values

The values that one execution supplies for the placeholders of a plan.
-/
import DocQuery.Error
import DocQuery.Scalar

namespace DocQuery

inductive ParameterValue where
  | scalar (value : Scalar)
  | collection (values : List Scalar)
deriving DecidableEq

namespace ParameterValue

def toJson : ParameterValue → Json
  | .scalar s => s.toJson
  | .collection items => .array (items.map Scalar.toJson)

/-- Arrays become collections, everything else a scalar. -/
def ofJson : Json → ParameterValue
  | .array items => .collection (items.map Scalar.ofJson)
  | j => .scalar (.ofJson j)

/-- Equality with floats compared by value. -/
def same : ParameterValue → ParameterValue → Bool
  | .scalar a, .scalar b => a.same b
  | .collection as, .collection bs =>
    as.length == bs.length && (as.zip bs).all fun p => p.1.same p.2
  | _, _ => false

end ParameterValue

/-- The bound parameters by name. -/
abbrev Parameters := Dictionary ParameterValue

namespace Parameters

/-- The value of a placeholder; every placeholder a plan uses has to be bound. -/
def get (p : Parameters) (name : String) : Except QueryError ParameterValue :=
  match p.find? name with
  | some v => .ok v
  | none => .error (.unboundParameter name)

/-- The value of a placeholder that takes a scalar. -/
def scalar (p : Parameters) (name : String) : Except QueryError Scalar := do
  match ← p.get name with
  | .scalar s => .ok s
  | .collection _ => .error (.unreachable (.collectionForScalar name))

end Parameters

end DocQuery
