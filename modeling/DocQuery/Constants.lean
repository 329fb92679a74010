/-
# Lifted constants

A compiled plan is cached and run by many sessions, so it holds no live service or metadata of the
compilation that made it.  Each such value is lifted: the plan keeps a name, a type, and a
resolution, which says how to find an equivalent value in the context of an execution.

While a query is compiled the constants gather in a `ConstantTable`; freezing it checks the types
and drops the values.
-/
import DocQuery.Model

namespace DocQuery

inductive ConstantType where
  | sqlGeneratorFactory
  | sqlExpressionFactory
  | entityType
  | property
deriving DecidableEq

/-- The name of a type in messages. -/
def ConstantType.text : ConstantType → String
  | .sqlGeneratorFactory => "QuerySqlGeneratorFactory"
  | .sqlExpressionFactory => "SqlExpressionFactory"
  | .entityType => "EntityType"
  | .property => "Property"

/-- A live value.  The document store has one generator and one expression factory. -/
inductive ConstantValue where
  | sqlGeneratorFactory
  | sqlExpressionFactory
  | entityType (t : EntityType)
  | property (p : Property)
deriving DecidableEq

def ConstantValue.type : ConstantValue → ConstantType
  | .sqlGeneratorFactory => .sqlGeneratorFactory
  | .sqlExpressionFactory => .sqlExpressionFactory
  | .entityType _ => .entityType
  | .property _ => .property

/-- How to find a value again in another context. -/
inductive Resolution where
  | sqlGeneratorFactory
  | sqlExpressionFactory
  | entityType (name : String)
  | property (entityType property : String)
deriving DecidableEq

namespace Resolution

/-- The type of the values that a resolution finds. -/
def type : Resolution → ConstantType
  | .sqlGeneratorFactory => .sqlGeneratorFactory
  | .sqlExpressionFactory => .sqlExpressionFactory
  | .entityType _ => .entityType
  | .property _ _ => .property

/-- Finds the value in a context, of which only the model can vary. -/
def resolve (model : Model) : Resolution → Except QueryError ConstantValue
  | .sqlGeneratorFactory => .ok .sqlGeneratorFactory
  | .sqlExpressionFactory => .ok .sqlExpressionFactory
  | .entityType name => (model.entityType name).map .entityType
  | .property owner name => do return .property (← (← model.entityType owner).property name)

end Resolution

def typeMismatch (name : String) (declared actual : ConstantType) : QueryError :=
  .typeMismatch name declared.text actual.text

/-! ## 1. Collecting constants -/

/-- A value captured during compilation, with the means to find it again. -/
structure LiftedConstant where
  captured : ConstantValue
  resolution : Resolution
  name : String
  declared : ConstantType
deriving DecidableEq

structure ConstantTable where
  entries : List LiftedConstant

namespace ConstantTable

def empty : ConstantTable := ⟨[]⟩

def isTaken (t : ConstantTable) (name : String) : Bool := t.entries.any (·.name == name)

/-- The names to try: the name itself and the name with a number behind it.  There is one more of
them than entries, so one is free. -/
def candidates (t : ConstantTable) (name : String) : List String :=
  name :: (List.range t.entries.length).map fun i => name ++ "_" ++ toString (i + 1)

def freeName (t : ConstantTable) (name : String) : String :=
  ((t.candidates name).find? fun n => !t.isTaken n).getD name

/-- Registers a constant and returns the name it is referred to by.  An entry with the same
resolution and type is used again; otherwise the name is made unique. -/
def lift (t : ConstantTable) (c : LiftedConstant) : String × ConstantTable :=
  match t.entries.find? fun e => e.resolution == c.resolution && e.declared == c.declared with
  | some e => (e.name, t)
  | none =>
    let name := t.freeName c.name
    (name, ⟨t.entries ++ [{ c with name }]⟩)

end ConstantTable

/-! ## 2. Constants of one execution -/

/-- The values of the constants by name. -/
abbrev ResolvedConstants := Dictionary ConstantValue

namespace ResolvedConstants

def get (r : ResolvedConstants) (name : String) : Except QueryError ConstantValue :=
  match r.find? name with
  | some v => .ok v
  | none => .error (.invariant (.unresolvedConstant name))

/-- Reads a constant at a type; `view` picks the values of that type. -/
def getAs {α : Type} (r : ResolvedConstants) (type : ConstantType)
    (view : ConstantValue → Option α) (name : String) : Except QueryError α := do
  let v ← r.get name
  match view v with
  | some a => .ok a
  | none => .error (typeMismatch name type v.type)

def entityType (r : ResolvedConstants) : String → Except QueryError EntityType :=
  r.getAs .entityType fun | .entityType t => some t | _ => none

def property (r : ResolvedConstants) : String → Except QueryError Property :=
  r.getAs .property fun | .property p => some p | _ => none

def sqlGeneratorFactory (r : ResolvedConstants) : String → Except QueryError Unit :=
  r.getAs .sqlGeneratorFactory fun | .sqlGeneratorFactory => some () | _ => none

def sqlExpressionFactory (r : ResolvedConstants) : String → Except QueryError Unit :=
  r.getAs .sqlExpressionFactory fun | .sqlExpressionFactory => some () | _ => none

end ResolvedConstants

/-- The values that an execution in the compiling context would see. -/
def ConstantTable.captured (t : ConstantTable) : ResolvedConstants :=
  .ofList (t.entries.map fun e => (e.name, e.captured))

/-! ## 3. Frozen tables -/

structure ConstantSlot where
  name : String
  resolution : Resolution
  declared : ConstantType
deriving DecidableEq

/-- The part of a plan that stands in for captured values. -/
structure FrozenConstants where
  slots : List ConstantSlot
deriving DecidableEq

/-- Drops the value of a constant whose resolution and value have the declared type. -/
def LiftedConstant.freeze (c : LiftedConstant) : Except QueryError ConstantSlot :=
  if c.resolution.type ≠ c.declared then .error (typeMismatch c.name c.declared c.resolution.type)
  else if c.captured.type ≠ c.declared then .error (typeMismatch c.name c.declared c.captured.type)
  else .ok ⟨c.name, c.resolution, c.declared⟩

def ConstantTable.freeze (t : ConstantTable) : Except QueryError FrozenConstants :=
  (t.entries.mapM LiftedConstant.freeze).map FrozenConstants.mk

namespace ConstantSlot

/-- Finds the value of a slot and checks its type. -/
def resolve (model : Model) (s : ConstantSlot) : Except QueryError (String × ConstantValue) := do
  let v ← s.resolution.resolve model
  if v.type ≠ s.declared then .error (typeMismatch s.name s.declared v.type)
  else .ok (s.name, v)

end ConstantSlot

namespace FrozenConstants

def names (f : FrozenConstants) : List String := f.slots.map (·.name)

/-- Finds every constant in the context of an execution. -/
def resolve (f : FrozenConstants) (model : Model) : Except QueryError ResolvedConstants :=
  (f.slots.mapM (ConstantSlot.resolve model)).map Dictionary.ofList

end FrozenConstants

end DocQuery
