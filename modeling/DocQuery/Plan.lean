/-
# Compiled plans

What an execution needs: the query, with its services and metadata replaced by lifted constants, the
row shaper, and the settings that were fixed at compile time.  Compilation looks neither at the
store nor at parameter values, so a plan depends on the shape of the query alone.
-/
import DocQuery.Binding
import DocQuery.QuotedLookup

namespace DocQuery

inductive PlanSource where
  /-- A select with the constants of the services that finalize it. -/
  | select (sqlGeneratorFactory sqlExpressionFactory : String) (s : Select)
  | lookup (l : QuotedLookup)

structure Plan where
  source : PlanSource
  shaper : RowShaper
  /-- The type of the contexts that may run the plan. -/
  contextType : String
  partitionKey : Option String
  /-- Whether each execution has an identity map of its own. -/
  standaloneStateManager : Bool
  threadSafetyChecks : Bool
  constants : FrozenConstants

def PlanSource.typeName : PlanSource → String
  | .select .. => "QueryingEnumerable"
  | .lookup _ => "ReadItemQueryingEnumerable"

/-- A one-line summary. -/
def Plan.describe (p : Plan) : String :=
  let constants := ", ".intercalate p.constants.names
  let identity := Scalar.boolText p.standaloneStateManager
  let checks := Scalar.boolText p.threadSafetyChecks
  s!"{p.source.typeName}<{p.contextType}> constants=[{constants}] identity_resolution={identity} thread_safety_checks={checks}"

/-! ## Compilation -/

/-- What compilation depends on besides the query. -/
structure Compiler where
  model : Model
  config : Config
  contextType : String
  constantFactory : ConstantFactory

namespace Compiler

def identity (c : Compiler) : IdentityMode := .ofTracking c.config.tracking

def plan (c : Compiler) (source : PlanSource) (shaper : RowShaper) (constants : FrozenConstants) :
    Plan where
  source
  shaper
  contextType := c.contextType
  partitionKey := c.config.partitionKey
  standaloneStateManager := c.config.standaloneIdentityResolution
  threadSafetyChecks := c.config.threadSafetyChecks
  constants

def generatorConstant : LiftedConstant :=
  ⟨.sqlGeneratorFactory, .sqlGeneratorFactory, "querySqlGeneratorFactory", .sqlGeneratorFactory⟩

def expressionConstant : LiftedConstant :=
  ⟨.sqlExpressionFactory, .sqlExpressionFactory, "sqlExpressionFactory", .sqlExpressionFactory⟩

def compileSelect (c : Compiler) (s : Select) (shaper : Shaper) : Except QueryError Plan := do
  if s.projection.isEmpty then .error (.unreachable (.noProjection s.container))
  let binding : SelectBinding := ⟨c.model, s, c.config.rowLayout, c.identity⟩
  let bound ← binding.bind shaper
  let (generator, t) := ConstantTable.empty.lift (c.constantFactory generatorConstant)
  let (expressions, t) := t.lift (c.constantFactory expressionConstant)
  return c.plan (.select generator expressions s) bound (← t.freeze)

/-- Every key property of the lookup has a parameter. -/
def checkKeys (l : PointLookup) : Except QueryError Unit :=
  match l.entityType.key.find? fun k => !l.propertyParameters.contains k with
  | some k => .error (.unreachable (.keyWithoutParameter l.entityType.name k))
  | none => .ok ()

def compileLookup (c : Compiler) (l : PointLookup) (shaper : Shaper) : Except QueryError Plan := do
  checkKeys l
  let bound ← l.bind c.model c.identity shaper
  let (quoted, t) ← l.quote c.constantFactory .empty
  -- In the compiling context the quoted lookup has to give the lookup back.
  if (← quoted.resolve t.captured) ≠ l then .error (.invariant (.quoteMismatch l.entityType.name))
  return c.plan (.lookup quoted) bound (← t.freeze)

/-- Compiles a query and its shaper. -/
def compile (c : Compiler) (shaped : ShapedQuery) : Except QueryError Plan :=
  match shaped.query with
  | .select s => c.compileSelect s shaped.shaper
  | .lookup l => c.compileLookup l shaped.shaper
  | .setOperation .. => .error (.notSupported (.setOperation shaped.query.text))

end Compiler

end DocQuery
