/-
# Bound queries

A plan together with the context that it runs in: the constants are found again in the context's
model, and the parameters have values.  Binding reads no documents.  A select is finalized each time
it is run or inspected: its placeholders are inlined and its command is written.
-/
import DocQuery.Inline
import DocQuery.Plan
import DocQuery.Store

namespace DocQuery

/-- What a plan sees of the session and of the call that run it. -/
structure QueryContext where
  contextType : String
  model : Model
  tracking : Tracking
  rowLayout : RowLayout
  parameters : Parameters

/-- A context of the type that a compiler compiles for, under its settings. -/
def Compiler.queryContext (c : Compiler) (parameters : Parameters) : QueryContext where
  contextType := c.contextType
  model := c.model
  tracking := c.config.tracking
  rowLayout := c.config.rowLayout
  parameters

inductive BoundSource where
  | select (s : Select)
  | lookup (l : PointLookup)

structure BoundQuery where
  plan : Plan
  context : QueryContext
  source : BoundSource

/-- Finds the constants of a plan in a context. -/
def Plan.bind (p : Plan) (c : QueryContext) : Except QueryError BoundQuery := do
  let constants ← p.constants.resolve c.model
  match p.source with
  | .select generators expressions s =>
    constants.sqlGeneratorFactory generators
    constants.sqlExpressionFactory expressions
    return ⟨p, c, .select s⟩
  | .lookup l => return ⟨p, c, .lookup (← l.resolve constants)⟩

/-- The select that is run for these parameters, with its command. -/
def SelectOf.finalize (s : Select) (parameters : Parameters) :
    Except QueryError (Select × Command) := do
  let s ← s.inline parameters
  return (s, ← Command.ofSelect s parameters)

namespace PointLookup

/-- The value of one key property. -/
def keyValue (l : PointLookup) (parameters : Parameters) (key : String) :
    Except RunError Scalar :=
  match l.propertyParameters.find? key with
  | none => .error (.materialize (.keyWithoutParameter key))
  | some parameter => RunError.lift (parameters.scalar parameter)

/-- The partition to look in: the configured one, else the one that the lookup's parameters name. -/
def partition (l : PointLookup) (configured : Option String) (parameters : Parameters) :
    Except RunError (Option String) :=
  match configured, l.entityType.partitionKey.bind l.propertyParameters.find? with
  | some key, _ => .ok (some key)
  | none, some parameter => (RunError.lift (parameters.scalar parameter)).map fun s => some s.keyText
  | none, none => .ok none

/-- The request for the document that the parameters name. -/
def request (l : PointLookup) (configured : Option String) (parameters : Parameters) :
    Except RunError LookupRequest := do
  let key ← l.entityType.key.mapM (l.keyValue parameters)
  let partitionKey ← l.partition configured parameters
  return ⟨l.container, partitionKey, ← documentId key⟩

end PointLookup

/-- A lookup is shown as the read it makes. -/
def LookupRequest.text (r : LookupRequest) : String :=
  let partition := r.partitionKey.getD "<none>"
  s!"ReadItem(container={r.container}, id={r.id}, partition_key={partition})"

namespace BoundQuery

/-- The command that would be run. -/
def commandText (q : BoundQuery) : Except RunError String :=
  match q.source with
  | .select s => (RunError.lift (s.finalize q.context.parameters)).map fun f => f.2.text
  | .lookup l => (l.request q.plan.partitionKey q.context.parameters).map LookupRequest.text

/-- The values of the parameters that the command refers to. -/
def boundParameters (q : BoundQuery) : Except RunError (Dictionary Json) :=
  match q.source with
  | .select s => (RunError.lift (s.finalize q.context.parameters)).map fun f => f.2.bindings
  | .lookup _ => .ok .empty

/-- A plan runs only in contexts of the type it was compiled for. -/
def checkContext (q : BoundQuery) : Except RunError Unit :=
  if q.context.contextType = q.plan.contextType then .ok ()
  else .error (.contextMismatch q.plan.contextType q.context.contextType)

/-- The rows of a bound query.  They are laid out as the context says. -/
def fetch (q : BoundQuery) (store : Store) : Except RunError (List Row) :=
  match q.source with
  | .select s => do
    let (s, command) ← RunError.lift (s.finalize q.context.parameters)
    store.execute ⟨s.container, q.plan.partitionKey, q.context.rowLayout, command, s⟩
  | .lookup l => do
    return (store.read (← l.request q.plan.partitionKey q.context.parameters)).toList

end BoundQuery

end DocQuery
