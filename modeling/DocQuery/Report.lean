/-
# Reports

What an invocation writes: a definition is checked, or its plan is explained, or it is run on
documents from files.  What was written before an error stays written.
-/
import DocQuery.Invocation
import DocQuery.Session
import DocQuery.Surroundings

namespace DocQuery

/-! ## 1. Explanations -/

def Tracking.debug : Tracking → String
  | .trackAll => "TrackAll"
  | .noTracking => "NoTracking"
  | .identityResolution => "NoTrackingWithIdentityResolution"

def Resolution.debug : Resolution → List Char
  | .sqlGeneratorFactory => "SqlGeneratorFactory".toList
  | .sqlExpressionFactory => "SqlExpressionFactory".toList
  | .entityType name =>
    "EntityType \x7b name: ".toList ++ Text.debugQuote name ++ " \x7d".toList
  | .property owner name =>
    "Property \x7b entity_type: ".toList ++ Text.debugQuote owner ++ ", property: ".toList ++
      Text.debugQuote name ++ " \x7d".toList

def ConstantSlot.text (s : ConstantSlot) : String :=
  s!"{s.name}: {s.declared.text} <- {String.ofList s.resolution.debug}"

/-- The lines that show a plan. -/
def Database.explain (d : Database) (p : Plan) : List String :=
  ["Compiled Plan", "=============", "", s!"Context: {d.compiler.contextType}",
    s!"Tracking: {d.config.tracking.debug}", s!"Plan: {p.describe}", "", "Lifted constants:"] ++
  p.constants.slots.map fun s => "  " ++ s.text

/-! ## 2. Writing -/

/-- What writes lines and may fail. -/
abbrev Writing := ExceptT InvocationError (StateM (List String))

namespace Writing

def lines (texts : List String) : Writing Unit :=
  fun written => (.ok (), written ++ texts)

/-- The lines that were written, and how the writing ended. -/
def result {α : Type} (w : Writing α) : Except InvocationError α × List String := w.run []

end Writing

namespace Surroundings

def validate (e : Surroundings) (query : String) : Except InvocationError Unit := do
  let q ← e.definition query
  let d ← InvocationError.lift (e.database q .none)
  let _ ← InvocationError.lift (d.compile q.shaped).1

/-- Shows the command of a plan with its parameters, whose values may be logged only if the
configuration says so. -/
def explainCommand (d : Database) (p : Plan) (parameters : List String) : Writing Unit := do
  let values ← Parameters.ofArguments parameters
  let bound ← InvocationError.lift (p.bind (d.compiler.queryContext values))
  Writing.lines ["", "Command:"]
  Writing.lines ["  " ++ (← bound.commandText.mapError InvocationError.run)]
  let bindings ← bound.boundParameters.mapError InvocationError.run
  if d.config.sensitiveDataLogging then
    Writing.lines (bindings.entries.map fun b => s!"  @{b.1} = {b.2.text}")

def explain (e : Surroundings) (query : String) (parameters : List String) : Writing Unit := do
  let q ← e.definition query
  let d ← InvocationError.lift (e.database q .none)
  let compiled ← InvocationError.lift (d.compile q.shaped).1
  Writing.lines (d.explain compiled.plan)
  if !parameters.isEmpty then explainCommand d compiled.plan parameters

/-- Writes the results up to the first error. -/
def writeResults : List (Except RunError Json) → Writing Unit
  | [] => return
  | .ok j :: rest => do
    Writing.lines [j.text]
    writeResults rest
  | .error fault :: _ => throw (.run fault)

/-- Runs a query on the documents of its sources and counts the results. -/
def runQuery (e : Surroundings) (query : String) (data parameters : List String)
    (options : Overrides) : Writing Nat := do
  let q ← e.definition query
  let store ← e.loadSources q.model data
  let d ← InvocationError.lift (e.database q options)
  let values ← Parameters.ofArguments parameters
  let compiled ← InvocationError.lift (d.compile q.shaped).1
  let bound ← InvocationError.lift (compiled.plan.bind (d.compiler.queryContext values))
  let outcomes := (bound.enumerate.outcomes (fun i => .ok i.toJson) store .fresh).1
  writeResults outcomes
  return outcomes.length

end Surroundings

/-! ## 3. Reports -/

structure Report where
  /-- The exit status. -/
  code : Nat
  output : List String
  errors : List String

/-- The report of a failure with the lines that were written before it.  A sort that fails ends the
process at once. -/
def Report.failure (output : List String) (announcement : String) : InvocationError → Report
  | .run .unordered => ⟨101, output, [RunError.unordered.message]⟩
  | fault => ⟨1, output, [announcement ++ ": " ++ fault.message]⟩

namespace Invocation

def report (e : Surroundings) : Invocation → Report
  | .validate query => match e.validate query with
    | .error fault => .failure [] "Validation failed" fault
    | .ok () => ⟨0, ["✓ Query is valid"], []⟩
  | .explain query parameters => match (e.explain query parameters).result with
    | (.error fault, written) => .failure written "Error" fault
    | (.ok (), written) => ⟨0, written, []⟩
  | .run query data parameters tracking partitionKey =>
    match (e.runQuery query data parameters ⟨none, tracking, partitionKey, none, none⟩).result with
    | (.error fault, written) => .failure written "Error" fault
    | (.ok count, written) => ⟨0, written, [s!"✓ {count} result(s)"]⟩

/-- The report on the arguments of the program. -/
def reportOn (e : Surroundings) (arguments : List String) : Report :=
  match ofArguments? arguments with
  | none => ⟨2, [], [usage]⟩
  | some invocation => invocation.report e

end Invocation

end DocQuery
