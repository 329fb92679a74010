/-
# Surroundings

What an invocation finds around it: files and the variables of its environment.  From them come the
definition of its query, the documents it is run on, and the database that runs it.
-/
import DocQuery.Database
import DocQuery.Definition.Build
import DocQuery.Table

namespace DocQuery

/-! ## 1. Surroundings and errors -/

inductive FileFault where
  | missing
  | other (message : String)

/-- Files by path, and the variables of the environment. -/
structure Surroundings where
  file : String → Except FileFault (List UInt8)
  environment : Dictionary String

inductive InvocationError where
  | file (fault : FileFault)
  | definition (e : DefinitionError)
  | run (e : RunError)
  | table (fault : TableFault)
  | badSource (argument : String)
  | badParameter (argument : String)

def FileFault.message : FileFault → String
  | .missing => "No such file or directory (os error 2)"
  | .other message => message

def InvocationError.message : InvocationError → String
  | .file fault => fault.message
  | .definition e => e.message
  | .run e => e.message
  | .table fault => fault.message
  | .badSource argument => s!"--data expects Entity=path, got '{argument}'"
  | .badParameter argument => s!"--param expects name=value, got '{argument}'"

/-- A step of compilation inside an invocation. -/
def InvocationError.lift {α : Type} (r : Except QueryError α) : Except InvocationError α :=
  (RunError.lift r).mapError .run

/-! ## 2. Arguments -/

/-- The parts of a text before and after the first equals sign. -/
def splitAssignment? (s : String) : Option (String × String) :=
  match s.toList.dropWhile (· != '=') with
  | [] => none
  | _ :: value => some (String.ofList (s.toList.takeWhile (· != '=')), String.ofList value)

namespace Parameters

/-- A parameter without the blanks around its name; what is not JSON is a text. -/
def ofArgument (argument : String) : Except InvocationError (String × ParameterValue) :=
  match splitAssignment? argument with
  | none => .error (.badParameter argument)
  | some (name, value) =>
    let json := ((Json.parse? value).map Json.canonical).getD (.string value)
    .ok (String.ofList (Text.trim name.toList), .ofJson json)

/-- The parameters that arguments bind; of one name the last counts. -/
def ofArguments (arguments : List String) : Except InvocationError Parameters :=
  (arguments.mapM ofArgument).map Dictionary.ofList

end Parameters

/-! ## 3. Files -/

/-- The last part of a path. -/
def fileName? (path : String) : Option String :=
  match ((path.splitOn "/").filter fun part => part != "" && part != ".").getLast? with
  | some ".." => none
  | part => part

/-- The part of a file's name behind its last point, which does not begin the name. -/
def fileExtension? (path : String) : Option String := do
  let backward := (← fileName? path).toList.reverse
  match backward.dropWhile (· != '.') with
  | [] | ['.'] => none
  | _ => return String.ofList (backward.takeWhile (· != '.')).reverse

namespace Surroundings

def definition (e : Surroundings) (path : String) : Except InvocationError LoadedQuery := do
  match Store.utf8? (← (e.file path).mapError .file) with
  | none => .error (.file (.other StorageFault.notUtf8.message))
  | some text => (LoadedQuery.ofText text).mapError .definition

/-- Stores the documents of a file: a table, or JSON in lines. -/
def load (e : Surroundings) (s : Store) (t : EntityType) (path : String) :
    Except InvocationError Store := do
  let bytes ← (e.file path).mapError .file
  if fileExtension? path = some "csv" then (s.loadTable t bytes).mapError .table
  else match s.load t bytes with
    | (.error fault, _) => .error (.run fault)
    | (.ok _, s) => .ok s

/-- Stores the documents of one data source. -/
def loadSource (e : Surroundings) (m : Model) (s : Store) (argument : String) :
    Except InvocationError Store :=
  match splitAssignment? argument with
  | none => .error (.badSource argument)
  | some (entity, path) => do e.load s (← InvocationError.lift (m.entityType entity)) path

/-- The documents of the data sources in their order. -/
def loadSources (e : Surroundings) (m : Model) (arguments : List String) :
    Except InvocationError Store :=
  arguments.foldlM (e.loadSource m) .empty

end Surroundings

/-! ## 4. Databases -/

/-- The type of the context that runs a query, if its definition names none. -/
def defaultContext : String := "QueryContext"

/-- The configuration of an invocation: the environment, then the definition, then the options. -/
def Surroundings.config (e : Surroundings) (definition options : Overrides) :
    Except QueryError Config := do
  ((← (Config.ofEnvironment e.environment).override definition).override options)

/-- The database that a definition is run in. -/
def Surroundings.database (e : Surroundings) (q : LoadedQuery) (options : Overrides) :
    Except QueryError Database := do
  let config ← e.config q.overrides options
  Database.ofCompiler ⟨q.model, config, q.overrides.context.getD defaultContext, id⟩

end DocQuery
