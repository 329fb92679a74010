/-
# The program

Reads the files that its arguments name and the variables of its environment, and writes the report
on them.
-/
import DocQuery.Report

namespace DocQuery

/-- The paths of the files that an invocation reads. -/
def Invocation.paths : Invocation → List String
  | .validate query => [query]
  | .explain query _ => [query]
  | .run query data .. => query :: data.filterMap fun d => (splitAssignment? d).map Prod.snd

/-- Reads a file. -/
def readFile (path : String) : IO (Except FileFault (List UInt8)) := do
  try
    return .ok (← IO.FS.readBinFile path).toList
  catch
    | .noFileOrDirectory .. => return .error .missing
    | e => return .error (.other e.toString)

/-- The surroundings of the process, as far as the arguments name them. -/
def surroundings (arguments : List String) : IO Surroundings := do
  let paths := ((Invocation.ofArguments? arguments).map Invocation.paths).getD []
  let files ← paths.mapM fun path => do return (path, ← readFile path)
  let environment ← Config.variableNames.filterMapM fun name => do
    return (← IO.getEnv name).map fun value => (name, value)
  return ⟨fun path => (files.lookup path).getD (.error .missing), .ofList environment⟩

end DocQuery

def main (arguments : List String) : IO UInt32 := do
  let report := DocQuery.Invocation.reportOn (← DocQuery.surroundings arguments) arguments
  report.output.forM fun line => IO.println line
  report.errors.forM fun line => IO.eprintln line
  return report.code.toUInt32
