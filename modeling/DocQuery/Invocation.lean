/-
# Command lines

What the arguments of the program ask for.  An option is written `--data x`, `--data=x`, `-d x`,
`-dx` or `-d=x`; `--verbose` and `-v` ask for logs and change nothing else.
-/

namespace DocQuery

/-- One use of the program. -/
inductive Invocation where
  | validate (query : String)
  | explain (query : String) (parameters : List String)
  | run (query : String) (data parameters : List String) (tracking partitionKey : Option String)
deriving DecidableEq

/-! ## 1. Options -/

inductive CommandOption where
  | query
  | data
  | param
  | tracking
  | partitionKey
deriving DecidableEq

namespace CommandOption

def name : CommandOption → String
  | .query => "query"
  | .data => "data"
  | .param => "param"
  | .tracking => "tracking"
  | .partitionKey => "partition-key"

def all : List CommandOption := [.query, .data, .param, .tracking, .partitionKey]

def ofName? (name : String) : Option CommandOption := all.find? fun o => o.name == name

def ofLetter? : Char → Option CommandOption
  | 'q' => some .query
  | 'd' => some .data
  | 'p' => some .param
  | _ => none

end CommandOption

/-- An argument by itself. -/
inductive Flag where
  | verbose
  /-- An option with the value in the same argument, if it has one there. -/
  | valued (o : CommandOption) (value : Option String)

namespace Flag

/-- The value that letters of an option are followed by. -/
def attached? : List Char → Option String
  | [] => none
  | '=' :: value => some (String.ofList value)
  | value => some (String.ofList value)

/-- An argument of letters. -/
def ofLetters? : List Char → Option Flag
  | ['v'] => some .verbose
  | 'v' :: rest => ofLetters? rest
  | letter :: rest => (CommandOption.ofLetter? letter).map fun o => .valued o (attached? rest)
  | [] => none

/-- An argument with a name in full. -/
def ofName? (cs : List Char) : Option Flag :=
  let name := String.ofList (cs.takeWhile (· != '='))
  if name = "verbose" then some .verbose
  else (CommandOption.ofName? name).map fun o => .valued o (attached? (cs.dropWhile (· != '=')))

def ofArgument? (argument : String) : Option Flag :=
  match argument.toList with
  | '-' :: '-' :: name => ofName? name
  | '-' :: letters => ofLetters? letters
  | _ => none

end Flag

/-- Whether an argument can be the value of the option before it. -/
def isOptionValue (argument : String) : Bool :=
  argument = "-" || !"-".toList.isPrefixOf argument.toList

/-- The options of a list of arguments, in their order. -/
def commandOptions? : List String → Option (List (CommandOption × String))
  | [] => some []
  | argument :: rest =>
    match Flag.ofArgument? argument with
    | none => none
    | some .verbose => commandOptions? rest
    | some (.valued o (some value)) => (commandOptions? rest).map ((o, value) :: ·)
    | some (.valued o none) => match rest with
      | [] => none
      | value :: rest =>
        if isOptionValue value then (commandOptions? rest).map ((o, value) :: ·) else none

/-! ## 2. Invocations -/

/-- The values that are given for an option. -/
def valuesOf (o : CommandOption) (options : List (CommandOption × String)) : List String :=
  (options.filter (·.1 == o)).map Prod.snd

/-- The value of an option that may be given once. -/
def optional? : List String → Option (Option String)
  | [] => some none
  | [value] => some (some value)
  | _ => none

/-- The value of an option that is given once and names a file. -/
def required? : List String → Option String
  | [path] => if path.isEmpty then none else some path
  | _ => none

namespace Invocation

/-- An invocation of a command with the options it takes. -/
def ofOptions? (command : String) (options : List (CommandOption × String)) : Option Invocation := do
  let only (accepted : List CommandOption) : Option Unit :=
    if options.all fun o => accepted.contains o.1 then some () else none
  let query ← required? (valuesOf .query options)
  match command with
  | "validate" => do
    only [.query]
    return .validate query
  | "explain" => do
    only [.query, .param]
    return .explain query (valuesOf .param options)
  | "run" =>
    return .run query (valuesOf .data options) (valuesOf .param options)
      (← optional? (valuesOf .tracking options)) (← optional? (valuesOf .partitionKey options))
  | _ => none

/-- The invocation that arguments describe.  The command comes first. -/
def ofArguments? : List String → Option Invocation
  | [] => none
  | command :: rest =>
    match Flag.ofArgument? command with
    | some .verbose => ofArguments? rest
    | some _ => none
    | none => (commandOptions? rest).bind (ofOptions? command)

/-- What is shown for arguments that describe no invocation. -/
def usage : String := "usage: (validate | explain | run) --query <path> [options]"

end Invocation

end DocQuery
