/-
# Command texts

The document-SQL text of a select and the parameters it refers to, in the order of their first use.
A command is first written as fragments, in which parameters are kept apart from the text around
them.
-/
import DocQuery.Inline

namespace DocQuery

inductive Fragment where
  | text (s : String)
  | parameter (name : String)
deriving DecidableEq

def Fragment.render : Fragment → String
  | .text s => s
  | .parameter name => "@" ++ name

/-- The names of the parameters, each at its first use. -/
def usedParameters (fragments : List Fragment) : List String :=
  (fragments.foldl (fun used f => match f with
    | .parameter name => if used.contains name then used else name :: used
    | .text _ => used) []).reverse

/-- Puts a separator between lists of fragments. -/
def separated (separator : String) : List (List Fragment) → List Fragment
  | [] => []
  | [only] => only
  | first :: rest => first ++ .text separator :: separated separator rest

/-! ## 1. Expressions -/

def BinaryOp.symbol : BinaryOp → String
  | .equal => "="
  | .notEqual => "!="
  | .lessThan => "<"
  | .lessThanOrEqual => "<="
  | .greaterThan => ">"
  | .greaterThanOrEqual => ">="
  | .and => "AND"
  | .or => "OR"
  | .add => "+"
  | .subtract => "-"
  | .multiply => "*"
  | .divide => "/"
  | .modulo => "%"

/-- A source name with its path in brackets: `c["Address"]["City"]`. -/
def pathText (source : String) (path : List String) : String :=
  String.join (source :: path.map fun name => "[" ++ String.ofList (Json.quote name) ++ "]")

namespace Expr

mutual

def fragments : Expr → Except QueryError (List Fragment)
  | .column source path _ _ => .ok [.text (pathText source path)]
  | .constant value _ _ => .ok [.text (String.ofList value.literal)]
  | .parameter name _ _ => .ok [.parameter name]
  | .binary op left right _ => do
    let left ← left.fragments
    let right ← right.fragments
    return .text "(" :: left ++ .text (" " ++ op.symbol ++ " ") :: right ++ [.text ")"]
  | .unary op operand _ => do
    let operand ← operand.fragments
    match op with
    | .not => return .text "NOT (" :: operand ++ [.text ")"]
    | .negate => return .text "-" :: operand
    | .isNull => return .text "(" :: operand ++ [.text " = null)"]
    | .isNotNull => return .text "(" :: operand ++ [.text " != null)"]
  | .function name args _ _ _ => do
    return .text (name ++ "(") :: separated ", " (← fragmentsList args) ++ [.text ")"]
  | .inList _ [] => .ok [.text "false"]
  | .inList item (value :: values) => do
    let item ← item.fragments
    let first ← value.fragments
    let rest ← fragmentsList values
    return item ++ .text " IN (" :: separated ", " (first :: rest) ++ [.text ")"]
  | .inParameter item values => do
    return .text "ARRAY_CONTAINS(" :: .parameter values.name :: .text ", " :: (← item.fragments) ++
      [.text ")"]
  | .inSubquery _ _ => .error (.notSupported .subquery)

def fragmentsList : List Expr → Except QueryError (List (List Fragment))
  | [] => .ok []
  | e :: rest => do
    let first ← e.fragments
    return first :: (← fragmentsList rest)

end

end Expr

/-! ## 2. Selects -/

def ProjectionItem.fragments (source : String) :
    ProjectionItem Expr → Except QueryError (List Fragment)
  | .scalar e => e.fragments
  | .entity _ path => .ok [.text (pathText source path)]

namespace SelectOf

def projectionFragments (s : Select) : Except QueryError (List Fragment) :=
  match s.projection with
  | [] => .error (.unreachable .nothingSelected)
  | [only] => do return .text "VALUE " :: (← only.item.fragments s.source)
  | many => do
    return separated ", " (← many.mapM fun p => do
      return (← p.item.fragments s.source) ++ [.text (" AS " ++ p.name)])

/-- The orderings that rank the rows. -/
def scoringOrderings (s : Select) : List (OrderingTerm Expr) := s.orderings.filter (·.expr.isScoring)

/-- Ranked rows are ordered by their scores, several of them fused; other orderings are lists of
expressions with their directions. -/
def orderingFragments (s : Select) : Except QueryError (List Fragment) :=
  if s.orderings.isEmpty then .ok []
  else if s.isScoreOrdered then do
    match ← s.scoringOrderings.mapM (·.expr.fragments) with
    | [only] => return .text " ORDER BY RANK " :: only
    | many => return .text " ORDER BY RANK RRF(" :: separated ", " many ++ [.text ")"]
  else do
    return .text " ORDER BY " :: separated ", " (← s.orderings.mapM fun o => do
      return (← o.expr.fragments) ++ [.text (if o.ascending then " ASC" else " DESC")])

def predicateFragments (s : Select) : Except QueryError (List Fragment) :=
  match s.predicate with
  | none => .ok []
  | some e => do return .text " WHERE " :: (← e.fragments)

/-- The offset is written as 0 when only a limit is given. -/
def pagingFragments (s : Select) : Except QueryError (List Fragment) := do
  if s.offset.isNone && s.limit.isNone then return []
  let offset ← match s.offset with
    | none => .ok [.text "0"]
    | some e => e.fragments
  let limit ← match s.limit with
    | none => .ok []
    | some e => do pure (.text " LIMIT " :: (← e.fragments))
  return .text " OFFSET " :: offset ++ limit

def fragments (s : Select) : Except QueryError (List Fragment) := do
  let projection ← s.projectionFragments
  let predicate ← s.predicateFragments
  let orderings ← s.orderingFragments
  let paging ← s.pagingFragments
  return .text (if s.distinct then "SELECT DISTINCT " else "SELECT ") :: projection ++
    .text (" FROM root " ++ s.source) :: predicate ++ orderings ++ paging

end SelectOf

/-! ## 3. Commands -/

/-- A command text with the parameters it refers to, each with its value. -/
structure Command where
  text : String
  parameters : List (String × ParameterValue)

namespace Command

/-- The command of a select. -/
def ofSelect (s : Select) (p : Parameters) : Except QueryError Command := do
  let fragments ← s.fragments
  let parameters ← (usedParameters fragments).mapM fun name => do return ("@" ++ name, ← p.get name)
  return ⟨String.join (fragments.map Fragment.render), parameters⟩

/-- Equality with floats compared by value. -/
def same (a b : Command) : Bool :=
  a.text == b.text && a.parameters.length == b.parameters.length &&
    (a.parameters.zip b.parameters).all fun p => p.1.1 == p.2.1 && p.1.2.same p.2.2

end Command

end DocQuery
