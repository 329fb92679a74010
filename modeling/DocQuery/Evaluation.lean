/-
# Evaluation

The value of an expression over a document.  A missing member reads as null.  A comparison with null
and an order comparison of unlike values are undefined, which is null again, and a predicate keeps a
row only when its value is `true`.
-/
import DocQuery.RunError
import DocQuery.Text.Case

namespace DocQuery

/-- What an expression is evaluated in: the name of the source, its document, and the values of the
parameters. -/
structure Environment where
  source : String
  document : Json
  parameters : Dictionary Json

namespace Json

def isTrue : Json → Bool
  | .bool b => b
  | _ => false

/-- Follows a path of members; a missing one reads as null. -/
def readPath (j : Json) : List String → Json
  | [] => j
  | name :: rest => match j.member? name with
    | some inner => inner.readPath rest
    | none => .null

/-- Compares two values for sorting. -/
def compare (a b : Json) : Ordering := Scalar.compare (.ofJson a) (.ofJson b)

/-- Equality as predicates see it: numbers by their doubles, all else by `Json.same`. -/
def equal (a b : Json) : Bool :=
  match a.asDouble?, b.asDouble? with
  | some x, some y => x.equal y
  | _, _ => a.same b

end Json

/-! ## 1. Operators -/

/-- Whether two values are both numbers, both texts or both booleans. -/
def areOrdered : Json → Json → Bool
  | .number _, .number _ | .string _, .string _ | .bool _, .bool _ => true
  | _, _ => false

/-- A comparison of two values of one ordered kind. -/
def compareOrdered (op : BinaryOp) (a b : Json) : Bool :=
  match op with
  | .equal => a.equal b
  | .notEqual => !a.equal b
  | .lessThan => a.compare b == .lt
  | .lessThanOrEqual => a.compare b != .gt
  | .greaterThan => a.compare b == .gt
  | .greaterThanOrEqual => a.compare b != .lt
  | _ => false

def applyComparison (op : BinaryOp) (a b : Json) : Json :=
  if a.isNull || b.isNull then .null
  else if areOrdered a b then .bool (compareOrdered op a b)
  else match op with
    | .equal => .bool false
    | .notEqual => .bool true
    | _ => .null

/-- An arithmetic operation on doubles; division by zero has no result. -/
def arithmetic? (op : BinaryOp) (x y : Double) : Option Double :=
  match op with
  | .add => some (x.add y)
  | .subtract => some (x.sub y)
  | .multiply => some (x.mul y)
  | .divide => if y.equal .zero then none else some (x.div y)
  | .modulo => if y.equal .zero then none else some (x.mod y)
  | _ => none

/-- Cuts an integer to the signed 64-bit range. -/
def clampInt64 (n : Int) : Int := max (-0x8000000000000000) (min 0x7fffffffffffffff n)

/-- The result of an operation on integers is an integer when it is whole and was not a division. -/
def arithmeticResult (op : BinaryOp) (integers : Bool) (r : Double) : Json :=
  match r with
  | .finite x =>
    if integers && op ≠ .divide && x.isWhole then .ofInt (clampInt64 x.truncate)
    else .number (.double x)
  | _ => .null

def applyArithmetic (op : BinaryOp) (a b : Json) : Json :=
  match a.asDouble?, b.asDouble? with
  | some x, some y => match arithmetic? op x y with
    | some r => arithmeticResult op (a.asInt64?.isSome && b.asInt64?.isSome) r
    | none => .null
  | _, _ => .null

/-- Conjunction with null as the undefined truth value. -/
def conjunction (l r : Json) : Json :=
  match l, r with
  | .bool true, .bool b => .bool b
  | _, .bool false => .bool false
  | _, _ => .null

/-- Disjunction with null as the undefined truth value. -/
def disjunction (l r : Json) : Json :=
  match l, r with
  | _, .bool true => .bool true
  | .bool false, .bool false => .bool false
  | _, _ => .null

def applyUnary (op : UnaryOp) (v : Json) : Json :=
  match op with
  | .not => match v with
    | .bool b => .bool !b
    | _ => .null
  | .negate => applyArithmetic .subtract (.ofInt 0) v
  | .isNull => .bool v.isNull
  | .isNotNull => .bool !v.isNull

/-- `x IN (a, b)` is `x = a OR x = b`: true on any match, undefined when none matched but some
comparison was undefined, and false otherwise. -/
def membership (needle : Json) (items : List Json) : Json :=
  let outcomes := items.map (applyComparison .equal needle)
  if outcomes.any Json.isTrue then .bool true
  else if outcomes.any Json.isNull then .null
  else .bool false

/-! ## 2. Functions -/

/-- Whether `needle` occurs in a text. -/
def occursIn (needle : List Char) : List Char → Bool
  | [] => needle.isEmpty
  | c :: rest => needle.isPrefixOf (c :: rest) || occursIn needle rest

/-- Counts the occurrences of `needle` that do not overlap, from left to right. -/
def countOccurrences (needle : List Char) : List Char → Nat
  | [] => 0
  | c :: rest =>
    if needle.isPrefixOf (c :: rest) then
      countOccurrences needle (rest.drop (needle.length - 1)) + 1
    else countOccurrences needle rest
termination_by s => s.length
decreasing_by all_goals simp only [List.length_drop, List.length_cons]; omega

/-- How often the terms occur in a text, case aside. -/
def termFrequency (body : String) (terms : List Json) : Nat :=
  let body := Text.lowercase body.toList
  (terms.filterMap Json.asString?).foldl (fun total t =>
    let t := Text.lowercase t.toList
    if t.isEmpty then total else total + countOccurrences t body) 0

/-- A function of one text. -/
def onText (j : Json) (f : String → Json) : Json :=
  match j with
  | .string s => f s
  | _ => .null

/-- A predicate on two texts; `other` is its value on anything else. -/
def onTexts (other : Json) (a b : Json) (f : List Char → List Char → Bool) : Json :=
  match a, b with
  | .string s, .string t => .bool (f s.toList t.toList)
  | _, _ => other

def callFunction (name : String) (args : List Json) : Except RunError Json :=
  match String.ofList (name.toList.map Char.toUpper), args with
  | "LOWER", [s] => .ok (onText s fun s => .string (String.ofList (Text.lowercase s.toList)))
  | "UPPER", [s] => .ok (onText s fun s => .string (String.ofList (Text.uppercase s.toList)))
  | "LENGTH", [s] => .ok (onText s fun s => .ofInt s.toList.length)
  | "CONTAINS", [s, t] => .ok (onTexts .null s t fun s t => occursIn t s)
  | "STARTSWITH", [s, t] => .ok (onTexts .null s t fun s t => t.isPrefixOf s)
  | "ARRAY_LENGTH", [a] => .ok (match a with
    | .array items => .ofInt items.length
    | _ => .null)
  | "ARRAY_CONTAINS", [a, x] => .ok (.bool (match a with
    | .array items => items.any fun i => i.equal x
    | _ => false))
  | "FULLTEXTSCORE", field :: terms => .ok (match field with
    | .string body => .ofDouble (.ofInt (termFrequency body terms))
    | _ => .ofDouble .zero)
  | "FULLTEXTCONTAINS", [field, term] => .ok (onTexts (.bool false) field term fun s t =>
      occursIn (Text.lowercase t) (Text.lowercase s))
  | _, _ => .error (.storage (.unsupportedFunction name))

/-! ## 3. Expressions -/

namespace Environment

def parameter (env : Environment) (name : String) : Except RunError Json :=
  match env.parameters.find? name with
  | some v => .ok v
  | none => .error (.query (.unboundParameter name))

end Environment

/-- A binary operation whose right operand is evaluated only when the left one does not decide. -/
def applyBinary (op : BinaryOp) (l : Json) (right : Except RunError Json) : Except RunError Json :=
  match op, l with
  | .and, .bool false => .ok (.bool false)
  | .and, l => right.map (conjunction l)
  | .or, .bool true => .ok (.bool true)
  | .or, l => right.map (disjunction l)
  | op, l => right.map (if op.isComparison then applyComparison op l else applyArithmetic op l)

namespace Expr

mutual

def eval (env : Environment) : Expr → Except RunError Json
  | .column source path _ _ =>
    if source ≠ env.source then .error (.storage (.unknownSource source))
    else .ok (env.document.readPath path)
  | .constant value _ _ => .ok value.toJson
  | .parameter name _ _ => env.parameter name
  | .binary op left right _ => do applyBinary op (← left.eval env) (right.eval env)
  | .unary op operand _ => do return applyUnary op (← operand.eval env)
  | .function name args _ _ _ => do callFunction name (← evalList env args)
  | .inList item values => do
    let needle ← item.eval env
    return membership needle (← evalList env values)
  | .inParameter item values => do
    let needle ← item.eval env
    return membership needle ((← env.parameter values.name).asArray?.getD [])
  | .inSubquery item _ => do
    let _ ← item.eval env
    .error (.query (.notSupported .subquery))

def evalList (env : Environment) : List Expr → Except RunError (List Json)
  | [] => .ok []
  | e :: rest => do
    let first ← e.eval env
    return first :: (← evalList env rest)

end

end Expr

end DocQuery
