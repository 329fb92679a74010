/-
# Untyped values

What a node is when nothing says what it should be.  A plain scalar is null, a truth value, a number
or text, by how it looks; a tag of the standard says which.  Nothing else takes part: a local tag is
refused, and so is an integer beyond 64 bits.
-/
import DocQuery.Json.Basic
import DocQuery.Yaml.Reading

namespace DocQuery.Yaml

inductive Value where
  | null
  | bool (b : Bool)
  /-- An integer that is not written as a negative one. -/
  | unsigned (n : Nat)
  | signed (n : Int)
  | float (x : Double)
  | text (s : String)
  | list (items : List Value)
  | mapping (members : List (Value × Value))

instance : Inhabited Value := ⟨.null⟩

/-! ## 1. Numbers -/

/-- Digits behind a zero make no number. -/
def isZeroPadded (cs : List Char) : Bool :=
  let digits := match cs with
    | '-' :: rest | '+' :: rest => rest
    | cs => cs
  match digits with
  | '0' :: c :: rest => (c :: rest).all isDigit
  | _ => false

/-- The base that the start of a number names, and its digits. -/
def based? (cs : List Char) : Option (Nat × List Char) :=
  match cs with
  | '0' :: 'x' :: rest => some (16, rest)
  | '0' :: 'o' :: rest => some (8, rest)
  | '0' :: 'b' :: rest => some (2, rest)
  | _ => none

/-- The magnitude of an integer without its sign. -/
def magnitude? (cs : List Char) : Option Nat :=
  match based? cs with
  | some (base, digits) => natural? base digits
  | none => if isZeroPadded cs then none else natural? 10 cs

/-- The integer that a scalar looks like, with whether it has a minus sign. -/
def integerLook? (cs : List Char) : Option (Bool × Nat) :=
  match cs with
  | '-' :: rest => (magnitude? rest).map fun n => (true, n)
  | '+' :: rest => (magnitude? rest).map fun n => (false, n)
  | cs => (magnitude? cs).map fun n => (false, n)

/-- An integer as a value: within 64 bits it is one, within 128 bits it is refused, and beyond that
it is no integer. -/
def integerValue? (negative : Bool) (n : Nat) : Option (Option Value) :=
  if negative then
    if n ≤ 0x8000000000000000 then some (some (.signed (-(n : Int))))
    else if n ≤ 0x80000000000000000000000000000000 then some none
    else none
  else if n < 0x10000000000000000 then some (some (.unsigned n))
  else if n < 0x100000000000000000000000000000000 then some none
  else none

/-- The value of a scalar that looks like an integer. -/
def integer? (s : String) : Option (Option Value) :=
  (integerLook? s.toList).bind fun (negative, n) => integerValue? negative n

/-- The double of a scalar that looks like a number, an infinity or NaN; other infinite values are
too large to be one. -/
def float? (s : String) : Option Double :=
  match s with
  | ".inf" | ".Inf" | ".INF" | "+.inf" | "+.Inf" | "+.INF" => some (.infinite false)
  | "-.inf" | "-.Inf" | "-.INF" => some (.infinite true)
  | ".nan" | ".NaN" | ".NAN" => some .nan
  | s => (fractionParts? s.toList).bind fun p =>
    match p.decimal.toDouble p.negative with
    | .finite x => some (.finite x)
    | _ => none

/-! ## 2. Scalars -/

/-- The value of a plain scalar without a tag. -/
def plainValue? (s : String) : Option Value :=
  if s.isEmpty || isNullText s then some .null
  else match boolOfText? s, Yaml.integer? s with
    | some b, _ => some (.bool b)
    | none, some v => v
    | none, none =>
      if isZeroPadded s.toList then some (.text s)
      else match float? s with
        | some x => some (.float x)
        | none => some (.text s)

/-- The value of a scalar.  The tags of the standard decide in every style. -/
def scalarValue? (p : Properties) (style : ScalarStyle) (s : String) : Option Value :=
  match p.tag with
  | none => if style = .plain then plainValue? s else some (.text s)
  | some tag =>
    if p.localTag?.isSome then none
    else if tag = boolTag then (boolOfText? s).map .bool
    else if tag = intTag then (Yaml.integer? s).bind id
    else if tag = floatTag then (float? s).map .float
    else if tag = nullTag then if isNullText s then some .null else none
    else some (.text s)

/-! ## 3. Nodes -/

/-- The value of a node; its collections may be nested `depth` deep. -/
def readValue : Nat → Node Nat → Reading Value
  | depth, n => do
    match ← follow n, depth with
    | .scalar p style text, _ => ofOption (scalarValue? p style text)
    | .sequence p items, depth + 1 =>
      if p.localTag?.isSome then failure
      return .list (← items.mapM (readValue depth))
    | .mapping p members, depth + 1 =>
      if p.localTag?.isSome then failure
      return .mapping (← members.mapM fun m => do
        let key ← readValue depth m.1
        return (key, ← readValue depth m.2))
    | _, _ => failure

namespace Value

mutual

/-- The JSON value; only text may be a key. -/
def toJson? : Value → Option Json
  | .null => some .null
  | .bool b => some (.bool b)
  | .unsigned n => some (.ofInt n)
  | .signed n => some (.ofInt n)
  | .float x => some (.ofDouble x)
  | .text s => some (.string s)
  | .list items => do return .array (← itemsToJson? items)
  | .mapping members => do return .object (← membersToJson? members)

def itemsToJson? : List Value → Option (List Json)
  | [] => some []
  | v :: rest => do
    let j ← v.toJson?
    return j :: (← itemsToJson? rest)

def membersToJson? : List (Value × Value) → Option (List (String × Json))
  | [] => some []
  | (key, value) :: rest => do
    match key with
    | .text name =>
      let j ← value.toJson?
      return (name, j) :: (← membersToJson? rest)
    | _ => none

end

mutual

/-- How deep lists and mappings are nested. -/
def depth : Value → Nat
  | .list items => 1 + itemsDepth items
  | .mapping members => 1 + membersDepth members
  | _ => 0

def itemsDepth : List Value → Nat
  | [] => 0
  | v :: rest => max v.depth (itemsDepth rest)

def membersDepth : List (Value × Value) → Nat
  | [] => 0
  | (_, v) :: rest => max v.depth (membersDepth rest)

end

/-! ## 4. Records in values -/

/-- The name that a key of a record means: a text, or the position of a declared member. -/
def fieldName? (names : List String) : Value → Option String
  | .text s => some s
  | .unsigned n => some (names[n]?.getD "")
  | _ => none

/-- The members of a record: a mapping, or a list of the values in declared order.  A declared
member may not be repeated. -/
def fields? (names : List String) : Value → Option (List (String × Value))
  | .list items => if items.length ≤ names.length then some (names.zip items) else none
  | .mapping members => do
    let fields ← members.mapM fun m => do return (← fieldName? names m.1, m.2)
    if names.all fun name => (fields.filter fun f => f.1 == name).length ≤ 1 then some fields
    else none
  | _ => none

def text? : Value → Option String
  | .text s => some s
  | _ => none

def flag? : Value → Option Bool
  | .bool b => some b
  | _ => none

def list? {α : Type} (read : Value → Option α) : Value → Option (List α)
  | .list items => items.mapM read
  | _ => none

/-- A map of texts; the last of repeated keys counts. -/
def texts? : Value → Option (Dictionary String)
  | .mapping members => do
    return .ofList (← members.mapM fun m => do return (← m.1.text?, ← m.2.text?))
  | _ => none

/-- A JSON value in canonical form. -/
def json? (v : Value) : Option Json := v.toJson?.map Json.canonical

variable {α : Type}

def required (fields : List (String × Value)) (name : String) (read : Value → Option α) :
    Option α :=
  (fields.lookup name).bind read

/-- A member with a default for its absence; null is not absence. -/
def defaulted (fields : List (String × Value)) (name : String) (default : α)
    (read : Value → Option α) : Option α :=
  match fields.lookup name with
  | some v => read v
  | none => some default

/-- A member that may be absent or null. -/
def optional (fields : List (String × Value)) (name : String) (read : Value → Option α) :
    Option (Option α) :=
  match fields.lookup name with
  | none | some .null => some none
  | some v => (read v).map some

end Value

end DocQuery.Yaml
