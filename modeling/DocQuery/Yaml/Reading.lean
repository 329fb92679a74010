/-
# Reading nodes

How a node is read when it is known what it should be.  Text is the literal text of any scalar, so
`5` and `~` are texts too.  An empty plain scalar is an empty sequence or mapping.
-/
import DocQuery.Yaml.Document

namespace DocQuery.Yaml

/-- Reading a document: the state counts the references followed. -/
abbrev Reading := ReaderT Document (StateT Nat Option)

/-- Reads a document from its root. -/
def Document.read? {α : Type} (d : Document) (read : Node Nat → Reading α) : Option α :=
  (((read d.root).run d).run 0).map (·.1)

/-- The node that a reference means, or the node itself. -/
def follow : Node Nat → Reading (Node Nat)
  | .reference number => do
    let d ← read
    let count := (← get) + 1
    if d.limit < count then failure
    set count
    match d.targets.lookup number with
    | some n => return n
    | none => failure
  | n => return n

def ofOption {α : Type} : Option α → Reading α
  | some a => return a
  | none => failure

/-! ## 1. Scalars -/

def isNullText (s : String) : Bool := s == "null" || s == "Null" || s == "NULL" || s == "~"

def boolOfText? (s : String) : Option Bool :=
  match s with
  | "true" | "True" | "TRUE" => some true
  | "false" | "False" | "FALSE" => some false
  | _ => none

def nullTag : String := "tag:yaml.org,2002:null"
def boolTag : String := "tag:yaml.org,2002:bool"
def intTag : String := "tag:yaml.org,2002:int"
def floatTag : String := "tag:yaml.org,2002:float"

/-- The name of a local tag: what is behind its exclamation mark. -/
def Properties.localTag? (p : Properties) : Option String :=
  p.tag.bind fun t => match t.toList with
    | '!' :: name => some (String.ofList name)
    | _ => Option.none

/-- The literal text of a scalar. -/
def readText (n : Node Nat) : Reading String := do
  match ← follow n with
  | .scalar _ _ text => return text
  | _ => failure

/-- A plain truth value, or a literal one that is tagged as such. -/
def readFlag (n : Node Nat) : Reading Bool := do
  match ← follow n with
  | .scalar p style text =>
    if style = .plain ∨ (style = .literal ∧ p.tag = some boolTag) then ofOption (boolOfText? text)
    else failure
  | _ => failure

/-- Whether a scalar stands for an absent value. -/
def isAbsent? (p : Properties) (style : ScalarStyle) (text : String) : Option Bool :=
  if style ≠ .plain then some false
  else match p.tag with
    | none => some (text.isEmpty || isNullText text)
    | some t =>
      if t ≠ nullTag then some false
      else if isNullText text then some true
      else none

/-- A value that may be absent: null or nothing. -/
def readOptional {α : Type} (read : Node Nat → Reading α) (n : Node Nat) : Reading (Option α) := do
  let n ← follow n
  match n with
  | .scalar p style text =>
    if ← ofOption (isAbsent? p style text) then return none else return some (← read n)
  | n => return some (← read n)

/-- One of some names: a scalar, or a tag with that name on null. -/
def readName {α : Type} (ofName? : String → Option α) (n : Node Nat) : Reading α := do
  match ← follow n with
  | .scalar p style text =>
    match p.localTag? with
    | none => ofOption (ofName? text)
    | some name =>
      if style = .plain ∧ (text.isEmpty ∨ isNullText text) then ofOption (ofName? name) else failure
  | _ => failure

/-! ## 2. Collections -/

/-- Whether a scalar is an empty collection. -/
def isEmptyPlain (style : ScalarStyle) (text : String) : Bool := style == .plain && text.isEmpty

def readItems {α : Type} (read : Node Nat → Reading α) (n : Node Nat) : Reading (List α) := do
  match ← follow n with
  | .sequence _ items => items.mapM read
  | .scalar _ style text => if isEmptyPlain style text then return [] else failure
  | _ => failure

/-- The members of a mapping by the literal text of their keys. -/
def readMembers (n : Node Nat) : Reading (List (String × Node Nat)) := do
  match ← follow n with
  | .mapping _ members => members.mapM fun m => do return (← readText m.1, m.2)
  | .scalar _ style text => if isEmptyPlain style text then return [] else failure
  | _ => failure

/-- The members of a record.  A declared one may not be repeated; others are not read. -/
def readRecord (names : List String) (n : Node Nat) : Reading (List (String × Node Nat)) := do
  let members ← readMembers n
  if names.all fun name => (members.filter fun m => m.1 == name).length ≤ 1 then return members
  else failure

variable {α : Type}

def required (members : List (String × Node Nat)) (name : String) (read : Node Nat → Reading α) :
    Reading α :=
  match members.lookup name with
  | some n => read n
  | none => failure

/-- A member with a default for its absence; null is not absence. -/
def defaulted (members : List (String × Node Nat)) (name : String) (default : α)
    (read : Node Nat → Reading α) : Reading α :=
  match members.lookup name with
  | some n => read n
  | none => return default

def optional (members : List (String × Node Nat)) (name : String) (read : Node Nat → Reading α) :
    Reading (Option α) :=
  defaulted members name none (readOptional read)

end DocQuery.Yaml
