/-
# Documents

A text holds one document: one node, with directives before it.  References are followed only while
the document is read, so a node may lie inside itself; how often references are followed is limited
by the size of the document.
-/
import DocQuery.Yaml.Node

namespace DocQuery.Yaml

/-! ## 1. The node of a text -/

/-- Adds a directive to the handles; a version or handle may be given only once. -/
def applyDirective? (seen : Bool × Handles) : Token → Option (Bool × Handles)
  | .version major minor =>
    if seen.1 || major ≠ 1 || !(minor == 1 || minor == 2) then none else some (true, seen.2)
  | .tagHandle handle expansion =>
    if (seen.2.lookup handle).isSome then none else some (seen.1, (handle, expansion) :: seen.2)
  | _ => none

/-- The handles of the directives before the start of a document, and the tokens after it. -/
def directives? (seen : Bool × Handles) : List Token → Option (Handles × List Token)
  | [] => none
  | .documentStart :: rest => some (seen.2, rest)
  | t :: rest => do directives? (← applyDirective? seen t) rest

def isDirective : Token → Bool
  | .version .. | .tagHandle .. => true
  | _ => false

/-- The node of a document that may be empty. -/
def content? (handles : Handles) (ts : List Token) : Option (RawNode × List Token) :=
  match ts with
  | [] => some (.empty .none, [])
  | t :: _ =>
    if isDirective t || t == .documentStart || t == .documentEnd then some (.empty .none, ts)
    else (node? handles true false ts).map fun r => (r.1, r.2.1)

/-- The only document of a list of tokens. -/
def rawDocument? (ts : List Token) : Option RawNode := do
  let (n, rest) ← match ts with
    | [] => none
    | t :: _ =>
      if isDirective t || t == .documentStart then do
        let (handles, rest) ← directives? (false, []) ts
        content? (handles ++ Handles.standard) rest
      else (node? Handles.standard true false ts).map fun r => (r.1, r.2.1)
  if rest.all (· == .documentEnd) then some n else none

/-! ## 2. Anchors

An anchored node is numbered by the names there are before it, and a name means the node it was
given to last.  When a name is given again the next new name gets the same number, and from then on
references made by either mean the later node. -/

structure Anchors where
  /-- The number of each name. -/
  names : List (String × Nat)
  /-- The number of anchored nodes so far. -/
  started : Nat
  /-- The anchored node that a number means, latest first. -/
  places : List (Nat × Nat)
  /-- The anchored nodes that are complete, by their order. -/
  nodes : List (Nat × Node Nat)

def Anchors.empty : Anchors := ⟨[], 0, [], []⟩

/-- The steps of numbering. -/
abbrev Numbering := StateT Anchors Option

/-- Begins a node that may be anchored. -/
def beginNode (p : Properties) : Numbering (Option Nat) := do
  match p.anchor with
  | none => return none
  | some name =>
    let a ← get
    let number := a.names.length
    set { a with
      names := (name, number) :: a.names.filter (·.1 != name)
      started := a.started + 1
      places := (number, a.started) :: a.places }
    return some a.started

/-- Ends a node that was begun at a place. -/
def endNode (place : Option Nat) (n : Node Nat) : Numbering (Node Nat) := do
  if let some k := place then modify fun a => { a with nodes := (k, n) :: a.nodes }
  return n

mutual

/-- Numbers the references of a node; a name must have been given before. -/
def RawNode.number : RawNode → Numbering (Node Nat)
  | .reference name => do
    match (← get).names.lookup name with
    | some number => return .reference number
    | none => failure
  | .scalar p style text => do endNode (← beginNode p) (.scalar p style text)
  | .sequence p items => do
    let place ← beginNode p
    endNode place (.sequence p (← numberItems items))
  | .mapping p members => do
    let place ← beginNode p
    endNode place (.mapping p (← numberMembers members))

def numberItems : List RawNode → Numbering (List (Node Nat))
  | [] => return []
  | n :: rest => do
    let n ← RawNode.number n
    return n :: (← numberItems rest)

def numberMembers : List (RawNode × RawNode) → Numbering (List (Node Nat × Node Nat))
  | [] => return []
  | (key, value) :: rest => do
    let key ← RawNode.number key
    let value ← RawNode.number value
    return (key, value) :: (← numberMembers rest)

end

mutual

/-- The size of a node: one for a scalar or reference, two for the ends of a collection. -/
def RawNode.size : RawNode → Nat
  | .reference _ | .scalar .. => 1
  | .sequence _ items => 2 + itemsSize items
  | .mapping _ members => 2 + membersSize members

def itemsSize : List RawNode → Nat
  | [] => 0
  | n :: rest => RawNode.size n + itemsSize rest

def membersSize : List (RawNode × RawNode) → Nat
  | [] => 0
  | (key, value) :: rest => RawNode.size key + RawNode.size value + membersSize rest

end

/-! ## 3. Documents -/

structure Document where
  root : Node Nat
  /-- The node that each reference means. -/
  targets : List (Nat × Node Nat)
  /-- How often references may be followed. -/
  limit : Nat

/-- The document of a text. -/
def Document.ofText? (text : String) : Option Document := do
  let raw ← rawDocument? (← tokens? text)
  let (root, a) ← (RawNode.number raw).run .empty
  let targets := a.places.filterMap fun (number, place) =>
    (a.nodes.lookup place).map fun n => (number, n)
  return ⟨root, targets, 100 * RawNode.size raw⟩

end DocQuery.Yaml
