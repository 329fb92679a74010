/-
# Nodes of a document

A node is a scalar, a sequence, a mapping, or a reference to an anchored node.  What is left out
between two tokens, such as the value after a lone key, is an empty plain scalar.

A reader of tokens returns the tokens behind what it has read together with the proof that they are
fewer, which is what makes nested nodes well-founded.
-/
import DocQuery.Yaml.Lexer

namespace DocQuery.Yaml

structure Properties where
  anchor : Option String
  tag : Option String

def Properties.none : Properties := ⟨Option.none, Option.none⟩

/-- A node whose references are written as `ρ`. -/
inductive Node (ρ : Type) where
  | reference (target : ρ)
  | scalar (properties : Properties) (style : ScalarStyle) (text : String)
  | sequence (properties : Properties) (items : List (Node ρ))
  | mapping (properties : Properties) (members : List (Node ρ × Node ρ))

instance {ρ : Type} : Inhabited (Node ρ) := ⟨.sequence .none []⟩

/-- A node as it is written, with references by name. -/
abbrev RawNode := Node String

def RawNode.empty (p : Properties) : RawNode := .scalar p .plain ""

abbrev Shorter (ts : List Token) := { r : List Token // r.length < ts.length }

abbrev NotLonger (ts : List Token) := { r : List Token // r.length ≤ ts.length }

/-! ## 1. Properties -/

/-- The tag handles and what they stand for. -/
abbrev Handles := List (List Char × List Char)

/-- The handles that need no directive. -/
def Handles.standard : Handles :=
  [(['!'], ['!']), (['!', '!'], "tag:yaml.org,2002:".toList)]

/-- Expands the handle of a tag; a tag without a handle is complete. -/
def RawTag.expand? (t : RawTag) (handles : Handles) : Option String :=
  if t.handle.isEmpty then some (String.ofList t.suffix)
  else (handles.lookup t.handle).map fun e => String.ofList (e ++ t.suffix)

/-- The anchor and the tag before a node, in either order. -/
def properties? (handles : Handles) (ts : List Token) : Option (Properties × NotLonger ts) :=
  match ts with
  | .anchor a :: .tag t :: rest | .tag t :: .anchor a :: rest => do
    return (⟨some (String.ofList a), some (← t.expand? handles)⟩, ⟨rest, by simp; omega⟩)
  | .anchor a :: rest => some (⟨some (String.ofList a), none⟩, ⟨rest, by simp⟩)
  | .tag t :: rest => do return (⟨none, some (← t.expand? handles)⟩, ⟨rest, by simp⟩)
  | ts => some (.none, ⟨ts, Nat.le_refl _⟩)

/-- The tag `!` on a scalar says nothing about it. -/
def Properties.ofScalar (p : Properties) : Properties :=
  if p.tag = some "!" then { p with tag := Option.none } else p

/-! ## 2. Nodes -/

/-- Whether the next token is one of some kinds. -/
def nextIs (stops : Token → Bool) (ts : List Token) : Bool :=
  match ts with
  | t :: _ => stops t
  | [] => false

def endsBlockItem : Token → Bool
  | .blockEntry | .blockEnd => true
  | _ => false

def endsBareItem : Token → Bool
  | .blockEntry | .key | .value | .blockEnd => true
  | _ => false

def endsBlockMember : Token → Bool
  | .key | .value | .blockEnd => true
  | _ => false

def endsFlowItem : Token → Bool
  | .flowEntry | .flowSequenceEnd => true
  | _ => false

def endsFlowMember : Token → Bool
  | .flowEntry | .flowMappingEnd => true
  | _ => false

/-- Drops the comma before an item that is not the first. -/
def afterComma? (first : Bool) (ts : List Token) : Option (NotLonger ts) :=
  if first then some ⟨ts, Nat.le_refl _⟩
  else match ts with
    | .flowEntry :: rest => some ⟨rest, by simp⟩
    | _ => none

mutual

/-- A node.  Block collections stand only in blocks; a sequence may stand in a mapping of the same
column, where no token opens or closes it. -/
def node? (handles : Handles) (inBlock bare : Bool) (ts : List Token) :
    Option (RawNode × Shorter ts) :=
  match ts with
  | .reference name :: rest => some (.reference (String.ofList name), ⟨rest, by simp⟩)
  | ts => do
    let (p, r) ← properties? handles ts
    match r with
    | ⟨[], _⟩ => if h : 0 < ts.length then return (.empty p, ⟨[], h⟩) else none
    | ⟨t :: rest, h⟩ =>
      match t, bare, inBlock with
      | .scalar style text, _, _ =>
        return (.scalar p.ofScalar style (String.ofList text), ⟨rest, h⟩)
      | .flowSequenceStart, _, _ =>
        let (items, ⟨rest1, h1⟩) ← flowItems? handles true rest
        return (.sequence p items, ⟨rest1, Nat.lt_trans h1 h⟩)
      | .flowMappingStart, _, _ =>
        let (members, ⟨rest1, h1⟩) ← flowMembers? handles true rest
        return (.mapping p members, ⟨rest1, Nat.lt_trans h1 h⟩)
      | .blockEntry, true, _ =>
        let (item, ⟨rest1, h1⟩) ← slot? handles true false endsBareItem rest
        let (items, ⟨rest2, h2⟩) ← bareItems? handles rest1
        return (.sequence p (item :: items), ⟨rest2, by simp at h; omega⟩)
      | .blockSequenceStart, _, true =>
        let (items, ⟨rest1, h1⟩) ← blockItems? handles rest
        return (.sequence p items, ⟨rest1, Nat.lt_trans h1 h⟩)
      | .blockMappingStart, _, true =>
        let (members, ⟨rest1, h1⟩) ← blockMembers? handles rest
        return (.mapping p members, ⟨rest1, Nat.lt_trans h1 h⟩)
      | t, _, _ =>
        if h1 : (t :: rest).length < ts.length then return (.empty p, ⟨t :: rest, h1⟩) else none
termination_by (ts.length, 0)
decreasing_by all_goals simp only [List.length_cons] at *; omega

/-- A node, or an empty scalar if the next token is one of `stops`. -/
def slot? (handles : Handles) (inBlock bare : Bool) (stops : Token → Bool) (ts : List Token) :
    Option (RawNode × NotLonger ts) :=
  if nextIs stops ts then some (.empty .none, ⟨ts, Nat.le_refl _⟩)
  else do
    let (n, ⟨rest, h⟩) ← node? handles inBlock bare ts
    return (n, ⟨rest, Nat.le_of_lt h⟩)
termination_by (ts.length, 1)

def blockItems? (handles : Handles) (ts : List Token) : Option (List RawNode × Shorter ts) :=
  match ts with
  | .blockEntry :: rest => do
    let (item, ⟨rest1, h⟩) ← slot? handles true false endsBlockItem rest
    let (items, ⟨rest2, h1⟩) ← blockItems? handles rest1
    return (item :: items, ⟨rest2, by simp; omega⟩)
  | .blockEnd :: rest => some ([], ⟨rest, by simp⟩)
  | _ => none
termination_by (ts.length, 0)

/-- The further items of a sequence that no token closes. -/
def bareItems? (handles : Handles) (ts : List Token) : Option (List RawNode × NotLonger ts) :=
  match ts with
  | .blockEntry :: rest => do
    let (item, ⟨rest1, h⟩) ← slot? handles true false endsBareItem rest
    let (items, ⟨rest2, h1⟩) ← bareItems? handles rest1
    return (item :: items, ⟨rest2, by simp; omega⟩)
  | ts => some ([], ⟨ts, Nat.le_refl _⟩)
termination_by (ts.length, 0)

def blockMembers? (handles : Handles) (ts : List Token) :
    Option (List (RawNode × RawNode) × Shorter ts) :=
  match ts with
  | .key :: rest => do
    let (key, ⟨rest1, h⟩) ← slot? handles true true endsBlockMember rest
    let (value, ⟨rest2, h1⟩) ← value? handles true endsBlockMember rest1
    let (members, ⟨rest3, h2⟩) ← blockMembers? handles rest2
    return ((key, value) :: members, ⟨rest3, by simp; omega⟩)
  | .blockEnd :: rest => some ([], ⟨rest, by simp⟩)
  | _ => none
termination_by (ts.length, 0)

/-- The value of a key, empty without a colon. -/
def value? (handles : Handles) (inBlock : Bool) (stops : Token → Bool) (ts : List Token) :
    Option (RawNode × NotLonger ts) :=
  match ts with
  | .value :: rest => do
    let (n, ⟨rest1, h⟩) ← slot? handles inBlock inBlock stops rest
    return (n, ⟨rest1, by simp; omega⟩)
  | ts => some (.empty .none, ⟨ts, Nat.le_refl _⟩)
termination_by (ts.length, 0)

/-- The items of a flow sequence; a key among them begins a mapping of one member.  If that key is
empty the token behind it is dropped. -/
def flowItems? (handles : Handles) (first : Bool) (ts : List Token) :
    Option (List RawNode × Shorter ts) :=
  match ts with
  | .flowSequenceEnd :: rest => some ([], ⟨rest, by simp⟩)
  | ts => do
    match ← afterComma? first ts with
    | ⟨[], _⟩ => none
    | ⟨t :: rest, h⟩ =>
      match t with
      | .flowSequenceEnd => return ([], ⟨rest, h⟩)
      | .key =>
        let (key, ⟨rest1, h1⟩) ← entryKey? handles rest
        let (value, ⟨rest2, h2⟩) ← value? handles false endsFlowItem rest1
        let (items, ⟨rest3, h3⟩) ← flowItems? handles false rest2
        return (.mapping .none [(key, value)] :: items, ⟨rest3, by simp at h; omega⟩)
      | t =>
        let (item, ⟨rest1, h1⟩) ← node? handles false false (t :: rest)
        let (items, ⟨rest2, h2⟩) ← flowItems? handles false rest1
        return (item :: items, ⟨rest2, by simp at h h1; omega⟩)
termination_by (ts.length, 1)
decreasing_by all_goals simp only [List.length_cons] at *; omega

/-- The key of a mapping of one member. -/
def entryKey? (handles : Handles) (ts : List Token) : Option (RawNode × NotLonger ts) :=
  if nextIs (fun t => t == .value || endsFlowItem t) ts then
    some (.empty .none, ⟨ts.tail, by simp⟩)
  else do
    let (n, ⟨rest, h⟩) ← node? handles false false ts
    return (n, ⟨rest, Nat.le_of_lt h⟩)
termination_by (ts.length, 1)

/-- The members of a flow mapping; a member may be a key alone. -/
def flowMembers? (handles : Handles) (first : Bool) (ts : List Token) :
    Option (List (RawNode × RawNode) × Shorter ts) :=
  match ts with
  | .flowMappingEnd :: rest => some ([], ⟨rest, by simp⟩)
  | ts => do
    match ← afterComma? first ts with
    | ⟨[], _⟩ => none
    | ⟨t :: rest, h⟩ =>
      match t with
      | .flowMappingEnd => return ([], ⟨rest, h⟩)
      | .key =>
        let (key, ⟨rest1, h1⟩) ←
          slot? handles false false (fun t => t == .value || endsFlowMember t) rest
        let (value, ⟨rest2, h2⟩) ← value? handles false endsFlowMember rest1
        let (members, ⟨rest3, h3⟩) ← flowMembers? handles false rest2
        return ((key, value) :: members, ⟨rest3, by simp at h; omega⟩)
      | t =>
        let (key, ⟨rest1, h1⟩) ← node? handles false false (t :: rest)
        let (members, ⟨rest2, h2⟩) ← flowMembers? handles false rest1
        return ((key, .empty .none) :: members, ⟨rest2, by simp at h h1; omega⟩)
termination_by (ts.length, 1)
decreasing_by all_goals simp only [List.length_cons] at *; omega

end

end DocQuery.Yaml
