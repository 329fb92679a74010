/-
# Reading JSON text

The reader is a machine over tokens with a stack of the containers that are still open.  The stack
may hold 127 containers; one more is refused.  Members keep their order and repetitions, which
typed decoding has to see; `Json.canonical` settles them.
-/
import DocQuery.Json.Token

namespace DocQuery

namespace Json

/-- An open container with its contents so far, in reverse. -/
inductive Frame where
  | array (items : List Json)
  | object (members : List (String × Json)) (name : String)

/-- What the reader expects next. -/
inductive Expectation where
  | value
  /-- After `[`: a value or `]`. -/
  | firstItem
  /-- After `{`: a name or `}`. -/
  | firstName
  /-- After a comma in an object. -/
  | name (members : List (String × Json))
  /-- After a name. -/
  | colon (members : List (String × Json)) (name : String)
  /-- After a value inside a container. -/
  | separator
  /-- After the whole text's value. -/
  | nothing (result : Json)

structure Reader where
  frames : List Frame
  expectation : Expectation

/-- Containers may be nested this deeply. -/
def depthLimit : Nat := 127

namespace Reader

def start : Reader := ⟨[], .value⟩

/-- Hands a complete value to the innermost container. -/
def deliver (frames : List Frame) (value : Json) : Reader :=
  match frames with
  | [] => ⟨[], .nothing value⟩
  | .array items :: rest => ⟨.array (value :: items) :: rest, .separator⟩
  | .object members name :: rest => ⟨.object ((name, value) :: members) name :: rest, .separator⟩

/-- The start of a value. -/
def beginValue (frames : List Frame) : Token → Option Reader
  | .literal value => some (deliver frames value)
  | .text s => some (deliver frames (.string s))
  | .openBracket =>
    if frames.length < depthLimit then some ⟨.array [] :: frames, .firstItem⟩ else none
  | .openBrace =>
    if frames.length < depthLimit then some ⟨frames, .firstName⟩ else none
  | _ => none

def step (r : Reader) (t : Token) : Option Reader :=
  match r.expectation with
  | .value => beginValue r.frames t
  | .firstItem => match t, r.frames with
    | .closeBracket, .array _ :: rest => some (deliver rest (.array []))
    | t, frames => beginValue frames t
  | .firstName => match t with
    | .closeBrace => some (deliver r.frames (.object []))
    | .text s => some ⟨r.frames, .colon [] s⟩
    | _ => none
  | .name members => match t with
    | .text s => some ⟨r.frames, .colon members s⟩
    | _ => none
  | .colon members name => match t with
    | .colon => some ⟨.object members name :: r.frames, .value⟩
    | _ => none
  | .separator => match t, r.frames with
    | .comma, .array items :: rest => some ⟨.array items :: rest, .value⟩
    | .closeBracket, .array items :: rest => some (deliver rest (.array items.reverse))
    | .comma, .object members _ :: rest => some ⟨rest, .name members⟩
    | .closeBrace, .object members _ :: rest => some (deliver rest (.object members.reverse))
    | _, _ => none
  | .nothing _ => none

def result? (r : Reader) : Option Json :=
  match r.expectation with
  | .nothing value => some value
  | _ => none

end Reader

/-- The value of a JSON text; nothing but blanks may surround it. -/
def parse? (text : String) : Option Json := do
  let tokens ← tokensFrom? .between text.toList
  let reader ← tokens.foldlM Reader.step Reader.start
  reader.result?

end Json

end DocQuery
