/-
# Tokens of YAML text

The tokens with the ways to read those that are names: anchors, tags and directives.
-/
import DocQuery.Yaml.ScalarText

namespace DocQuery.Yaml

/-- A tag as it is written: a handle, which a directive may expand, and the rest. -/
structure RawTag where
  handle : List Char
  suffix : List Char
deriving DecidableEq

inductive Token where
  | version (major minor : Nat)
  | tagHandle (handle expansion : List Char)
  | documentStart
  | documentEnd
  | blockSequenceStart
  | blockMappingStart
  | blockEnd
  | flowSequenceStart
  | flowSequenceEnd
  | flowMappingStart
  | flowMappingEnd
  | blockEntry
  | flowEntry
  | key
  | value
  | reference (name : List Char)
  | anchor (name : List Char)
  | tag (t : RawTag)
  | scalar (style : ScalarStyle) (text : List Char)
deriving DecidableEq

/-! ## 1. Anchors -/

/-- The characters that may follow a name directly. -/
def endsName (c : Char) : Bool :=
  isSpace c || c == '?' || c == ':' || c == ',' || c == ']' || c == '}' || c == '%' || c == '@' ||
    c == '\x60'

/-- The name of an anchor or reference. -/
def anchorName? (gs : List Glyph) : Option (List Char × List Glyph) :=
  let (name, rest) := spanWhile isWordChar gs
  if name.isEmpty || !endsName (peek rest) then none else some (name, rest)

/-! ## 2. Tags -/

/-- The characters of tags; flow indicators only inside angle brackets and directives. -/
def isTagChar (bracketed : Bool) (c : Char) : Bool :=
  isWordChar c || c == ';' || c == '/' || c == '?' || c == ':' || c == '@' || c == '&' || c == '=' ||
    c == '+' || c == '$' || c == '.' || c == '!' || c == '~' || c == '*' || c == '\'' || c == '(' ||
    c == ')' || (bracketed && (c == ',' || c == '[' || c == ']'))

/-- How many bytes the character has that begins with a byte, and the bits that byte holds. -/
def leadingByte? (b : Nat) : Option (Nat × Nat) :=
  if b < 0x80 then some (1, b)
  else if 0xC0 ≤ b && b < 0xE0 then some (2, b - 0xC0)
  else if 0xE0 ≤ b && b < 0xF0 then some (3, b - 0xE0)
  else if 0xF0 ≤ b && b < 0xF8 then some (4, b - 0xF0)
  else none

/-- What has been read of an escaped character. -/
inductive TagMode where
  | plain
  /-- After a percent sign; `bytes` bytes are to come, the one at hand included. -/
  | first (bytes value : Nat)
  /-- After its first digit. -/
  | second (bytes value digit : Nat)
  /-- Before the percent sign of a further byte. -/
  | next (bytes value : Nat)

/-- The text of a tag, with escapes decoded; it must not be empty unless `nonempty` says that
something stands before it already. -/
def tagTextFrom? (bracketed nonempty : Bool) (read : List Char) (mode : TagMode) :
    List Glyph → Option (List Char × List Glyph)
  | [] => none
  | x :: rest =>
    match mode with
    | .plain =>
      if x.char == '%' then tagTextFrom? bracketed true read (.first 0 0) rest
      else if isTagChar bracketed x.char then
        tagTextFrom? bracketed true (x.char :: read) .plain rest
      else if nonempty then some (read.reverse, x :: rest)
      else none
    | .first bytes value => match hexValue? x.char with
      | some d => tagTextFrom? bracketed true read (.second bytes value d) rest
      | none => none
    | .second bytes value high => match hexValue? x.char with
      | none => none
      | some low =>
        let byte := 16 * high + low
        let decoded? : Option (Nat × Nat) :=
          if bytes = 0 then leadingByte? byte
          else if 0x80 ≤ byte && byte < 0xC0 then some (bytes, 64 * value + (byte - 0x80))
          else none
        match decoded? with
        | none => none
        | some (bytes, value) =>
          if bytes ≤ 1 then tagTextFrom? bracketed true (Char.ofNat value :: read) .plain rest
          else tagTextFrom? bracketed true read (.next (bytes - 1) value) rest
    | .next bytes value =>
      if x.char == '%' then tagTextFrom? bracketed true read (.first bytes value) rest else none

/-- A handle: an exclamation mark, a name, and another mark if there is one. -/
def tagHandle? (gs : List Glyph) : Option (List Char × List Glyph) :=
  if peek gs ≠ '!' then none
  else
    let (name, rest) := spanWhile isWordChar gs.tail
    if peek rest == '!' then some ('!' :: name ++ ['!'], rest.tail) else some ('!' :: name, rest)

/-- Whether a handle is complete: `!!` or `!name!`. -/
def isNamedHandle (handle : List Char) : Bool :=
  1 < handle.length && handle.getLast? == some '!'

/-- A tag, which must end with a space, or with a comma inside a flow collection. -/
def tag? (inFlow : Bool) (gs : List Glyph) : Option (RawTag × List Glyph) := do
  let (tag, rest) ←
    if peekSecond gs == '<' then do
      let (suffix, rest) ← tagTextFrom? true false [] .plain gs.tail.tail
      if peek rest == '>' then some (⟨[], suffix⟩, rest.tail) else none
    else do
      let (handle, rest) ← tagHandle? gs
      if isNamedHandle handle then
        let (suffix, rest) ← tagTextFrom? false false [] .plain rest
        some (⟨handle, suffix⟩, rest)
      else
        let (suffix, rest) ← tagTextFrom? false true handle.tail.reverse .plain rest
        some (if suffix.isEmpty then ⟨[], ['!']⟩ else ⟨['!'], suffix⟩, rest)
  if isSpace (peek rest) || (inFlow && peek rest == ',') then return (tag, rest) else none

/-! ## 3. Directives -/

/-- A number of at most nine digits. -/
def versionNumber? (gs : List Glyph) : Option (Nat × List Glyph) :=
  let (digits, rest) := spanWhile isDigit gs
  if digits.isEmpty || 9 < digits.length then none
  else some (digitsValue digits, rest)

/-- A directive after its percent sign: a version or the expansion of a tag handle. -/
def directive? (gs : List Glyph) : Option (Token × List Glyph) := do
  let (name, rest) := spanWhile isWordChar gs
  if !isSpace (peek rest) then none
  let rest := dropBlanks rest
  match String.ofList name with
  | "YAML" =>
    let (major, rest) ← versionNumber? rest
    if peek rest ≠ '.' then none
    let (minor, rest) ← versionNumber? rest.tail
    return (.version major minor, ← dropRestOfLine? rest)
  | "TAG" =>
    let (handle, rest) ← tagHandle? rest
    if handle ≠ ['!'] && !isNamedHandle handle then none
    if !isBlank (peek rest) then none
    let (expansion, rest) ← tagTextFrom? true false [] .plain (dropBlanks rest)
    if !isSpace (peek rest) then none
    return (.tagHandle handle expansion, ← dropRestOfLine? rest)
  | _ => none

end DocQuery.Yaml
