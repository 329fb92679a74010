/-
# From text to tokens

Outside flow collections the structure is in the indentation: a block begins where a token stands
further right than the enclosing block, and ends before the first token that stands further left.

The key of a mapping is known as a key only when the colon behind it is read.  The lexer therefore
remembers where a key may have begun and inserts the tokens of the key there when the colon comes.
Such a key has to be on one line and no longer than 1024 characters.
-/
import DocQuery.Yaml.Token

namespace DocQuery.Yaml

/-- A place where a key may have begun. -/
structure PossibleKey where
  /-- Whether nothing but a key can stand there. -/
  required : Bool
  /-- The number of tokens before it. -/
  index : Nat
  line : Nat
  column : Nat

structure Lexer where
  rest : List Glyph
  tokens : Array Token
  /-- The column of the innermost block; -1 outside of all. -/
  indent : Int
  /-- The columns of the blocks around it. -/
  indents : List Int
  /-- The possible key of the innermost flow collection, or of the block outside of all. -/
  possible : Option PossibleKey
  /-- The possible keys of the collections around it. -/
  outer : List (Option PossibleKey)
  /-- Whether a key may begin at the next token. -/
  allowsKey : Bool

namespace Lexer

def ofGlyphs (gs : List Glyph) : Lexer := ⟨gs, #[], -1, [], none, [], true⟩

def inFlow (l : Lexer) : Bool := !l.outer.isEmpty

def emit (l : Lexer) (t : Token) : Lexer := { l with tokens := l.tokens.push t }

/-- Drops the next character. -/
def skip (l : Lexer) : Lexer := { l with rest := l.rest.tail }

/-- The least column of the lines that continue a token of the innermost block. -/
def least (l : Lexer) : Nat := (l.indent + 1).toNat

/-! ## 1. Possible keys -/

/-- Forgets the possible key; one that is required is an error. -/
def dropKey? (l : Lexer) : Option Lexer :=
  match l.possible with
  | some k => if k.required then none else some { l with possible := none }
  | none => some l

/-- Remembers that a key may begin here. -/
def saveKey? (l : Lexer) : Option Lexer :=
  if l.allowsKey then do
    let l ← l.dropKey?
    let required := !l.inFlow && l.indent == column l.rest
    return { l with possible := some ⟨required, l.tokens.size, line l.rest, column l.rest⟩ }
  else some l

/-- Whether a key that began there can still end here. -/
def PossibleKey.isFresh (k : PossibleKey) (gs : List Glyph) : Bool :=
  k.line == line gs && column gs ≤ k.column + 1024

/-- Forgets a key that can no longer end; one that is required is an error. -/
def refresh? (gs : List Glyph) : Option PossibleKey → Option (Option PossibleKey)
  | none => some none
  | some k =>
    if PossibleKey.isFresh k gs then some (some k) else if k.required then none else some none

def refreshKeys? (l : Lexer) : Option Lexer := do
  return { l with possible := ← refresh? l.rest l.possible,
                  outer := ← l.outer.mapM (refresh? l.rest) }

/-! ## 2. Indentation -/

/-- Opens a block at a column that is further right than the innermost block. -/
def openBlock (l : Lexer) (column index : Nat) (t : Token) : Lexer :=
  if !l.inFlow && l.indent < column then
    { l with indent := column, indents := l.indent :: l.indents,
             tokens := l.tokens.insertIdxIfInBounds index t }
  else l

/-- How many blocks begin to the right of a column, and those that do not. -/
def closedBlocks (column indent : Int) : List Int → Nat × Int × List Int
  | [] => (0, indent, [])
  | outer :: rest =>
    if column < indent then
      let (n, indent, indents) := closedBlocks column outer rest
      (n + 1, indent, indents)
    else (0, indent, outer :: rest)

/-- Closes the blocks that begin to the right of a column. -/
def closeBlocks (l : Lexer) (column : Int) : Lexer :=
  if l.inFlow then l
  else
    let (n, indent, indents) := closedBlocks column l.indent l.indents
    { l with indent, indents, tokens := l.tokens ++ Array.replicate n Token.blockEnd }

/-! ## 3. Blanks and comments -/

/-- The text from the next token on, and whether a key may begin there.  Outside flow collections a
tab must not stand where a key may begin, and a line break allows one. -/
def nextText (inFlow allowsKey inComment : Bool) : List Glyph → Bool × List Glyph
  | [] => (allowsKey, [])
  | x :: rest =>
    if isBreak x.char then nextText inFlow (allowsKey || !inFlow) false rest
    else if isEnd x.char then (allowsKey, x :: rest)
    else if inComment then nextText inFlow allowsKey true rest
    else if x.char == ' ' || (x.char == '\t' && (inFlow || !allowsKey)) then
      nextText inFlow allowsKey false rest
    else if x.char == '#' then nextText inFlow allowsKey true rest
    else (allowsKey, x :: rest)

/-! ## 4. Single tokens -/

/-- The start or end of a document, or a directive: all blocks end before it. -/
def atLineStart? (l : Lexer) : Option Lexer := do
  let l ← (l.closeBlocks (-1)).dropKey?
  return { l with allowsKey := false }

def documentMarker? (l : Lexer) (t : Token) : Option Lexer := do
  return (← l.atLineStart?).skip.skip.skip.emit t

def directive? (l : Lexer) : Option Lexer := do
  let l ← l.atLineStart?
  let (t, rest) ← Yaml.directive? l.rest.tail
  return { l with rest }.emit t

def openFlow? (l : Lexer) (t : Token) : Option Lexer := do
  let l ← l.saveKey?
  return { l with possible := none, outer := l.possible :: l.outer, allowsKey := true }.skip.emit t

def closeFlow? (l : Lexer) (t : Token) : Option Lexer := do
  let l ← l.dropKey?
  let l := match l.outer with
    | possible :: outer => { l with possible, outer }
    | [] => l
  return { l with allowsKey := false }.skip.emit t

def flowEntry? (l : Lexer) : Option Lexer := do
  return { ← l.dropKey? with allowsKey := true }.skip.emit .flowEntry

/-- An indicator that opens a block where a key may begin. -/
def opening? (l : Lexer) (t : Token) : Option Lexer :=
  if l.inFlow then some l
  else if l.allowsKey then some (l.openBlock (column l.rest) l.tokens.size t)
  else none

def blockEntry? (l : Lexer) : Option Lexer := do
  let l ← (← l.opening? .blockSequenceStart).dropKey?
  return { l with allowsKey := true }.skip.emit .blockEntry

def explicitKey? (l : Lexer) : Option Lexer := do
  let l ← (← l.opening? .blockMappingStart).dropKey?
  return { l with allowsKey := !l.inFlow }.skip.emit .key

/-- A colon makes the possible key a key. -/
def value? (l : Lexer) : Option Lexer := do
  match l.possible with
  | some k =>
    let l := { l with tokens := l.tokens.insertIdxIfInBounds k.index .key }
    let l := l.openBlock k.column k.index .blockMappingStart
    return { l with possible := none, allowsKey := false }.skip.emit .value
  | none =>
    let l ← l.opening? .blockMappingStart
    return { l with allowsKey := !l.inFlow }.skip.emit .value

/-- A token that may be a key or a part of one. -/
def keyPart? (l : Lexer) (read : List Glyph → Option (Token × List Glyph)) : Option Lexer := do
  let l ← l.saveKey?
  let (t, rest) ← read l.rest
  return { l with rest, allowsKey := false }.emit t

def named (make : List Char → Token) (gs : List Glyph) : Option (Token × List Glyph) :=
  (anchorName? gs.tail).map fun r => (make r.1, r.2)

def tag (inFlow : Bool) (gs : List Glyph) : Option (Token × List Glyph) :=
  (tag? inFlow gs).map fun r => (.tag r.1, r.2)

def quoted (double : Bool) (gs : List Glyph) : Option (Token × List Glyph) :=
  (quotedFrom? double [] (.text .none) gs.tail).map fun r => (.scalar .quoted r.1, r.2)

/-- A plain scalar that was ended on a later line allows a key there. -/
def plain? (l : Lexer) : Option Lexer := do
  let l ← l.saveKey?
  let (text, hasBreak, rest) ← plainFrom? l.inFlow l.least [] .none l.rest
  return { l with rest, allowsKey := hasBreak }.emit (.scalar .plain text)

def block? (l : Lexer) (literal : Bool) : Option Lexer := do
  let l ← l.dropKey?
  let (text, rest) ← Yaml.block? literal l.least l.rest.tail
  return { l with rest, allowsKey := true }.emit
    (.scalar (if literal then .literal else .folded) text)

/-- The indicators, which begin no plain scalar. -/
def isIndicator (c : Char) : Bool :=
  c == '-' || c == '?' || c == ':' || c == ',' || c == '[' || c == ']' || c == '{' || c == '}' ||
    c == '#' || c == '&' || c == '*' || c == '!' || c == '|' || c == '>' || c == '\'' || c == '"' ||
    c == '%' || c == '@' || c == '\x60'

/-- Whether a plain scalar begins here.  Some indicators may begin one when a character is joined to
them. -/
def startsPlain (inFlow : Bool) (c next : Char) : Bool :=
  !(isSpace c || isIndicator c) || (c == '-' && !isBlank next) ||
    (!inFlow && (c == '?' || c == ':') && !isSpace next)

/-! ## 5. The lexer -/

/-- Moves to the next token; the blocks that end before it are closed. -/
def advance? (l : Lexer) : Option Lexer := do
  let (allowsKey, rest) := nextText l.inFlow l.allowsKey false l.rest
  let l ← { l with allowsKey, rest }.refreshKeys?
  return l.closeBlocks (column l.rest)

/-- Reads the token at hand. -/
def token? (l : Lexer) : Option Lexer :=
  let c := peek l.rest
  let next := peekSecond l.rest
  if column l.rest == 0 && c == '%' then l.directive?
  else if startsMarker '-' l.rest then l.documentMarker? .documentStart
  else if startsMarker '.' l.rest then l.documentMarker? .documentEnd
  else if c == '[' then l.openFlow? .flowSequenceStart
  else if c == '{' then l.openFlow? .flowMappingStart
  else if c == ']' then l.closeFlow? .flowSequenceEnd
  else if c == '}' then l.closeFlow? .flowMappingEnd
  else if c == ',' then l.flowEntry?
  else if c == '-' && isSpace next then l.blockEntry?
  else if c == '?' && (l.inFlow || isSpace next) then l.explicitKey?
  else if c == ':' && (l.inFlow || isSpace next) then l.value?
  else if c == '*' then l.keyPart? (named .reference)
  else if c == '&' then l.keyPart? (named .anchor)
  else if c == '!' then l.keyPart? (tag l.inFlow)
  else if c == '|' && !l.inFlow then l.block? true
  else if c == '>' && !l.inFlow then l.block? false
  else if c == '\'' then l.keyPart? (quoted false)
  else if c == '"' then l.keyPart? (quoted true)
  else if startsPlain l.inFlow c next then l.plain?
  else none

/-- All tokens from here to the end of the text.  Each is at least one character long, which is
checked to show that the lexer ends. -/
def run? (l : Lexer) : Option (List Token) := do
  let here ← l.advance?
  if isEnd (peek here.rest) then
    return (← (here.closeBlocks (-1)).dropKey?).tokens.toList
  else
    let after ← here.token?
    if after.rest.length < l.rest.length then after.run? else none
termination_by l.rest.length

end Lexer

/-- The tokens of a text. -/
def tokens? (text : String) : Option (List Token) :=
  (glyphs? text).bind fun gs => (Lexer.ofGlyphs gs).run?

end DocQuery.Yaml
