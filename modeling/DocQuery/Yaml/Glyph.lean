/-
# Characters of YAML text

A text is a list of characters with their places.  All line breaks of one line are the same: a
carriage return, with or without a newline behind it, and a next-line character are read as a
newline.  The list ends with a mark that occurs in no text.
-/

namespace DocQuery.Yaml

/-- A character with its place. -/
structure Glyph where
  char : Char
  line : Nat
  column : Nat

/-! ## 1. Classes of characters -/

def isBreak (c : Char) : Bool := c == '\n' || c == '\u2028' || c == '\u2029'

def isBlank (c : Char) : Bool := c == ' ' || c == '\t'

/-- The mark behind the last character. -/
def endMark : Char := '\x00'

def isEnd (c : Char) : Bool := c == endMark

def isBreakOrEnd (c : Char) : Bool := isBreak c || isEnd c

/-- Ends a word. -/
def isSpace (c : Char) : Bool := isBlank c || isBreakOrEnd c

/-- The characters of names. -/
def isWordChar (c : Char) : Bool := c.isAlphanum || c == '_' || c == '-'

/-- The characters that may occur in a text: no control characters but tabs and line breaks. -/
def isPrintable (c : Char) : Bool :=
  let n := c.toNat
  c == '\t' || c == '\n' || c == '\r' || (0x20 ≤ n && n ≤ 0x7E) || n == 0x85 ||
    (0xA0 ≤ n && n ≤ 0xD7FF) || (0xE000 ≤ n && n ≤ 0xFFFD) || 0x10000 ≤ n

/-! ## 2. Texts -/

/-- Reads every line break of one line as a newline. -/
def uniformBreaks : List Char → List Char
  | [] => []
  | '\r' :: '\n' :: rest => '\n' :: uniformBreaks rest
  | c :: rest => (if c == '\r' || c == '\x85' then '\n' else c) :: uniformBreaks rest

/-- Gives each character its place. -/
def place (line column : Nat) : List Char → List Glyph
  | [] => [⟨endMark, line, column⟩]
  | c :: rest =>
    ⟨c, line, column⟩ :: if isBreak c then place (line + 1) 0 rest else place line (column + 1) rest

/-- The characters of a text, if all of them may occur in one.  A byte order mark at the start is
dropped but keeps its column. -/
def glyphs? (text : String) : Option (List Glyph) :=
  if text.toList.all isPrintable then
    match place 0 0 (uniformBreaks text.toList) with
    | ⟨'\uFEFF', _, _⟩ :: rest => some rest
    | all => some all
  else none

/-! ## 3. Looking ahead -/

/-- The next character. -/
def peek (gs : List Glyph) : Char := (gs.head?.map (·.char)).getD endMark

/-- The character after the next one. -/
def peekSecond (gs : List Glyph) : Char := peek gs.tail

def column (gs : List Glyph) : Nat := (gs.head?.map (·.column)).getD 0

def line (gs : List Glyph) : Nat := (gs.head?.map (·.line)).getD 0

/-- Whether three of `c` stand at the start of a line and nothing is joined to them. -/
def startsMarker (c : Char) (gs : List Glyph) : Bool :=
  match gs with
  | x :: y :: z :: rest =>
    x.column == 0 && x.char == c && y.char == c && z.char == c && isSpace (peek rest)
  | _ => false

/-- Whether the line begins or ends a document. -/
def startsDocumentMarker (gs : List Glyph) : Bool := startsMarker '-' gs || startsMarker '.' gs

/-- The characters up to the first that `p` refuses. -/
def spanWhile (p : Char → Bool) (gs : List Glyph) : List Char × List Glyph :=
  ((gs.takeWhile fun g => p g.char).map (·.char), gs.dropWhile fun g => p g.char)

def dropBlanks (gs : List Glyph) : List Glyph := gs.dropWhile fun g => isBlank g.char

/-- Drops blanks and a comment; the line must end there. -/
def dropRestOfLine? (gs : List Glyph) : Option (List Glyph) :=
  let gs := dropBlanks gs
  let gs := if peek gs == '#' then gs.dropWhile fun g => !isBreakOrEnd g.char else gs
  if isBreak (peek gs) then some gs.tail
  else if isEnd (peek gs) then some gs
  else none

end DocQuery.Yaml
