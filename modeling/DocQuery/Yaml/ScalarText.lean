/-
# Texts of scalars

Plain, quoted and block scalars.  In plain and quoted ones a run of blanks with line breaks in it is
folded: one break becomes a space, and of several the first is dropped.
-/
import DocQuery.Number.Literal
import DocQuery.Yaml.Glyph

namespace DocQuery.Yaml

inductive ScalarStyle where
  | plain
  | quoted
  | literal
  | folded
deriving DecidableEq

/-! ## 1. Gaps between words -/

/-- What has been read between two words, in reverse. -/
inductive Gap where
  | blanks (read : List Char)
  /-- With line breaks: the first, if it counts, and the further ones. -/
  | breaks (first : Option Char) (more : List Char)

namespace Gap

def none : Gap := .blanks []

def isEmpty : Gap → Bool
  | .blanks [] => true
  | _ => false

def hasBreak : Gap → Bool
  | .blanks _ => false
  | .breaks .. => true

/-- Takes in a blank or a break; blanks before and after a break are dropped. -/
def extend (g : Gap) (c : Char) : Gap :=
  match g, isBreak c with
  | .blanks read, false => .blanks (c :: read)
  | .blanks _, true => .breaks (some c) []
  | .breaks first more, false => .breaks first more
  | .breaks first more, true => .breaks first (c :: more)

/-- What the gap contributes to the text, in reverse. -/
def folded : Gap → List Char
  | .blanks read => read
  | .breaks (some '\n') [] => [' ']
  | .breaks (some '\n') more => more
  | .breaks (some c) more => more ++ [c]
  | .breaks Option.none more => more

end Gap

/-! ## 2. Plain scalars -/

/-- Whether a plain scalar ends before the character at hand. -/
def endsPlain (inFlow : Bool) (c next : Char) : Bool :=
  isEnd c || (c == ':' && isSpace next) ||
    (inFlow && (c == ',' || c == '[' || c == ']' || c == '{' || c == '}'))

/-- Whether a plain scalar of a block ends before a word: the word is not indented enough, or it
begins a comment or a document. -/
def endsBeforeWord (inFlow : Bool) (least : Nat) (gs : List Glyph) : Bool :=
  (!inFlow && column gs < least) || startsDocumentMarker gs || peek gs == '#'

/-- A colon that is joined to a character which a flow collection needs. -/
def isJoinedColon (inFlow : Bool) (c next : Char) : Bool :=
  inFlow && c == ':' && (next == ',' || next == '?' || next == '[' || next == ']' || next == '{' ||
    next == '}')

/-- The text of a plain scalar, whether it was ended on a later line, and what follows.  `least` is
the least column of its further lines. -/
def plainFrom? (inFlow : Bool) (least : Nat) (read : List Char) (gap : Gap) :
    List Glyph → Option (List Char × Bool × List Glyph)
  | [] => some (read.reverse, gap.hasBreak, [])
  | x :: rest =>
    if isBlank x.char || isBreak x.char then
      if gap.hasBreak && x.char == '\t' && x.column < least then none
      else plainFrom? inFlow least read (gap.extend x.char) rest
    else if !gap.isEmpty && endsBeforeWord inFlow least (x :: rest) then
      some (read.reverse, gap.hasBreak, x :: rest)
    else if isJoinedColon inFlow x.char (peek rest) then none
    else if endsPlain inFlow x.char (peek rest) then
      some (read.reverse, gap.hasBreak, x :: rest)
    else plainFrom? inFlow least (x.char :: (gap.folded ++ read)) .none rest

/-! ## 3. Quoted scalars -/

inductive QuoteMode where
  | text (gap : Gap)
  /-- After a quote inside a single-quoted scalar, which may be the first of two. -/
  | quote
  /-- After a backslash. -/
  | escape
  /-- Inside a numbered escape, with the number of digits to come. -/
  | code (digits value : Nat)

/-- The character of an escape. -/
def escaped? (c : Char) : Option Char :=
  match c with
  | '0' => some '\x00'
  | 'a' => some '\x07'
  | 'b' => some '\x08'
  | 't' | '\t' => some '\t'
  | 'n' => some '\n'
  | 'v' => some '\x0b'
  | 'f' => some '\x0c'
  | 'r' => some '\r'
  | 'e' => some '\x1b'
  | ' ' => some ' '
  | '"' => some '"'
  | '/' => some '/'
  | '\\' => some '\\'
  | 'N' => some '\u0085'
  | '_' => some '\u00a0'
  | 'L' => some '\u2028'
  | 'P' => some '\u2029'
  | _ => none

/-- The number of digits of a numbered escape. -/
def codeLength? (c : Char) : Option Nat :=
  match c with
  | 'x' => some 2
  | 'u' => some 4
  | 'U' => some 8
  | _ => none

/-- The character of a code point. -/
def scalarChar? (n : Nat) : Option Char :=
  if n.isValidChar then some (Char.ofNat n) else none

/-- The text of a quoted scalar after its opening quote, and what follows the closing one. -/
def quotedFrom? (double : Bool) (read : List Char) (mode : QuoteMode) :
    List Glyph → Option (List Char × List Glyph)
  | [] => none
  | x :: rest =>
    let c := x.char
    match mode with
    | .text gap =>
      if isEnd c || startsDocumentMarker (x :: rest) then none
      else if isBlank c || isBreak c then quotedFrom? double read (.text (gap.extend c)) rest
      else
        let read := gap.folded ++ read
        if double && c == '"' then some (read.reverse, rest)
        else if double && c == '\\' then quotedFrom? double read .escape rest
        else if !double && c == '\'' then quotedFrom? double read .quote rest
        else quotedFrom? double (c :: read) (.text .none) rest
    | .quote =>
      if c == '\'' then quotedFrom? double (c :: read) (.text .none) rest
      else some (read.reverse, x :: rest)
    | .escape =>
      if isBreak c then quotedFrom? double read (.text (.breaks none [])) rest
      else match codeLength? c, escaped? c with
        | some digits, _ => quotedFrom? double read (.code digits 0) rest
        | none, some d => quotedFrom? double (d :: read) (.text .none) rest
        | none, none => none
    | .code digits value =>
      match hexValue? c with
      | none => none
      | some d =>
        let value := 16 * value + d
        if digits ≤ 1 then
          match scalarChar? value with
          | some decoded => quotedFrom? double (decoded :: read) (.text .none) rest
          | none => none
        else quotedFrom? double read (.code (digits - 1) value) rest

/-! ## 4. Block scalars -/

/-- What becomes of the line breaks at the end of a block scalar. -/
inductive Chomping where
  | strip
  | clip
  | keep
deriving DecidableEq

def chomping? (c : Char) : Option Chomping :=
  if c == '+' then some .keep else if c == '-' then some .strip else none

/-- An indentation indicator: one digit that is not zero. -/
def indicator? (c : Char) : Option Nat :=
  if isDigit c then some (c.toNat - '0'.toNat) else none

structure BlockHeader where
  chomping : Chomping
  /-- The indentation relative to the enclosing block; zero if it has to be found out. -/
  increment : Nat

/-- The indicators of a block scalar, in either order. -/
def blockHeader? (gs : List Glyph) : Option (BlockHeader × List Glyph) :=
  let (chomping, gs) := match chomping? (peek gs) with
    | some c => (some c, gs.tail)
    | none => (none, gs)
  let (increment, gs) := match indicator? (peek gs) with
    | some n => (some n, gs.tail)
    | none => (none, gs)
  let (chomping, gs) := match chomping, increment, chomping? (peek gs) with
    | none, some _, some c => (some c, gs.tail)
    | c, _, _ => (c, gs)
  if increment = some 0 then none
  else (dropRestOfLine? gs).map fun gs => (⟨chomping.getD .clip, increment.getD 0⟩, gs)

/-- Skips the blank lines and the indentation before the content: the widest indentation met, the
breaks in reverse, and what follows.  An indentation of zero is not known yet. -/
def blockBreaks? (indent widest : Nat) (read : List Char) :
    List Glyph → Option (Nat × List Char × List Glyph)
  | [] => some (widest, read, [])
  | x :: rest =>
    let inside := indent == 0 || x.column < indent
    if inside && x.char == ' ' then blockBreaks? indent widest read rest
    else if inside && x.char == '\t' then none
    else if isBreak x.char then
      blockBreaks? indent (max widest x.column) (x.char :: read) rest
    else some (max widest x.column, read, x :: rest)

structure BlockState where
  /-- The text so far, in reverse. -/
  read : List Char
  /-- The break that ended the last line. -/
  lead : Option Char
  /-- The breaks of the blank lines since then, in reverse. -/
  more : List Char
  /-- Whether the last line began with a blank. -/
  afterBlank : Bool
  inLine : Bool

/-- The text before the first character `c` of a line: a break between two lines that begin with no
blank is folded unless the scalar is literal. -/
def BlockState.startLine (s : BlockState) (literal : Bool) (c : Char) : BlockState :=
  let folds := !literal && s.lead == some '\n' && !s.afterBlank && !isBlank c
  let lead := if folds then (if s.more.isEmpty then [' '] else []) else s.lead.toList
  ⟨c :: (s.more ++ lead ++ s.read), none, [], isBlank c, true⟩

/-- The text of a block scalar with its last breaks, and what follows. -/
def blockFrom? (literal : Bool) (indent : Nat) (s : BlockState) :
    List Glyph → Option (BlockState × List Glyph)
  | [] => some (s, [])
  | x :: rest =>
    let c := x.char
    if s.inLine then
      if isBreak c then
        blockFrom? literal indent { s with lead := some c, more := [], inLine := false } rest
      else if isEnd c then some ({ s with inLine := false }, x :: rest)
      else blockFrom? literal indent { s with read := c :: s.read } rest
    else if x.column < indent && c == ' ' then blockFrom? literal indent s rest
    else if x.column < indent && c == '\t' then none
    else if isBreak c then blockFrom? literal indent { s with more := c :: s.more } rest
    else if x.column == indent && !isEnd c then
      blockFrom? literal indent (s.startLine literal c) rest
    else some (s, x :: rest)

/-- The text with the breaks at its end that the chomping leaves. -/
def BlockState.chomped (s : BlockState) : Chomping → List Char
  | .strip => s.read.reverse
  | .clip => (s.lead.toList ++ s.read).reverse
  | .keep => (s.more ++ s.lead.toList ++ s.read).reverse

/-- A block scalar after its indicator; `least` is the least indentation of its content. -/
def block? (literal : Bool) (least : Nat) (gs : List Glyph) : Option (List Char × List Glyph) := do
  let (header, gs) ← blockHeader? gs
  let known := if header.increment = 0 then 0 else least - 1 + header.increment
  let (widest, more, gs) ← blockBreaks? known 0 [] gs
  let indent := if known = 0 then max (max widest least) 1 else known
  let (s, gs) ← blockFrom? literal indent ⟨[], none, more, false, false⟩ gs
  return (s.chomped header.chomping, gs)

end DocQuery.Yaml
