/-
# Tokens of JSON text

The lexer takes one character at a time; its mode holds what has been read of an unfinished token.
A token ends at the latest when the next character cannot extend it, and the text must not end
inside a string.
-/
import DocQuery.Json.Basic
import DocQuery.Number.Literal

namespace DocQuery

namespace Json

inductive Token where
  | openBracket
  | closeBracket
  | openBrace
  | closeBrace
  | comma
  | colon
  | literal (value : Json)
  | text (value : String)

/-! ## 1. Numbers -/

/-- Reads `-`, the whole part without leading zeros, an optional fraction and exponent. -/
def numberParts? (cs : List Char) : Option NumberParts := do
  let (negative, cs) := match cs with
    | '-' :: r => (true, r)
    | r => (false, r)
  let whole := cs.takeWhile isDigit
  let rest := cs.dropWhile isDigit
  if whole.isEmpty || (whole.head? == some '0' && 1 < whole.length) then none
  match rest with
  | '.' :: r =>
    let fraction := r.takeWhile isDigit
    if fraction.isEmpty then none
    return ⟨negative, whole, some fraction, ← exponent? (r.dropWhile isDigit)⟩
  | r => return ⟨negative, whole, none, ← exponent? r⟩

/-- Appends digits to a significand until it would need more than 64 bits.  Gives the significand
and the digits that are left. -/
def appendDigits (significand : Nat) : List Char → Nat × List Char
  | [] => (significand, [])
  | c :: rest =>
    let next := 10 * significand + (c.toNat - '0'.toNat)
    if next < 0x10000000000000000 then appendDigits next rest else (significand, c :: rest)

/-- The double nearest to a power of ten. -/
def powerOfTen (exponent : Nat) : Double := Decimal.toDouble false ⟨1, exponent⟩

/-- Multiplies or divides a double by powers of ten, of which the greatest is `10^308`.  Only zero
is multiplied by more. -/
def scale? (x : Double) (exponent : Int) : Option Double :=
  if exponent.natAbs ≤ 308 then
    some (if 0 ≤ exponent then x.mul (powerOfTen exponent.natAbs)
      else x.div (powerOfTen exponent.natAbs))
  else if x == .zero then some x
  else if 0 ≤ exponent then none
  else scale? (x.div (powerOfTen 308)) (exponent + 308)
termination_by exponent.natAbs
decreasing_by omega

/-- The double of a literal.  It need not be the nearest one: digits that the significand has no room
for are left out, and it is rounded before it is scaled, and with each power of ten once more. -/
def doubleOf? (p : NumberParts) : Option Double := do
  let (significand, skipped) := appendDigits 0 p.whole
  let (significand, dropped) := appendDigits significand (p.fraction.getD [])
  let exponent := p.decimal.exponent + skipped.length + dropped.length
  let x ← scale? (.ofInt significand) exponent
  return if p.negative then x.neg else x

/-- An integer literal of 64 bits is an integer, except `-0`; any other number is a double, which
must be finite. -/
def numberOf? (p : NumberParts) : Option Number :=
  let magnitude := digitsValue p.whole
  let asDouble := (doubleOf? p).bind Number.ofDouble?
  if p.fraction.isSome || p.exponent.isSome then asDouble
  else if p.negative then
    if 0 < magnitude && magnitude ≤ 0x8000000000000000 then some (.integer (-(magnitude : Int)))
    else asDouble
  else if magnitude < 0x10000000000000000 then some (.integer magnitude) else asDouble

/-- A number or one of the three words. -/
def literal? (cs : List Char) : Option Json :=
  match cs with
  | ['n', 'u', 'l', 'l'] => some .null
  | ['t', 'r', 'u', 'e'] => some (.bool true)
  | ['f', 'a', 'l', 's', 'e'] => some (.bool false)
  | _ => do return .number (← numberOf? (← numberParts? cs))

/-! ## 2. The lexer -/

/-- What has been read of the token under way.  Collected characters are in reverse. -/
inductive LexMode where
  | between
  /-- A number or word. -/
  | literal (read : List Char)
  /-- Inside a string; `high` is a leading surrogate that waits for its partner. -/
  | string (read : List Char) (high : Option Nat)
  /-- After a backslash. -/
  | escape (read : List Char) (high : Option Nat)
  /-- After `\u` and some of its four digits. -/
  | unicode (read : List Char) (high : Option Nat) (digits : Nat) (value : Nat)

def isBlank (c : Char) : Bool := c == ' ' || c == '\t' || c == '\n' || c == '\r'

/-- The characters of numbers and words. -/
def isLiteralChar (c : Char) : Bool :=
  isDigit c || c.isAlpha || c == '-' || c == '+' || c == '.'

def shortEscape? (c : Char) : Option Char :=
  match c with
  | '"' => some '"'
  | '\\' => some '\\'
  | '/' => some '/'
  | 'b' => some '\x08'
  | 'f' => some '\x0c'
  | 'n' => some '\n'
  | 'r' => some '\r'
  | 't' => some '\t'
  | _ => none

def isHighSurrogate (n : Nat) : Bool := 0xD800 ≤ n && n < 0xDC00

def isLowSurrogate (n : Nat) : Bool := 0xDC00 ≤ n && n < 0xE000

/-- A complete `\u` escape: surrogates must come as a pair, high before low. -/
def unicodeEscape? (read : List Char) (high : Option Nat) (value : Nat) : Option LexMode :=
  match high with
  | some h =>
    if isLowSurrogate value then
      some (.string (Char.ofNat (0x10000 + (h - 0xD800) * 0x400 + (value - 0xDC00)) :: read) none)
    else none
  | none =>
    if isHighSurrogate value then some (.string read (some value))
    else if isLowSurrogate value then none
    else some (.string (Char.ofNat value :: read) none)

/-- A character between tokens. -/
def lexBetween (c : Char) : Option (List Token × LexMode) :=
  if isBlank c then some ([], .between)
  else if isLiteralChar c then some ([], .literal [c])
  else match c with
    | '"' => some ([], .string [] none)
    | '[' => some ([.openBracket], .between)
    | ']' => some ([.closeBracket], .between)
    | '{' => some ([.openBrace], .between)
    | '}' => some ([.closeBrace], .between)
    | ',' => some ([.comma], .between)
    | ':' => some ([.colon], .between)
    | _ => none

/-- One character: the tokens that it completes, and the mode after it. -/
def lexStep (mode : LexMode) (c : Char) : Option (List Token × LexMode) :=
  match mode with
  | .between => lexBetween c
  | .literal read =>
    if isLiteralChar c then some ([], .literal (c :: read))
    else do
      let value ← literal? read.reverse
      let (tokens, mode) ← lexBetween c
      return (.literal value :: tokens, mode)
  | .string read high =>
    if c == '\\' then some ([], .escape read high)
    else if high.isSome || c.toNat < 32 then none
    else if c == '"' then some ([.text (String.ofList read.reverse)], .between)
    else some ([], .string (c :: read) none)
  | .escape read high =>
    if c == 'u' then some ([], .unicode read high 0 0)
    else if high.isSome then none
    else (shortEscape? c).map fun d => ([], .string (d :: read) none)
  | .unicode read high digits value => do
    let digit ← hexValue? c
    let value := 16 * value + digit
    if digits = 3 then return ([], ← unicodeEscape? read high value)
    else return ([], .unicode read high (digits + 1) value)

/-- The tokens of a text. -/
def tokensFrom? (mode : LexMode) : List Char → Option (List Token)
  | [] => match mode with
    | .between => some []
    | .literal read => (literal? read.reverse).map fun value => [.literal value]
    | _ => none
  | c :: rest => do
    let (tokens, mode) ← lexStep mode c
    return tokens ++ (← tokensFrom? mode rest)

end Json

end DocQuery
