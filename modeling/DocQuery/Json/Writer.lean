/-
# Compact JSON text

No blanks; members in the order they are listed.  Strings escape the quote, the backslash and the
control characters below U+0020, the five with a short escape by it.
-/
import DocQuery.Json.Basic
import DocQuery.Number.Decimal

namespace DocQuery

/-- The text of a number. -/
def Number.write : Number → List Char
  | .integer n => Layout.integerText n
  | .double x => Layout.jsonDouble.write x
  | .single x => Layout.jsonSingle.write x

namespace Json

/-- One of the sixteen lower-case hexadecimal digits. -/
def hexDigit (n : Nat) : Char := Nat.digitChar (n % 16)

def escapeChar (c : Char) : List Char :=
  if c = '"' then ['\\', '"']
  else if c = '\\' then ['\\', '\\']
  else if c = '\x08' then ['\\', 'b']
  else if c = '\t' then ['\\', 't']
  else if c = '\n' then ['\\', 'n']
  else if c = '\x0c' then ['\\', 'f']
  else if c = '\r' then ['\\', 'r']
  else if c.toNat < 32 then ['\\', 'u', '0', '0', hexDigit (c.toNat / 16), hexDigit c.toNat]
  else [c]

def quote (s : String) : List Char := '"' :: s.toList.flatMap escapeChar ++ ['"']

mutual

def write : Json → List Char
  | .null => ['n', 'u', 'l', 'l']
  | .bool true => ['t', 'r', 'u', 'e']
  | .bool false => ['f', 'a', 'l', 's', 'e']
  | .number n => n.write
  | .string s => quote s
  | .array items => '[' :: writeItems items ++ [']']
  | .object members => '{' :: writeMembers members ++ ['}']

def writeItems : List Json → List Char
  | [] => []
  | [j] => write j
  | j :: rest => write j ++ ',' :: writeItems rest

def writeMembers : List (String × Json) → List Char
  | [] => []
  | [(name, j)] => quote name ++ ':' :: write j
  | (name, j) :: rest => quote name ++ ':' :: write j ++ ',' :: writeMembers rest

end

/-- The compact text of a value. -/
def text (j : Json) : String := String.ofList j.write

end Json

end DocQuery
