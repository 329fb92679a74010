/-
# Quoted diagnostic texts

Texts inside diagnostics are quoted so that every character can be seen: quotes, backslashes and
controls are escaped, and so are characters without a visible form of their own.
-/
import DocQuery.Text.PrintTable

namespace DocQuery.Text

/-- A character by its number: `\u{1f}`. -/
def numberedChar (c : Char) : List Char :=
  '\\' :: 'u' :: '\x7b' :: Nat.toDigits 16 c.toNat ++ ['\x7d']

/-- Whether a character has no visible form of its own. -/
def isHidden (c : Char) : Bool :=
  let inside (ranges : List (Nat × Nat)) := ranges.any fun r => r.1 ≤ c.toNat && c.toNat ≤ r.2
  if c.toNat < 127 then c.toNat < 32 else inside unprintableRanges || inside graphemeExtendRanges

def debugChar (c : Char) : List Char :=
  if c = '"' then ['\\', '"']
  else if c = '\\' then ['\\', '\\']
  else if c = '\x00' then ['\\', '0']
  else if c = '\t' then ['\\', 't']
  else if c = '\r' then ['\\', 'r']
  else if c = '\n' then ['\\', 'n']
  else if isHidden c then numberedChar c
  else [c]

/-- A text in quotes with its hidden characters escaped. -/
def debugQuote (s : String) : List Char := '"' :: s.toList.flatMap debugChar ++ ['"']

end DocQuery.Text
