/-
# Upper and lower case

Full case mapping: a character may become several, and a capital sigma becomes the final form at the
end of a word.
-/
import DocQuery.Text.CaseTable

namespace DocQuery.Text

/-- Where a run takes a character, if the character is in it. -/
def CaseRun.apply? (r : CaseRun) (n : Nat) : Option Nat :=
  if r.first ≤ n && n ≤ r.last && (n - r.first) % r.stride == 0 then some (n + r.offset).toNat
  else none

/-- Maps a character by sequences and runs; all others stay. -/
def mapCase (sequences : List (Nat × List Nat)) (runs : List CaseRun) (c : Char) : List Char :=
  match sequences.lookup c.toNat with
  | some sequence => sequence.map Char.ofNat
  | none => match runs.findSome? fun r => r.apply? c.toNat with
    | some n => [Char.ofNat n]
    | none => [c]

def upperChar (c : Char) : List Char :=
  if c.toNat < 128 then [c.toUpper] else mapCase upperSequences upperRuns c

def lowerChar (c : Char) : List Char :=
  if c.toNat < 128 then [c.toLower] else mapCase lowerSequences lowerRuns c

def inRanges (ranges : List (Nat × Nat)) (c : Char) : Bool :=
  ranges.any fun r => r.1 ≤ c.toNat && c.toNat ≤ r.2

/-- Whether the first character that case does not ignore is cased. -/
def meetsCased (cs : List Char) : Bool :=
  match cs.dropWhile (inRanges caseIgnorableRanges) with
  | c :: _ => inRanges casedRanges c
  | [] => false

/-- Lower case of the characters after `before`, which is in reverse.  A capital sigma is final when
it ends a word: a cased character comes before it and none after. -/
def lowerAfter (before : List Char) : List Char → List Char
  | [] => []
  | c :: rest =>
    let lower :=
      if c = 'Σ' then (if meetsCased before && !meetsCased rest then ['ς'] else ['σ'])
      else lowerChar c
    lower ++ lowerAfter (c :: before) rest

def lowercase (s : List Char) : List Char := lowerAfter [] s

def uppercase (s : List Char) : List Char := s.flatMap upperChar

end DocQuery.Text
