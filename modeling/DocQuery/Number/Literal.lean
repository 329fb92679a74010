/-
# Number literals

Reading digits, signed integers, and floating point literals.
-/
import DocQuery.Number.Decimal

namespace DocQuery

/-! ## 1. Digits -/

def isDigit (c : Char) : Bool := '0' ≤ c && c ≤ '9'

/-- Decimal reading of a list of digits. -/
def digitsValue (digits : List Char) : Nat :=
  digits.foldl (fun n c => 10 * n + (c.toNat - '0'.toNat)) 0

/-- The value of a hexadecimal digit. -/
def hexValue? (c : Char) : Option Nat :=
  if isDigit c then some (c.toNat - '0'.toNat)
  else if 'a' ≤ c && c ≤ 'f' then some (c.toNat - 'a'.toNat + 10)
  else if 'A' ≤ c && c ≤ 'F' then some (c.toNat - 'A'.toNat + 10)
  else none

/-- Reads digits to a base of at most sixteen. -/
def natural? (base : Nat) (digits : List Char) : Option Nat :=
  if digits.isEmpty then none
  else digits.foldlM (fun n c => do
    let d ← hexValue? c
    if d < base then some (base * n + d) else none) 0

/-- Splits off a sign; true is minus. -/
def splitSign : List Char → Bool × List Char
  | '-' :: rest => (true, rest)
  | '+' :: rest => (false, rest)
  | cs => (false, cs)

/-- An integer with an optional sign. -/
def integer? (cs : List Char) : Option Int :=
  let (negative, digits) := splitSign cs
  (natural? 10 digits).map fun n => if negative then -(n : Int) else n

/-! ## 2. Decimal fractions -/

/-- The parts of a number literal. -/
structure NumberParts where
  negative : Bool
  whole : List Char
  /-- Digits after the point, absent without a point. -/
  fraction : Option (List Char)
  /-- Sign and digits after the `e`, absent without one. -/
  exponent : Option (Bool × List Char)

/-- Splits off the exponent. -/
def exponent? : List Char → Option (Option (Bool × List Char))
  | [] => some none
  | e :: rest =>
    if e == 'e' || e == 'E' then
      let (negative, digits) := splitSign rest
      if digits.isEmpty || !digits.all isDigit then none else some (some (negative, digits))
    else none

/-- The decimal that the parts spell. -/
def NumberParts.decimal (p : NumberParts) : Decimal :=
  let fraction := p.fraction.getD []
  let exponent : Int := match p.exponent with
    | none => 0
    | some (negative, digits) => if negative then -(digitsValue digits : Int) else digitsValue digits
  ⟨digitsValue (p.whole ++ fraction), exponent - fraction.length⟩

/-- A decimal fraction; digits may be missing on one side of the point. -/
def fractionParts? (cs : List Char) : Option NumberParts := do
  let (negative, cs) := splitSign cs
  let whole := cs.takeWhile isDigit
  match cs.dropWhile isDigit with
  | '.' :: rest =>
    let fraction := rest.takeWhile isDigit
    if whole.isEmpty && fraction.isEmpty then none
    return ⟨negative, whole, some fraction, ← exponent? (rest.dropWhile isDigit)⟩
  | rest =>
    if whole.isEmpty then none
    return ⟨negative, whole, none, ← exponent? rest⟩

/-- A decimal fraction, an infinity or NaN, the words in any case. -/
def Double.ofText? (cs : List Char) : Option Double :=
  let (negative, word) := splitSign cs
  match String.ofList (word.map Char.toLower) with
  | "inf" | "infinity" => some (.infinite negative)
  | "nan" => some .nan
  | _ => (fractionParts? cs).map fun p => p.decimal.toDouble p.negative

end DocQuery
