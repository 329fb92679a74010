/-
# Decimal texts of floating point values

A value is written with the fewest decimal digits that read back as the same value.  The real
numbers that round to a value form an interval; the fewest digits are those of the coarsest
power-of-ten grid that has a point in it, and of the two grid points next to the value the nearer
is taken.  Everything is exact arithmetic on natural numbers.

How the digits are laid out is a `Layout`: one record per output format.
-/
import DocQuery.Number.Double

namespace DocQuery

/-- The number `digits · 10^exponent`. -/
structure Decimal where
  digits : Nat
  exponent : Int
deriving DecidableEq

/-! ## 1. Reading -/

namespace Decimal

/-- The double nearest to a signed decimal.  Exponents far outside the range of doubles are
decided without forming the power of ten. -/
def toDouble (negative : Bool) (d : Decimal) : Double :=
  if d.digits = 0 then .finite ⟨negative, 0⟩
  else if 400 < d.exponent then .infinite negative
  else if d.exponent + d.digits.log2 < -800 then .finite ⟨negative, 0⟩
  else if 0 ≤ d.exponent then
    Format.double.round negative (d.digits * Nat.pow 10 d.exponent.toNat * unitsPerOne) 1
  else
    Format.double.round negative (d.digits * unitsPerOne) (Nat.pow 10 d.exponent.natAbs)

end Decimal

/-! ## 2. Shortest digits -/

/-- Which of two equally near candidates is written. -/
inductive TieBreak where
  | toEven
  | up

/-- The values that round to `units` lie between `low` and `high`, in quarters of a unit; the
ends belong to them when `closed`. -/
structure RoundingInterval where
  low : Nat
  high : Nat
  closed : Bool

/-- The rounding interval of a positive value of a format.  Below a power of two the neighbour is
only half as far away. -/
def Format.interval (f : Format) (units : Nat) : RoundingInterval :=
  let step := Nat.pow 2 (f.spacing units)
  let narrow := units == Nat.pow 2 units.log2 && f.least < f.spacing units
  { low := 4 * units - (if narrow then step else 2 * step)
    high := 4 * units + 2 * step
    closed := units / step % 2 == 0 }

/-- Whether `num / den` quarter units lie in the interval. -/
def RoundingInterval.holds (i : RoundingInterval) (num den : Nat) : Bool :=
  if i.closed then i.low * den ≤ num && num ≤ i.high * den
  else i.low * den < num && num < i.high * den

namespace Decimal

/-- The grid of multiples of `10^k`, as a fraction in quarter units. -/
def grid (k : Int) : Nat × Nat :=
  if 0 ≤ k then (Nat.pow 10 k.toNat * (4 * unitsPerOne), 1)
  else (4 * unitsPerOne, Nat.pow 10 k.natAbs)

/-- The point of the grid `10^k` that may stand for `units`: of the neighbours that lie in the
interval, the nearer. -/
def candidate? (tie : TieBreak) (i : RoundingInterval) (units : Nat) (k : Int) : Option Nat :=
  let (num, den) := grid k
  let target := 4 * units * den
  let below := target / num
  let above := below + 1
  match i.holds (below * num) den, i.holds (above * num) den with
  | false, false => none
  | true, false => some below
  | false, true => some above
  | true, true =>
    let left := target - below * num
    let right := above * num - target
    if left < right then some below
    else if right < left then some above
    else match tie with
      | .up => some above
      | .toEven => some (if below % 2 = 0 then below else above)

/-- The power of ten at or above `units`, from the number of its bits. -/
def magnitude (units : Nat) : Int :=
  ((units.log2 : Int) - 1073) * 30103 / 100000 + 1

/-- The shortest decimal that reads back as `units` in the format, for positive `units`.
Seventeen digits always suffice, and `magnitude` is at most two powers too high. -/
def shortest (f : Format) (tie : TieBreak) (units : Nat) : Decimal :=
  let interval := f.interval units
  let start := magnitude units
  ((List.range 21).findSome? fun (step : Nat) =>
      let k := start - step
      (candidate? tie interval units k).map fun d => ⟨d, k⟩).getD ⟨0, 0⟩

end Decimal

/-! ## 3. Layouts -/

/-- How the shortest digits of a value are written. -/
structure Layout where
  format : Format
  tie : TieBreak
  /-- The scientific exponents that are written without an exponent, as a half-open range; all of
  them when absent. -/
  positional : Option (Int × Int)
  /-- Whether a whole number keeps `.0`. -/
  keepsFraction : Bool
  /-- Whether a positive exponent has a sign. -/
  signsExponent : Bool

namespace Layout

/-- Decimal digits of a natural number, most significant first. -/
def digitsOf (n : Nat) : List Char := Nat.toDigits 10 n

def zeros (n : Nat) : List Char := List.replicate n '0'

/-- Signed decimal integer. -/
def integerText (n : Int) : List Char :=
  if n < 0 then '-' :: digitsOf n.natAbs else digitsOf n.natAbs

/-- Digits with the point placed by the exponent. -/
def positionalText (keepsFraction : Bool) (digits : List Char) (exponent : Int) : List Char :=
  let point : Int := digits.length + exponent
  if 0 ≤ exponent then
    digits ++ zeros exponent.toNat ++ (if keepsFraction then ['.', '0'] else [])
  else if 0 < point then
    digits.take point.toNat ++ '.' :: digits.drop point.toNat
  else
    '0' :: '.' :: zeros point.natAbs ++ digits

/-- One digit, the point if more follow, and the exponent. -/
def scientificText (signsExponent : Bool) (digits : List Char) (exponent : Int) : List Char :=
  let scientific : Int := digits.length - 1 + exponent
  let mantissa := match digits with
    | [] => []
    | [d] => [d]
    | d :: rest => d :: '.' :: rest
  let sign := if scientific < 0 then ['-'] else if signsExponent then ['+'] else []
  mantissa ++ 'e' :: sign ++ digitsOf scientific.natAbs

def write (l : Layout) (x : Finite) : List Char :=
  let sign := if x.negative then ['-'] else []
  let body :=
    if x.isZero then positionalText l.keepsFraction ['0'] 0
    else
      let d := Decimal.shortest l.format l.tie x.units
      let digits := digitsOf d.digits
      let scientific : Int := digits.length - 1 + d.exponent
      let isPositional := match l.positional with
        | none => true
        | some (low, high) => low ≤ scientific && scientific < high
      if isPositional then positionalText l.keepsFraction digits d.exponent
      else scientificText l.signsExponent digits d.exponent
  sign ++ body

end Layout

/-- A double in JSON text: `0.00001`, `1000000000000000.0`, `1e+16`, `1e-6`. -/
def Layout.jsonDouble : Layout := ⟨.double, .toEven, some (-5, 16), true, true⟩

/-- A single in JSON text: `0.000001`, `1000000000000.0`, `1e+13`, `1e-7`. -/
def Layout.jsonSingle : Layout := ⟨.single, .toEven, some (-6, 13), true, true⟩

/-- A double as plain text: never an exponent and no `.0`. -/
def Layout.plainDouble : Layout := ⟨.double, .up, none, false, false⟩

/-- A single as plain text. -/
def Layout.plainSingle : Layout := ⟨.single, .up, none, false, false⟩

/-- A double in a diagnostic: `1.0`, `0.0001`, `1e-5`, `1e16`. -/
def Layout.debugDouble : Layout := ⟨.double, .up, some (-4, 16), true, false⟩

/-- A single in a diagnostic. -/
def Layout.debugSingle : Layout := ⟨.single, .up, some (-4, 16), true, false⟩

/-- Text of any value, with the names of those that are not finite. -/
def Layout.writeDouble (l : Layout) : Double → List Char
  | .nan => "NaN".toList
  | .infinite false => "inf".toList
  | .infinite true => "-inf".toList
  | .finite x => l.write x

end DocQuery
