/-
# Floating point values

A finite double is a sign and a whole number of units, one unit being `2^-1074`, the least
positive double.  On that scale every finite double is an integer, so comparison is integer
comparison and each arithmetic operation is an exact integer operation followed by one rounding
to the nearest representable value, ties to the even mantissa.

Single precision values are held as the doubles they equal; `Double.toSingle` rounds to them.
-/

namespace DocQuery

/-- A finite value: `±units · 2^-1074`.  The sign of zero is kept. -/
structure Finite where
  negative : Bool
  units : Nat
deriving DecidableEq

/-- A double.  All NaNs are one value; nothing observes their payload. -/
inductive Double where
  | nan
  | infinite (negative : Bool)
  | finite (value : Finite)
deriving DecidableEq

/-! ## 1. Formats and rounding -/

/-- A binary floating point format on the scale of units. -/
structure Format where
  /-- Number of significant bits. -/
  precision : Nat
  /-- The least positive value is `2^least` units. -/
  least : Nat
  /-- Values of `2^limit` units and more overflow. -/
  limit : Nat

/-- Double precision: 53 bits, from one unit to below `2^1024`. -/
def Format.double : Format := ⟨53, 0, 2098⟩

/-- Single precision: 24 bits, from `2^-149` to below `2^128`. -/
def Format.single : Format := ⟨24, 925, 1202⟩

/-- Units in one whole. -/
def unitsPerOne : Nat := Nat.pow 2 1074

/-- `log2` of the distance between neighbours of the format around `units`. -/
def Format.spacing (f : Format) (units : Nat) : Nat :=
  max f.least (units.log2 + 1 - f.precision)

/-- The whole number nearest to `num / den`; a tie goes to the even one. -/
def divideToEven (num den : Nat) : Nat :=
  let quotient := num / den
  let twice := 2 * (num % den)
  if twice < den then quotient
  else if den < twice then quotient + 1
  else quotient + quotient % 2

/-- The multiple of the format's spacing nearest to `num / den` units. -/
def Format.nearest (f : Format) (num den : Nat) : Nat :=
  let step := Nat.pow 2 (f.spacing (num / den))
  divideToEven num (den * step) * step

/-- Rounds `num / den` units to the format; too large a magnitude becomes infinite. -/
def Format.round (f : Format) (negative : Bool) (num den : Nat) : Double :=
  let units := f.nearest num den
  if units < Nat.pow 2 f.limit then .finite ⟨negative, units⟩ else .infinite negative

namespace Finite

def zero : Finite := ⟨false, 0⟩

/-- The signed number of units.  Both zeros have value 0. -/
def value (x : Finite) : Int :=
  if x.negative then -(x.units : Int) else x.units

def isZero (x : Finite) : Bool := x.units == 0

/-- Whether the value is a whole number. -/
def isWhole (x : Finite) : Bool := x.units % unitsPerOne == 0

/-- The whole part, cut toward zero. -/
def truncate (x : Finite) : Int :=
  let whole : Int := (x.units / unitsPerOne : Nat)
  if x.negative then -whole else whole

end Finite

namespace Double

def zero : Double := .finite .zero

def isNaN : Double → Bool
  | .nan => true
  | _ => false

def finite? : Double → Option Finite
  | .finite x => some x
  | _ => none

/-- Rounds an exact signed number of units; `zeroNegative` is the sign a zero result takes. -/
def ofUnits (value : Int) (zeroNegative : Bool) : Double :=
  Format.double.round (if value = 0 then zeroNegative else value < 0) value.natAbs 1

/-- The double nearest to an integer. -/
def ofInt (n : Int) : Double := ofUnits (n * unitsPerOne) false

/-- The single precision value nearest to a double. -/
def toSingle : Double → Double
  | .finite x => Format.single.round x.negative x.units 1
  | x => x

/-! ## 2. Order and equality -/

/-- Position on the extended line: infinities outside, finite values by their units. -/
def key : Double → Option (Int × Int)
  | .nan => none
  | .infinite negative => some (if negative then -1 else 1, 0)
  | .finite x => some (0, x.value)

/-- Numeric comparison; there is none with NaN. -/
def compare? (x y : Double) : Option Ordering :=
  match x.key, y.key with
  | some a, some b => some ((compare a.1 b.1).then (compare a.2 b.2))
  | _, _ => none

/-- Numeric equality: NaN differs from everything, the two zeros are equal. -/
def equal (x y : Double) : Bool :=
  x.compare? y == some .eq

/-- A total order that puts NaN last and makes all NaNs equal. -/
def compareNaNLast (x y : Double) : Ordering :=
  match x.isNaN, y.isNaN with
  | true, true => .eq
  | true, false => .gt
  | false, true => .lt
  | false, false => (x.compare? y).getD .eq

/-! ## 3. Arithmetic -/

def neg : Double → Double
  | .nan => .nan
  | .infinite n => .infinite (!n)
  | .finite x => .finite ⟨!x.negative, x.units⟩

def add : Double → Double → Double
  | .nan, _ | _, .nan => .nan
  | .infinite a, .infinite b => if a == b then .infinite a else .nan
  | .infinite a, .finite _ => .infinite a
  | .finite _, .infinite b => .infinite b
  | .finite x, .finite y => ofUnits (x.value + y.value) (x.negative && y.negative)

def sub (x y : Double) : Double := x.add y.neg

def mul : Double → Double → Double
  | .nan, _ | _, .nan => .nan
  | .infinite a, .infinite b => .infinite (a != b)
  | .infinite a, .finite y => if y.isZero then .nan else .infinite (a != y.negative)
  | .finite x, .infinite b => if x.isZero then .nan else .infinite (x.negative != b)
  | .finite x, .finite y =>
    Format.double.round (x.negative != y.negative) (x.units * y.units) unitsPerOne

def div : Double → Double → Double
  | .nan, _ | _, .nan => .nan
  | .infinite _, .infinite _ => .nan
  | .infinite a, .finite y => .infinite (a != y.negative)
  | .finite x, .infinite b => .finite ⟨x.negative != b, 0⟩
  | .finite x, .finite y =>
    if y.isZero then
      if x.isZero then .nan else .infinite (x.negative != y.negative)
    else Format.double.round (x.negative != y.negative) (x.units * unitsPerOne) y.units

/-- The remainder of truncated division, exact, with the sign of the dividend. -/
def mod : Double → Double → Double
  | .nan, _ | _, .nan => .nan
  | .infinite _, _ => .nan
  | .finite x, .infinite _ => .finite x
  | .finite x, .finite y =>
    if y.isZero then .nan else .finite ⟨x.negative, x.units % y.units⟩

end Double

end DocQuery
