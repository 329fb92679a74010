/-
# The values a format holds

A format holds the numbers of so many significant bits, in steps of its least value
(`Format.Holds`).  Rounding gives a number of that kind (`Format.holds_nearest`), leaves one alone
(`Format.nearest_of_holds`), and there is none closer to what was rounded
(`Format.nearest_closest`).  These three are what rounding means; how it is computed, by a
division that ties to even on a scale that goes by the binade, is left behind with them.

Doubles hold integers of 53 bits with any number of zeros behind them (`Double.HoldsInt`), and all
others are rounded to these on the scale of ones just as on the scale of units
(`Double.isInt_ofInt`).  So what arithmetic makes of doubles that are integers is said in
integers:

* the exact result, rounded once, for sums and products (`Double.IsInt.add`, `Double.IsInt.mul`);
* the exact result itself for a remainder (`Double.IsInt.mod`), since it has no more significant
  bits than the dividend or the divisor (`Format.Holds.mod`).

The upper limit of the format is left out, and integers are kept far below it.
-/
import DocQuery.Proofs.Rounding

namespace DocQuery

/-! ## 1. Rounding to a grid -/

/-- No multiple is closer than the one that is rounded to. -/
theorem divideToEven_closest {d : Nat} (hd : 0 < d) (n k : Nat) :
    ((divideToEven n d * d : Nat) - n : Int).natAbs ≤ ((k * d : Nat) - n : Int).natAbs := by
  have whole := Nat.div_add_mod' n d
  have rest := Nat.mod_lt n hd
  have next : (n / d + 1) * d = n / d * d + d := Nat.succ_mul ..
  have outside : k * d ≤ n / d * d ∨ (n / d + 1) * d ≤ k * d := by
    rcases Nat.lt_or_ge (n / d) k with above | below
    · exact .inr (Nat.mul_le_mul_right d above)
    · exact .inl (Nat.mul_le_mul_right d below)
  have chosen : divideToEven n d * d = n / d * d ∧ 2 * (n % d) ≤ d ∨
      divideToEven n d * d = n / d * d + d ∧ d ≤ 2 * (n % d) := by
    simp only [divideToEven]
    split_ifs with less more
    · exact .inl ⟨rfl, by omega⟩
    · exact .inr ⟨next, by omega⟩
    · rcases Nat.mod_two_eq_zero_or_one (n / d) with even | odd
      · exact .inl ⟨by rw [even, Nat.add_zero], by omega⟩
      · exact .inr ⟨by rw [odd, next], by omega⟩
  rcases chosen with ⟨rounded, half⟩ | ⟨rounded, half⟩ <;> rw [rounded] <;> omega

/-- A fraction is rounded alike however it is written. -/
theorem divideToEven_mul_right {c : Nat} (hc : 0 < c) (n d : Nat) :
    divideToEven (n * c) (d * c) = divideToEven n d := by
  have quotient : n * c / (d * c) = n / d := Nat.mul_div_mul_right n d hc
  have rest : n * c % (d * c) = n % d * c := Nat.mul_mod_mul_right c n d
  have less : 2 * (n % d * c) < d * c ↔ 2 * (n % d) < d := by
    rw [← Nat.mul_assoc]
    exact Nat.mul_lt_mul_right hc
  have more : d * c < 2 * (n % d * c) ↔ d < 2 * (n % d) := by
    rw [← Nat.mul_assoc]
    exact Nat.mul_lt_mul_right hc
  simp only [divideToEven, quotient, rest, less, more]

theorem log2_mul_two_pow {n : Nat} (hn : n ≠ 0) (k : Nat) : (n * 2 ^ k).log2 = n.log2 + k := by
  have positive : n * 2 ^ k ≠ 0 := Nat.mul_ne_zero hn (Nat.ne_of_gt (Nat.two_pow_pos k))
  rw [Nat.log2_eq_iff positive, Nat.add_right_comm, Nat.pow_add, Nat.pow_add 2 (n.log2 + 1)]
  exact ⟨Nat.mul_le_mul_right _ (Nat.log2_self_le hn),
    Nat.mul_lt_mul_of_pos_right Nat.lt_log2_self (Nat.two_pow_pos k)⟩

/-! ## 2. Values of a format -/

namespace Format

variable {f : Format} {m n d : Nat}

/-- The whole numbers of units that are values of a format, its upper limit aside: so many
significant bits, in steps of the least value. -/
def Holds (f : Format) (n : Nat) : Prop :=
  ∃ significand exponent, significand < 2 ^ f.precision ∧ f.least ≤ exponent ∧
    n = significand * 2 ^ exponent

theorem holds_two_pow (hf : 0 < f.precision) {k : Nat} (hk : f.least ≤ k) : f.Holds (2 ^ k) :=
  ⟨1, k, Nat.one_lt_two_pow (Nat.ne_of_gt hf), hk, (Nat.one_mul _).symm⟩

/-- What a format holds is spaced as widely as its neighbours. -/
theorem Holds.dvd (h : f.Holds n) : 2 ^ f.spacing n ∣ n := by
  obtain ⟨significand, exponent, bits, least, rfl⟩ := h
  by_cases zero : significand = 0
  · rw [zero, Nat.zero_mul]
    exact Nat.dvd_zero _
  · have logs := (Nat.log2_lt zero).2 bits
    have spacing : f.spacing (significand * 2 ^ exponent) ≤ exponent := by
      simp only [Format.spacing, log2_mul_two_pow zero]
      omega
    exact Nat.dvd_trans (Nat.pow_dvd_pow 2 spacing) (Nat.dvd_mul_left _ _)

/-- **Rounding leaves alone what the format holds.** -/
theorem nearest_of_holds (h : f.Holds n) : f.nearest n 1 = n := nearest_of_dvd h.dvd

/-- **Rounding gives what the format holds.** -/
theorem holds_nearest (hf : 0 < f.precision) (hd : 0 < d) : f.Holds (f.nearest n d) := by
  have least : f.least ≤ f.spacing (n / d) := Nat.le_max_left ..
  have rounded : f.nearest n d = divideToEven n (d * 2 ^ f.spacing (n / d)) *
      2 ^ f.spacing (n / d) := rfl
  have bound : divideToEven n (d * 2 ^ f.spacing (n / d)) ≤ 2 ^ f.precision := by
    refine Nat.le_of_mul_le_mul_right ?_ (Nat.two_pow_pos (f.spacing (n / d)))
    rw [← rounded, ← Nat.pow_add]
    exact nearest_le hd
  rcases Nat.lt_or_eq_of_le bound with below | full
  · exact ⟨_, _, below, least, rounded⟩
  · -- the significand is full, and the result the first of the next binade
    rw [rounded, full, ← Nat.pow_add]
    exact holds_two_pow hf (Nat.le_trans least (Nat.le_add_left ..))

/-- Rounding again changes nothing. -/
theorem nearest_nearest (hf : 0 < f.precision) (hd : 0 < d) :
    f.nearest (f.nearest n d) 1 = f.nearest n d :=
  nearest_of_holds (holds_nearest hf hd)

/-- What the format holds bounds a rounded number when it bounds the exact one. -/
theorem nearest_le_of_holds (hf : 0 < f.precision) (h : f.Holds m) (hn : n ≤ m) :
    f.nearest n 1 ≤ m := by
  rw [← nearest_of_holds h]
  exact nearest_mono hf Nat.one_pos Nat.one_pos (Nat.mul_le_mul_right 1 hn)

theorem le_nearest_of_holds (hf : 0 < f.precision) (h : f.Holds m) (hn : m ≤ n) :
    m ≤ f.nearest n 1 := by
  rw [← nearest_of_holds h]
  exact nearest_mono hf Nat.one_pos Nat.one_pos (Nat.mul_le_mul_right 1 hn)

/-- **The format holds nothing closer than what is rounded to.** -/
theorem nearest_closest (hf : 0 < f.precision) (n : Nat) (h : f.Holds m) :
    ((f.nearest n 1 : Nat) - n : Int).natAbs ≤ ((m : Nat) - n : Int).natAbs := by
  have closest := divideToEven_closest (Nat.two_pow_pos (f.spacing n)) n
  have rounded : f.nearest n 1 = divideToEven n (2 ^ f.spacing n) * 2 ^ f.spacing n := by
    rw [nearest, Nat.div_one, Nat.one_mul]
    rfl
  rw [rounded]
  obtain ⟨significand, exponent, bits, least, rfl⟩ := h
  rcases Nat.lt_or_ge exponent (f.spacing n) with finer | coarser
  · -- values of a finer spacing lie below the binade of `n`, whose lower end is closer
    have exponents : f.precision + exponent ≤ n.log2 ∧ f.spacing n ≤ n.log2 := by
      simp only [spacing] at finer ⊢
      omega
    have positive : n ≠ 0 := by
      rintro rfl
      rw [Nat.log2_zero] at exponents
      omega
    have start : 2 ^ n.log2 ≤ n := Nat.log2_self_le positive
    have below : significand * 2 ^ exponent ≤ 2 ^ n.log2 := by
      calc significand * 2 ^ exponent ≤ 2 ^ f.precision * 2 ^ exponent :=
            Nat.mul_le_mul_right _ (Nat.le_of_lt bits)
        _ = 2 ^ (f.precision + exponent) := (Nat.pow_add ..).symm
        _ ≤ 2 ^ n.log2 := Nat.pow_le_pow_right Nat.two_pos exponents.1
    have lower := closest (2 ^ (n.log2 - f.spacing n))
    rw [← Nat.pow_add, Nat.sub_add_cancel exponents.2] at lower
    omega
  · have multiple := closest (significand * 2 ^ (exponent - f.spacing n))
    rwa [Nat.mul_assoc, ← Nat.pow_add, Nat.sub_add_cancel coarser] at multiple

/-- A remainder has no more significant bits than the dividend or the divisor. -/
theorem Holds.mod (hm : f.Holds m) (hn : f.Holds n) : f.Holds (m % n) := by
  by_cases zero : n = 0
  · rwa [zero, Nat.mod_zero]
  obtain ⟨a, i, bitsA, leastI, rfl⟩ := hm
  obtain ⟨b, j, bitsB, leastJ, rfl⟩ := hn
  rcases Nat.le_total j i with coarser | finer
  · -- the divisor's step divides the dividend
    have divisor : 0 < b := Nat.pos_of_ne_zero fun none => zero (by rw [none, Nat.zero_mul])
    have split : a * 2 ^ i = a * 2 ^ (i - j) * 2 ^ j := by
      rw [Nat.mul_assoc, ← Nat.pow_add, Nat.sub_add_cancel coarser]
    refine ⟨a * 2 ^ (i - j) % b, j, Nat.lt_trans (Nat.mod_lt _ divisor) bitsB, leastJ, ?_⟩
    rw [split, Nat.mul_mod_mul_right]
  · have split : b * 2 ^ j = b * 2 ^ (j - i) * 2 ^ i := by
      rw [Nat.mul_assoc, ← Nat.pow_add, Nat.sub_add_cancel finer]
    refine ⟨a % (b * 2 ^ (j - i)), i, Nat.lt_of_le_of_lt (Nat.mod_le ..) bitsA, leastI, ?_⟩
    rw [split, Nat.mul_mod_mul_right]

/-- A fraction is rounded alike however it is written. -/
theorem nearest_mul_right {c : Nat} (hc : 0 < c) (n d : Nat) :
    f.nearest (n * c) (d * c) = f.nearest n d := by
  simp only [nearest, Nat.mul_div_mul_right n d hc]
  rw [Nat.mul_right_comm d c, divideToEven_mul_right hc]

/-- Where no least value is in the way, numbers round alike on every scale. -/
theorem nearest_scaled (hf : f.least = 0) (n k : Nat) :
    f.nearest (n * 2 ^ k) 1 = f.nearest n 1 * 2 ^ k := by
  by_cases short : n < 2 ^ f.precision
  · have held : f.Holds n := ⟨n, 0, short, Nat.le_of_eq hf, (Nat.mul_one n).symm⟩
    have scaled : f.Holds (n * 2 ^ k) := ⟨n, k, short, by omega, rfl⟩
    rw [nearest_of_holds held, nearest_of_holds scaled]
  · have positive : n ≠ 0 := by
      rintro rfl
      exact short (Nat.two_pow_pos _)
    have bits : f.precision ≤ n.log2 := (Nat.le_log2 positive).2 (Nat.not_lt.1 short)
    have spacing : f.spacing (n * 2 ^ k) = f.spacing n + k := by
      simp only [Format.spacing, log2_mul_two_pow positive]
      omega
    have step : Nat.pow 2 (f.spacing n + k) = Nat.pow 2 (f.spacing n) * 2 ^ k := Nat.pow_add ..
    simp only [nearest, Nat.div_one, Nat.one_mul, spacing, step]
    rw [divideToEven_mul_right (Nat.two_pow_pos k), Nat.mul_assoc]

end Format

/-! ## 3. Doubles that are integers -/

theorem unitsPerOne_eq : unitsPerOne = 2 ^ 1074 := rfl

/-- A value is an integer; zero is one with either sign. -/
structure Finite.IsInt (v : Finite) (n : Int) : Prop where
  units : v.units = n.natAbs * unitsPerOne
  sign : if v.negative then n ≤ 0 else 0 ≤ n

namespace Finite

variable {v : Finite} {n : Int}

/-- An integer has its number of units, on its own side of zero. -/
theorem isInt_iff : v.IsInt n ↔ v.value = n * unitsPerOne := by
  have positive : (0 : Int) < unitsPerOne := Int.natCast_pos.2 unitsPerOne_pos
  have magnitude : (n * unitsPerOne).natAbs = n.natAbs * unitsPerOne := by
    rw [Int.natAbs_mul, Int.natAbs_natCast]
  have above : 0 ≤ n * unitsPerOne ↔ 0 ≤ n := Int.mul_nonneg_iff_of_pos_right positive
  have below : n * unitsPerOne ≤ 0 ↔ n ≤ 0 := by
    have reverse : 0 ≤ -n * unitsPerOne ↔ 0 ≤ -n := Int.mul_nonneg_iff_of_pos_right positive
    rw [Int.neg_mul] at reverse
    omega
  have read : v.IsInt n ↔
      v.units = (n * unitsPerOne).natAbs ∧ if v.negative then n ≤ 0 else 0 ≤ n := by
    rw [magnitude]
    exact ⟨fun h => ⟨h.units, h.sign⟩, fun h => ⟨h.1, h.2⟩⟩
  rw [read, value]
  cases v.negative with
  | true =>
    simp only [if_true]
    omega
  | false =>
    simp only [Bool.false_eq_true, if_false]
    omega

theorem IsInt.isWhole (h : v.IsInt n) : v.isWhole = true := by
  rw [Finite.isWhole, h.units, Nat.mul_mod_left]
  rfl

theorem IsInt.truncate (h : v.IsInt n) : v.truncate = n := by
  have sign := h.sign
  rw [Finite.truncate, h.units, Nat.mul_div_cancel _ unitsPerOne_pos]
  cases hv : v.negative with
  | true =>
    simp only [hv, if_true] at sign ⊢
    omega
  | false =>
    simp only [hv, Bool.false_eq_true, if_false] at sign ⊢
    omega

end Finite

namespace Double

/-- A double is an integer. -/
def IsInt (x : Double) (n : Int) : Prop := ∃ v, x = .finite v ∧ v.IsInt n

/-- The integers that are doubles: 53 significant bits and any number of zeros behind them. -/
def HoldsInt (n : Int) : Prop := Format.double.Holds n.natAbs

/-- The integer that a double takes for `n`, the nearest of those that are doubles. -/
def nearestInt (n : Int) : Int := n.sign * Format.double.nearest n.natAbs 1

variable {x y : Double} {m n : Int}

theorem nearestInt_of_nonneg (h : 0 ≤ n) : nearestInt n = Format.double.nearest n.natAbs 1 := by
  rcases Int.lt_or_eq_of_le h with above | rfl
  · rw [nearestInt, Int.sign_eq_one_of_pos above, Int.one_mul]
  · rfl

theorem nearestInt_of_nonpos (h : n ≤ 0) :
    nearestInt n = -(Format.double.nearest n.natAbs 1 : Int) := by
  rcases Int.lt_or_eq_of_le h with below | rfl
  · rw [nearestInt, Int.sign_eq_neg_one_of_neg below, Int.neg_one_mul]
  · rfl

theorem natAbs_nearestInt (n : Int) :
    (nearestInt n).natAbs = Format.double.nearest n.natAbs 1 := by
  rcases Int.le_total n 0 with below | above
  · rw [nearestInt_of_nonpos below, Int.natAbs_neg, Int.natAbs_natCast]
  · rw [nearestInt_of_nonneg above, Int.natAbs_natCast]

theorem holdsInt_nearestInt (n : Int) : HoldsInt (nearestInt n) := by
  rw [HoldsInt, natAbs_nearestInt]
  exact Format.holds_nearest (by decide) Nat.one_pos

/-- The integers that are doubles are those that rounding leaves alone. -/
theorem holdsInt_iff : HoldsInt n ↔ nearestInt n = n := by
  constructor
  · intro h
    rw [nearestInt, Format.nearest_of_holds h, Int.sign_mul_natAbs]
  · intro h
    rw [← h]
    exact holdsInt_nearestInt n

/-- Integers of 53 bits are doubles. -/
theorem holdsInt_of_lt (h : n.natAbs < 2 ^ 53) : HoldsInt n :=
  ⟨n.natAbs, 0, h, Nat.le_refl 0, (Nat.mul_one _).symm⟩

/-- **No integer that is a double is closer.** -/
theorem nearestInt_closest (n : Int) (h : HoldsInt m) :
    (nearestInt n - n).natAbs ≤ (m - n).natAbs := by
  have closest := Format.nearest_closest (by decide) n.natAbs h
  rcases Int.le_total n 0 with below | above
  · rw [nearestInt_of_nonpos below]
    omega
  · rw [nearestInt_of_nonneg above]
    omega

/-- A power of two bounds what is rounded when it bounds the exact integer. -/
theorem natAbs_nearestInt_le {k : Nat} (h : n.natAbs ≤ 2 ^ k) :
    (nearestInt n).natAbs ≤ 2 ^ k := by
  rw [natAbs_nearestInt]
  exact Format.nearest_le_of_holds (by decide)
    (Format.holds_two_pow (by decide) (Nat.zero_le k)) h

theorem nearestInt_ne_zero (h : n ≠ 0) : nearestInt n ≠ 0 := by
  have least : Format.double.Holds (2 ^ 0) := Format.holds_two_pow (by decide) (Nat.le_refl 0)
  have positive := Format.le_nearest_of_holds (by decide) least (Int.natAbs_pos.2 h)
  rw [← Int.natAbs_ne_zero, natAbs_nearestInt]
  exact Nat.ne_of_gt positive

/-! ## 4. Arithmetic on integers -/

/-- Integers far from overflow are rounded on the scale of ones. -/
theorem isInt_round {negative : Bool} {d : Nat} (small : n.natAbs ≤ 2 ^ 1023)
    (sign : if negative then n ≤ 0 else 0 ≤ n) (hd : 0 < d) :
    (Format.double.round negative (n.natAbs * unitsPerOne * d) d).IsInt (nearestInt n) := by
  have nearest : Format.double.nearest (n.natAbs * unitsPerOne * d) d =
      (nearestInt n).natAbs * unitsPerOne := by
    have reduced := Format.double.nearest_mul_right hd (n.natAbs * unitsPerOne) 1
    rw [Nat.one_mul] at reduced
    rw [reduced, natAbs_nearestInt, unitsPerOne_eq, Format.nearest_scaled rfl]
  have fits : (nearestInt n).natAbs * unitsPerOne < Nat.pow 2 Format.double.limit := by
    rw [unitsPerOne_eq]
    calc (nearestInt n).natAbs * 2 ^ 1074 ≤ 2 ^ 1023 * 2 ^ 1074 :=
          Nat.mul_le_mul_right _ (natAbs_nearestInt_le small)
      _ = 2 ^ (1023 + 1074) := (Nat.pow_add ..).symm
      _ < 2 ^ Format.double.limit := Nat.pow_lt_pow_right (by decide) (by decide)
  refine ⟨⟨negative, _⟩, ?_, rfl, ?_⟩
  · rw [Format.round, nearest, if_pos fits]
  · cases negative with
    | true => exact nearestInt_of_nonpos sign ▸ Int.neg_nonpos_of_nonneg (Int.natCast_nonneg _)
    | false => exact nearestInt_of_nonneg sign ▸ Int.natCast_nonneg _

theorem isInt_ofUnits {value : Int} (h : value = n * unitsPerOne) (small : n.natAbs ≤ 2 ^ 1023)
    (zeroNegative : Bool) : (ofUnits value zeroNegative).IsInt (nearestInt n) := by
  have positive : (0 : Int) < unitsPerOne := Int.natCast_pos.2 unitsPerOne_pos
  have magnitude : value.natAbs = n.natAbs * unitsPerOne * 1 := by
    rw [h, Int.natAbs_mul, Int.natAbs_natCast, Nat.mul_one]
  have sign : value < 0 ↔ n < 0 := by
    rw [h, ← Int.not_le, ← Int.not_le, Int.mul_nonneg_iff_of_pos_right positive]
  rw [ofUnits, magnitude]
  refine isInt_round small ?_ Nat.one_pos
  by_cases zero : value = 0
  · have none : n = 0 := (Int.mul_eq_zero.1 (h ▸ zero)).resolve_right (Int.ne_of_gt positive)
    rw [none]
    cases zeroNegative <;> simp [zero]
  · rw [if_neg zero]
    by_cases below : value < 0
    · rw [decide_eq_true below]
      exact Int.le_of_lt (sign.1 below)
    · rw [decide_eq_false below]
      exact Int.not_lt.1 fun h => below (sign.2 h)

/-- **An integer becomes the nearest one that is a double.** -/
theorem isInt_ofInt (small : n.natAbs ≤ 2 ^ 1023) : (ofInt n).IsInt (nearestInt n) :=
  isInt_ofUnits rfl small false

theorem IsInt.neg (h : x.IsInt n) : x.neg.IsInt (-n) := by
  obtain ⟨⟨negative, units⟩, rfl, hv⟩ := h
  refine ⟨⟨!negative, units⟩, rfl, ?_, ?_⟩
  · rw [Int.natAbs_neg]
    exact hv.units
  · have sign := hv.sign
    cases negative with
    | true => exact Int.neg_nonneg_of_nonpos sign
    | false => exact Int.neg_nonpos_of_nonneg sign

/-- **A sum of integers is rounded once.** -/
theorem IsInt.add (hx : x.IsInt m) (hy : y.IsInt n) (small : (m + n).natAbs ≤ 2 ^ 1023) :
    (x.add y).IsInt (nearestInt (m + n)) := by
  obtain ⟨v, rfl, hv⟩ := hx
  obtain ⟨w, rfl, hw⟩ := hy
  have sum : v.value + w.value = (m + n) * unitsPerOne := by
    rw [Finite.isInt_iff.1 hv, Finite.isInt_iff.1 hw, Int.add_mul]
  exact isInt_ofUnits sum small _

theorem IsInt.sub (hx : x.IsInt m) (hy : y.IsInt n) (small : (m - n).natAbs ≤ 2 ^ 1023) :
    (x.sub y).IsInt (nearestInt (m - n)) := hx.add hy.neg small

/-- **A product of integers is rounded once.** -/
theorem IsInt.mul (hx : x.IsInt m) (hy : y.IsInt n) (small : (m * n).natAbs ≤ 2 ^ 1023) :
    (x.mul y).IsInt (nearestInt (m * n)) := by
  obtain ⟨⟨negative, units⟩, rfl, hv⟩ := hx
  obtain ⟨⟨negative', units'⟩, rfl, hw⟩ := hy
  have product : units * units' = (m * n).natAbs * unitsPerOne * unitsPerOne := by
    have hu : units = m.natAbs * unitsPerOne := hv.units
    have hu' : units' = n.natAbs * unitsPerOne := hw.units
    rw [hu, hu', Int.natAbs_mul, Nat.mul_mul_mul_comm, Nat.mul_assoc (m.natAbs * n.natAbs)]
  have sign : if negative != negative' then m * n ≤ 0 else 0 ≤ m * n := by
    have signs := hv.sign
    have signs' := hw.sign
    cases negative <;> cases negative'
    · exact Int.mul_nonneg signs signs'
    · exact Int.mul_nonpos_of_nonneg_of_nonpos signs signs'
    · exact Int.mul_nonpos_of_nonpos_of_nonneg signs signs'
    · exact Int.mul_nonneg_of_nonpos_of_nonpos signs signs'
  have rounded := isInt_round small sign unitsPerOne_pos
  rw [← product] at rounded
  exact rounded

/-- An integer that is equal to zero is zero. -/
theorem IsInt.equal_zero_iff (h : x.IsInt n) : x.equal zero = true ↔ n = 0 := by
  have positive : (0 : Int) < unitsPerOne := Int.natCast_pos.2 unitsPerOne_pos
  obtain ⟨v, rfl, hv⟩ := h
  rw [equal_iff_place rfl rfl, place, zero, place, Finite.isInt_iff.1 hv]
  constructor
  · intro same
    have product : n * unitsPerOne = 0 := (Prod.ext_iff.1 (toLex.injective same)).2
    exact (Int.mul_eq_zero.1 product).resolve_right (Int.ne_of_gt positive)
  · rintro rfl
    rw [Int.zero_mul]
    rfl

/-- **A remainder of integers is exact.** -/
theorem IsInt.mod (hx : x.IsInt m) (hy : y.IsInt n) (hn : n ≠ 0) :
    (x.mod y).IsInt (m.tmod n) := by
  obtain ⟨⟨negative, units⟩, rfl, hv⟩ := hx
  obtain ⟨w, rfl, hw⟩ := hy
  have divisor : w.isZero = false := by
    rw [Finite.isZero, hw.units, beq_eq_false_iff_ne]
    exact Nat.mul_ne_zero (Int.natAbs_ne_zero.2 hn) (Nat.ne_of_gt unitsPerOne_pos)
  refine ⟨⟨negative, units % w.units⟩, ?_, ?_, ?_⟩
  · simp only [Double.mod, divisor, Bool.false_eq_true, if_false]
  · have hu : units = m.natAbs * unitsPerOne := hv.units
    rw [hu, hw.units, Nat.mul_mod_mul_right, Int.natAbs_tmod]
  · have sign := hv.sign
    cases negative with
    | true =>
      have reverse := Int.tmod_nonneg n (Int.neg_nonneg_of_nonpos sign)
      rw [Int.neg_tmod] at reverse
      exact Int.nonpos_of_neg_nonneg reverse
    | false => exact Int.tmod_nonneg n sign

/-- So the remainder of integers that are doubles is one. -/
theorem HoldsInt.tmod (hm : HoldsInt m) (hn : HoldsInt n) : HoldsInt (m.tmod n) := by
  rw [HoldsInt, Int.natAbs_tmod]
  exact Format.Holds.mod hm hn

end Double

end DocQuery
