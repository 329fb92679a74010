/-
# Rounding keeps the order

Doubles have places on a line, NaN behind all numbers, and `Double.compareNaNLast` compares places
(`Double.compare?_eq_place`).

Rounding does not move one number past another (`Format.nearest_mono`).  The proof is by binades:
what is rounded with a spacing stays within the binades that have it (`Format.nearest_le`,
`Format.le_nearest`), so numbers of two binades keep their order, and within one binade it is the
order of the nearest whole numbers (`divideToEven_mono`).  From it follow

* integers in their own order as doubles (`Double.ofInt_mono`),
* sums in the order of their summands (`Double.add_mono`),
* quotients in the reverse order of their divisors (`Double.div_antitone`).

The order is not strict: two integers may have one double.  An integer well inside 53 bits shares
its double with no other (`Double.eq_of_ofInt_equal`).
-/
import DocQuery.Proofs.KeyedSelects
import Mathlib.Algebra.Ring.Nat
import Mathlib.Data.Nat.Log
import Mathlib.Data.Prod.Lex

namespace DocQuery

/-! ## 1. Magnitudes -/

section

variable {m n d e k : Nat}

/-- A larger fraction has no smaller whole part. -/
theorem quotient_mono (hd : 0 < d) (he : 0 < e) (h : m * e ≤ n * d) : m / d ≤ n / e := by
  refine (Nat.le_div_iff_mul_le he).2 (Nat.le_of_mul_le_mul_right ?_ hd)
  calc m / d * e * d = m / d * d * e := Nat.mul_right_comm ..
    _ ≤ m * e := Nat.mul_le_mul_right e (Nat.div_mul_le_self m d)
    _ ≤ n * d := h

theorem le_divideToEven (hd : 0 < d) (h : k * d ≤ n) : k ≤ divideToEven n d := by
  have quotient : k ≤ n / d := (Nat.le_div_iff_mul_le hd).2 h
  simp only [divideToEven]
  split_ifs <;> omega

theorem divideToEven_le (hd : 0 < d) (h : n ≤ k * d) : divideToEven n d ≤ k := by
  have quotient : n / d ≤ k := Nat.div_le_of_le_mul (by rwa [Nat.mul_comm])
  rcases Nat.lt_or_eq_of_le quotient with below | exact
  · simp only [divideToEven]
    split_ifs <;> omega
  · have whole := Nat.div_add_mod n d
    rw [exact, Nat.mul_comm] at whole
    have remainder : n % d = 0 := by omega
    simp only [divideToEven, remainder, Nat.mul_zero, hd, if_true, exact, le_refl]

/-- A larger fraction has no smaller nearest whole number. -/
theorem divideToEven_mono (hd : 0 < d) (he : 0 < e) (h : m * e ≤ n * d) :
    divideToEven m d ≤ divideToEven n e := by
  have floor := quotient_mono hd he h
  rcases Nat.lt_or_eq_of_le floor with below | same
  · have upper : divideToEven m d ≤ m / d + 1 := by
      simp only [divideToEven]
      split_ifs <;> omega
    have lower : n / e ≤ divideToEven n e := by
      simp only [divideToEven]
      split_ifs <;> omega
    omega
  · have rest : m % d * e ≤ n % e * d := by
      have hm : (m / d * d + m % d) * e ≤ (n / e * e + n % e) * d := by
        rwa [Nat.div_add_mod', Nat.div_add_mod']
      rw [Nat.add_mul, Nat.add_mul, same, Nat.mul_right_comm _ d e] at hm
      omega
    have half : d ≤ 2 * (m % d) → e ≤ 2 * (n % e) := by
      intro hm
      refine Nat.le_of_mul_le_mul_right ?_ hd
      calc e * d = d * e := Nat.mul_comm ..
        _ ≤ 2 * (m % d) * e := Nat.mul_le_mul_right e hm
        _ ≤ 2 * (n % e) * d := by
          rw [Nat.mul_assoc, Nat.mul_assoc]
          exact Nat.mul_le_mul_left 2 rest
    have more : d < 2 * (m % d) → e < 2 * (n % e) := by
      intro hm
      refine Nat.lt_of_mul_lt_mul_right (a := d) ?_
      calc e * d = d * e := Nat.mul_comm ..
        _ < 2 * (m % d) * e := Nat.mul_lt_mul_of_pos_right hm he
        _ ≤ 2 * (n % e) * d := by
          rw [Nat.mul_assoc, Nat.mul_assoc]
          exact Nat.mul_le_mul_left 2 rest
    simp only [divideToEven, same]
    split_ifs <;> omega

end

namespace Format

variable {f : Format} {m n d e : Nat}

theorem spacing_mono (f : Format) (h : m ≤ n) : f.spacing m ≤ f.spacing n := by
  have logs : m.log2 ≤ n.log2 := by
    rw [Nat.log2_eq_log_two, Nat.log2_eq_log_two]
    exact Nat.log_mono_right h
  simp only [spacing]
  omega

/-- What is rounded with a spacing stays within the binades that have it. -/
theorem nearest_le (hd : 0 < d) :
    f.nearest n d ≤ 2 ^ (f.precision + f.spacing (n / d)) := by
  have binade : n / d < 2 ^ (f.precision + f.spacing (n / d)) := by
    refine Nat.lt_of_lt_of_le Nat.lt_log2_self (Nat.pow_le_pow_right Nat.two_pos ?_)
    simp only [spacing]
    omega
  have bound : n ≤ 2 ^ f.precision * (d * 2 ^ f.spacing (n / d)) := by
    have product := (Nat.div_lt_iff_lt_mul hd).1 binade
    rw [Nat.mul_left_comm, ← Nat.pow_add, Nat.mul_comm]
    exact Nat.le_of_lt product
  rw [Nat.pow_add]
  exact Nat.mul_le_mul_right _
    (divideToEven_le (Nat.mul_pos hd (Nat.pow_pos Nat.two_pos)) bound)

/-- What is rounded with a wider spacing than the least is at least the lower end of its binade. -/
theorem le_nearest (hf : 0 < f.precision) (hd : 0 < d) (wide : f.least < f.spacing (n / d)) :
    2 ^ (f.precision - 1 + f.spacing (n / d)) ≤ f.nearest n d := by
  have exponent : f.precision - 1 + f.spacing (n / d) = (n / d).log2 := by
    simp only [spacing] at wide ⊢
    omega
  have positive : n / d ≠ 0 := by
    intro zero
    rw [zero] at wide
    simp only [spacing, Nat.log2_zero] at wide
    omega
  have bound : 2 ^ (f.precision - 1) * (d * 2 ^ f.spacing (n / d)) ≤ n := by
    rw [Nat.mul_left_comm, ← Nat.pow_add, exponent, Nat.mul_comm]
    exact (Nat.le_div_iff_mul_le hd).1 (Nat.log2_self_le positive)
  rw [Nat.pow_add]
  exact Nat.mul_le_mul_right _
    (le_divideToEven (Nat.mul_pos hd (Nat.pow_pos Nat.two_pos)) bound)

/-- **Rounding keeps the order of fractions.** -/
theorem nearest_mono (hf : 0 < f.precision) (hd : 0 < d) (he : 0 < e) (h : m * e ≤ n * d) :
    f.nearest m d ≤ f.nearest n e := by
  have floor := quotient_mono hd he h
  rcases Nat.lt_or_eq_of_le (f.spacing_mono floor) with wider | same
  · -- the end of a binade separates the results
    have least : f.least ≤ f.spacing (m / d) := Nat.le_max_left ..
    calc f.nearest m d ≤ 2 ^ (f.precision + f.spacing (m / d)) := nearest_le hd
      _ ≤ 2 ^ (f.precision - 1 + f.spacing (n / e)) :=
        Nat.pow_le_pow_right Nat.two_pos (by omega)
      _ ≤ f.nearest n e := le_nearest hf he (Nat.lt_of_le_of_lt least wider)
  · have step : 0 < Nat.pow 2 (f.spacing (n / e)) := Nat.pow_pos Nat.two_pos
    simp only [nearest, same]
    refine Nat.mul_le_mul_right _ (divideToEven_mono (Nat.mul_pos hd step) (Nat.mul_pos he step) ?_)
    rw [← Nat.mul_assoc, ← Nat.mul_assoc]
    exact Nat.mul_le_mul_right _ h

end Format

/-! ## 2. The line -/

namespace Double

/-- The place of a double on the line, with NaN behind all numbers. -/
def place : Double → ℤ ×ₗ ℤ
  | .nan => toLex (2, 0)
  | .infinite negative => toLex (if negative then -1 else 1, 0)
  | .finite x => toLex (0, x.value)

theorem compareNaNLast_eq (x y : Double) : x.compareNaNLast y = Ord.compare x.place y.place := by
  rw [Prod.Lex.compare_def]
  cases x with
  | nan => cases y with
    | nan => rfl
    | infinite n => cases n <;> rfl
    | finite y => rfl
  | infinite m => cases m <;> cases y with
    | nan => rfl
    | infinite n => cases n <;> rfl
    | finite y => rfl
  | finite x => cases y with
    | nan => rfl
    | infinite n => cases n <;> rfl
    | finite y => rfl

/-- Numbers are equal when they have one place. -/
theorem equal_iff_place {x y : Double} (hx : x.isNaN = false) (hy : y.isNaN = false) :
    x.equal y = true ↔ x.place = y.place := by
  rw [← compareNaNLast_eq_iff hx hy, compareNaNLast_eq, compare_eq_iff_eq]

theorem place_eq_of_equal {x y : Double} (h : x.equal y = true) : x.place = y.place := by
  have isNumber : ∀ {z : Double} {k : ℤ × ℤ}, z.key = some k → z.isNaN = false := by
    intro z k hz
    cases z with
    | nan => cases hz
    | infinite n | finite v => rfl
  obtain ⟨k, hx, hy⟩ := equal_iff.1 h
  exact (equal_iff_place (isNumber hx) (isNumber hy)).1 h

/-- What is at the place of a number is one. -/
theorem isNaN_of_place_eq {x y : Double} (hx : x.isNaN = false) (h : x.place = y.place) :
    y.isNaN = false := by
  cases y with
  | nan => cases x with
    | nan => exact hx
    | infinite n => cases n <;> cases h
    | finite v => cases h
  | infinite n => rfl
  | finite v => rfl

/-- Numbers compare by their places. -/
theorem compare?_eq_place {x y : Double} (hx : x.isNaN = false) (hy : y.isNaN = false) :
    (x.compare? y).getD .eq = Ord.compare x.place y.place := by
  rw [← compareNaNLast_eq, compareNaNLast, hx, hy]

theorem place_round (f : Format) (negative : Bool) (num den : Nat) :
    (f.round negative num den).place =
      if f.nearest num den < Nat.pow 2 f.limit
        then toLex (0, if negative then -(f.nearest num den : Int) else f.nearest num den)
        else toLex (if negative then -1 else 1, 0) := by
  simp only [Format.round]
  split <;> rfl

/-- The place of a rounded whole number of units; a zero has one place with either sign. -/
theorem place_ofUnits (value : Int) (zeroNegative : Bool) :
    (ofUnits value zeroNegative).place =
      (Format.double.round (decide (value < 0)) value.natAbs 1).place := by
  by_cases zero : value = 0
  · have nearest : Format.double.nearest 0 1 = 0 := rfl
    have fits : 0 < Nat.pow 2 Format.double.limit := Nat.pow_pos Nat.two_pos
    rw [zero, ofUnits, place_round, place_round, Int.natAbs_zero, nearest, if_pos fits, if_pos fits]
    cases zeroNegative <;> rfl
  · rw [ofUnits, if_neg zero]

/-- **Rounding keeps the order of sums.** -/
theorem ofUnits_mono {v w : Int} (h : v ≤ w) (a b : Bool) :
    (ofUnits v a).place ≤ (ofUnits w b).place := by
  have larger : ∀ {m n : Nat}, m ≤ n → Format.double.nearest m 1 ≤ Format.double.nearest n 1 :=
    fun h => Format.nearest_mono (by decide) Nat.one_pos Nat.one_pos (Nat.mul_le_mul_right 1 h)
  rw [place_ofUnits, place_ofUnits, place_round, place_round]
  generalize Nat.pow 2 Format.double.limit = limit
  -- below zero the larger magnitude is the smaller number
  by_cases negative : w < 0
  · have below : v < 0 := Int.lt_of_le_of_lt h negative
    have magnitudes := larger (m := w.natAbs) (n := v.natAbs) (by omega)
    simp only [decide_eq_true negative, decide_eq_true below, if_true]
    split_ifs <;> rw [Prod.Lex.toLex_le_toLex] <;> omega
  · by_cases below : v < 0
    · simp only [decide_eq_false negative, decide_eq_true below, if_true, Bool.false_eq_true,
        if_false]
      split_ifs <;> rw [Prod.Lex.toLex_le_toLex] <;> omega
    · have magnitudes := larger (m := v.natAbs) (n := w.natAbs) (by omega)
      simp only [decide_eq_false negative, decide_eq_false below, Bool.false_eq_true, if_false]
      split_ifs <;> rw [Prod.Lex.toLex_le_toLex] <;> omega

/-- **Integers come in their order as doubles.** -/
theorem ofInt_mono {m n : Int} (h : m ≤ n) : (ofInt m).place ≤ (ofInt n).place :=
  ofUnits_mono (Int.mul_le_mul_of_nonneg_right h (Int.natCast_nonneg unitsPerOne)) false false

/-- An integer well inside 53 bits shares its double with no other. -/
theorem eq_of_ofInt_equal {m n : Int} (hm : m.natAbs < Nat.pow 2 52)
    (h : (ofInt m).equal (ofInt n) = true) : m = n := by
  have places := (equal_iff_place (isNaN_ofInt m) (isNaN_ofInt n)).1 h
  have wide : Nat.pow 2 53 = 9007199254740992 := rfl
  have narrow : Nat.pow 2 52 = 4503599627370496 := rfl
  have between : ∀ {k : Int}, k.natAbs < Nat.pow 2 53 → (m ≤ k ∧ k ≤ n) ∨ (n ≤ k ∧ k ≤ m) →
      m = k := by
    intro k hk hbetween
    refine (ofInt_equal_iff (by omega) hk).1 ?_
    rw [equal_iff_place (isNaN_ofInt m) (isNaN_ofInt k)]
    rcases hbetween with ⟨hmk, hkn⟩ | ⟨hnk, hkm⟩
    · have above := ofInt_mono hkn
      rw [← places] at above
      exact le_antisymm (ofInt_mono hmk) above
    · have below := ofInt_mono hnk
      rw [← places] at below
      exact le_antisymm below (ofInt_mono hkm)
  rcases Int.lt_trichotomy m n with less | equal | greater
  · have := between (k := m + 1) (by omega) (.inl ⟨by omega, by omega⟩)
    omega
  · exact equal
  · have := between (k := m - 1) (by omega) (.inr ⟨by omega, by omega⟩)
    omega

/-! ## 3. Sums and reciprocals -/

theorem place_finite_le {x y : Finite} :
    (Double.finite x).place ≤ (Double.finite y).place ↔ x.value ≤ y.value := by
  rw [place, place, Prod.Lex.toLex_le_toLex]
  exact ⟨fun h => h.elim (fun less => absurd less (Int.lt_irrefl 0)) And.right,
    fun h => .inr ⟨rfl, h⟩⟩

theorem place_le_infinite {x : Double} (h : x.isNaN = false) :
    x.place ≤ (infinite false).place := by
  cases x with
  | nan => cases h
  | infinite negative => cases negative <;> decide
  | finite x => exact Prod.Lex.toLex_le_toLex.2 (.inl Int.zero_lt_one)

theorem not_infinite_le_finite (x : Finite) :
    ¬ (infinite false).place ≤ (Double.finite x).place := by
  rw [place, place, Prod.Lex.toLex_le_toLex]
  rintro (less | ⟨same, -⟩)
  · exact absurd less (Int.not_lt.2 Int.one_nonneg)
  · cases same

/-- Zero and the numbers behind it. -/
structure NonNegative (x : Double) : Prop where
  isNaN : x.isNaN = false
  place : zero.place ≤ x.place

variable {x y z w : Double}

theorem nonNegative_zero : NonNegative zero := ⟨rfl, le_refl _⟩

theorem nonNegative_finite {x : Finite} : NonNegative (.finite x) ↔ 0 ≤ x.value :=
  ⟨fun h => place_finite_le.1 h.place, fun h => ⟨rfl, place_finite_le.2 h⟩⟩

theorem nonNegative_infinite : NonNegative (.infinite false) := ⟨rfl, place_le_infinite rfl⟩

theorem NonNegative.cases (h : x.NonNegative) :
    x = .infinite false ∨ ∃ v, x = .finite v ∧ 0 ≤ v.value := by
  cases x with
  | nan => cases h.isNaN
  | infinite negative => cases negative with
    | false => exact .inl rfl
    | true => exact absurd h.place (by decide)
  | finite v => exact .inr ⟨v, rfl, nonNegative_finite.1 h⟩

theorem ofUnits_zero : ofUnits 0 false = zero := by
  have nearest : Format.double.nearest 0 1 = 0 := rfl
  have fits : 0 < Nat.pow 2 Format.double.limit := Nat.pow_pos Nat.two_pos
  rw [ofUnits, Int.natAbs_zero]
  simp only [Format.round, nearest, if_pos fits]
  rfl

theorem nonNegative_ofUnits {value : Int} (h : 0 ≤ value) (zeroNegative : Bool) :
    (ofUnits value zeroNegative).NonNegative where
  isNaN := isNaN_round ..
  place := by
    rw [← ofUnits_zero]
    exact ofUnits_mono h false zeroNegative

theorem NonNegative.add (hx : x.NonNegative) (hy : y.NonNegative) : (x.add y).NonNegative := by
  rcases hx.cases with rfl | ⟨v, rfl, hv⟩ <;> rcases hy.cases with rfl | ⟨w, rfl, hw⟩
  · exact nonNegative_infinite
  · exact nonNegative_infinite
  · exact nonNegative_infinite
  · exact nonNegative_ofUnits (Int.add_nonneg hv hw) _

/-- **Sums come in the order of their summands.** -/
theorem add_mono (hx : x.NonNegative) (hy : y.NonNegative) (hz : z.NonNegative)
    (hw : w.NonNegative) (hxy : x.place ≤ y.place) (hzw : z.place ≤ w.place) :
    (x.add z).place ≤ (y.add w).place := by
  have sum := place_le_infinite (hx.add hz).isNaN
  rcases hy.cases with rfl | ⟨v, rfl, hv⟩ <;> rcases hw.cases with rfl | ⟨u, rfl, hu⟩
  · exact sum
  · exact sum
  · exact sum
  · rcases hx.cases with rfl | ⟨a, rfl, -⟩
    · exact absurd hxy (not_infinite_le_finite v)
    · rcases hz.cases with rfl | ⟨b, rfl, -⟩
      · exact absurd hzw (not_infinite_le_finite u)
      · exact ofUnits_mono (Int.add_le_add (place_finite_le.1 hxy) (place_finite_le.1 hzw)) _ _

theorem nonNegative_round (f : Format) (num den : Nat) : (f.round false num den).NonNegative := by
  refine ⟨isNaN_round .., ?_⟩
  simp only [Format.round]
  split
  · exact place_finite_le.2 (Int.natCast_nonneg _)
  · exact place_le_infinite rfl

/-- A larger fraction is not rounded to a smaller double. -/
theorem round_mono {m n d e : Nat} (hd : 0 < d) (he : 0 < e) (h : m * e ≤ n * d) :
    (Format.double.round false m d).place ≤ (Format.double.round false n e).place := by
  have nearest : Format.double.nearest m d ≤ Format.double.nearest n e :=
    Format.nearest_mono (by decide) hd he h
  rw [place_round, place_round]
  generalize Nat.pow 2 Format.double.limit = limit
  simp only [Bool.false_eq_true, if_false]
  split_ifs <;> rw [Prod.Lex.toLex_le_toLex] <;> omega

theorem zero_lt_ofInt {n : Int} (h : 0 < n) : zero.place < (ofInt n).place := by
  have one : ofInt 1 = .finite ⟨false, 1 * unitsPerOne⟩ := ofInt_whole (k := 1) (by decide)
  have unit : 0 < 1 * unitsPerOne := Nat.mul_pos Nat.one_pos (Nat.pow_pos Nat.two_pos)
  refine lt_of_lt_of_le ?_ (ofInt_mono (m := 1) h)
  rw [one]
  generalize 1 * unitsPerOne = units at unit
  exact lt_of_not_ge fun below => Int.not_le.2 (Int.natCast_pos.2 unit) (place_finite_le.1 below)

/-- A number in front of which zero stands is infinite or a positive number of units. -/
theorem cases_of_zero_lt (hy : y.isNaN = false) (positive : zero.place < y.place) :
    y = .infinite false ∨ ∃ k, y = .finite ⟨false, k⟩ ∧ 0 < k := by
  have nonNegative : y.NonNegative := ⟨hy, le_of_lt positive⟩
  rcases nonNegative.cases with rfl | ⟨⟨negative, k⟩, rfl, hv⟩
  · exact .inl rfl
  · have above : 0 < (⟨negative, k⟩ : Finite).value :=
      Int.not_le.1 fun h => not_le_of_gt positive (place_finite_le.2 h)
    cases negative with
    | true =>
      simp only [Finite.value, if_true] at above
      omega
    | false =>
      simp only [Finite.value, Bool.false_eq_true, if_false] at above
      exact .inr ⟨k, rfl, by omega⟩

/-- **Quotients come in the reverse order of their divisors.** -/
theorem div_antitone (n : Nat) (hy : y.isNaN = false) (hz : z.isNaN = false)
    (positive : zero.place < y.place) (h : y.place ≤ z.place) :
    ((Double.finite ⟨false, n⟩).div z).NonNegative ∧
      ((Double.finite ⟨false, n⟩).div z).place ≤ ((Double.finite ⟨false, n⟩).div y).place := by
  have quotient : ∀ k, 0 < k → (Double.finite ⟨false, n⟩).div (.finite ⟨false, k⟩) =
      Format.double.round false (n * unitsPerOne) k := by
    intro k hk
    have nonzero : (⟨false, k⟩ : Finite).isZero = false := beq_false_of_ne (Nat.ne_of_gt hk)
    simp only [div, nonzero, Bool.false_eq_true, if_false, bne_self_eq_false]
  have none : (Double.finite ⟨false, n⟩).div (.infinite false) = zero := rfl
  rcases cases_of_zero_lt hy positive with rfl | ⟨k, rfl, hk⟩ <;>
    rcases cases_of_zero_lt hz (lt_of_lt_of_le positive h) with rfl | ⟨m, rfl, hm⟩
  · rw [none]
    exact ⟨nonNegative_zero, le_refl _⟩
  · exact absurd h (not_infinite_le_finite _)
  · rw [none, quotient k hk]
    exact ⟨nonNegative_zero, (nonNegative_round ..).place⟩
  · rw [quotient k hk, quotient m hm]
    have larger : k ≤ m := Int.ofNat_le.1 (place_finite_le.1 h)
    exact ⟨nonNegative_round .., round_mono hm hk (Nat.mul_le_mul_left _ larger)⟩

end Double

theorem Number.isNaN_toDouble (x : Number) : x.toDouble.isNaN = false := by
  cases x with
  | integer n => exact Double.isNaN_ofInt n
  | double x | single x => rfl

end DocQuery
