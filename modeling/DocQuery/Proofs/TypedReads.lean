/-
# Reading back what a typed read wrote

What a typed read gives is written as a JSON value again, and reading that at the same type gives
the same scalar.  There are three reasons, one for each way of reading
(`Scalar.cases_of_ofJsonAs?`).

* Integers, texts and bytes: the JSON value is the one that was read
  (`Scalar.toJson_of_ofJsonAs?`).
* Floats: they are already rounded, and rounding to single precision once is enough
  (`Double.toSingle_toSingle`).
* A value without a declared type is written as one of its own kind
  (`Scalar.ofJson_toJson_ofJson`).

The exception are numbers that single precision cannot hold.  They are not refused, as integers
too wide for their type are, but become infinite, are written as null, and null is read back.
`typed_reads_stable_iff` says that they are the only ones: the numbers from half a step above the
greatest value on (`singleOverflow`), which no integer of 64 bits reaches.
-/
import DocQuery.Proofs.EntityData
import DocQuery.Proofs.HeldValues
import DocQuery.Proofs.JsonReading

namespace DocQuery

/-! ## 1. Single precision -/

/-- Half a step above the greatest value of single precision.  Numbers from here on overflow. -/
def singleOverflow : Nat := 2 ^ 1202 - 2 ^ 1177

namespace Format

theorem nearest_single_lt_iff {n : Nat} :
    single.nearest n 1 < Nat.pow 2 single.limit ↔ n < singleOverflow := by
  have below : single.nearest (singleOverflow - 1) 1 < Nat.pow 2 single.limit := by decide +kernel
  have from_on : Nat.pow 2 single.limit ≤ single.nearest singleOverflow 1 := by decide +kernel
  have mono : ∀ {m k : Nat}, m ≤ k → single.nearest m 1 ≤ single.nearest k 1 := fun h =>
    nearest_mono (by decide) Nat.one_pos Nat.one_pos (Nat.mul_le_mul_right 1 h)
  constructor
  · intro fits
    by_contra large
    exact Nat.not_le.2 fits (Nat.le_trans from_on (mono (Nat.not_lt.1 large)))
  · exact fun small => Nat.lt_of_le_of_lt (mono (Nat.le_sub_one_of_lt small)) below

end Format

namespace Double

theorem toSingle_of_lt {v : Finite} (small : v.units < singleOverflow) :
    (finite v).toSingle = .finite ⟨v.negative, Format.single.nearest v.units 1⟩ := by
  rw [toSingle, Format.round, if_pos (Format.nearest_single_lt_iff.2 small)]

theorem toSingle_of_le {v : Finite} (large : singleOverflow ≤ v.units) :
    (finite v).toSingle = .infinite v.negative := by
  rw [toSingle, Format.round, if_neg (mt Format.nearest_single_lt_iff.1 (Nat.not_lt.2 large))]

/-- **Rounding to single precision once is enough.** -/
theorem toSingle_toSingle (x : Double) : x.toSingle.toSingle = x.toSingle := by
  cases x with
  | nan | infinite negative => rfl
  | finite v =>
    rcases Nat.lt_or_ge v.units singleOverflow with small | large
    · have rounded : Format.single.nearest (Format.single.nearest v.units 1) 1 = _ :=
        Format.nearest_nearest (by decide) Nat.one_pos
      have again : Format.single.nearest v.units 1 < singleOverflow := by
        rw [← Format.nearest_single_lt_iff, rounded, Format.nearest_single_lt_iff]
        exact small
      rw [toSingle_of_lt small, toSingle_of_lt again, rounded]
    · rw [toSingle_of_le large]
      rfl

end Double

namespace Json

/-- A number of the given value, which overflows single precision. -/
def OverflowsSingle (j : Json) (v : Finite) : Prop :=
  j.asDouble? = some (.finite v) ∧ singleOverflow ≤ v.units

variable {j : Json} {x : Double}

/-- An integer of 64 bits, signed or unsigned, is far from overflow. -/
theorem exists_finite_ofInt {n : Int} (word : IsWord n) : ∃ v, Double.ofInt n = .finite v := by
  have small : n.natAbs ≤ 2 ^ 64 := by
    unfold IsWord at word
    omega
  obtain ⟨v, finite, -⟩ := Double.isInt_ofInt
    (Nat.le_trans small (Nat.pow_le_pow_right Nat.two_pos (by decide)))
  exact ⟨v, finite⟩

/-- Numbers of JSON are finite. -/
theorem exists_finite_of_asDouble? (words : ∀ n, j = .ofInt n → IsWord n)
    (h : j.asDouble? = some x) : ∃ v, x = .finite v := by
  cases j with
  | number m =>
    cases h
    cases m with
    | integer n => exact exists_finite_ofInt (words n rfl)
    | double v | single v => exact ⟨v, rfl⟩
  | _ => cases h

end Json

/-! ## 2. Reading back -/

namespace Scalar

variable {type : DataType} {j : Json} {a : Scalar}

/-- **A value of its own kind is read back from its JSON value.** -/
theorem ofJson_toJson_ofJson (words : ∀ n, j = .ofInt n → Json.IsWord n) :
    ofJson (ofJson j).toJson = ofJson j := by
  cases j with
  | number m => cases m with
    | integer n =>
      by_cases narrow : fitsInt32 n = true
      · have kept : ofJson (.number (.integer n)) = .int32 (.ofInt n) := if_pos narrow
        rw [kept, toJson, toInt_ofInt_of_fits narrow]
        exact kept
      · by_cases wide : fitsInt64 n = true
        · have kept : ofJson (.number (.integer n)) = .int64 (.ofInt n) :=
            (if_neg narrow).trans (if_pos wide)
          rw [kept, toJson, toInt_ofInt_of_fits64 wide]
          exact kept
        · have rounded : ofJson (.number (.integer n)) = .float64 (.ofInt n) :=
            (if_neg narrow).trans (if_neg wide)
          obtain ⟨v, finite⟩ := Json.exists_finite_ofInt (words n rfl)
          rw [rounded, finite]
          rfl
    | double v | single v => rfl
  | null | bool b | string s | array items | object members => rfl

/-- Only null has the kind of null. -/
theorem ofJson_ne_null (value : j ≠ .null) : ofJson j ≠ .null := by
  intro null
  cases j with
  | null => exact value rfl
  | number m => cases m with
    | integer n =>
      simp only [ofJson] at null
      split_ifs at null
    | double v | single v => cases null
  | bool b | string s | array items | object members => cases null

/-- What a read gives: something that is written as it was, a float, or a value of its own kind. -/
theorem cases_of_ofJsonAs? (value : j ≠ .null) (read : ofJsonAs? type j = some a) :
    type.KeepsJson ∨
    (type = .float32 ∧ ∃ x, j.asDouble? = some x ∧ a = .float32 x.toSingle) ∨
    ((type = .float64 ∨ type = .decimal128) ∧ ∃ x, j.asDouble? = some x ∧ a = .float64 x) ∨
    (type = .object ∧ a = ofJson j) := by
  have present : ¬ j.isNull = true := by
    cases j with
    | null => exact absurd rfl value
    | _ => exact Bool.false_ne_true
  unfold ofJsonAs? at read
  rw [if_neg present] at read
  cases type with
  | boolean => exact .inl .boolean
  | int32 => exact .inl .int32
  | int64 => exact .inl .int64
  | date64 => exact .inl .date64
  | utf8 => exact .inl .utf8
  | binary => exact .inl .binary
  | float32 =>
    obtain ⟨x, number, rfl⟩ := Option.map_eq_some_iff.1 read
    exact .inr (.inl ⟨rfl, x, number, rfl⟩)
  | float64 =>
    obtain ⟨x, number, rfl⟩ := Option.map_eq_some_iff.1 read
    exact .inr (.inr (.inl ⟨.inl rfl, x, number, rfl⟩))
  | decimal128 =>
    obtain ⟨x, number, rfl⟩ := Option.map_eq_some_iff.1 read
    exact .inr (.inr (.inl ⟨.inr rfl, x, number, rfl⟩))
  | object => exact .inr (.inr (.inr ⟨rfl, (Option.some.inj read).symm⟩))

theorem ne_null_of_ofJsonAs? (value : j ≠ .null) (read : ofJsonAs? type j = some a) :
    a ≠ .null := by
  rcases cases_of_ofJsonAs? value read with keeps | ⟨-, x, -, rfl⟩ | ⟨-, x, -, rfl⟩ | ⟨-, rfl⟩
  · rintro rfl
    exact value (toJson_of_ofJsonAs? keeps read).symm
  · exact nofun
  · exact nofun
  · exact ofJson_ne_null value

/-- **What single precision does not overflow is read back.** -/
theorem ofJsonAs?_toJson (value : j ≠ .null) (words : ∀ n, j = .ofInt n → Json.IsWord n)
    (read : ofJsonAs? type j = some a) (held : ¬ (type = .float32 ∧ ∃ v, j.OverflowsSingle v)) :
    ofJsonAs? type a.toJson = some a := by
  rcases cases_of_ofJsonAs? value read with
    keeps | ⟨rfl, x, number, rfl⟩ | ⟨float, x, number, rfl⟩ | ⟨rfl, rfl⟩
  · rw [toJson_of_ofJsonAs? keeps read]
    exact read
  · obtain ⟨v, rfl⟩ := Json.exists_finite_of_asDouble? words number
    have small : v.units < singleOverflow :=
      Nat.not_le.1 fun large => held ⟨rfl, v, number, large⟩
    have again := Double.toSingle_toSingle (.finite v)
    rw [Double.toSingle_of_lt small] at again ⊢
    exact congrArg (fun x => some (Scalar.float32 x)) again
  · obtain ⟨v, rfl⟩ := Json.exists_finite_of_asDouble? words number
    rcases float with rfl | rfl <;> rfl
  · have present : ¬ (ofJson j).toJson.isNull = true := by
      intro null
      have same := ofJson_toJson_ofJson words
      cases written : (ofJson j).toJson with
      | null => exact ofJson_ne_null value (by rw [← same, written]; rfl)
      | _ => rw [written] at null; cases null
    rw [ofJsonAs?, if_neg present, ofJson_toJson_ofJson words]

/-- A number that single precision cannot hold is read as infinite, which is written as null. -/
theorem ofJsonAs?_of_overflowsSingle {v : Finite} (large : j.OverflowsSingle v) :
    ofJsonAs? .float32 j = some (.float32 (.infinite v.negative)) ∧
      (Scalar.float32 (.infinite v.negative)).toJson = .null := by
  obtain ⟨number, large⟩ := large
  cases j with
  | number m =>
    refine ⟨?_, rfl⟩
    have rounded : ofJsonAs? .float32 (.number m) = some (.float32 m.toDouble.toSingle) := rfl
    rw [rounded, Option.some.inj number, Double.toSingle_of_le large]
  | _ => cases number

end Scalar

/-- **A typed read is stable.**  What is read at a type is not null, and it is written as it was where
the type keeps JSON values.  Read again it is the same, unless the type is single precision and the
number overflows it: then it is infinite, and null is read back.  Integers are of 64 bits, signed or
unsigned, as they are in every JSON value that was read. -/
theorem typed_reads_stable_iff {type : DataType} {j : Json} {a : Scalar} (value : j ≠ .null)
    (words : ∀ n, j = .ofInt n → Json.IsWord n) (read : Scalar.ofJsonAs? type j = some a) :
    a ≠ .null ∧ (type.KeepsJson → a.toJson = j) ∧
    (Scalar.ofJsonAs? type a.toJson = some a ↔
      ¬ (type = .float32 ∧ ∃ v, j.OverflowsSingle v)) ∧
    (∀ v, type = .float32 → j.OverflowsSingle v →
      a = .float32 (.infinite v.negative) ∧ Scalar.ofJsonAs? type a.toJson = some .null) := by
  have lost : ∀ v, type = .float32 → j.OverflowsSingle v →
      a = .float32 (.infinite v.negative) ∧ Scalar.ofJsonAs? type a.toJson = some .null := by
    rintro v rfl large
    obtain ⟨infinite, written⟩ := Scalar.ofJsonAs?_of_overflowsSingle large
    cases infinite.symm.trans read
    rw [written]
    exact ⟨rfl, rfl⟩
  refine ⟨Scalar.ne_null_of_ofJsonAs? value read, fun keeps => Scalar.toJson_of_ofJsonAs? keeps read,
    ⟨?_, Scalar.ofJsonAs?_toJson value words read⟩, lost⟩
  rintro stable ⟨single, v, large⟩
  obtain ⟨-, null⟩ := lost v single large
  exact Scalar.ne_null_of_ofJsonAs? value read (Option.some.inj (stable.symm.trans null))

/-- The greatest double that single precision does not overflow, and the next one. -/
def besideOverflow : Finite × Finite :=
  (⟨true, singleOverflow - 2 ^ 1149⟩, ⟨true, singleOverflow⟩)

/-- Below the overflow a number is read as the greatest value of single precision and stays that;
from there on it becomes infinite and comes back as null. -/
theorem typed_reads_stable_iff_besideOverflow :
    Scalar.ofJsonAs? .float32 (.number (.double besideOverflow.1)) =
      some (.float32 (.finite ⟨true, 2 ^ 1202 - 2 ^ 1178⟩)) ∧
    Scalar.ofJsonAs? .float32 (Scalar.float32 (.finite ⟨true, 2 ^ 1202 - 2 ^ 1178⟩)).toJson =
      some (.float32 (.finite ⟨true, 2 ^ 1202 - 2 ^ 1178⟩)) ∧
    Scalar.ofJsonAs? .float32 (.number (.double besideOverflow.2)) =
      some (.float32 (.infinite true)) ∧
    Scalar.ofJsonAs? .float32 (Scalar.float32 (.infinite true)).toJson = some .null := by
  have held : Scalar.ofJsonAs? .float32 (.number (.double besideOverflow.1)) =
      some (.float32 (.finite ⟨true, 2 ^ 1202 - 2 ^ 1178⟩)) := by decide +kernel
  have lost : Scalar.ofJsonAs? .float32 (.number (.double besideOverflow.2)) =
      some (.float32 (.infinite true)) := by decide +kernel
  have small : ¬ singleOverflow ≤ besideOverflow.1.units := by decide +kernel
  have value : ∀ v, Json.number (.double v) ≠ .null := nofun
  have words : ∀ v n, Json.number (.double v) = .ofInt n → Json.IsWord n := nofun
  obtain ⟨-, -, stable, -⟩ := typed_reads_stable_iff (value _) (words _) held
  obtain ⟨-, -, -, overflow⟩ := typed_reads_stable_iff (value _) (words _) lost
  refine ⟨held, stable.2 ?_, lost, (overflow _ rfl ⟨rfl, Nat.le_refl _⟩).2⟩
  rintro ⟨-, v, number, large⟩
  cases number
  exact small large

/-- The number `2^128` is read as single precision and comes back as null. -/
theorem typed_read_comes_back_null :
    Scalar.ofJsonAs? .float32 (.number (.double ⟨false, 2 ^ 128 * unitsPerOne⟩)) =
      some (.float32 (.infinite false)) ∧
    Scalar.ofJsonAs? .float32 (Scalar.float32 (.infinite false)).toJson = some .null := by
  decide +kernel

end DocQuery
