/-
# The order of scalars

Scalars stand on one line: null, then booleans, numbers by their doubles, texts and byte strings
(`Scalar.place`).  They compare by their places, but of two 64-bit integers with one double the
larger comes behind (`Scalar.compare_eq`).  A number of another type with that double is equal to
both integers, so comparing is NOT transitive on the three: the triple slips (`Scalar.Slips`).

These triples are all that is wrong.

* Comparing is symmetric, and it is transitive but for them (`Scalar.compare_eq_gt_iff`).
* So a family of scalars is ordered exactly when no three of its members slip
  (`Scalar.preorders_iff_steady`), and so is what is compared by scalars, position by position:
  tuples, the keys of identity maps and JSON values (`Scalar.ordered_but_for_slips`).
* The keys of one entity type are such a family, unless a part is of type object, because the
  numbers of every other type are of one kind (`Scalar.steady_holds`).

`Scalar.compare_not_transitive` has a triple that slips.  It is the reason for every hypothesis
about slipping values in the modules on sorting.
-/
import DocQuery.Proofs.DistinctRows
import DocQuery.Proofs.Preorders
import DocQuery.Proofs.Rounding

namespace DocQuery

/-! ## 1. The places of scalars -/

namespace Scalar

/-- The truth value of a boolean, as a number. -/
def flag : Scalar → ℕ
  | .bool b => b.toNat
  | _ => 0

def numberPlace (s : Scalar) : ℤ ×ₗ ℤ := (s.asDouble?.getD .zero).place

def words : Scalar → String
  | .text s => s
  | _ => ""

def octets : Scalar → List ℕ
  | .binary bytes => bytes.map UInt8.toNat
  | _ => []

/-- The place of a scalar on the line of all scalars: its kind, then its value.  Numbers stand at
their doubles. -/
def place (s : Scalar) : ℕ ×ₗ ℕ ×ₗ (ℤ ×ₗ ℤ) ×ₗ String ×ₗ List ℕ :=
  toLex (s.rank, toLex (s.flag, toLex (s.numberPlace, toLex (s.words, s.octets))))

/-- What decides between scalars at one place: integers of 64 bits compare exactly. -/
def compareExactly : Scalar → Scalar → Ordering
  | .int64 m, .int64 n => Ord.compare m.toInt n.toInt
  | _, _ => .eq

theorem compareLists_bytes : ∀ as bs : List UInt8,
    compareLists (fun x y => Ord.compare x.toNat y.toNat) as bs =
      Ord.compare (as.map UInt8.toNat) (bs.map UInt8.toNat)
  | [], [] => rfl
  | [], _ :: _ => rfl
  | _ :: _, [] => rfl
  | a :: as, b :: bs => by
    rw [compareLists, compareLists_bytes as bs, List.map_cons, List.map_cons,
      List.compare_cons_cons]

/-- Integers compare as their doubles do, and exactly where these are at one place. -/
theorem compare_ofInt (m n : Int) : Ord.compare m n =
    (Ord.compare (Double.ofInt m).place (Double.ofInt n).place).then (Ord.compare m n) := by
  rcases Int.lt_trichotomy m n with less | equal | greater
  · rw [compare_lt_iff_lt.2 less, eq_comm, Ordering.then_eq_lt]
    rcases (Double.ofInt_mono (Int.le_of_lt less)).lt_or_eq with places | places
    · exact .inl (compare_lt_iff_lt.2 places)
    · exact .inr ⟨compare_eq_iff_eq.2 places, rfl⟩
  · rw [equal, compare_eq_iff_eq.2 (Eq.refl n), compare_eq_iff_eq.2 (Eq.refl (Double.ofInt n).place)]
    rfl
  · rw [compare_gt_iff_gt.2 greater, eq_comm, Ordering.then_eq_gt]
    rcases (Double.ofInt_mono (Int.le_of_lt greater)).lt_or_eq with places | places
    · exact .inl (compare_gt_iff_gt.2 places)
    · exact .inr ⟨compare_eq_iff_eq.2 places.symm, rfl⟩

/-- Integers of 32 bits compare as their doubles do. -/
theorem compare_int32 (m n : Int32) : Ord.compare m.toInt n.toInt =
    Ord.compare (Double.ofInt m.toInt).place (Double.ofInt n.toInt).place := by
  have small : m.toInt.natAbs < Nat.pow 2 52 := by
    have := m.le_toInt
    have := m.toInt_lt
    have : Nat.pow 2 52 = 4503599627370496 := rfl
    omega
  rw [compare_ofInt]
  cases places : Ord.compare (Double.ofInt m.toInt).place (Double.ofInt n.toInt).place with
  | lt | gt => rfl
  | eq =>
    have equal := (Double.equal_iff_place (Double.isNaN_ofInt _) (Double.isNaN_ofInt _)).2
      (compare_eq_iff_eq.1 places)
    rw [Double.eq_of_ofInt_equal small equal]
    exact compare_eq_iff_eq.2 rfl

theorem compare_place (a b : Scalar) : Ord.compare a.place b.place =
    (Ord.compare a.rank b.rank).then ((Ord.compare a.flag b.flag).then
      ((Ord.compare a.numberPlace b.numberPlace).then ((Ord.compare a.words b.words).then
        (Ord.compare a.octets b.octets)))) := rfl

theorem compare_of_rank_ne {a b : Scalar} (h : a.rank ≠ b.rank) :
    a.compare b = Ord.compare a.rank b.rank := by
  cases a <;> cases b <;> simp [rank] at h <;> rfl

variable {a b c : Scalar}

/-- Numbers have doubles. -/
theorem rank_eq_two_iff : a.rank = 2 ↔ ∃ x, a.asDouble? = some x := by
  cases a <;> simp [rank, asDouble?]

/-- Numbers differ only in the places of their doubles. -/
theorem compare_place_of_numbers {x y : Double} (ha : a.asDouble? = some x)
    (hb : b.asDouble? = some y) : Ord.compare a.place b.place = Ord.compare x.place y.place := by
  have parts : ∀ {s : Scalar} {z : Double}, s.asDouble? = some z →
      s.rank = 2 ∧ s.flag = 0 ∧ s.words = "" ∧ s.octets = [] := by
    intro s z h
    cases s <;> simp [asDouble?] at h <;> exact ⟨rfl, rfl, rfl, rfl⟩
  obtain ⟨ra, fa, wa, oa⟩ := parts ha
  obtain ⟨rb, fb, wb, ob⟩ := parts hb
  rw [compare_place, numberPlace, numberPlace, ra, rb, fa, fb, wa, wb, oa, ob, ha, hb]
  simp

theorem compareExactly_of_ne (h : a.dataType? ≠ some .int64 ∨ b.dataType? ≠ some .int64) :
    compareExactly a b = .eq := by
  cases a with
  | int64 m => cases b with
    | int64 n => exact h.elim (absurd rfl) (absurd rfl)
    | _ => rfl
  | _ => cases b <;> rfl

/-- Numbers compare by their doubles, and 64-bit integers with one double exactly. -/
theorem compare_numbers {x y : Double} (ha : a.asDouble? = some x) (hb : b.asDouble? = some y) :
    a.compare b = (Ord.compare x.place y.place).then (compareExactly a b) := by
  unfold compare
  -- the cases of the comparison; those of other kinds have no doubles
  split
  · simp [asDouble?] at ha
  · simp only [asDouble?, Option.some_inj] at ha hb
    rw [← ha, ← hb, compareExactly_of_ne (.inl (by simp [dataType?])), Ordering.then_eq]
    exact compare_int32 _ _
  · simp only [asDouble?, Option.some_inj] at ha hb
    rw [← ha, ← hb]
    exact compare_ofInt _ _
  · simp [asDouble?] at ha
  · simp [asDouble?] at ha
  · next otherWidths _ _ =>
    have exactly : compareExactly a b = .eq := by
      unfold compareExactly
      split
      · exact (otherWidths _ _ rfl rfl).elim
      · rfl
    rw [ha, hb, exactly, Ordering.then_eq]
    exact Double.compareNaNLast_eq x y

/-- **Scalars compare by their places, and 64-bit integers at one place exactly.** -/
theorem compare_eq (a b : Scalar) :
    a.compare b = (Ord.compare a.place b.place).then (compareExactly a b) := by
  by_cases kinds : a.rank = b.rank
  · by_cases numbers : a.rank = 2
    · obtain ⟨x, hx⟩ := rank_eq_two_iff.1 numbers
      obtain ⟨y, hy⟩ := rank_eq_two_iff.1 (kinds ▸ numbers)
      rw [compare_numbers hx hy, compare_place_of_numbers hx hy]
    · -- scalars of one of the other kinds differ in one part of their places
      rw [compare_place, compare_eq_iff_eq.2 kinds, Ordering.eq_then]
      cases a with
      | null => cases b with
        | null => rfl
        | _ => cases kinds
      | bool x => cases b with
        | bool y => simp [compare, flag, numberPlace, words, octets, asDouble?, compareExactly]
        | _ => cases kinds
      | text x => cases b with
        | text y => simp [compare, flag, numberPlace, words, octets, asDouble?, compareExactly]
        | _ => cases kinds
      | binary x => cases b with
        | binary y =>
          simp [compare, flag, numberPlace, words, octets, asDouble?, compareExactly,
            compareLists_bytes]
        | _ => cases kinds
      | _ => exact absurd rfl numbers
  · rw [compare_place, compare_of_rank_ne kinds]
    cases order : Ord.compare a.rank b.rank with
    | eq => exact absurd (compare_eq_iff_eq.1 order) kinds
    | lt | gt => rfl

/-! ## 2. Where the order fails to be transitive -/

theorem compare_swap (a b : Scalar) : a.compare b = (b.compare a).swap := by
  have exactly : compareExactly a b = (compareExactly b a).swap := by
    cases a with
    | int64 m => cases b with
      | int64 n => exact Std.OrientedOrd.eq_swap
      | _ => rfl
    | _ => cases b <;> rfl
  rw [compare_eq, compare_eq, Ordering.swap_then, ← exactly, ← Std.OrientedOrd.eq_swap]

theorem compare_self (a : Scalar) : a.compare a = .eq :=
  Ordering.eq_eq_of_eq_swap (a.compare_swap a)

/-- A 64-bit integer, a number of another type and a smaller 64-bit integer, all with one double. -/
inductive Slips : Scalar → Scalar → Scalar → Prop where
  | mk {m n : Int64} {b : Scalar} {x : Double} (less : n.toInt < m.toInt)
      (other : b.dataType? ≠ some .int64) (number : b.asDouble? = some x)
      (above : (Double.ofInt m.toInt).equal x = true)
      (below : x.equal (.ofInt n.toInt) = true) : Slips (.int64 m) b (.int64 n)

theorem asDouble?_int64 (n : Int64) : (int64 n).asDouble? = some (.ofInt n.toInt) := by
  rw [asDouble?]

theorem compare_ne_gt_iff : a.compare b ≠ .gt ↔ Ord.compare a.place b.place = .lt ∨
    Ord.compare a.place b.place = .eq ∧ compareExactly a b ≠ .gt := by
  simp only [compare_eq, ne_eq, ← Ordering.isLE_iff_ne_gt, Ordering.isLE_then_iff_or]

namespace Slips

theorem place_eq_left (h : Slips a b c) : Ord.compare a.place b.place = .eq := by
  cases h with
  | mk _ _ number above _ =>
    rw [compare_place_of_numbers (asDouble?_int64 _) number, compare_eq_iff_eq]
    exact Double.place_eq_of_equal above

theorem place_eq_right (h : Slips a b c) : Ord.compare b.place c.place = .eq := by
  cases h with
  | mk _ _ number _ below =>
    rw [compare_place_of_numbers number (asDouble?_int64 _), compare_eq_iff_eq]
    exact Double.place_eq_of_equal below

theorem compare_left (h : Slips a b c) : a.compare b = .eq := by
  have exactly : compareExactly a b = .eq := by
    cases h with
    | mk _ other _ _ _ => exact compareExactly_of_ne (.inr other)
  rw [compare_eq, h.place_eq_left, exactly]
  rfl

theorem compare_right (h : Slips a b c) : b.compare c = .eq := by
  have exactly : compareExactly b c = .eq := by
    cases h with
    | mk _ other _ _ _ => exact compareExactly_of_ne (.inl other)
  rw [compare_eq, h.place_eq_right, exactly]
  rfl

end Slips

/-- Of scalars at one place the outer two are out of order when the triple slips. -/
theorem compareExactly_eq_gt_iff (ab : Ord.compare a.place b.place = .eq)
    (bc : Ord.compare b.place c.place = .eq) (exactAb : compareExactly a b ≠ .gt)
    (exactBc : compareExactly b c ≠ .gt) : compareExactly a c = .gt ↔ Slips a b c := by
  constructor
  · intro greater
    cases a with
    | int64 m => cases c with
      | int64 n =>
        have less : n.toInt < m.toInt := compare_gt_iff_gt.1 greater
        have kinds : b.rank = 2 := by
          rw [compare_place, Ordering.then_eq_eq, compare_eq_iff_eq] at ab
          exact ab.1.symm
        obtain ⟨x, number⟩ := rank_eq_two_iff.1 kinds
        rw [compare_place_of_numbers (asDouble?_int64 m) number, compare_eq_iff_eq] at ab
        rw [compare_place_of_numbers number (asDouble?_int64 n), compare_eq_iff_eq] at bc
        have isNumber := Double.isNaN_of_place_eq (Double.isNaN_ofInt m.toInt) ab
        refine .mk less ?_ number ?_ ?_
        · intro wide
          cases b with
          | int64 k =>
            have upper : m.toInt ≤ k.toInt := compare_le_iff_le.1 exactAb
            have lower : k.toInt ≤ n.toInt := compare_le_iff_le.1 exactBc
            omega
          | _ => cases wide
        · exact (Double.equal_iff_place (Double.isNaN_ofInt _) isNumber).2 ab
        · exact (Double.equal_iff_place isNumber (Double.isNaN_ofInt _)).2 bc
      | _ => cases greater
    | _ => cases c <;> cases greater
  · rintro ⟨less, -, -, -, -⟩
    exact compare_gt_iff_gt.2 less

/-- **The order of scalars is transitive but for the triples that slip.** -/
theorem compare_eq_gt_iff (hab : a.compare b ≠ .gt) (hbc : b.compare c ≠ .gt) :
    a.compare c = .gt ↔ Slips a b c := by
  have apart : Ord.compare a.place c.place = .lt → (a.compare c = .gt ↔ Slips a b c) := by
    intro less
    refine iff_of_false (compare_ne_gt_iff.2 (.inl less)) fun slips => ?_
    rw [Std.TransCmp.eq_trans slips.place_eq_left slips.place_eq_right] at less
    cases less
  rcases compare_ne_gt_iff.1 hab with ab | ⟨ab, exactAb⟩ <;>
    rcases compare_ne_gt_iff.1 hbc with bc | ⟨bc, exactBc⟩
  · exact apart (Std.TransCmp.lt_trans ab bc)
  · exact apart (Std.TransCmp.lt_of_lt_of_eq ab bc)
  · exact apart (Std.TransCmp.lt_of_eq_of_lt ab bc)
  · rw [compare_eq, Std.TransCmp.eq_trans ab bc, Ordering.eq_then]
    exact compareExactly_eq_gt_iff ab bc exactAb exactBc

/-! ## 3. Families of scalars, tuples and JSON values -/

theorem toInt_ofInt_of_fits64 {n : Int} (fits : fitsInt64 n = true) : (Int64.ofInt n).toInt = n := by
  simp only [fitsInt64, Bool.and_eq_true, decide_eq_true_eq] at fits
  exact Int64.toInt_ofInt_of_le fits.1 fits.2

/-- Numbers keep their doubles when they are read as scalars. -/
theorem asDouble?_ofJson (j : Json) : (ofJson j).asDouble? = j.asDouble? := by
  cases j with
  | number x => cases x with
    | integer n =>
      rw [Json.asDouble?, Number.toDouble, ofJson]
      split
      · next narrow => rw [asDouble?, toInt_ofInt_of_fits narrow]
      · split
        · next wide => rw [asDouble?, toInt_ofInt_of_fits64 wide]
        · rw [asDouble?, Number.toDouble]
    | double x | single x => rfl
  | null | bool _ | string _ | array _ | object _ => rfl

/-- No members slip. -/
def Steady (F : Scalar → Prop) : Prop := ∀ a b c, F a → F b → F c → ¬ Slips a b c

/-- **Scalars are ordered on a family exactly when none of it slip.** -/
theorem preorders_iff_steady {F : Scalar → Prop} : Preorders compare F ↔ Steady F := by
  constructor
  · intro ordered a b c ha hb hc slips
    have hab : a.compare b ≠ .gt := by rw [slips.compare_left]; exact nofun
    have hbc : b.compare c ≠ .gt := by rw [slips.compare_right]; exact nofun
    have hac := ordered.isLE_trans ha hb hc (Ordering.isLE_iff_ne_gt.2 hab)
      (Ordering.isLE_iff_ne_gt.2 hbc)
    exact Ordering.isLE_iff_ne_gt.1 hac ((compare_eq_gt_iff hab hbc).2 slips)
  · intro steady
    refine .of_forall (fun _ _ => compare_swap _ _) fun ha hb hc hab hbc => ?_
    rw [Ordering.isLE_iff_ne_gt] at hab hbc ⊢
    exact fun hac => steady _ _ _ ha hb hc ((compare_eq_gt_iff hab hbc).1 hac)

/-- The values of one declared type do not slip. -/
theorem steady_holds (type : DataType) : Steady type.Holds := by
  rintro _ b _ ha hb - ⟨-, other, number, -, -⟩
  cases ha with
  | int64 | date64 => cases hb with
    | null => cases number
    | _ => exact other rfl

theorem preorders_image {β : Type} {f : β → Scalar} {G : β → Prop} :
    Preorders (fun x y => (f x).compare (f y)) G ↔ Steady fun s => ∃ x, G x ∧ f x = s := by
  rw [← preorders_iff_steady]
  constructor
  · intro ordered
    refine .of_forall ?_ ?_
    · rintro _ _ ⟨x, hx, rfl⟩ ⟨y, hy, rfl⟩
      exact ordered.swap hx hy
    · rintro _ _ _ ⟨x, hx, rfl⟩ ⟨y, hy, rfl⟩ ⟨z, hz, rfl⟩
      exact ordered.isLE_trans hx hy hz
  · exact fun ordered => (ordered.comap (f := f)).mono fun x hx => ⟨x, hx, rfl⟩

theorem equivalence_sameKey {F : List Scalar → Prop} (h : Preorders compareTuples F) :
    Equivalence fun k l : {k // F k} => sameKey k.1 l.1 = true where
  refl k := beq_iff_eq.2 (h.self k.2)
  symm same := beq_iff_eq.2 (h.eq_symm (beq_iff_eq.1 same))
  trans same same' := beq_iff_eq.2 (h.eq_trans (beq_iff_eq.1 same) (beq_iff_eq.1 same'))

/-- The keys of one entity type, with no part of a type that takes any values, are ordered. -/
theorem preorders_typedKeys (types : List DataType) : Preorders compareTuples (TypedKey types) := by
  have families : ∀ i : ℕ, Preorders compare fun s : Scalar =>
      ∃ t : DataType, types[i]? = some t ∧ t.Holds s := by
    intro i
    refine preorders_iff_steady.2 ?_
    rintro a b c ⟨t, ht, ha⟩ ⟨t', ht', hb⟩ ⟨t'', ht'', hc⟩
    cases ht.symm.trans ht'
    cases ht.symm.trans ht''
    exact steady_holds t a b c ha hb hc
  refine (Preorders.lists families).mono fun key typed i x hx => ?_
  obtain ⟨hi, rfl⟩ := List.getElem?_eq_some_iff.1 hx
  have hi' : i < types.length := typed.length_eq ▸ hi
  exact ⟨types[i], List.getElem?_eq_getElem hi', typed.get hi' hi⟩

/-- **Scalars are ordered but for the triples that slip.**  A scalar is equal to itself, comparing
the other way round gives the reverse, and comparing is transitive on all triples but those that
slip.  So tuples are ordered, and their equality is an equivalence, on families of which no values at
one position slip, and the keys of one entity type are such a family.  JSON values are ordered
exactly when their scalars do not slip. -/
theorem ordered_but_for_slips (a b c : Scalar) (F : ℕ → Scalar → Prop) (types : List DataType)
    (G : Json → Prop) :
    compare a a = .eq ∧ compare b a = (compare a b).swap ∧
    (compare a b ≠ .gt → compare b c ≠ .gt → (compare a c = .gt ↔ Slips a b c)) ∧
    ((∀ i, Steady (F i)) → Preorders compareTuples (Along F) ∧
      Equivalence fun k l : {k // Along F k} => sameKey k.1 l.1 = true) ∧
    (Preorders compareTuples (TypedKey types) ∧
      Equivalence fun k l : {k // TypedKey types k} => sameKey k.1 l.1 = true) ∧
    (Preorders Json.compare G ↔ Steady fun s => ∃ j, G j ∧ ofJson j = s) := by
  refine ⟨compare_self a, compare_swap b a, compare_eq_gt_iff, fun steady => ?_, ?_,
    preorders_image⟩
  · have ordered := Preorders.lists fun i => preorders_iff_steady.2 (steady i)
    exact ⟨ordered, equivalence_sameKey ordered⟩
  · exact ⟨preorders_typedKeys types, equivalence_sameKey (preorders_typedKeys types)⟩

/-- Two integers with one double, and that double. -/
def oddInteger : Scalar := .int64 9007199254740993
def evenInteger : Scalar := .int64 9007199254740992
def sharedDouble : Scalar := .float64 (.finite ⟨false, 9007199254740992 * unitsPerOne⟩)

/-- The one triple that slips, and 64-bit integers on their own, which are ordered although two of
them have one double. -/
theorem ordered_but_for_slips_sharedDouble :
    oddInteger.compare sharedDouble ≠ .gt ∧ sharedDouble.compare evenInteger ≠ .gt ∧
    Slips oddInteger sharedDouble evenInteger ∧
    Steady DataType.int64.Holds ∧
    Preorders compareTuples (Along fun _ => DataType.int64.Holds) ∧
    Along (fun _ => DataType.int64.Holds) [oddInteger, evenInteger] := by
  obtain ⟨-, -, slips, families, -, -⟩ := ordered_but_for_slips oddInteger sharedDouble evenInteger
    (fun _ => DataType.int64.Holds) [.int64] fun j => j = oddInteger.toJson
  have left : oddInteger.compare sharedDouble ≠ .gt := by decide +kernel
  have right : sharedDouble.compare evenInteger ≠ .gt := by decide +kernel
  have steady := steady_holds .int64
  refine ⟨left, right, (slips left right).1 (by decide +kernel), steady,
    (families fun _ => steady).1, ?_⟩
  exact along_cons.2 ⟨.int64 _, along_cons.2 ⟨.int64 _, nofun⟩⟩

/-- The order of scalars is not transitive, nor are equality of keys and the order of JSON values:
both integers equal their double, and they are different. -/
theorem compare_not_transitive :
    (oddInteger.compare sharedDouble = .eq ∧ sharedDouble.compare evenInteger = .eq ∧
      oddInteger.compare evenInteger = .gt) ∧
    (sameKey [oddInteger] [sharedDouble] = true ∧ sameKey [sharedDouble] [evenInteger] = true ∧
      sameKey [oddInteger] [evenInteger] = false) ∧
    oddInteger.toJson.compare sharedDouble.toJson = .eq ∧
    sharedDouble.toJson.compare evenInteger.toJson = .eq ∧
    oddInteger.toJson.compare evenInteger.toJson = .gt := by
  decide +kernel

end Scalar

end DocQuery
