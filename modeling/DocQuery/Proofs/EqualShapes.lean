/-
# Equal shapes and their keys

Equality of shapes and the text that a key is made from are defined apart, node by node.  They
coincide but for one thing: zeros of opposite signs are EQUAL, and the sign is WRITTEN.

* Without such a pair, equal shapes are one shape (`ShapedQuery.eq_of_same`), so they have one
  text, one key and one plan, and the plan of the first is found for the second.
* With one they have two texts (`ShapedQuery.text_eq_iff`), and as soon as the digests of these
  differ two keys, so the second is compiled again.

`equal_shapes_share_keys` has both.  Trees are walked once.  What is found at every node is in
`Matched`: the constants are equal one by one, and the rest of two equal trees is the same.  Equal
constants are one constant or opposite zeros (`Scalar.eq_or_oppositeZeros`).

For the cache a request is followed by another one: what was answered is there afterwards
(`Cache.get?_getOrCompute`), since there is always room for a plan, and putting in one key brings
no other.  `zeros_compiled_apart` are two queries that are equal and compiled apart.
-/
import DocQuery.Proofs.DistinctRows
import DocQuery.Proofs.PlanCache
import DocQuery.Proofs.PlanSafety

namespace DocQuery

open Codec Json

/-! ## 1. Equal scalars -/

/-- Doubles of one value are one double, or zeros of opposite signs. -/
theorem Double.eq_or_zeros_of_equal {x y : Double} (h : x.equal y = true) :
    x = y ∨ ∃ negative, x = .finite ⟨negative, 0⟩ ∧ y = .finite ⟨!negative, 0⟩ := by
  obtain ⟨k, hx, hy⟩ := equal_iff.1 h
  have keys : x.key = y.key := hx.trans hy.symm
  cases x with
  | nan => cases hx
  | infinite m => cases y with
    | nan => cases hy
    | infinite n => cases m <;> cases n <;> simp [key] at keys ⊢
    | finite w => cases m <;> simp [key] at keys
  | finite v => cases y with
    | nan => cases hy
    | infinite n => cases n <;> simp [key] at keys
    | finite w =>
      obtain ⟨m, u⟩ := v
      obtain ⟨n, u'⟩ := w
      have values : (Finite.mk m u).value = (Finite.mk n u').value := by simpa [key] using keys
      cases m <;> cases n <;> simp [Finite.value] at values ⊢ <;> omega

/-- The sign of a zero is written. -/
theorem Layout.write_zeros (l : Layout) (negative : Bool) :
    l.write ⟨negative, 0⟩ ≠ l.write ⟨!negative, 0⟩ := by
  have written : ∀ negative, (l.write ⟨negative, 0⟩).length =
      (if negative then 1 else 0) + (positionalText l.keepsFraction ['0'] 0).length := by
    intro negative
    cases negative <;> simp [write, Finite.isZero, Nat.add_comm]
  intro same
  have lengths := congrArg List.length same
  rw [written, written] at lengths
  cases negative <;> simp at lengths

namespace Scalar

/-- Zeros of one width with opposite signs. -/
inductive OppositeZeros : Scalar → Scalar → Prop where
  | single (negative : Bool) :
      OppositeZeros (.float32 (.finite ⟨negative, 0⟩)) (.float32 (.finite ⟨!negative, 0⟩))
  | double (negative : Bool) :
      OppositeZeros (.float64 (.finite ⟨negative, 0⟩)) (.float64 (.finite ⟨!negative, 0⟩))

theorem OppositeZeros.ne {a b : Scalar} (h : OppositeZeros a b) : a ≠ b := by
  cases h <;> simp

/-- **Equal scalars are one scalar, or zeros of opposite signs.** -/
theorem eq_or_oppositeZeros {a b : Scalar} (h : a.same b = true) : a = b ∨ OppositeZeros a b := by
  cases a with
  | float32 x => cases b with
    | float32 y =>
      rcases Double.eq_or_zeros_of_equal h with rfl | ⟨negative, rfl, rfl⟩
      · exact .inl rfl
      · exact .inr (.single negative)
    | _ => exact .inl (beq_iff_eq.1 h)
  | float64 x => cases b with
    | float64 y =>
      rcases Double.eq_or_zeros_of_equal h with rfl | ⟨negative, rfl, rfl⟩
      · exact .inl rfl
      · exact .inr (.double negative)
    | _ => exact .inl (beq_iff_eq.1 h)
  | _ => exact .inl (beq_iff_eq.1 h)

theorem OppositeZeros.not_alike {a b : Scalar} (h : OppositeZeros a b) :
    ¬ Alike a.encode b.encode := by
  cases h with
  | single negative =>
    simpa [encode, Double.encode, Alike, Number.write] using Layout.jsonSingle.write_zeros negative
  | double negative =>
    simpa [encode, Double.encode, Alike, Number.write] using Layout.jsonDouble.write_zeros negative

/-- Lists of constants that are equal one by one are one list, unless zeros of opposite signs stand
in one place of them. -/
theorem eq_iff_no_oppositeZeros {as bs : List Scalar}
    (h : List.Forall₂ (fun a b => a.same b = true) as bs) :
    as = bs ↔ ¬ ∃ p ∈ as.zip bs, p.1.OppositeZeros p.2 := by
  induction h with
  | nil => simp
  | @cons a b as bs head _ ih =>
    rcases eq_or_oppositeZeros head with rfl | zeros
    · have self : ¬ OppositeZeros a a := fun zeros => zeros.ne rfl
      simp [List.zip_cons_cons, self, ih]
    · simp [List.zip_cons_cons, zeros, zeros.ne]

end Scalar

/-! ## 2. Equal trees -/

/-- What two equal parts of shapes with the constants `as` and `bs` have in common: constants that
are equal one by one, and nothing else that could tell the parts or their texts apart. -/
structure Matched (as bs : List Scalar) (alike equal : Prop) : Prop where
  constants : List.Forall₂ (fun a b => a.same b = true) as bs
  equal : as = bs → equal
  legible : alike → as = bs

namespace Matched

variable {as bs cs ds : List Scalar} {alike alike' equal equal' : Prop}

/-- Parts without constants. -/
theorem nil (h : equal) : Matched [] [] alike equal := ⟨.nil, fun _ => h, fun _ => rfl⟩

theorem constant {a b : Scalar} (h : a.same b = true) :
    Matched [a] [b] (Alike a.encode b.encode) (a = b) where
  constants := .cons h .nil
  equal same := (List.cons.inj same).1
  legible alike := by
    rcases Scalar.eq_or_oppositeZeros h with rfl | zeros
    · rfl
    · exact absurd alike zeros.not_alike

theorem append (h : Matched as bs alike equal) (h' : Matched cs ds alike' equal') :
    Matched (as ++ cs) (bs ++ ds) (alike ∧ alike') (equal ∧ equal') where
  constants := List.rel_append h.constants h'.constants
  equal same := by
    obtain ⟨left, right⟩ := List.append_inj same h.constants.length_eq
    exact ⟨h.equal left, h'.equal right⟩
  legible alike := by rw [h.legible alike.1, h'.legible alike.2]

/-- A node is alike only where its parts are, and it is equal where they are. -/
theorem imp (h : Matched as bs alike equal) (reads : alike' → alike) (builds : equal → equal') :
    Matched as bs alike' equal' :=
  ⟨h.constants, fun same => builds (h.equal same), fun written => h.legible (reads written)⟩

end Matched

namespace Expr

mutual

theorem matched : ∀ a b : Expr, a.same b = true →
    Matched a.constants b.constants (Alike a.encode b.encode) (a = b)
  | .column s p t m, b, h => by
    cases b <;> simp [same] at h
    obtain ⟨⟨⟨rfl, rfl⟩, rfl⟩, rfl⟩ := h
    rw [constants]
    exact .nil rfl
  | .constant v t m, b, h => by
    cases b <;> simp [same] at h
    obtain ⟨⟨hv, rfl⟩, rfl⟩ := h
    rw [constants, constants]
    refine (Matched.constant hv).imp (fun alike => ?_) ?_
    · simp [encode, typed] at alike
      exact alike.1
    · rintro rfl
      rfl
  | .parameter n t m, b, h => by
    cases b <;> simp [same] at h
    obtain ⟨⟨rfl, rfl⟩, rfl⟩ := h
    rw [constants]
    exact .nil rfl
  | .binary o l r m, b, h => by
    cases b <;> simp [same] at h
    obtain ⟨⟨⟨rfl, hl⟩, hr⟩, rfl⟩ := h
    rw [constants, constants]
    refine ((matched l _ hl).append (matched r _ hr)).imp (fun alike => ?_) ?_
    · simp [encode] at alike
      exact ⟨alike.2.1, alike.2.2.1⟩
    · rintro ⟨rfl, rfl⟩
      rfl
  | .unary o e m, b, h => by
    cases b <;> simp [same] at h
    obtain ⟨⟨rfl, he⟩, rfl⟩ := h
    rw [constants, constants]
    refine (matched e _ he).imp (fun alike => ?_) ?_
    · simp [encode] at alike
      exact alike.2.1
    · rintro rfl
      rfl
  | .function n as s t m, b, h => by
    cases b <;> simp [same] at h
    obtain ⟨⟨⟨⟨rfl, has⟩, rfl⟩, rfl⟩, rfl⟩ := h
    rw [constants, constants]
    refine (matchedList as _ has).imp (fun alike => ?_) ?_
    · simp [encode, typed] at alike
      exact alike.1
    · rintro rfl
      rfl
  | .inList e vs, b, h => by
    cases b <;> simp [same] at h
    rw [constants, constants]
    refine ((matched e _ h.1).append (matchedList vs _ h.2)).imp (fun alike => ?_) ?_
    · simpa [encode, inVariant] using alike
    · rintro ⟨rfl, rfl⟩
      rfl
  | .inParameter e p, b, h => by
    cases b <;> simp [same] at h
    obtain ⟨he, rfl⟩ := h
    rw [constants, constants]
    refine (matched e _ he).imp (fun alike => ?_) ?_
    · simp [encode, inVariant] at alike
      exact alike.1
    · rintro rfl
      rfl
  | .inSubquery e s, b, h => by
    cases b <;> simp [same] at h
    rw [constants, constants]
    refine ((matched e _ h.1).append (matchedSelect s _ h.2)).imp (fun alike => ?_) ?_
    · simpa [encode, inVariant] using alike
    · rintro ⟨rfl, rfl⟩
      rfl

theorem matchedList : ∀ as bs : List Expr, sameList as bs = true →
    Matched (constantsOfList as) (constantsOfList bs) (AlikeItems (encodeList as) (encodeList bs))
      (as = bs)
  | [], bs, h => by
    cases bs <;> simp [sameList] at h
    rw [constantsOfList]
    exact .nil rfl
  | a :: as, bs, h => by
    cases bs <;> simp [sameList] at h
    rw [constantsOfList, constantsOfList]
    refine ((matched a _ h.1).append (matchedList as _ h.2)).imp (fun alike => ?_) ?_
    · simpa [encodeList] using alike
    · rintro ⟨rfl, rfl⟩
      rfl

theorem matchedOption : ∀ a b : Option Expr, sameOption a b = true →
    Matched (constantsOfOption a) (constantsOfOption b) (Alike (encodeOption a) (encodeOption b))
      (a = b)
  | none, b, h => by
    cases b <;> simp [sameOption] at h
    rw [constantsOfOption]
    exact .nil rfl
  | some a, b, h => by
    cases b <;> simp [sameOption] at h
    rw [constantsOfOption, constantsOfOption]
    refine (matched a _ h).imp (fun alike => ?_) ?_
    · simpa [encodeOption] using alike
    · rintro rfl
      rfl

theorem matchedItem : ∀ a b : ProjectionItem Expr, sameItem a b = true →
    Matched (constantsOfItem a) (constantsOfItem b) (Alike (encodeItem a) (encodeItem b)) (a = b)
  | .scalar e, b, h => by
    cases b <;> simp [sameItem] at h
    rw [constantsOfItem, constantsOfItem]
    refine (matched e _ h).imp (fun alike => ?_) ?_
    · simpa [encodeItem] using alike
    · rintro rfl
      rfl
  | .entity t p, b, h => by
    cases b <;> simp [sameItem] at h
    obtain ⟨rfl, rfl⟩ := h
    rw [constantsOfItem]
    exact .nil rfl

theorem matchedProjection : ∀ as bs : List (Projection Expr), sameProjection as bs = true →
    Matched (constantsOfProjection as) (constantsOfProjection bs)
      (AlikeItems (encodeProjection as) (encodeProjection bs)) (as = bs)
  | [], bs, h => by
    cases bs <;> simp [sameProjection] at h
    rw [constantsOfProjection]
    exact .nil rfl
  | ⟨i, n⟩ :: as, bs, h => by
    rcases bs with _ | ⟨⟨i', n'⟩, bs⟩ <;> simp [sameProjection] at h
    obtain ⟨⟨hi, rfl⟩, has⟩ := h
    rw [constantsOfProjection, constantsOfProjection]
    refine ((matchedItem i _ hi).append (matchedProjection as _ has)).imp (fun alike => ?_) ?_
    · simpa [encodeProjection] using alike
    · rintro ⟨rfl, rfl⟩
      rfl

theorem matchedOrderings : ∀ as bs : List (OrderingTerm Expr), sameOrderings as bs = true →
    Matched (constantsOfOrderings as) (constantsOfOrderings bs)
      (AlikeItems (encodeOrderings as) (encodeOrderings bs)) (as = bs)
  | [], bs, h => by
    cases bs <;> simp [sameOrderings] at h
    rw [constantsOfOrderings]
    exact .nil rfl
  | ⟨e, d⟩ :: as, bs, h => by
    rcases bs with _ | ⟨⟨e', d'⟩, bs⟩ <;> simp [sameOrderings] at h
    obtain ⟨⟨he, rfl⟩, has⟩ := h
    rw [constantsOfOrderings, constantsOfOrderings]
    refine ((matched e _ he).append (matchedOrderings as _ has)).imp (fun alike => ?_) ?_
    · simpa [encodeOrderings] using alike
    · rintro ⟨rfl, rfl⟩
      rfl

theorem matchedSelect : ∀ a b : SelectOf Expr, sameSelect a b = true →
    Matched (constantsOfSelect a) (constantsOfSelect b) (Alike (encodeSelect a) (encodeSelect b))
      (a = b)
  | ⟨c, s, ps, w, os, l, o, d⟩, ⟨c', s', ps', w', os', l', o', d'⟩, h => by
    simp [sameSelect] at h
    obtain ⟨⟨⟨⟨⟨⟨⟨rfl, rfl⟩, hps⟩, hw⟩, hos⟩, hl⟩, ho⟩, rfl⟩ := h
    have parts := (matchedProjection ps ps' hps).append ((matchedOption w w' hw).append
      ((matchedOrderings os os' hos).append ((matchedOption l l' hl).append
        (matchedOption o o' ho))))
    rw [constantsOfSelect, constantsOfSelect]
    refine parts.imp (fun alike => ?_) ?_
    · simpa [encodeSelect] using alike
    · rintro ⟨rfl, rfl, rfl, rfl, rfl⟩
      rfl

end

end Expr

namespace Shaper

mutual

theorem matched : ∀ a b : Shaper, a.same b = true →
    Matched a.constants b.constants (Alike a.encode b.encode) (a = b)
  | .binding i t n, b, h => by
    cases b <;> simp [same] at h
    obtain ⟨⟨rfl, rfl⟩, rfl⟩ := h
    rw [constants]
    exact .nil rfl
  | .entity t i n, b, h => by
    cases b <;> simp [same] at h
    obtain ⟨⟨rfl, rfl⟩, rfl⟩ := h
    rw [constants]
    exact .nil rfl
  | .record fs, b, h => by
    cases b <;> simp [same] at h
    rw [constants, constants]
    refine (matchedFields fs _ h).imp (fun alike => ?_) ?_
    · simpa [encode] using alike
    · rintro rfl
      rfl
  | .constant v, b, h => by
    cases b <;> simp [same] at h
    rw [constants, constants]
    refine (Matched.constant h).imp (fun alike => ?_) ?_
    · simpa [encode] using alike
    · rintro rfl
      rfl

theorem matchedFields : ∀ as bs : List (String × Shaper), sameFields as bs = true →
    Matched (constantsOfFields as) (constantsOfFields bs)
      (AlikeItems (encodeFields as) (encodeFields bs)) (as = bs)
  | [], bs, h => by
    cases bs <;> simp [sameFields] at h
    rw [constantsOfFields]
    exact .nil rfl
  | (n, a) :: as, bs, h => by
    rcases bs with _ | ⟨⟨n', b⟩, bs⟩ <;> simp [sameFields] at h
    obtain ⟨⟨rfl, ha⟩, has⟩ := h
    rw [constantsOfFields, constantsOfFields]
    refine ((matched a _ ha).append (matchedFields as _ has)).imp (fun alike => ?_) ?_
    · simpa [encodeFields] using alike
    · rintro ⟨rfl, rfl⟩
      rfl

end

end Shaper

theorem Query.matched (a b : Query) (h : a.same b = true) :
    Matched a.constants b.constants (Alike a.encode b.encode) (a = b) := by
  cases a with
  | select s =>
    cases b <;> simp [same, SelectOf.same] at h
    refine (Expr.matchedSelect s _ h).imp (fun alike => ?_) ?_
    · simpa [encode, SelectOf.encode] using alike
    · rintro rfl
      rfl
  | lookup l =>
    cases b <;> simp [same] at h
    subst h
    exact .nil rfl
  | setOperation op l r =>
    cases b <;> simp [same, SelectOf.same] at h
    obtain ⟨⟨rfl, hl⟩, hr⟩ := h
    refine ((Expr.matchedSelect l _ hl).append (Expr.matchedSelect r _ hr)).imp
      (fun alike => ?_) ?_
    · simp [encode, SelectOf.encode] at alike
      exact alike.2
    · rintro ⟨rfl, rfl⟩
      rfl

namespace ShapedQuery

theorem matched {a b : ShapedQuery} (h : a.same b = true) :
    Matched a.constants b.constants (Alike a.encode b.encode) (a = b) := by
  obtain ⟨q, s⟩ := a
  obtain ⟨q', s'⟩ := b
  simp only [same, Bool.and_eq_true] at h
  refine ((q.matched q' h.1).append (s.matched s' h.2)).imp (fun alike => ?_) ?_
  · simpa [encode] using alike
  · rintro ⟨rfl, rfl⟩
    rfl

/-- Zeros of opposite signs in one place of two shapes. -/
def OppositeZeros (a b : ShapedQuery) : Prop :=
  ∃ p ∈ a.constants.zip b.constants, p.1.OppositeZeros p.2

variable {a b : ShapedQuery}

/-- Equal shapes without opposite zeros are one shape. -/
theorem eq_of_same (h : a.same b = true) (zeros : ¬ a.OppositeZeros b) : a = b :=
  (matched h).equal ((Scalar.eq_iff_no_oppositeZeros (matched h).constants).2 zeros)

/-- **Equal shapes have one text unless they have opposite zeros.** -/
theorem text_eq_iff (h : a.same b = true) :
    a.encode.text = b.encode.text ↔ ¬ a.OppositeZeros b := by
  constructor
  · intro text
    exact (Scalar.eq_iff_no_oppositeZeros (matched h).constants).1
      ((matched h).legible (alike_of_text text))
  · intro zeros
    rw [eq_of_same h zeros]

end ShapedQuery

/-! ## 3. One request after another -/

namespace Cache

variable {κ α ε : Type} [BEq κ] {c : Cache κ α} {key other : κ} {compute : Except ε α}

theorem capacity_adopt (value : α) : (c.adopt key value).2.capacity = c.capacity := by
  unfold adopt
  split <;> rfl

theorem capacity_getOrCompute : (c.getOrCompute key compute).2.capacity = c.capacity := by
  unfold getOrCompute find
  cases c.get? key with
  | some existing => rfl
  | none => cases compute with
    | error e => rfl
    | ok value => exact capacity_adopt value

/-- A key that is there is a hit. -/
theorem getOrCompute_of_some {value : α} (present : c.get? key = some value) :
    c.getOrCompute key compute = (.ok value, { c with hits := c.hits + 1 }) := by
  simp only [getOrCompute, find, present]

/-- A key that is not there is a miss. -/
theorem counts_of_none (absent : c.get? key = none) :
    (c.getOrCompute key compute).2.hits = c.hits ∧
      (c.getOrCompute key compute).2.misses = c.misses + 1 := by
  simp only [getOrCompute, find, absent]
  cases compute with
  | error e => exact ⟨rfl, rfl⟩
  | ok value =>
    dsimp only
    unfold adopt
    split <;> exact ⟨rfl, rfl⟩

theorem lookup_drop_eq_none {entries : List (κ × α)} (absent : entries.lookup key = none) (n : Nat) :
    (entries.drop n).lookup key = none := by
  rw [List.lookup_eq_none_iff] at absent ⊢
  exact fun e he => absent e (List.mem_of_mem_drop he)

variable [LawfulBEq κ]

/-- A value that is put in is there afterwards: room is made by older entries. -/
theorem get?_adopt (room : 0 < c.capacity) (value : α) :
    (c.adopt key value).2.get? key = some (c.adopt key value).1 := by
  unfold adopt
  cases found : c.get? key with
  | some existing => exact found
  | none =>
    have older : (c.entries ++ [(key, value)]).length - c.capacity ≤ c.entries.length := by
      rw [List.length_append, List.length_singleton]
      omega
    change ((c.entries ++ [(key, value)]).drop _).lookup key = some value
    rw [List.drop_append_of_le_length older, List.lookup_append, lookup_drop_eq_none found]
    simp

/-- Putting in a key brings no other. -/
theorem get?_adopt_of_ne (value : α) (differ : other ≠ key) (absent : c.get? other = none) :
    (c.adopt key value).2.get? other = none := by
  unfold adopt
  cases c.get? key with
  | some existing => exact absent
  | none =>
    refine lookup_drop_eq_none ?_ _
    rw [List.lookup_append, show c.entries.lookup other = none from absent]
    rw [Option.none_or, List.lookup_eq_none_iff]
    simpa using differ

/-- What a request was answered is there afterwards. -/
theorem get?_getOrCompute (room : 0 < c.capacity) {value : α}
    (answer : (c.getOrCompute key compute).1 = .ok value) :
    (c.getOrCompute key compute).2.get? key = some value := by
  unfold getOrCompute find at answer ⊢
  cases found : c.get? key with
  | some existing =>
    rw [found] at answer
    cases answer
    exact found
  | none =>
    rw [found] at answer
    cases compute with
    | error e => cases answer
    | ok computed =>
      rw [← Except.ok.inj answer]
      exact get?_adopt (c := { c with misses := c.misses + 1 }) room computed

theorem get?_getOrCompute_of_ne (differ : other ≠ key) (absent : c.get? other = none) :
    (c.getOrCompute key compute).2.get? other = none := by
  unfold getOrCompute find
  cases c.get? key with
  | some existing => exact absent
  | none => cases compute with
    | error e => exact absent
    | ok computed =>
      exact get?_adopt_of_ne (c := { c with misses := c.misses + 1 }) computed differ absent

end Cache

namespace Database

/-- A query is answered with a plan from the cache, and that is all that happens. -/
def Hits (d : Database) (shaped : ShapedQuery) (plan : CompiledPlan) : Prop :=
  d.compile shaped = (.ok plan, { d with cache := { d.cache with hits := d.cache.hits + 1 } })

/-- A query is not in the cache and is compiled. -/
def Misses (d : Database) (shaped : ShapedQuery) : Prop :=
  (d.compile shaped).2.cache.hits = d.cache.hits ∧
    (d.compile shaped).2.cache.misses = d.cache.misses + 1

variable {c : Compiler} {d : Database} {a b : ShapedQuery}

/-- A query's own compilation, which is used if its plan is not in the cache. -/
def fresh (d : Database) (shaped : ShapedQuery) : Except QueryError CompiledPlan :=
  (d.compiler.compile shaped).map (CompiledPlan.mk d.cache.misses)

theorem compile_eq (d : Database) (shaped : ShapedQuery) : d.compile shaped =
    ((d.cache.getOrCompute (d.compiler.key shaped) (d.fresh shaped)).1,
      { d with cache := (d.cache.getOrCompute (d.compiler.key shaped) (d.fresh shaped)).2 }) := rfl

/-- There is always room for a plan. -/
theorem Reachable.room (h : Reachable c d) : 0 < d.cache.capacity := by
  induction h with
  | opened h =>
    obtain ⟨_, -, h⟩ := bind_eq_ok.1 h
    obtain ⟨_, -, h⟩ := bind_eq_ok.1 h
    rw [← pure_eq_ok.1 h]
    exact Nat.lt_of_lt_of_le Nat.zero_lt_one (Nat.le_max_right _ _)
  | @compiled d _ shaped ih =>
    have kept : (d.compile shaped).2.cache.capacity = d.cache.capacity :=
      Cache.capacity_getOrCompute
    rw [kept]
    exact ih
  | cleared h ih => exact ih

theorem hits_of_key_eq (room : 0 < d.cache.capacity)
    (keys : d.compiler.key a = d.compiler.key b) {plan : CompiledPlan}
    (compiled : (d.compile a).1 = .ok plan) : (d.compile a).2.Hits b plan := by
  have present : (d.compile a).2.cache.get? ((d.compile a).2.compiler.key b) = some plan :=
    keys ▸ Cache.get?_getOrCompute room compiled
  rw [Hits, compile_eq (d.compile a).2 b, Cache.getOrCompute_of_some present]

theorem misses_of_key_ne (keys : d.compiler.key a ≠ d.compiler.key b)
    (absent : d.cache.get? (d.compiler.key b) = none) : (d.compile a).2.Misses b := by
  have still : (d.compile a).2.cache.get? (d.compiler.key b) = none :=
    Cache.get?_getOrCompute_of_ne keys.symm absent
  exact Cache.counts_of_none still

end Database

/-! ## 4. Keys -/

theorem PlanKey.ofShaped_eq_iff {a b : ShapedQuery} {contextType : String} {config : Config} :
    ofShaped a contextType config = ofShaped b contextType config ↔
      Fingerprint.ofJson a.encode = Fingerprint.ofJson b.encode := by
  simp [ofShaped]

/-- **Equal shapes share a key unless they have opposite zeros.**  Without them the two have one
text, so one key under every setting, and the plan of the first is found for the second.  With them
the texts differ; as soon as their digests do, the two have different keys and the second is
compiled again. -/
theorem equal_shapes_share_keys {a b : ShapedQuery} (same : a.same b = true) :
    (a.encode.text = b.encode.text ↔ ¬ a.OppositeZeros b) ∧
    (¬ a.OppositeZeros b →
      (∀ contextType config,
        PlanKey.ofShaped a contextType config = PlanKey.ofShaped b contextType config) ∧
      ∀ c d plan, Database.Reachable c d → (d.compile a).1 = .ok plan →
        (d.compile a).2.Hits b plan) ∧
    (a.OppositeZeros b → Fingerprint.ofJson a.encode ≠ Fingerprint.ofJson b.encode →
      (∀ contextType config,
        PlanKey.ofShaped a contextType config ≠ PlanKey.ofShaped b contextType config) ∧
      ∀ d : Database, d.cache.get? (d.compiler.key b) = none → (d.compile a).2.Misses b) := by
  refine ⟨ShapedQuery.text_eq_iff same, fun zeros => ⟨?_, ?_⟩, fun _ digests => ⟨?_, ?_⟩⟩
  · intro contextType config
    rw [ShapedQuery.eq_of_same same zeros]
  · intro c d plan reachable compiled
    refine Database.hits_of_key_eq reachable.room ?_ compiled
    rw [ShapedQuery.eq_of_same same zeros]
  · intro contextType config keys
    exact digests (PlanKey.ofShaped_eq_iff.1 keys)
  · intro d absent
    refine Database.misses_of_key_ne (fun keys => ?_) absent
    exact digests (PlanKey.ofShaped_eq_iff.1 keys)

def itemCompiler : Compiler := ⟨.ofList [item], .default, "Ctx", id⟩

/-- The database of items as it is opened. -/
def itemDatabase : Database := ⟨itemCompiler, .ofCapacity itemCompiler.config.planCacheCapacity⟩

theorem reachable_itemDatabase : Database.Reachable itemCompiler itemDatabase :=
  .opened (c := itemCompiler) rfl

theorem same_zeroPerItem (m n : Bool) : (zeroPerItem m).same (zeroPerItem n) = true := by
  cases m <;> cases n <;> decide +kernel

/-- A zero is asked for twice and found the second time; the zero of the other sign is equal to it
and is not found. -/
theorem equal_shapes_share_keys_zeroPerItem :
    (zeroPerItem true).same (zeroPerItem true) = true ∧
    (∃ plan, (itemDatabase.compile (zeroPerItem true)).1 = .ok plan ∧
      (itemDatabase.compile (zeroPerItem true)).2.Hits (zeroPerItem true) plan) ∧
    (zeroPerItem false).same (zeroPerItem true) = true ∧
    (zeroPerItem false).encode.text ≠ (zeroPerItem true).encode.text ∧
    itemCompiler.key (zeroPerItem false) ≠ itemCompiler.key (zeroPerItem true) ∧
    (itemDatabase.compile (zeroPerItem false)).2.Misses (zeroPerItem true) := by
  obtain ⟨-, shared, -⟩ := equal_shapes_share_keys (same_zeroPerItem true true)
  obtain ⟨text, -, apart⟩ := equal_shapes_share_keys (same_zeroPerItem false true)
  have alone : ¬ (zeroPerItem true).OppositeZeros (zeroPerItem true) := by
    rintro ⟨p, member, zeros⟩
    have itself : p.1 = p.2 := by
      cases List.mem_singleton.1 member
      rfl
    exact zeros.ne itself
  have zeros : (zeroPerItem false).OppositeZeros (zeroPerItem true) :=
    ⟨_, List.mem_cons_self, .double false⟩
  obtain ⟨keys, missed⟩ := apart zeros digests_zeroPerItem
  exact ⟨same_zeroPerItem true true, ⟨_, rfl, (shared alone).2 _ _ _ reachable_itemDatabase rfl⟩,
    same_zeroPerItem false true, fun one => text.1 one zeros, keys _ _, missed _ rfl⟩

/-- Plus and minus zero are equal, and a query with the one is compiled again for the other. -/
theorem zeros_compiled_apart :
    (zeroPerItem false).same (zeroPerItem true) = true ∧
    PlanKey.ofShaped (zeroPerItem false) "Ctx" .default ≠
      PlanKey.ofShaped (zeroPerItem true) "Ctx" .default ∧
    (itemDatabase.compile (zeroPerItem false)).2.Misses (zeroPerItem true) := by
  have keys : PlanKey.ofShaped (zeroPerItem false) "Ctx" .default ≠
      PlanKey.ofShaped (zeroPerItem true) "Ctx" .default :=
    fun one => digests_zeroPerItem (PlanKey.ofShaped_eq_iff.1 one)
  exact ⟨same_zeroPerItem false true, keys, Database.misses_of_key_ne keys rfl⟩

end DocQuery
