/-
# Comparisons that order

Not every comparison of the model is transitive on all values, so it is said of a comparison on
which values it is: `Preorders cmp F`, on the members of a family `F`.

From values this goes over to what is compared by them: through a map (`Preorders.comap`), to the
reverse of an order (`Preorders.reverse`), to two comparisons of which the second decides where
the first does not (`Preorders.andThen`), and from the parts of lists to lists
(`Preorders.lists`).  The comparison that a select sorts by is put together from these.

It is what makes sorting mean something: on a list of values that its comparison orders the sort
gives an answer, and puts each element behind those that come before it
(`pairwise_sortedPositions`).
-/
import DocQuery.Scalar
import Mathlib.Data.List.Range
import Mathlib.Order.Std

namespace DocQuery

variable {α : Type} {cmp : α → α → Ordering}

/-- On the members of `F`, `cmp` is a total preorder. -/
abbrev Preorders (cmp : α → α → Ordering) (F : α → Prop) : Prop :=
  Std.TransCmp fun a b : {x // F x} => cmp a.1 b.1

namespace Preorders

variable {F : α → Prop} {a b c : α}

theorem of_forall (swap : ∀ {a b}, F a → F b → cmp a b = (cmp b a).swap)
    (trans : ∀ {a b c}, F a → F b → F c → (cmp a b).isLE → (cmp b c).isLE → (cmp a c).isLE) :
    Preorders cmp F where
  eq_swap {a b} := swap a.2 b.2
  isLE_trans {a b c} := trans a.2 b.2 c.2

theorem swap (h : Preorders cmp F) (ha : F a) (hb : F b) : cmp a b = (cmp b a).swap :=
  h.eq_swap (a := ⟨a, ha⟩) (b := ⟨b, hb⟩)

theorem self (h : Preorders cmp F) (ha : F a) : cmp a a = .eq :=
  Ordering.eq_eq_of_eq_swap (h.swap ha ha)

theorem isLE_trans (h : Preorders cmp F) (ha : F a) (hb : F b) (hc : F c)
    (hab : (cmp a b).isLE) (hbc : (cmp b c).isLE) : (cmp a c).isLE :=
  @Std.TransCmp.isLE_trans _ _ h ⟨a, ha⟩ ⟨b, hb⟩ ⟨c, hc⟩ hab hbc

/-- What is not less than a value is compared with by this as by one that is not greater. -/
theorem isLE_iff (h : Preorders cmp F) (ha : F a) (hb : F b) : (cmp a b).isLE ↔ cmp b a ≠ .lt := by
  rw [h.swap ha hb]
  cases cmp b a <;> simp

theorem mono {G : α → Prop} (h : Preorders cmp G) (hF : ∀ a, F a → G a) : Preorders cmp F :=
  of_forall (fun ha hb => h.swap (hF _ ha) (hF _ hb))
    fun ha hb hc => h.isLE_trans (hF _ ha) (hF _ hb) (hF _ hc)

/-- Comparisons that agree on a family order it alike. -/
theorem congr {cmp' : α → α → Ordering} (h : Preorders cmp F)
    (agree : ∀ {a b}, F a → F b → cmp' a b = cmp a b) : Preorders cmp' F := by
  refine .of_forall (fun ha hb => ?_) fun ha hb hc hab hbc => ?_
  · rw [agree ha hb, agree hb ha, h.swap ha hb]
  · rw [agree ha hb] at hab
    rw [agree hb hc] at hbc
    rw [agree ha hc]
    exact h.isLE_trans ha hb hc hab hbc

/-- The reverse of an order. -/
theorem reverse (h : Preorders cmp F) : Preorders (fun a b => (cmp a b).swap) F := by
  have back : Preorders (fun a b => cmp b a) F :=
    .of_forall (fun ha hb => h.swap hb ha) fun ha hb hc hab hbc => h.isLE_trans hc hb ha hbc hab
  exact back.congr fun ha hb => (h.swap hb ha).symm

/-- Values compare through a map as their images do. -/
theorem comap {β : Type} {f : β → α} (h : Preorders cmp F) :
    Preorders (fun x y => cmp (f x) (f y)) fun x => F (f x) :=
  of_forall (fun hx hy => h.swap hx hy) fun hx hy hz => h.isLE_trans hx hy hz

/-- The second comparison decides where the first does not. -/
theorem andThen {cmp' : α → α → Ordering} (h : Preorders cmp F) (h' : Preorders cmp' F) :
    Preorders (fun a b => (cmp a b).then (cmp' a b)) F :=
  inferInstanceAs (Std.TransCmp (compareLex (fun a b : {x // F x} => cmp a.1 b.1)
    fun a b => cmp' a.1 b.1))

end Preorders

/-! ## 1. Lists -/

/-- Each item of a list belongs to the family of its position. -/
def Along (F : ℕ → α → Prop) (l : List α) : Prop := ∀ i x, l[i]? = some x → F i x

theorem along_cons {F : ℕ → α → Prop} {a : α} {as : List α} :
    Along F (a :: as) ↔ F 0 a ∧ Along (fun i => F (i + 1)) as := by
  constructor
  · exact fun h => ⟨h 0 a rfl, fun i x hx => h (i + 1) x hx⟩
  · rintro ⟨first, rest⟩ (_ | i) x hx
    · cases hx
      exact first
    · exact rest i x hx

theorem compareLists_swap {F : ℕ → α → Prop} {as bs : List α} (h : ∀ i, Preorders cmp (F i))
    (has : Along F as) (hbs : Along F bs) :
    Scalar.compareLists cmp as bs = (Scalar.compareLists cmp bs as).swap := by
  induction as generalizing bs F with
  | nil => cases bs <;> rfl
  | cons a as ih => cases bs with
    | nil => rfl
    | cons b bs =>
      rw [along_cons] at has hbs
      rw [Scalar.compareLists, Scalar.compareLists, Ordering.swap_then, (h 0).swap has.1 hbs.1,
        ih (fun i => h (i + 1)) has.2 hbs.2]

theorem compareLists_isLE_trans {F : ℕ → α → Prop} {as bs cs : List α}
    (h : ∀ i, Preorders cmp (F i)) (has : Along F as) (hbs : Along F bs) (hcs : Along F cs)
    (hab : (Scalar.compareLists cmp as bs).isLE) (hbc : (Scalar.compareLists cmp bs cs).isLE) :
    (Scalar.compareLists cmp as cs).isLE := by
  induction as generalizing bs cs F with
  | nil => cases cs <;> rfl
  | cons a as ih => cases bs with
    | nil => cases hab
    | cons b bs => cases cs with
      | nil => cases hbc
      | cons c cs =>
        rw [along_cons] at has hbs hcs
        rw [Scalar.compareLists, Ordering.isLE_then_iff_or] at hab hbc ⊢
        have first := h 0
        have rest := ih (fun i => h (i + 1)) has.2 hbs.2 hcs.2
        let a' : {x // F 0 x} := ⟨a, has.1⟩
        let b' : {x // F 0 x} := ⟨b, hbs.1⟩
        let c' : {x // F 0 x} := ⟨c, hcs.1⟩
        -- the lists are ordered by their heads unless both pairs of heads are equal
        rcases hab with hab | ⟨hab, has'⟩ <;> rcases hbc with hbc | ⟨hbc, hbs'⟩
        · exact .inl (first.lt_trans (a := a') (b := b') (c := c') hab hbc)
        · exact .inl (first.lt_of_lt_of_eq (a := a') (b := b') (c := c') hab hbc)
        · exact .inl (first.lt_of_eq_of_lt (a := a') (b := b') (c := c') hab hbc)
        · exact .inr ⟨first.eq_trans (a := a') (b := b') (c := c') hab hbc, rest has' hbs'⟩

/-- Lists are ordered when the values at each position are. -/
theorem Preorders.lists {F : ℕ → α → Prop} (h : ∀ i, Preorders cmp (F i)) :
    Preorders (Scalar.compareLists cmp) (Along F) :=
  .of_forall (compareLists_swap h) (compareLists_isLE_trans h)

end DocQuery
