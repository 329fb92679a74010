/-
# Merging stably

The order that a sort is to make of positions, and the parts of the sort that put short lists in
order by comparing and merging.

`Before` is the order: the element at one position is less than that at the other, or it is not
greater and stored earlier.  If the answers of the comparison are those of a total preorder
(`IsPreorder`), then it is a strict order of the positions, and a list that is in it is the one
stable arrangement of its elements.

The sort is not only used with such comparisons, so every part is given one statement for both
(`Yields`): what it gives is a permutation WHATEVER the comparison, it is in order if the
comparison orders, and it gives something if the comparison orders.

* **Insertion** keeps a descending list descending (`pairwise_insertDescending`).
* **Merging.**  From the front the left head is taken unless the right one is less, from the back
  the left one if the right one is less; either way equal elements stay in their order, because
  the left list was stored before the right one (`pairwise_mergeUp`, `pairwise_mergeDown`).
* **Halves** are merged from both ends at once, each pass as far as the middle.  If the comparison
  orders, the passes do not overtake each other (`length_add_le`): a position that both have taken
  would come before one that both have left, and behind it.  So they meet, and what they took is
  the merged list (`mergeHalves_yields`).  If it does not order they may miss each other, and then
  there is no result.

`sortShort_yields` takes these together for short lists.
-/
import DocQuery.Sorting
import Mathlib.Data.List.Pairwise
import Mathlib.Data.Nat.Notation

namespace DocQuery.Sorting

/-! ## 1. The order of positions -/

section

variable {n : ℕ} {less : Fin n → Fin n → Bool} {i j k : Fin n}

/-- The answers are those of a total preorder. -/
structure IsPreorder (less : Fin n → Fin n → Bool) : Prop where
  asymm : ∀ {i j}, less i j → less j i = false
  split : ∀ {i k}, less i k → ∀ j, less i j ∨ less j k

/-- The element at `i` is less than that at `j`, or it is not greater and stored earlier. -/
def Before (less : Fin n → Fin n → Bool) (i j : Fin n) : Prop :=
  less i j ∨ less j i = false ∧ i < j

theorem IsPreorder.not_less_trans (h : IsPreorder less) (hij : less j i = false)
    (hjk : less k j = false) : less k i = false := by
  refine Bool.eq_false_iff.2 fun hki => ?_
  rcases h.split hki j with hkj | hji
  · exact Bool.eq_false_iff.1 hjk hkj
  · exact Bool.eq_false_iff.1 hij hji

theorem Before.trans (h : IsPreorder less) (hij : Before less i j) (hjk : Before less j k) :
    Before less i k := by
  rcases hij with hij | ⟨hij, earlier⟩ <;> rcases hjk with hjk | ⟨hjk, later⟩
  · exact .inl ((h.split hij k).resolve_right (Bool.eq_false_iff.1 (h.asymm hjk)))
  · exact .inl ((h.split hij k).resolve_right (Bool.eq_false_iff.1 hjk))
  · exact .inl ((h.split hjk i).resolve_left (Bool.eq_false_iff.1 hij))
  · exact .inr ⟨h.not_less_trans hij hjk, Nat.lt_trans earlier later⟩

theorem Before.asymm (h : IsPreorder less) (hij : Before less i j) : ¬ Before less j i := by
  rintro (hji | ⟨hji, later⟩) <;> rcases hij with hij | ⟨hij, earlier⟩
  · exact Bool.eq_false_iff.1 (h.asymm hij) hji
  · exact Bool.eq_false_iff.1 hij hji
  · exact Bool.eq_false_iff.1 hji hij
  · exact Nat.lt_asymm earlier later

end

/-! ## 2. Results -/

section

variable {α β : Type} {ordered : Prop} {P : α → Prop} {Q : β → Prop} {o : Option α} {a : α}

/-- What a step of the sort gives has a property, and it gives something if the comparison
orders. -/
structure Yields (ordered : Prop) (P : α → Prop) (o : Option α) : Prop where
  holds : ∀ a, o = some a → P a
  isSome : ordered → o.isSome

namespace Yields

theorem some (h : P a) : Yields ordered P (some a) :=
  ⟨fun _ ha => Option.some.inj ha ▸ h, fun _ => rfl⟩

theorem mono {ordered' : Prop} (h : Yields ordered P o) (weaker : ordered' → ordered) :
    Yields ordered' P o := ⟨h.holds, fun h' => h.isSome (weaker h')⟩

theorem bind {f : α → Option β} (h : Yields ordered P o)
    (step : ∀ a, P a → Yields ordered Q (f a)) : Yields ordered Q (o >>= f) := by
  cases o with
  | none => exact ⟨nofun, h.isSome⟩
  | some a => exact step a (h.holds a rfl)

theorem map {f : α → β} (h : Yields ordered P o) (step : ∀ a, P a → Q (f a)) :
    Yields ordered Q (o.map f) := by
  cases o with
  | none => exact ⟨nofun, h.isSome⟩
  | some a => exact .some (step a (h.holds a rfl))

end Yields

end

variable {n : ℕ} {less : Fin n → Fin n → Bool} {i j : Fin n} {l l₁ l₂ r as bs : List (Fin n)}

/-- The list `r` is `l` as the sort is to leave it. -/
structure SortOf (less : Fin n → Fin n → Bool) (l r : List (Fin n)) : Prop where
  perm : r.Perm l
  ordered : IsPreorder less → r.Pairwise (Before less)

namespace SortOf

theorem lt_of_mem (ha : SortOf less l₁ as) (hb : SortOf less l₂ bs)
    (ascending : (l₁ ++ l₂).Pairwise (· < ·)) (hi : i ∈ as) (hj : j ∈ bs) : i < j :=
  (List.pairwise_append.1 ascending).2.2 i (ha.perm.mem_iff.1 hi) j (hb.perm.mem_iff.1 hj)

theorem of_length_le_one (h : l.length ≤ 1) : SortOf less l l := by
  refine ⟨.refl l, fun _ => ?_⟩
  match l, h with
  | [], _ => exact .nil
  | [i], _ => exact List.pairwise_singleton ..

end SortOf

/-! ## 3. Insertion -/

theorem insertDescending_perm (less : Fin n → Fin n → Bool) (i : Fin n) (l : List (Fin n)) :
    (insertDescending less i l).Perm (i :: l) := by
  induction l with
  | nil => exact .refl _
  | cons j rest ih =>
    rw [insertDescending]
    split
    · exact (ih.cons j).trans (.swap i j rest)
    · exact .refl _

/-- Inserting a later position keeps a list descending. -/
theorem pairwise_insertDescending (h : IsPreorder less) (later : ∀ j ∈ l, j < i)
    (descending : l.Pairwise fun i j => Before less j i) :
    (insertDescending less i l).Pairwise fun i j => Before less j i := by
  induction l with
  | nil => exact List.pairwise_singleton ..
  | cons j rest ih =>
    -- the list descends, so what stands behind its head belongs before the head
    obtain ⟨first, others⟩ := List.pairwise_cons.1 descending
    rw [insertDescending]
    split
    · next less' =>
      have later' : ∀ k ∈ rest, k < i := fun k hk => later k (List.mem_cons_of_mem j hk)
      refine List.pairwise_cons.2 ⟨fun k hk => ?_, ih later' others⟩
      rcases List.mem_cons.1 ((insertDescending_perm less i rest).mem_iff.1 hk) with rfl | hk
      · exact .inl less'
      · exact first k hk
    · next notLess =>
      have step : Before less j i :=
        .inr ⟨Bool.eq_false_iff.2 notLess, later j List.mem_cons_self⟩
      refine List.pairwise_cons.2 ⟨fun k hk => ?_, descending⟩
      rcases List.mem_cons.1 hk with rfl | hk
      · exact step
      · exact (first k hk).trans h step

theorem foldl_insertDescending_sortOf (positions : List (Fin n)) {descending : List (Fin n)}
    (h : SortOf less l descending.reverse) (ascending : (l ++ positions).Pairwise (· < ·)) :
    SortOf less (l ++ positions)
      (positions.foldl (fun descending i => insertDescending less i descending)
        descending).reverse := by
  induction positions generalizing l descending with
  | nil => rwa [List.append_nil]
  | cons i rest ih =>
    rw [List.append_cons] at ascending ⊢
    refine ih ⟨?_, fun ordered => ?_⟩ ascending
    · refine (List.reverse_perm _).trans ((insertDescending_perm less i descending).trans ?_)
      exact (((List.reverse_perm _).symm.trans h.perm).cons i).trans
        (List.perm_append_singleton i l).symm
    · refine List.pairwise_reverse.2 (pairwise_insertDescending ordered (fun j hj => ?_)
        (List.pairwise_reverse.1 (h.ordered ordered)))
      have hj' := h.perm.mem_iff.1 (List.mem_reverse.2 hj)
      have earlier := (List.pairwise_append.1 ascending).1
      exact (List.pairwise_append.1 earlier).2.2 j hj' i List.mem_cons_self

/-- Positions are inserted into what is sorted of those before them. -/
theorem insertAll_sortOf (h : SortOf less l₁ as) (ascending : (l₁ ++ l₂).Pairwise (· < ·)) :
    SortOf less (l₁ ++ l₂) (insertAll less as l₂) := by
  rw [← as.reverse_reverse] at h
  exact foldl_insertDescending_sortOf l₂ h ascending

/-! ## 4. Four positions -/

theorem sortPair_perm (less : Fin n → Fin n → Bool) (i j : Fin n) :
    [(sortPair less i j).1, (sortPair less i j).2].Perm [i, j] := by
  rw [sortPair]
  split
  · exact .swap i j []
  · exact .refl _

theorem sortPair_before (earlier : i < j) :
    Before less (sortPair less i j).1 (sortPair less i j).2 := by
  rw [sortPair]
  split
  · next greater => exact .inl greater
  · next notGreater => exact .inr ⟨Bool.eq_false_iff.2 notGreater, earlier⟩

theorem pairwise_four {a b c d : Fin n} (h : IsPreorder less) (hab : Before less a b)
    (hbc : Before less b c) (hcd : Before less c d) : [a, b, c, d].Pairwise (Before less) := by
  have hac := hab.trans h hbc
  have hbd := hbc.trans h hcd
  refine .cons ?_ (.cons ?_ (.cons ?_ (List.pairwise_singleton ..)))
  · simpa using ⟨hab, hac, hac.trans h hcd⟩
  · simpa using ⟨hbc, hbd⟩
  · simpa using hcd

/-- Between the least of four and the greatest the other two are put in order. -/
theorem four_sortOf {first x y last : Fin n} (perm : [first, x, y, last].Perm l)
    (least : IsPreorder less → Before less first x ∧ Before less first y)
    (greatest : IsPreorder less → Before less x last ∧ Before less y last)
    (between : less y x = false → Before less x y) :
    SortOf less l [first, (sortPair less x y).1, (sortPair less x y).2, last] := by
  refine ⟨(((sortPair_perm less x y).append_right [last]).cons first).trans perm, fun h => ?_⟩
  rw [sortPair]
  split
  · next greater => exact pairwise_four h (least h).2 (.inl greater) (greatest h).1
  · next notGreater =>
    exact pairwise_four h (least h).1 (between (Bool.eq_false_iff.2 notGreater)) (greatest h).2

/-- Of two pairs in order, the first of which is in front, the least and the greatest are found by
comparing the firsts and the lasts. -/
theorem sortFour_sortOf (ascending : l.Pairwise (· < ·)) (four : l.length = 4) :
    SortOf less l (sortFour less l) := by
  match l, four with
  | [p, q, r, s], _ =>
    have halves : ([p, q] ++ [r, s]).Pairwise (· < ·) := ascending
    obtain ⟨left, right, apart⟩ := List.pairwise_append.1 halves
    have hab : Before less _ _ :=
      sortPair_before (List.rel_of_pairwise_cons left List.mem_cons_self)
    have hcd : Before less _ _ :=
      sortPair_before (List.rel_of_pairwise_cons right List.mem_cons_self)
    have pq := sortPair_perm less p q
    have rs := sortPair_perm less r s
    rw [sortFour]
    generalize sortPair less p q = ab at *
    generalize sortPair less r s = cd at *
    obtain ⟨a, b⟩ := ab
    obtain ⟨c, d⟩ := cd
    have perm : [a, b, c, d].Perm [p, q, r, s] := pq.append rs
    have earlier : ∀ i ∈ [a, b], ∀ j ∈ [c, d], i < j := fun i hi j hj =>
      apart i (pq.mem_iff.1 hi) j (rs.mem_iff.1 hj)
    simp only [List.mem_cons, List.not_mem_nil, or_false, forall_eq_or_imp, forall_eq] at earlier
    obtain ⟨⟨ac, ad⟩, bc, bd⟩ := earlier
    have acs : less c a = false → Before less a c := fun h => .inr ⟨h, ac⟩
    have bds : less d b = false → Before less b d := fun h => .inr ⟨h, bd⟩
    dsimp only
    cases hca : less c a <;> cases hdb : less d b
    · exact four_sortOf perm (fun h => ⟨hab, acs hca⟩) (fun h => ⟨bds hdb, hcd⟩)
        fun h => .inr ⟨h, bc⟩
    · have moved : [a, c, d, b].Perm [a, b, c, d] := (List.perm_append_singleton b [c, d]).cons a
      exact four_sortOf (moved.trans perm) (fun h => ⟨acs hca, (acs hca).trans h hcd⟩)
        (fun h => ⟨hcd.trans h (.inl hdb), .inl hdb⟩) fun _ => hcd
    · have moved : [c, a, b, d].Perm [a, b, c, d] :=
        (List.perm_append_singleton c [a, b]).symm.append_right [d]
      exact four_sortOf (moved.trans perm) (fun h => ⟨.inl hca, .trans h (.inl hca) hab⟩)
        (fun h => ⟨hab.trans h (bds hdb), bds hdb⟩) fun _ => hab
    · have moved : [c, a, d, b].Perm [a, b, c, d] :=
        ((List.Perm.swap a c [d, b]).trans (((List.Perm.swap b d []).cons c).cons a)).trans
          ((List.Perm.swap b c [d]).cons a)
      exact four_sortOf (moved.trans perm) (fun h => ⟨.inl hca, hcd⟩)
        (fun h => ⟨hab, .inl hdb⟩) fun h => .inr ⟨h, ad⟩

/-! ## 5. Passes over two lists -/

section

variable {R : Fin n → Fin n → Prop} {left : Fin n → Fin n → Bool} {count : ℕ}

/-- Taking heads goes through a beginning of each list. -/
theorem draw_taken (left : Fin n → Fin n → Bool) (ha : count ≤ as.length)
    (hb : count ≤ bs.length) : ∃ c d, as = c ++ (draw left count as bs).2.1 ∧
      bs = d ++ (draw left count as bs).2.2 ∧ (draw left count as bs).1.Perm (c ++ d) ∧
      c.length + d.length = count := by
  induction count generalizing as bs with
  | zero => exact ⟨[], [], by simp [draw]⟩
  | succ count ih =>
    match as, bs, ha, hb with
    | a :: as, b :: bs, ha, hb =>
      rw [List.length_cons, Nat.succ_le_succ_iff] at ha hb
      rw [draw]
      split
      · obtain ⟨c, d, hc, hd, perm, total⟩ := @ih as (b :: bs) ha (Nat.le_succ_of_le hb)
        refine ⟨a :: c, d, congrArg (a :: ·) hc, hd, perm.cons a, ?_⟩
        rw [List.length_cons, ← total]
        exact Nat.add_right_comm ..
      · obtain ⟨c, d, hc, hd, perm, total⟩ := @ih (a :: as) bs (Nat.le_succ_of_le ha) hb
        refine ⟨c, b :: d, hc, congrArg (b :: ·) hd, (perm.cons b).trans ?_, ?_⟩
        · exact List.perm_middle.symm
        · rw [List.length_cons, ← total]
          rfl

/-- What is taken is the beginning of the merged list, and what is left is merged behind it. -/
theorem merge_eq_draw (left : Fin n → Fin n → Bool) (count : ℕ) (as bs : List (Fin n)) :
    as.merge bs left = (draw left count as bs).1 ++
      (draw left count as bs).2.1.merge (draw left count as bs).2.2 left := by
  induction count generalizing as bs with
  | zero => rfl
  | succ count ih =>
    match as, bs with
    | [], _ => rfl
    | _ :: _, [] => rfl
    | a :: as, b :: bs =>
      rw [draw, List.merge]
      split
      · rw [ih]; rfl
      · rw [ih]; rfl

/-- Merging keeps an order if the heads are taken by it. -/
theorem pairwise_merge (trans : ∀ {i j k}, R i j → R j k → R i k) (ha : as.Pairwise R)
    (hb : bs.Pairwise R) (first : ∀ a ∈ as, ∀ b ∈ bs, if left a b then R a b else R b a) :
    (as.merge bs left).Pairwise R := by
  induction as generalizing bs with
  | nil => rwa [List.nil_merge]
  | cons a as ih₁ =>
    induction bs with
    | nil => rwa [List.merge_right]
    | cons b bs ih₂ =>
      have head := first a List.mem_cons_self b List.mem_cons_self
      obtain ⟨ha₁, ha₂⟩ := List.pairwise_cons.1 ha
      obtain ⟨hb₁, hb₂⟩ := List.pairwise_cons.1 hb
      rw [List.cons_merge_cons]
      split
      · next hleft =>
        rw [if_pos hleft] at head
        refine List.pairwise_cons.2 ⟨fun k hk => ?_,
          ih₁ ha₂ hb fun a' ha' => first a' (List.mem_cons_of_mem a ha')⟩
        rcases List.mem_merge.1 hk with hk | hk
        · exact ha₁ k hk
        · rcases List.mem_cons.1 hk with rfl | hk
          · exact head
          · exact trans head (hb₁ k hk)
      · next hright =>
        rw [if_neg hright] at head
        refine List.pairwise_cons.2 ⟨fun k hk => ?_,
          ih₂ hb₂ fun a' ha' b' hb' => first a' ha' b' (List.mem_cons_of_mem b hb')⟩
        rcases List.mem_merge.1 hk with hk | hk
        · rcases List.mem_cons.1 hk with rfl | hk
          · exact head
          · exact trans head (ha₁ k hk)
        · exact hb₁ k hk

end

/-- From the front a merge takes the left head unless the right one is less. -/
theorem pairwise_mergeUp (h : IsPreorder less) (ha : SortOf less l₁ as) (hb : SortOf less l₂ bs)
    (ascending : (l₁ ++ l₂).Pairwise (· < ·)) :
    (as.merge bs fun a b => !less b a).Pairwise (Before less) := by
  refine pairwise_merge (.trans h) (ha.ordered h) (hb.ordered h) fun a hm b hm' => ?_
  cases greater : less b a with
  | false => exact .inr ⟨greater, ha.lt_of_mem hb ascending hm hm'⟩
  | true => exact .inl greater

/-- From the back it takes the left one if the right one is less. -/
theorem pairwise_mergeDown (h : IsPreorder less) (ha : SortOf less l₁ as) (hb : SortOf less l₂ bs)
    (ascending : (l₁ ++ l₂).Pairwise (· < ·)) :
    (as.reverse.merge bs.reverse fun a b => less b a).Pairwise fun i j => Before less j i := by
  refine pairwise_merge (fun hij hjk => hjk.trans h hij) (List.pairwise_reverse.2 (ha.ordered h))
    (List.pairwise_reverse.2 (hb.ordered h)) fun a hm b hm' => ?_
  rw [List.mem_reverse] at hm hm'
  split
  · next greater => exact .inl greater
  · next notGreater =>
    exact .inr ⟨Bool.eq_false_iff.2 notGreater, ha.lt_of_mem hb ascending hm hm'⟩

/-- **Two sorted lists are merged into a sorted one.** -/
theorem merge_sortOf (ha : SortOf less l₁ as) (hb : SortOf less l₂ bs)
    (ascending : (l₁ ++ l₂).Pairwise (· < ·)) : SortOf less (l₁ ++ l₂) (merge less as bs) := by
  have perm := ha.perm.append hb.perm
  rw [merge]
  split
  · exact ⟨(List.merge_perm_append ..).trans perm, fun h => pairwise_mergeUp h ha hb ascending⟩
  · refine ⟨(List.reverse_perm _).trans ((List.merge_perm_append ..).trans ?_), fun h => ?_⟩
    · exact ((List.reverse_perm as).append (List.reverse_perm bs)).trans perm
    · exact List.pairwise_reverse.2 (pairwise_mergeDown h ha hb ascending)

/-! ## 6. Halves -/

/-- A pass over two lists has put a beginning of each in order, and the rest comes behind. -/
structure Pass (ordered : Prop) (R : Fin n → Fin n → Prop)
    (as bs taken c as' d bs' : List (Fin n)) : Prop where
  left : as = c ++ as'
  right : bs = d ++ bs'
  perm : taken.Perm (c ++ d)
  pairwise : ordered → taken.Pairwise R
  rest : ordered → ∀ i ∈ taken, ∀ j ∈ as' ++ bs', R i j

theorem draw_pass {ordered : Prop} {R : Fin n → Fin n → Prop} {left : Fin n → Fin n → Bool}
    {count : ℕ} (ha : count ≤ as.length) (hb : count ≤ bs.length)
    (merged : ordered → (as.merge bs left).Pairwise R) :
    ∃ c d, Pass ordered R as bs (draw left count as bs).1 c (draw left count as bs).2.1 d
      (draw left count as bs).2.2 ∧ c.length + d.length = count := by
  obtain ⟨c, d, hc, hd, perm, total⟩ := draw_taken left ha hb
  rw [merge_eq_draw left count] at merged
  refine ⟨c, d, ⟨hc, hd, perm, fun h => (List.pairwise_append.1 (merged h)).1,
    fun h i hi j hj => ?_⟩, total⟩
  exact (List.pairwise_append.1 (merged h)).2.2 i hi j ((List.merge_perm_append ..).mem_iff.2 hj)

/-- A beginning and an end of a list that are longer together than the list have a member in
common. -/
theorem exists_mem_of_overlap {c as' e as'' : List (Fin n)} (left : as = c ++ as')
    (right : as.reverse = e ++ as'') (long : as.length < c.length + e.length) :
    ∃ i ∈ c, i ∈ e := by
  have lengths := congrArg List.length right
  rw [List.length_reverse, List.length_append] at lengths
  have parts : c ++ as' = as''.reverse ++ e.reverse := by
    rw [← left, ← List.reverse_append, ← right, List.reverse_reverse]
  rcases List.append_eq_append_iff.1 parts with ⟨m, hm, -⟩ | ⟨m, hm, he⟩
  · have := congrArg List.length hm
    rw [List.length_reverse, List.length_append] at this
    omega
  · match m with
    | [] =>
      have := congrArg List.length hm
      rw [List.append_nil, List.length_reverse] at this
      omega
    | i :: m =>
      refine ⟨i, hm ▸ List.mem_append_right _ List.mem_cons_self, List.mem_reverse.1 ?_⟩
      exact he ▸ List.mem_cons_self

/-- A beginning and an end of a list that are shorter together leave a member of the list to
both. -/
theorem exists_mem_of_gap {c as' e as'' : List (Fin n)} (left : as = c ++ as')
    (right : as.reverse = e ++ as'') (short : c.length + e.length < as.length) :
    ∃ i ∈ as', i ∈ as'' := by
  have fronts := congrArg List.length left
  have backs := congrArg List.length right
  rw [List.length_append] at fronts backs
  rw [List.length_reverse] at backs
  -- what one pass leaves is a beginning or an end for the other direction
  have fromBack : as = as''.reverse ++ e.reverse := by
    rw [← List.reverse_append, ← right, List.reverse_reverse]
  have fromFront : as.reverse = as'.reverse ++ c.reverse := by rw [← List.reverse_append, ← left]
  obtain ⟨i, hi, hi'⟩ := exists_mem_of_overlap fromBack fromFront
    (by rw [List.length_reverse, List.length_reverse]; omega)
  exact ⟨i, List.mem_reverse.1 hi', List.mem_reverse.1 hi⟩

/-- If they are as long together as the list, then each is what the other leaves. -/
theorem eq_reverse_of_meet {c as' e as'' : List (Fin n)} (left : as = c ++ as')
    (right : as.reverse = e ++ as'') (total : as'.length + as''.length = as.length) :
    c = as''.reverse ∧ as' = e.reverse := by
  have fronts := congrArg List.length left
  rw [List.length_append] at fronts
  refine List.append_inj ?_ ?_
  · rw [← left, ← List.reverse_append, ← right, List.reverse_reverse]
  · rw [List.length_reverse]
    omega

section

variable {front c fa d fb back e ba f bb taken c' fa' d' fb' : List (Fin n)}

/-- Two passes that went through all the positions together give them in order. -/
theorem meet_sortOf (perm : (as ++ bs).Perm l) (left : as = c ++ fa) (right : bs = d ++ fb)
    (front : taken.Perm (c ++ d)) (pairwise : IsPreorder less → taken.Pairwise (Before less))
    (down : Pass (IsPreorder less) (fun i j => Before less j i) as.reverse bs.reverse back e ba f bb)
    (lefts : fa.length + ba.length = as.length) (rights : fb.length + bb.length = bs.length) :
    SortOf less l (taken ++ back.reverse) := by
  obtain ⟨hc, hfa⟩ := eq_reverse_of_meet left down.left lefts
  obtain ⟨hd, hfb⟩ := eq_reverse_of_meet right down.right rights
  constructor
  · have behind : back.reverse.Perm (fa ++ fb) := by
      rw [hfa, hfb]
      exact (List.reverse_perm back).trans
        (down.perm.trans ((List.reverse_perm e).symm.append (List.reverse_perm f).symm))
    refine ((front.append behind).trans ?_).trans perm
    rw [left, right, List.append_assoc, List.append_assoc]
    exact (List.perm_append_comm_assoc d fa fb).append_left c
  · intro h
    refine List.pairwise_append.2 ⟨pairwise h, List.pairwise_reverse.2 (down.pairwise h), ?_⟩
    intro i hi j hj
    have hi' := front.mem_iff.1 hi
    rw [hc, hd] at hi'
    refine down.rest h j (List.mem_reverse.1 hj) i ?_
    simpa using hi'

theorem meet_yields (perm : (as ++ bs).Perm l) (left : as = c ++ fa) (right : bs = d ++ fb)
    (front : taken.Perm (c ++ d)) (pairwise : IsPreorder less → taken.Pairwise (Before less))
    (down : Pass (IsPreorder less) (fun i j => Before less j i) as.reverse bs.reverse back e ba f bb)
    (meet : IsPreorder less →
      fa.length + ba.length = as.length ∧ fb.length + bb.length = bs.length) :
    Yields (IsPreorder less) (SortOf less l)
      (if fa.length + ba.length = as.length ∧ fb.length + bb.length = bs.length then
        some (taken ++ back.reverse) else none) := by
  split
  · next met => exact .some (meet_sortOf perm left right front pairwise down met.1 met.2)
  · next notMet => exact ⟨nofun, fun h => absurd (meet h) notMet⟩

/-- One more position behind those of a pass. -/
theorem Pass.pairwise_append {ordered : Prop} {R : Fin n → Fin n → Prop} {more : List (Fin n)}
    (up : Pass ordered R as bs front c fa d fb) (one : more.length ≤ 1) (rest : more ⊆ fa ++ fb)
    (h : ordered) : (front ++ more).Pairwise R := by
  refine List.pairwise_append.2 ⟨up.pairwise h, ?_, fun i hi j hj => up.rest h i hi j (rest hj)⟩
  match more, one with
  | [], _ => exact .nil
  | [i], _ => exact List.pairwise_singleton ..

/-- The passes do not overtake each other: a position that both had taken would come before one that
both have left, and behind it. -/
theorem length_add_le (h : IsPreorder less)
    (up : Pass (IsPreorder less) (Before less) as bs front c fa d fb)
    (down : Pass (IsPreorder less) (fun i j => Before less j i) as.reverse bs.reverse back e ba f bb)
    (total : c.length + d.length + (e.length + f.length) ≤ as.length + bs.length) :
    c.length + e.length ≤ as.length ∧ d.length + f.length ≤ bs.length := by
  have clash : ∀ {i j}, i ∈ c ++ d → i ∈ e ++ f → j ∈ fa ++ fb → j ∈ ba ++ bb → False :=
    fun hi hi' hj hj' => (up.rest h _ (up.perm.mem_iff.2 hi) _ hj).asymm h
      (down.rest h _ (down.perm.mem_iff.2 hi') _ hj')
  constructor
  · refine Nat.le_of_not_lt fun long => ?_
    obtain ⟨i, hi, hi'⟩ := exists_mem_of_overlap up.left down.left long
    obtain ⟨j, hj, hj'⟩ := exists_mem_of_gap up.right down.right (by omega)
    exact clash (List.mem_append_left d hi) (List.mem_append_left f hi')
      (List.mem_append_right fa hj) (List.mem_append_right ba hj')
  · refine Nat.le_of_not_lt fun long => ?_
    obtain ⟨i, hi, hi'⟩ := exists_mem_of_overlap up.right down.right long
    obtain ⟨j, hj, hj'⟩ := exists_mem_of_gap up.left down.left (by omega)
    exact clash (List.mem_append_right c hi) (List.mem_append_right e hi')
      (List.mem_append_left fb hj) (List.mem_append_left bb hj')

end

/-- **Two sorted halves are merged into a sorted list**, unless the comparison is no order. -/
theorem mergeHalves_yields (ha : SortOf less l₁ as) (hb : SortOf less l₂ bs)
    (ascending : (l₁ ++ l₂).Pairwise (· < ·))
    (halves : as.length = bs.length ∨ as.length + 1 = bs.length) :
    Yields (IsPreorder less) (SortOf less (l₁ ++ l₂)) (mergeHalves less as bs) := by
  have perm := ha.perm.append hb.perm
  have short : as.length ≤ bs.length := by omega
  obtain ⟨c, d, up, total⟩ := draw_pass (Nat.le_refl _) short
    fun h : IsPreorder less => pairwise_mergeUp h ha hb ascending
  obtain ⟨e, f, down, total'⟩ := draw_pass (Nat.le_of_eq as.length_reverse.symm)
    (Nat.le_trans short (Nat.le_of_eq bs.length_reverse.symm))
    fun h : IsPreorder less => pairwise_mergeDown h ha hb ascending
  rw [mergeHalves]
  generalize draw (fun a b => !less b a) as.length as bs = front at *
  generalize draw (fun a b => less b a) as.length as.reverse bs.reverse = back at *
  obtain ⟨front, fa, fb⟩ := front
  obtain ⟨back, ba, bb⟩ := back
  dsimp only at *
  have bounds := fun h : IsPreorder less => length_add_le h up down (by omega)
  have lefts := congrArg List.length up.left
  have rights := congrArg List.length up.right
  have lefts' := congrArg List.length down.left
  have rights' := congrArg List.length down.right
  simp only [List.length_append, List.length_reverse] at lefts rights lefts' rights'
  split
  · next even =>
    dsimp only
    rw [List.append_nil]
    exact meet_yields perm up.left up.right up.perm up.pairwise down
      fun h => by have := bounds h; omega
  · next odd =>
    split
    · next fromLeft =>
      have moved : (front ++ fa.take 1).Perm (c ++ fa.take 1 ++ d) :=
        (up.perm.append_right _).trans (by
          rw [List.append_assoc, List.append_assoc]
          exact List.perm_append_comm.append_left c)
      dsimp only
      refine meet_yields perm ?_ up.right moved (up.pairwise_append ?_ ?_) down fun h => ?_
      · rw [List.append_assoc, List.take_append_drop]
        exact up.left
      · exact List.length_take_le ..
      · exact List.Subset.trans (List.take_subset ..) (List.subset_append_left ..)
      · have := bounds h
        rw [List.length_drop]
        omega
    · next fromRight =>
      have moved : (front ++ fb.take 1).Perm (c ++ (d ++ fb.take 1)) := by
        rw [← List.append_assoc]
        exact up.perm.append_right _
      dsimp only
      refine meet_yields perm up.left ?_ moved (up.pairwise_append ?_ ?_) down fun h => ?_
      · rw [List.append_assoc, List.take_append_drop]
        exact up.right
      · exact List.length_take_le ..
      · exact List.Subset.trans (List.take_subset ..) (List.subset_append_right ..)
      · have := bounds h
        rw [List.length_drop]
        omega

/-! ## 7. Short lists -/

/-- A half is begun by sorting a piece of it. -/
theorem beginHalf_yields {elementSize length : ℕ} (ascending : l.Pairwise (· < ·))
    (half : length / 2 ≤ l.length) : Yields (IsPreorder less)
      (fun begun => ∃ l', l = l' ++ begun.2 ∧ SortOf less l' begun.1)
      (beginHalf less elementSize length l) := by
  have four : ∀ l' : List (Fin n), l'.Pairwise (· < ·) → 4 ≤ l'.length →
      (l'.take 4).Pairwise (· < ·) ∧ SortOf less (l'.take 4) (sortFour less (l'.take 4)) := by
    intro l' ascending' long
    have first := ascending'.sublist (List.take_sublist 4 l')
    exact ⟨first, sortFour_sortOf first (List.length_take_of_le long)⟩
  rw [beginHalf]
  split
  · next small =>
    have eight : 8 ≤ l.length := by omega
    have split : l.take 8 = l.take 4 ++ (l.drop 4).take 4 := List.take_add (i := 4) (j := 4)
    have first := four l ascending (by omega)
    have second := four (l.drop 4) (ascending.sublist (List.drop_sublist 4 l))
      (by rw [List.length_drop]; omega)
    refine (mergeHalves_yields first.2 second.2 ?_ (.inl ?_)).map fun merged sorted =>
      ⟨l.take 8, (List.take_append_drop 8 l).symm, split ▸ sorted⟩
    · exact split ▸ ascending.sublist (List.take_sublist 8 l)
    · rw [first.2.perm.length_eq, second.2.perm.length_eq, List.length_take, List.length_take,
        List.length_drop]
      omega
  · split
    · exact .some ⟨l.take 4, (List.take_append_drop 4 l).symm, (four l ascending (by omega)).2⟩
    · exact .some ⟨l.take 1, (List.take_append_drop 1 l).symm,
        .of_length_le_one (List.length_take_le ..)⟩

/-- **Short lists are sorted.** -/
theorem sortShort_yields (elementSize : ℕ) (ascending : l.Pairwise (· < ·)) :
    Yields (IsPreorder less) (SortOf less l) (sortShort less elementSize l) := by
  rw [sortShort]
  split
  · exact .some (.of_length_le_one (by omega))
  · generalize hhalf : l.length / 2 = half
    have left : (l.take half).Pairwise (· < ·) := ascending.sublist (List.take_sublist ..)
    have right : (l.drop half).Pairwise (· < ·) := ascending.sublist (List.drop_sublist ..)
    have lefts : (l.take half).length = half := List.length_take_of_le (by omega)
    have rights : (l.drop half).length = l.length - half := List.length_drop
    refine (beginHalf_yields left (by omega)).bind fun (as, as') ⟨l₁, h₁, ha⟩ => ?_
    refine (beginHalf_yields right (by omega)).bind fun (bs, bs') ⟨l₂, h₂, hb⟩ => ?_
    dsimp only at *
    have ha' := insertAll_sortOf ha (h₁ ▸ left)
    have hb' := insertAll_sortOf hb (h₂ ▸ right)
    rw [← h₁] at ha'
    rw [← h₂] at hb'
    have sorted := mergeHalves_yields ha' hb'
      (by rwa [List.take_append_drop]) (by rw [ha'.perm.length_eq, hb'.perm.length_eq]; omega)
    rwa [List.take_append_drop] at sorted

end DocQuery.Sorting
