/-
# Sorting is stable, or fails

What the sort makes of a list.  All of its strategies are covered: insertion up to 20 elements,
runs that are merged in a balanced tree, and partitions where there are no runs.

* **Runs.**  The run that is there already is a beginning of the list, and a descending one may be
  turned round because it has no equal elements (`firstRun_sortOf`).  A list that is cut into runs
  has their positions piece by piece (`Pieces`).  A piece is sorted, or left as it was for a
  sorter that is known to sort (`Piece`).
* **The stack.**  The runs on the stack have the positions before the current run (`Stacked`), and
  collapsing joins the last of them to it.  At which DEPTH runs are joined decides how much work
  it is, not what comes out: at the end everything is collapsed (`collapse_yields`,
  `joinAll_yields`).
* **Partitions.**  What is less than the pivot belongs before what is not, and if nothing is less
  then what is equal to the pivot goes in front as it stands, since a partition keeps the order in
  which elements are stored (`sortParts_yields`).  The number of partitions is limited, and at the
  limit runs take over, so the recursion is on that number.

For elements this comes to three statements.  A sort gives all positions, once each
(`sortedPositions_perm`); if the comparison orders the elements they come in order, equal ones as
they were stored (`pairwise_sortedPositions`); and it fails only on more than 20 elements that the
comparison does not order (`exists_sortedPositions`).  Last, what the sort does depends on the
comparisons only, so elements that compare as their images do are sorted as these are
(`sortBy_map`).
-/
import DocQuery.Proofs.Preorders
import DocQuery.Proofs.StableMerging
import Mathlib.Data.List.FinRange

namespace DocQuery

namespace Sorting

variable {n : ℕ} {less : Fin n → Fin n → Bool} {i j : Fin n} {l l₁ l₂ l₃ : List (Fin n)}
  {sorter : Sorter n}

/-! ## 1. Runs -/

theorem continuation_prefix (continues : Fin n → Fin n → Bool) (last : Fin n) (l : List (Fin n)) :
    continuation continues last l <+: l := by
  induction l generalizing last with
  | nil => exact List.nil_prefix
  | cons next rest ih =>
    rw [continuation]
    split
    · exact List.cons_prefix_cons.2 ⟨rfl, ih next⟩
    · exact List.nil_prefix

theorem take_continuation (continues : Fin n → Fin n → Bool) (last : Fin n) (l : List (Fin n)) :
    (last :: l).take (last :: continuation continues last l).length =
      last :: continuation continues last l :=
  (List.prefix_iff_eq_take.1
    (List.cons_prefix_cons.2 ⟨rfl, continuation_prefix continues last l⟩)).symm

theorem pairwise_continuation {R : Fin n → Fin n → Prop} {continues : Fin n → Fin n → Bool}
    {last : Fin n} (trans : ∀ {i j k}, R i j → R j k → R i k)
    (step : ∀ {i j}, i < j → continues i j → R i j) (ascending : (last :: l).Pairwise (· < ·)) :
    (last :: continuation continues last l).Pairwise R := by
  induction l generalizing last with
  | nil => exact List.pairwise_singleton ..
  | cons next rest ih =>
    obtain ⟨first, ascending'⟩ := List.pairwise_cons.1 ascending
    rw [continuation]
    split
    · next continues' =>
      have run := ih ascending'
      have head : R last next := step (first next List.mem_cons_self) continues'
      refine List.pairwise_cons.2 ⟨fun k hk => ?_, run⟩
      rcases List.mem_cons.1 hk with rfl | hk
      · exact head
      · exact trans head (List.rel_of_pairwise_cons run hk)
    · exact List.pairwise_singleton ..

/-- The run that is there already is a beginning of the list, in order. -/
theorem firstRun_sortOf (ascending : l.Pairwise (· < ·)) :
    SortOf less (l.take (firstRun less l).length) (firstRun less l) := by
  match l, ascending with
  | [], _ => exact .of_length_le_one (Nat.zero_le 1)
  | [_], _ => exact .of_length_le_one (Nat.le_refl 1)
  | i :: j :: rest, ascending =>
    rw [firstRun]
    split
    · rw [List.length_reverse, take_continuation]
      refine ⟨List.reverse_perm _, fun h => List.pairwise_reverse.2 ?_⟩
      exact pairwise_continuation (fun hij hjk => hjk.trans h hij)
        (fun _ descends => .inl descends) ascending
    · rw [take_continuation]
      refine ⟨.refl _, fun h => ?_⟩
      exact pairwise_continuation (.trans h)
        (fun earlier ascends => .inr ⟨by simpa using ascends, earlier⟩) ascending

/-- What is left unsorted is sorted by this. -/
def Sorts (less : Fin n → Fin n → Bool) (sorter : Sorter n) : Prop :=
  ∀ l, l.Pairwise (· < ·) → Yields (IsPreorder less) (SortOf less l) (sorter l)

/-- A run has the positions of a piece of the list: it has sorted them, or left them to a sorter. -/
structure Piece (less : Fin n → Fin n → Bool) (sorter : Sorter n) (l : List (Fin n))
    (run : Run n) : Prop where
  sorted : run.isSorted → SortOf less l run.positions
  unsorted : run.isSorted = false → run.positions = l ∧ Sorts less sorter

theorem Piece.sort {run : Run n} (piece : Piece less sorter l run)
    (ascending : l.Pairwise (· < ·)) :
    Yields (IsPreorder less) (SortOf less l) (run.sort sorter) := by
  rw [Run.sort]
  split
  · next sorted => exact .some (piece.sorted sorted)
  · next unsorted =>
    obtain ⟨rfl, sorts⟩ := piece.unsorted (Bool.eq_false_iff.2 unsorted)
    exact sorts _ ascending

theorem join_yields {capacity : ℕ} {left right : Run n} (hl : Piece less sorter l₁ left)
    (hr : Piece less sorter l₂ right) (ascending : (l₁ ++ l₂).Pairwise (· < ·)) :
    Yields (IsPreorder less) (Piece less sorter (l₁ ++ l₂))
      (join less sorter capacity left right) := by
  rw [join]
  split
  · next waiting =>
    obtain ⟨first, sorts⟩ := hl.unsorted (by simpa using waiting.1)
    obtain ⟨second, -⟩ := hr.unsorted (by simpa using waiting.2.1)
    exact .some ⟨nofun, fun _ => ⟨by rw [first, second], sorts⟩⟩
  · obtain ⟨left', right', -⟩ := List.pairwise_append.1 ascending
    refine (hl.sort left').bind fun as ha => (hr.sort right').bind fun bs hb => ?_
    exact .some ⟨fun _ => merge_sortOf ha hb ascending, nofun⟩

/-- A cut run is a beginning of the list that is not empty. -/
theorem cutRun_yields {elementSize shortest : ℕ} {eager : Bool} (nonempty : l ≠ [])
    (waiting : eager = false → Sorts less sorter) (ascending : l.Pairwise (· < ·)) :
    Yields (IsPreorder less)
      (fun run => run.positions ≠ [] ∧ Piece less sorter (l.take run.positions.length) run)
      (cutRun less elementSize shortest eager l) := by
  have positive := List.length_pos_iff.2 nonempty
  rw [cutRun]
  split
  · next long =>
    refine .some ⟨List.length_pos_iff.1 (Nat.zero_lt_of_lt long), fun _ => ?_, nofun⟩
    exact firstRun_sortOf ascending
  · split
    · refine (sortShort_yields elementSize (ascending.sublist (List.take_sublist 32 l))).map
        fun run sorted => ⟨?_, fun _ => ?_, nofun⟩
      · have lengths := sorted.perm.length_eq
        rw [List.length_take] at lengths
        exact List.length_pos_iff.1 (show 0 < run.length by omega)
      · rw [sorted.perm.length_eq, List.length_take, ← List.take_eq_take_min]
        exact sorted
    · next lazy =>
      refine .some ⟨List.length_pos_iff.1 ?_, nofun, fun _ => ⟨?_, waiting (by simpa using lazy)⟩⟩
      · rw [List.length_take]
        omega
      · rw [List.length_take, ← List.take_eq_take_min]

/-- Runs have the positions of a list, piece by piece. -/
inductive Pieces (less : Fin n → Fin n → Bool) (sorter : Sorter n) :
    List (Fin n) → List (Run n) → Prop where
  | nil : Pieces less sorter [] []
  | cons {l l' : List (Fin n)} {run : Run n} {runs : List (Run n)} :
    Piece less sorter l run → Pieces less sorter l' runs → Pieces less sorter (l ++ l') (run :: runs)

theorem cutRuns_yields {elementSize shortest : ℕ} {eager : Bool}
    (waiting : eager = false → Sorts less sorter) (ascending : l.Pairwise (· < ·)) :
    Yields (IsPreorder less) (Pieces less sorter l)
      (cutRuns less elementSize shortest eager l) := by
  induction l using cutRuns.induct with
  | case1 =>
    rw [cutRuns]
    exact .some .nil
  | case2 i rest ih =>
    rw [cutRuns]
    refine (cutRun_yields (List.cons_ne_nil i rest) waiting ascending).bind
      fun run ⟨nonempty, piece⟩ => ?_
    have tail : rest.drop (run.positions.length - 1) = (i :: rest).drop run.positions.length := by
      obtain ⟨k, hk⟩ := Nat.exists_eq_succ_of_ne_zero (List.length_pos_iff.2 nonempty).ne'
      rw [hk]
      rfl
    have ascending' := ascending.sublist (List.drop_sublist run.positions.length (i :: rest))
    refine (ih run (tail ▸ ascending')).bind fun runs pieces => .some ?_
    rw [tail] at pieces
    rw [← List.take_append_drop run.positions.length (i :: rest)]
    exact .cons piece pieces

/-! ## 2. The stack -/

/-- The runs on a stack have the positions before the current run, piece by piece. -/
inductive Stacked (less : Fin n → Fin n → Bool) (sorter : Sorter n) :
    List (Fin n) → List (Run n × ℕ) → Prop where
  | nil : Stacked less sorter [] []
  | push {l l' : List (Fin n)} {run : Run n} {stack : List (Run n × ℕ)} (depth : ℕ) :
    Stacked less sorter l stack → Piece less sorter l' run →
      Stacked less sorter (l ++ l') ((run, depth) :: stack)

/-- Collapsing a stack moves its last pieces to the current run, at depth zero all of them. -/
theorem collapse_yields {capacity depth : ℕ} {run : Run n} {stack : List (Run n × ℕ)}
    (stacked : Stacked less sorter l₁ stack) (piece : Piece less sorter l₂ run)
    (ascending : (l₁ ++ l₂).Pairwise (· < ·)) :
    Yields (IsPreorder less)
      (fun r => ∃ l₃ l₄, l₁ ++ l₂ = l₃ ++ l₄ ∧ Stacked less sorter l₃ r.2 ∧
        Piece less sorter l₄ r.1 ∧ (depth = 0 → l₃ = []))
      (collapse less sorter capacity depth run stack) := by
  induction stacked generalizing l₂ run with
  | nil => exact .some ⟨[], l₂, rfl, .nil, piece, fun _ => rfl⟩
  | @push l l' left stack d stacked last ih =>
    rw [collapse]
    split
    · rw [List.append_assoc] at ascending ⊢
      have right := (List.pairwise_append.1 ascending).2.1
      exact (join_yields last piece right).bind fun joined piece' => ih piece' ascending
    · next high =>
      exact .some ⟨l ++ l', l₂, rfl, .push d stacked last, piece,
        fun h => absurd (h ▸ d.zero_le) high⟩

theorem joinAll_yields {capacity length start : ℕ} {run : Run n} {stack : List (Run n × ℕ)}
    {runs : List (Run n)} (stacked : Stacked less sorter l₁ stack)
    (piece : Piece less sorter l₂ run) (pieces : Pieces less sorter l₃ runs)
    (ascending : (l₁ ++ l₂ ++ l₃).Pairwise (· < ·)) :
    Yields (IsPreorder less) (Piece less sorter (l₁ ++ l₂ ++ l₃))
      (joinAll less sorter capacity length start run stack runs) := by
  induction pieces generalizing l₁ l₂ start run stack with
  | nil =>
    rw [List.append_nil] at ascending ⊢
    refine (collapse_yields stacked piece ascending).map ?_
    rintro r ⟨l₃, l₄, parts, -, joined, empty⟩
    rwa [parts, empty rfl, List.nil_append]
  | @cons l l' next runs next' pieces ih =>
    rw [← List.append_assoc] at ascending ⊢
    have left := (List.pairwise_append.1 (List.pairwise_append.1 ascending).1).1
    refine (collapse_yields stacked piece left).bind ?_
    rintro ⟨joined, stack'⟩ ⟨l₃, l₄, parts, stacked', joined', -⟩
    rw [parts] at ascending ⊢
    exact ih (.push _ stacked' joined') next' ascending

theorem sortRuns_sorts {elementSize capacity : ℕ} {eager : Bool}
    (waiting : eager = false → Sorts less sorter) :
    Sorts less (sortRuns less elementSize capacity eager sorter) := by
  intro l ascending
  refine (cutRuns_yields waiting ascending).bind fun runs pieces => ?_
  cases pieces with
  | nil => exact .some ⟨.refl _, fun _ => .nil⟩
  | cons piece pieces =>
    exact (joinAll_yields .nil piece pieces ascending).bind fun run joined => joined.sort ascending

/-! ## 3. Partitions -/

/-- A list is sorted by sorting two parts, if what is in the first belongs before what is in the
second. -/
theorem filter_sortOf {p : Fin n → Bool} {as bs : List (Fin n)}
    (ha : SortOf less (l.filter p) as) (hb : SortOf less (l.filter fun i => !p i) bs)
    (apart : IsPreorder less → ∀ i j, p i → p j = false → Before less i j) :
    SortOf less l (as ++ bs) := by
  refine ⟨(ha.perm.append hb.perm).trans (List.filter_append_perm p l), fun h => ?_⟩
  refine List.pairwise_append.2 ⟨ha.ordered h, hb.ordered h, fun i hi j hj => ?_⟩
  have first := (List.mem_filter.1 (ha.perm.mem_iff.1 hi)).2
  have second := (List.mem_filter.1 (hb.perm.mem_iff.1 hj)).2
  exact apart h i j first (by simpa using second)

section

variable {p : Fin n}

theorem IsPreorder.irrefl (h : IsPreorder less) (i : Fin n) : less i i = false :=
  Bool.eq_false_iff.2 fun hi => Bool.eq_false_iff.1 (h.asymm hi) hi

/-- What is less than the pivot belongs before what is not. -/
theorem before_of_smaller (h : IsPreorder less) (hi : i != p && less i p)
    (hj : (j != p && less j p) = false) : Before less i j := by
  rw [Bool.and_eq_true] at hi
  by_cases pivot : j = p
  · exact .inl (pivot ▸ hi.2)
  · have hj' : less j p = false := by simpa [pivot] using hj
    exact .inl ((h.split hi.2 j).resolve_right (Bool.eq_false_iff.1 hj'))

/-- What is not greater than the pivot belongs before what is greater. -/
theorem before_of_greater (h : IsPreorder less) (hi : i == p || !less p i)
    (hj : (j == p || !less p j) = false) : Before less i j := by
  simp only [Bool.or_eq_false_iff, Bool.not_eq_eq_eq_not, Bool.not_false] at hj
  by_cases pivot : i = p
  · exact .inl (pivot ▸ hj.2)
  · have hi' : less p i = false := by simpa [pivot] using hi
    exact .inl ((h.split hj.2 i).resolve_left (Bool.eq_false_iff.1 hi'))

/-- What is not greater than the pivot is in order as it stands, if nothing is less. -/
theorem equal_sortOf (ascending : l.Pairwise (· < ·))
    (least : IsPreorder less → ∀ i ∈ l, less i p = false) :
    SortOf less (l.filter fun i => i == p || !less p i)
      (l.filter fun i => i == p || !less p i) := by
  refine ⟨.refl _, fun h => ?_⟩
  refine (ascending.sublist List.filter_sublist).imp_of_mem fun {i j} hi hj earlier =>
    .inr ⟨?_, earlier⟩
  have hip : less p i = false := by
    by_cases pivot : i = p
    · exact pivot ▸ h.irrefl i
    · simpa [pivot] using (List.mem_filter.1 hi).2
  exact h.not_less_trans hip (least h j (List.mem_filter.1 hj).1)

end

/-- **Partitions sort**, where nothing in the list is less than `least`. -/
theorem sortParts_yields (elementSize capacity limit : ℕ) (least : Option (Fin n))
    (ascending : l.Pairwise (· < ·))
    (above : IsPreorder less → ∀ q ∈ least, ∀ i ∈ l, less i q = false) :
    Yields (IsPreorder less) (SortOf less l)
      (sortParts less elementSize capacity limit least l) := by
  induction limit generalizing least l with
  | zero =>
    rw [sortParts]
    split
    · exact sortShort_yields elementSize ascending
    · exact sortRuns_sorts (fun h : true = false => nomatch h) l ascending
  | succ limit ih =>
    match l with
    | [] => exact .some ⟨.refl _, fun _ => .nil⟩
    | first :: rest =>
      rw [sortParts]
      split
      · exact sortShort_yields elementSize ascending
      · generalize pivot less first (first :: rest) = p
        generalize first :: rest = l at *
        have part : ∀ q : Fin n → Bool, (l.filter q).Pairwise (· < ·) := fun q =>
          ascending.sublist List.filter_sublist
        simp only [List.partition_eq_filter_filter]
        split
        · next equal =>
          -- nothing is less than the pivot
          have least' : IsPreorder less → ∀ i ∈ l, less i p = false := by
            intro h i hi
            rcases Bool.or_eq_true_iff.1 equal with notLess | empty
            · match least with
              | some q => exact h.not_less_trans (by simpa using notLess) (above h q rfl i hi)
            · by_cases pivot : i = p
              · exact pivot ▸ h.irrefl i
              · simpa [pivot] using List.filter_eq_nil_iff.1 (List.isEmpty_iff.1 empty) i hi
          refine (ih none (part _) nofun).bind fun greater sorted => .some ?_
          exact filter_sortOf (equal_sortOf ascending least') sorted
            fun h i j => before_of_greater h
        · refine (ih (some p) (part _) fun h q hq i hi => ?_).bind fun others sorted =>
            (ih least (part _) fun h q hq i hi => ?_).bind fun smaller sorted' => .some ?_
          · cases hq
            by_cases pivot : i = p
            · exact pivot ▸ h.irrefl i
            · simpa [pivot] using (List.mem_filter.1 hi).2
          · exact above h q hq i (List.mem_filter.1 hi).1
          · exact filter_sortOf sorted' sorted fun h i j => before_of_smaller h

/-! ## 4. All positions -/

theorem positions_yields (less : Fin n → Fin n → Bool) (elementSize : ℕ) :
    Yields (IsPreorder less ∨ n ≤ 20) (SortOf less (List.finRange n))
      (positions less elementSize) := by
  have ascending : (List.finRange n).Pairwise (· < ·) := List.pairwise_lt_finRange n
  rw [positions]
  split
  · have nothing : SortOf less [] [] := .of_length_le_one (Nat.zero_le 1)
    exact .some (insertAll_sortOf nothing ascending)
  · next long =>
    generalize max (n - n / 2) (min n (8000000 / elementSize)) = capacity
    have later : Sorts less fun l =>
        sortParts less elementSize capacity (2 * (l.length ||| 1).log2) none l :=
      fun l ascending => sortParts_yields _ _ _ none ascending nofun
    exact (sortRuns_sorts (fun _ => later) _ ascending).mono fun h => h.resolve_right long

end Sorting

/-! ## 5. Elements -/

variable {α : Type} {cmp : α → α → Ordering} {elementSize : ℕ} {l r : List α}

/-- Of two numbered elements the smaller precedes, and of equal ones the earlier. -/
def Precedes (cmp : α → α → Ordering) (x y : α × ℕ) : Prop :=
  cmp x.1 y.1 = .lt ∨ cmp x.1 y.1 = .eq ∧ x.2 < y.2

section

variable {n : ℕ} {elements : Vector α n} {i j : Fin n}

theorem get_mem (elements : Vector α n) (i : Fin n) : elements.get i ∈ elements :=
  (Vector.mem_toArray_iff ..).1 (Array.getElem_mem _)

theorem lessAt_eq_true :
    lessAt cmp elements i j ↔ cmp (elements.get i) (elements.get j) = .lt := by
  simp [lessAt]

theorem lessAt_eq_false (h : Preorders cmp (· ∈ elements)) :
    lessAt cmp elements i j = false ↔ (cmp (elements.get j) (elements.get i)).isLE := by
  rw [h.isLE_iff (get_mem elements j) (get_mem elements i), Ne, ← lessAt_eq_true,
    Bool.not_eq_true]

/-- A comparison that orders the elements orders their positions. -/
theorem isPreorder_lessAt (h : Preorders cmp (· ∈ elements)) :
    Sorting.IsPreorder (lessAt cmp elements) where
  asymm hij := (lessAt_eq_false h).2 (by rw [lessAt_eq_true.1 hij]; rfl)
  split {i k} hik j := by
    by_contra neither
    rw [not_or, Bool.not_eq_true, Bool.not_eq_true, lessAt_eq_false h, lessAt_eq_false h] at neither
    have backwards := h.isLE_trans (get_mem elements k) (get_mem elements j)
      (get_mem elements i) neither.2 neither.1
    exact Bool.eq_false_iff.1 ((lessAt_eq_false h).2 backwards) hik

theorem precedes_of_before (h : Preorders cmp (· ∈ elements))
    (before : Sorting.Before (lessAt cmp elements) i j) :
    Precedes cmp (elements.get i, i) (elements.get j, j) := by
  rcases before with less | ⟨notGreater, earlier⟩
  · exact .inl (lessAt_eq_true.1 less)
  · rcases Ordering.isLE_iff_eq_lt_or_eq_eq.1 ((lessAt_eq_false h).1 notGreater) with less | equal
    · exact .inl less
    · exact .inr ⟨equal, earlier⟩

end

theorem preorders_toVector (h : Preorders cmp (· ∈ l)) : Preorders cmp (· ∈ l.toArray.toVector) :=
  h.mono fun _ hx => List.mem_toArray.1 ((Vector.mem_toArray_iff ..).2 hx)

/-- What stands at a position of a list. -/
theorem getElem?_eq_get (l : List α) (i : Fin l.toArray.size) :
    l[i.val]? = some (l.toArray.toVector.get i) := by
  rw [← List.getElem?_toArray, Array.getElem?_eq_getElem i.2]
  rfl

/-- **A sort gives all positions, once each.** -/
theorem sortedPositions_perm {order : List ℕ} (h : sortedPositions elementSize cmp l = some order) :
    order.Perm (List.range l.length) := by
  obtain ⟨order, horder, rfl⟩ := Option.map_eq_some_iff.1 h
  have perm := ((Sorting.positions_yields _ elementSize).holds order horder).perm.map Fin.val
  rwa [List.map_coe_finRange_eq_range] at perm

/-- **Sorting is stable.**  If the comparison orders the elements, then smaller elements come before
larger ones, and of equal elements the earlier first. -/
theorem pairwise_sortedPositions {order : List ℕ} (h : Preorders cmp (· ∈ l))
    (sorted : sortedPositions elementSize cmp l = some order) :
    order.Pairwise fun i j => ∀ x y, l[i]? = some x → l[j]? = some y →
      Precedes cmp (x, i) (y, j) := by
  obtain ⟨order, horder, rfl⟩ := Option.map_eq_some_iff.1 sorted
  have h' := preorders_toVector h
  have result := (Sorting.positions_yields (lessAt cmp l.toArray.toVector) elementSize).holds order
    horder
  refine List.pairwise_map.2 ((result.ordered (isPreorder_lessAt h')).imp ?_)
  intro i j before x y hx hy
  rw [getElem?_eq_get] at hx hy
  cases hx
  cases hy
  exact precedes_of_before h' before

/-- **A sort fails only on more than 20 elements that the comparison does not order.** -/
theorem exists_sortedPositions (elementSize : ℕ)
    (h : Preorders cmp (· ∈ l) ∨ l.length ≤ 20) :
    ∃ order, sortedPositions elementSize cmp l = some order := by
  have sorts := (Sorting.positions_yields (lessAt cmp l.toArray.toVector) elementSize).isSome
  obtain ⟨order, horder⟩ := Option.isSome_iff_exists.1 (sorts (h.imp_left fun h =>
    isPreorder_lessAt (preorders_toVector h)))
  exact ⟨order.map Fin.val, Option.map_eq_some_iff.2 ⟨order, horder, rfl⟩⟩

/-- The sorted list has the elements at the sorted positions. -/
theorem map_sortBy (elementSize : ℕ) (cmp : α → α → Ordering) (l : List α) :
    (sortBy elementSize cmp l).map (List.map some) =
      (sortedPositions elementSize cmp l).map (List.map fun i => l[i]?) := by
  rw [sortBy, sortedPositions, Option.map_map, Option.map_map]
  refine congrArg (Option.map · _) (funext fun order => ?_)
  rw [Function.comp_apply, Function.comp_apply, List.map_map, List.map_map]
  exact List.map_congr_left fun i _ => (getElem?_eq_get l i).symm

theorem map_some_injective : Function.Injective (List.map (some : α → Option α)) :=
  List.map_injective_iff.2 (Option.some_injective α)

theorem sortBy_eq_some : sortBy elementSize cmp l = some r ↔
    ∃ order, sortedPositions elementSize cmp l = some order ∧
      r.map some = order.map fun i => l[i]? := by
  rw [← (Option.map_injective map_some_injective).eq_iff, map_sortBy, Option.map_some,
    Option.map_eq_some_iff]
  exact exists_congr fun order => and_congr_right fun _ => eq_comm

theorem exists_sortBy (elementSize : ℕ) (h : Preorders cmp (· ∈ l) ∨ l.length ≤ 20) :
    ∃ r, sortBy elementSize cmp l = some r := by
  obtain ⟨order, horder⟩ := exists_sortedPositions elementSize h
  obtain ⟨positions, hpositions, -⟩ := Option.map_eq_some_iff.1 horder
  exact ⟨_, Option.map_eq_some_iff.2 ⟨positions, hpositions, rfl⟩⟩

theorem map_getElem?_range (l : List α) :
    (List.range l.length).map (fun i => l[i]?) = l.map some := by
  refine List.ext_getElem (by simp) fun i hi _ => ?_
  rw [List.length_map, List.length_range] at hi
  simp [hi]

/-- Sorting neither loses nor repeats elements. -/
theorem sortBy_perm (h : sortBy elementSize cmp l = some r) : r.Perm l := by
  obtain ⟨order, horder, elements⟩ := sortBy_eq_some.1 h
  have perm := (sortedPositions_perm horder).map fun i => l[i]?
  rw [← elements, map_getElem?_range] at perm
  have values := perm.filterMap id
  rwa [List.filterMap_map, List.filterMap_map, Function.id_comp, List.filterMap_some,
    List.filterMap_some] at values

/-! ## 6. Sorting through a map -/

section

variable {β : Type} {cmp' : β → β → Ordering} {f : α → β}

/-- What the sort does depends on the comparisons only. -/
theorem positions_congr {m n : ℕ} (e : m = n) {less : Fin m → Fin m → Bool}
    {less' : Fin n → Fin n → Bool} (h : ∀ i j, less' (i.cast e) (j.cast e) = less i j) :
    (Sorting.positions less' elementSize).map (List.map Fin.val) =
      (Sorting.positions less elementSize).map (List.map Fin.val) := by
  subst e
  rw [show less' = less from funext fun i => funext fun j => h i j]

/-- Elements that compare as their images do are sorted as these are. -/
theorem sortedPositions_map (h : ∀ x y, cmp' (f x) (f y) = cmp x y) (l : List α) :
    sortedPositions elementSize cmp' (l.map f) = sortedPositions elementSize cmp l := by
  have length : l.toArray.size = (l.map f).toArray.size := by simp
  have images : ∀ i : Fin l.toArray.size,
      (l.map f).toArray.toVector.get (i.cast length) = f (l.toArray.toVector.get i) := by
    intro i
    refine Option.some_injective _ ?_
    rw [← getElem?_eq_get, ← Option.map_some, ← getElem?_eq_get, ← List.getElem?_map]
    rfl
  refine positions_congr length fun i j => ?_
  rw [lessAt, lessAt, images, images, h]

theorem sortBy_map (h : ∀ x y, cmp' (f x) (f y) = cmp x y) (l : List α) :
    sortBy elementSize cmp' (l.map f) = (sortBy elementSize cmp l).map (List.map f) := by
  refine Option.map_injective map_some_injective ?_
  have images : List.map some ∘ List.map f = List.map (Option.map f) ∘ List.map some := by
    funext l
    simp
  rw [map_sortBy, sortedPositions_map h, Option.map_map, images, ← Option.map_map, map_sortBy,
    Option.map_map]
  refine congrArg (Option.map · _) (funext fun order => ?_)
  simp

end

end DocQuery
