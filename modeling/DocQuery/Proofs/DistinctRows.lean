/-
# Distinct rows

A distinct select keeps of equal rows the first, and what it keeps stays in its order
(`dropRepeated_eq`).  The rows that it looks through are those that it has KEPT, not all rows
before; that this makes no difference is because equality of JSON values is transitive.

`firstOccurrences` says which rows are kept without the bookkeeping of the loop: those that are
equal to no row before them.  From it follow

* that no two kept rows are equal (`pairwise_firstOccurrences`),
* that every row is equal to a kept one (`exists_firstOccurrence`),
* and the place of each: behind the first occurrences among the rows before it
  (`getElem?_firstOccurrences`).

Equality here is that of JSON as it is stored: an integer and a double are different values, and
the two zeros are equal.
-/
import DocQuery.Execution
import DocQuery.Proofs.IdentityMaps
import Mathlib.Data.List.Induction

namespace DocQuery

/-! ## 1. Equality of JSON values -/

theorem Double.equal_trans {x y z : Double} (h : x.equal y = true) (h' : y.equal z = true) :
    x.equal z = true := by
  obtain ⟨k, hx, hy⟩ := equal_iff.1 h
  obtain ⟨k', hy', hz⟩ := equal_iff.1 h'
  cases hy.symm.trans hy'
  exact equal_iff.2 ⟨k, hx, hz⟩

namespace Number

theorem same_refl (n : Number) : n.same n = true := by
  cases n with
  | integer i => exact beq_self_eq_true i
  | double x | single x => exact Double.equal_self rfl

theorem same_trans {a b c : Number} (h : a.same b = true) (h' : b.same c = true) :
    a.same c = true := by
  cases a with
  | integer i => cases b with
    | integer j =>
      cases beq_iff_eq.1 (show (i == j) = true from h)
      exact h'
    | _ => exact absurd h Bool.false_ne_true
  | double x | single x => cases b with
    | integer j => exact absurd h Bool.false_ne_true
    | double y | single y => cases c with
      | integer k => exact absurd h' Bool.false_ne_true
      | double z | single z => exact Double.equal_trans h h'

end Number

namespace Json

mutual

theorem same_refl (j : Json) : j.same j = true := by
  cases j with
  | null => rfl
  | bool b => exact beq_self_eq_true b
  | number n => exact n.same_refl
  | string s => exact beq_self_eq_true s
  | array items => exact sameItems_refl items
  | object members => exact sameMembers_refl members

theorem sameItems_refl (items : List Json) : sameItems items items = true := by
  cases items with
  | nil => rfl
  | cons j rest => rw [sameItems, same_refl j, sameItems_refl rest, Bool.and_true]

theorem sameMembers_refl (members : List (String × Json)) :
    sameMembers members members = true := by
  cases members with
  | nil => rfl
  | cons member rest =>
    obtain ⟨name, j⟩ := member
    rw [sameMembers, same_refl j, sameMembers_refl rest, beq_self_eq_true, Bool.and_true,
      Bool.and_true]

end

mutual

/-- Values that are the same are of one kind, and their parts are the same. -/
theorem same_trans (a : Json) {b c : Json} (h : a.same b = true) (h' : b.same c = true) :
    a.same c = true := by
  cases a with
  | null => cases b with
    | null => exact h'
    | _ => exact absurd h Bool.false_ne_true
  | bool x => cases b with
    | bool y =>
      cases beq_iff_eq.1 (show (x == y) = true from h)
      exact h'
    | _ => exact absurd h Bool.false_ne_true
  | number x => cases b with
    | number y => cases c with
      | number z => exact Number.same_trans h h'
      | _ => exact absurd h' Bool.false_ne_true
    | _ => exact absurd h Bool.false_ne_true
  | string x => cases b with
    | string y =>
      cases beq_iff_eq.1 (show (x == y) = true from h)
      exact h'
    | _ => exact absurd h Bool.false_ne_true
  | array x => cases b with
    | array y => cases c with
      | array z => exact sameItems_trans x h h'
      | _ => exact absurd h' Bool.false_ne_true
    | _ => exact absurd h Bool.false_ne_true
  | object x => cases b with
    | object y => cases c with
      | object z => exact sameMembers_trans x h h'
      | _ => exact absurd h' Bool.false_ne_true
    | _ => exact absurd h Bool.false_ne_true
termination_by structural a

theorem sameItems_trans (as : List Json) {bs cs : List Json} (h : sameItems as bs = true)
    (h' : sameItems bs cs = true) : sameItems as cs = true := by
  cases as with
  | nil => cases bs with
    | nil => exact h'
    | cons b bs => exact absurd h Bool.false_ne_true
  | cons a as => cases bs with
    | nil => exact absurd h Bool.false_ne_true
    | cons b bs => cases cs with
      | nil => exact absurd h' Bool.false_ne_true
      | cons c cs =>
        rw [sameItems, Bool.and_eq_true] at h h' ⊢
        exact ⟨same_trans a h.1 h'.1, sameItems_trans as h.2 h'.2⟩
termination_by structural as

theorem sameMembers_trans (as : List (String × Json)) {bs cs : List (String × Json)}
    (h : sameMembers as bs = true) (h' : sameMembers bs cs = true) :
    sameMembers as cs = true := by
  cases as with
  | nil => cases bs with
    | nil => exact h'
    | cons b bs => exact absurd h Bool.false_ne_true
  | cons a as => cases bs with
    | nil => exact absurd h Bool.false_ne_true
    | cons b bs => cases cs with
      | nil => exact absurd h' Bool.false_ne_true
      | cons c cs =>
        cases a with | mk name a =>
        rw [sameMembers, Bool.and_eq_true, Bool.and_eq_true, beq_iff_eq] at h h' ⊢
        exact ⟨⟨h.1.1.trans h'.1.1, same_trans a h.1.2 h'.1.2⟩, sameMembers_trans as h.2 h'.2⟩
termination_by structural as

end

end Json

/-! ## 2. First occurrences -/

variable {rows before kept : List (List Json)} {row : List Json}

theorem isRepeated_iff : isRepeated kept row = true ↔ ∃ k ∈ kept, Json.sameItems k row = true :=
  List.any_eq_true

theorem isRepeated_append (before rows : List (List Json)) (row : List Json) :
    isRepeated (before ++ rows) row = (isRepeated before row || isRepeated rows row) :=
  List.any_append

/-- The rows that are equal to no row before them. -/
def firstOccurrences (rows : List (List Json)) : List (List Json) :=
  (rows.zipIdx.filter fun e => !isRepeated (rows.take e.2) e.1).map Prod.fst

/-- The loop keeps the rows that are equal to none before them, as long as the kept rows repeat
what all rows `before` repeat. -/
theorem dropRepeated_append (rows : List (List Json)) {before kept : List (List Json)}
    (h : ∀ row, isRepeated kept row = isRepeated before row) :
    dropRepeated kept rows = kept.reverse ++ ((rows.zipIdx before.length).filter fun e =>
      !isRepeated ((before ++ rows).take e.2) e.1).map Prod.fst := by
  induction rows generalizing before kept with
  | nil => exact (List.append_nil _).symm
  | cons row rest ih =>
    have later : before ++ row :: rest = (before ++ [row]) ++ rest := List.append_cons ..
    have length : before.length + 1 = (before ++ [row]).length := by
      rw [List.length_append, List.length_singleton]
    have here : (before ++ row :: rest).take before.length = before := List.take_left
    rw [dropRepeated, List.zipIdx_cons, List.filter_cons, here, h]
    cases repeated : isRepeated before row with
    | true =>
      have same : ∀ r, isRepeated kept r = isRepeated (before ++ [row]) r := by
        intro r
        rw [h, isRepeated_append]
        refine (Bool.or_eq_left_iff_imp.2 fun hr => ?_).symm
        obtain ⟨r', hr', hsame⟩ := isRepeated_iff.1 hr
        cases List.mem_singleton.1 hr'
        obtain ⟨k, hk, hkrow⟩ := isRepeated_iff.1 repeated
        exact isRepeated_iff.2 ⟨k, hk, Json.sameItems_trans k hkrow hsame⟩
      rw [if_pos rfl, ih same, later, length]
      rfl
    | false =>
      have same : ∀ r, isRepeated (row :: kept) r = isRepeated (before ++ [row]) r := by
        intro r
        rw [isRepeated_append, ← h, Bool.or_comm]
        exact isRepeated_append [row] kept r
      rw [if_neg Bool.false_ne_true, ih same, later, length]
      simp only [List.reverse_cons, List.append_assoc, List.cons_append, List.nil_append,
        Bool.not_false, if_true, List.map_cons]

/-- **Dropping repeated rows keeps the first occurrences.** -/
theorem dropRepeated_eq (rows : List (List Json)) :
    dropRepeated [] rows = firstOccurrences rows :=
  dropRepeated_append rows fun _ => rfl

theorem firstOccurrences_concat (rows : List (List Json)) (row : List Json) :
    firstOccurrences (rows ++ [row]) =
      firstOccurrences rows ++ if isRepeated rows row then [] else [row] := by
  have earlier : ∀ e ∈ rows.zipIdx, (rows ++ [row]).take e.2 = rows.take e.2 := by
    intro e he
    have := (List.mem_zipIdx he).2.1
    exact List.take_append_of_le_length (by omega)
  have last : (rows ++ [row]).take rows.length = rows := List.take_left
  have same : rows.zipIdx.filter (fun e => !isRepeated ((rows ++ [row]).take e.2) e.1) =
      rows.zipIdx.filter (fun e => !isRepeated (rows.take e.2) e.1) :=
    List.filter_congr fun e he => by rw [earlier e he]
  rw [firstOccurrences, List.zipIdx_append, List.filter_append, List.map_append, same]
  congr 1
  simp only [List.zipIdx_cons, List.zipIdx_nil, Nat.zero_add, List.filter_cons, last]
  cases isRepeated rows row <;> rfl

theorem firstOccurrences_isPrefix_append (rows later : List (List Json)) :
    firstOccurrences rows <+: firstOccurrences (rows ++ later) := by
  induction later generalizing rows with
  | nil => exact ⟨[], by rw [List.append_nil, List.append_nil]⟩
  | cons row later ih =>
    rw [List.append_cons]
    refine List.IsPrefix.trans ?_ (ih _)
    rw [firstOccurrences_concat]
    exact List.prefix_append ..

theorem firstOccurrences_sublist (rows : List (List Json)) :
    (firstOccurrences rows).Sublist rows := by
  have kept := (List.filter_sublist (p := fun e : List Json × Nat =>
    !isRepeated (rows.take e.2) e.1) (l := rows.zipIdx)).map Prod.fst
  rwa [List.zipIdx_map_fst] at kept

/-- A first occurrence stands behind those of the rows before it. -/
theorem getElem?_firstOccurrences {i : Nat} (here : rows[i]? = some row)
    (first : isRepeated (rows.take i) row = false) :
    (firstOccurrences rows)[(firstOccurrences (rows.take i)).length]? = some row := by
  have upTo : rows.take (i + 1) = rows.take i ++ [row] := by
    rw [List.take_add_one, here]
    rfl
  have own : firstOccurrences (rows.take (i + 1)) = firstOccurrences (rows.take i) ++ [row] := by
    rw [upTo, firstOccurrences_concat, first]
    rfl
  obtain ⟨later, whole⟩ := firstOccurrences_isPrefix_append (rows.take (i + 1)) (rows.drop (i + 1))
  rw [List.take_append_drop, own] at whole
  rw [← whole, List.append_assoc, List.getElem?_append_right (Nat.le_refl _), Nat.sub_self]
  rfl

/-- No two first occurrences are equal. -/
theorem pairwise_firstOccurrences (rows : List (List Json)) :
    (firstOccurrences rows).Pairwise fun a b => Json.sameItems a b = false := by
  induction rows using List.reverseRecOn with
  | nil => exact .nil
  | append_singleton rows row ih =>
    rw [firstOccurrences_concat]
    cases repeated : isRepeated rows row with
    | true => rwa [if_pos rfl, List.append_nil]
    | false =>
      refine List.pairwise_append.2 ⟨ih, List.pairwise_singleton .., fun k hk r hr => ?_⟩
      cases List.mem_singleton.1 hr
      refine Bool.eq_false_iff.2 fun same => ?_
      have := isRepeated_iff.2 ⟨k, (firstOccurrences_sublist rows).subset hk, same⟩
      exact Bool.false_ne_true (repeated.symm.trans this)

/-- Every row is equal to a first occurrence. -/
theorem exists_firstOccurrence (h : row ∈ rows) :
    ∃ first ∈ firstOccurrences rows, Json.sameItems first row = true := by
  induction rows using List.reverseRecOn generalizing row with
  | nil => exact absurd h List.not_mem_nil
  | append_singleton rows last ih =>
    have earlier : ∀ {r}, r ∈ rows →
        ∃ first ∈ firstOccurrences (rows ++ [last]), Json.sameItems first r = true := by
      intro r hr
      obtain ⟨first, hfirst, same⟩ := ih hr
      exact ⟨first, (firstOccurrences_isPrefix_append rows [last]).subset hfirst, same⟩
    rcases List.mem_append.1 h with h | h
    · exact earlier h
    · obtain rfl := List.mem_singleton.1 h
      cases repeated : isRepeated rows row with
      | true =>
        obtain ⟨k, hk, same⟩ := isRepeated_iff.1 repeated
        obtain ⟨first, hfirst, same'⟩ := earlier hk
        exact ⟨first, hfirst, Json.sameItems_trans first same' same⟩
      | false =>
        refine ⟨row, ?_, Json.sameItems_refl row⟩
        rw [firstOccurrences_concat, repeated]
        exact List.mem_append_right _ (List.mem_singleton_self row)

end DocQuery
