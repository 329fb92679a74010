/-
# Parameters in another order

A command lists its parameters in the order of their first use, so selects that differ in the
order of their conditions have different commands.  The store does not see the difference: it
looks up values by name, and of two parameters with one bare name it finds the one that is used
last.

* `useParameter` is how the list of names grows with a fragment; names that were used before are
  not listed again (`foldl_useParameter`).
* Among plain names, which have no `@` in front, different names stay different on the way to the
  store, so their order does not matter (`Command.lookup_entries_of_perm`).

Therefore predicates that mention the same plain names leave the same bindings, whatever the rest
of the select mentions before and after them (`Command.bindings_eq_of_predicate`).
-/
import DocQuery.Proofs.CommandParameters
import Mathlib.Data.List.Induction
import Mathlib.Data.List.Nodup

namespace DocQuery

/-! ## 1. Names in the order of their first use -/

/-- The names so far, the last one first, after one more fragment. -/
def useParameter (used : List String) : Fragment → List String
  | .parameter name => if used.contains name then used else name :: used
  | .text _ => used

theorem usedParameters_eq_foldl (fragments : List Fragment) :
    usedParameters fragments = (fragments.foldl useParameter []).reverse := by
  unfold usedParameters
  congr 1

/-- Names that were used before are not listed again. -/
theorem foldl_useParameter (used : List String) (fragments : List Fragment) :
    fragments.foldl useParameter used =
      (fragments.foldl useParameter []).filter (fun n => n ∉ used) ++ used := by
  induction fragments using List.reverseRecOn with
  | nil => rfl
  | append_singleton fragments f ih =>
    simp only [List.foldl_append, List.foldl_cons, List.foldl_nil]
    rw [ih]
    cases f with
    | text s => rfl
    | parameter name =>
      by_cases known : name ∈ fragments.foldl useParameter [] <;> by_cases before : name ∈ used <;>
        simp [useParameter, known, before]

theorem nodup_useParameter {used : List String} (f : Fragment) (h : used.Nodup) :
    (useParameter used f).Nodup := by
  unfold useParameter
  split
  · split
    · exact h
    · next new => exact List.nodup_cons.2 ⟨fun member => new (List.contains_iff_mem.2 member), h⟩
  · exact h

theorem nodup_usedParameters (fragments : List Fragment) : (usedParameters fragments).Nodup := by
  rw [usedParameters_eq_foldl, List.nodup_reverse]
  induction fragments using List.reverseRecOn with
  | nil => exact List.nodup_nil
  | append_singleton fragments f ih =>
    rw [List.foldl_append, List.foldl_cons, List.foldl_nil]
    exact nodup_useParameter f ih

theorem usedParameters_append (xs ys : List Fragment) : usedParameters (xs ++ ys) =
    usedParameters xs ++ (usedParameters ys).filter fun n => n ∉ usedParameters xs := by
  simp only [usedParameters_eq_foldl]
  rw [List.foldl_append, foldl_useParameter, List.reverse_append, List.filter_reverse]
  simp only [List.mem_reverse]

/-! ## 2. Bindings -/

/-- What a parameter is bound to, under the name by which the store finds it. -/
def Parameters.entry (p : Parameters) (name : String) : String × Json :=
  (bareName name, ((p.find? name).getD (.scalar .null)).toJson)

namespace Command

variable {s : Select} {p : Parameters} {c : Command}

theorem bindings_of_ofSelect (h : ofSelect s p = .ok c) : ∃ fragments, s.fragments = .ok fragments ∧
    c.bindings = .ofList ((usedParameters fragments).map p.entry) := by
  simp only [ofSelect, bind_eq_ok, pure_eq_ok] at h
  obtain ⟨fragments, hfragments, parameters, hparameters, rfl⟩ := h
  refine ⟨fragments, hfragments, ?_⟩
  rw [bindings]
  refine congrArg _ (map_of_mapM (fun name _ entry he => ?_) hparameters)
  obtain ⟨v, hv, he⟩ := bind_eq_ok.1 he
  rw [← pure_eq_ok.1 he, Parameters.entry, Parameters.get_eq_ok.1 hv]
  exact Prod.ext (bareName_at name) rfl

/-- The order of plain names does not matter. -/
theorem lookup_entries_of_perm {names others : List String} (distinct : names.Nodup)
    (plain : ∀ n ∈ names, IsPlain n) (perm : names.Perm others) (key : String) :
    (names.map p.entry).lookup key = (others.map p.entry).lookup key := by
  have firsts : ∀ {l : List String}, (∀ n ∈ l, IsPlain n) → (l.map p.entry).map Prod.fst = l := by
    intro l hl
    rw [List.map_map]
    exact (List.map_congr_left fun n member => bareName_of_isPlain (hl n member)).trans l.map_id
  have plain' : ∀ n ∈ others, IsPlain n := fun n member => plain n (perm.mem_iff.2 member)
  refine Option.ext fun v => ?_
  rw [← mem_iff_lookup_eq_some ((firsts plain).symm ▸ distinct),
    ← mem_iff_lookup_eq_some ((firsts plain').symm ▸ perm.nodup_iff.1 distinct)]
  exact (perm.map p.entry).mem_iff

/-- What the store finds after some fragments that may differ in the order of plain names, when the
same fragments come before and after them. -/
theorem lookup_entries_of_middle {before middle middle' after : List Fragment}
    (same : ∀ name, name ∈ usedParameters middle ↔ name ∈ usedParameters middle')
    (plain : ∀ name ∈ usedParameters middle, IsPlain name) (key : String) :
    ((usedParameters (before ++ middle ++ after)).map p.entry).reverse.lookup key =
      ((usedParameters (before ++ middle' ++ after)).map p.entry).reverse.lookup key := by
  have outer : ∀ name, name ∈ usedParameters (before ++ middle) ↔
      name ∈ usedParameters (before ++ middle') := by
    intro name
    simp only [usedParameters_append, List.mem_append, List.mem_filter, same name]
  have whole : ∀ fragments, usedParameters (before ++ fragments ++ after) = usedParameters before ++
      (usedParameters fragments).filter (fun n => n ∉ usedParameters before) ++
      (usedParameters after).filter fun n => n ∉ usedParameters (before ++ fragments) := by
    intro fragments
    rw [usedParameters_append (before ++ fragments)]
    exact congrArg (· ++ _) (usedParameters_append before fragments)
  -- what comes after adds the same names, so only those in the middle are left to compare
  rw [whole, whole, List.filter_congr fun n _ => decide_eq_decide.2 (not_congr (outer n))]
  simp only [List.map_append, List.reverse_append, List.lookup_append]
  congr 2
  rw [← List.map_reverse, ← List.map_reverse]
  have distinct : ∀ fragments, ((usedParameters fragments).filter fun n =>
      n ∉ usedParameters before).reverse.Nodup := fun fragments =>
    List.nodup_reverse.2 ((nodup_usedParameters fragments).filter _)
  refine lookup_entries_of_perm (distinct middle) (fun n member => ?_) ?_ key
  · exact plain n (List.mem_filter.1 (List.mem_reverse.1 member)).1
  · refine (List.perm_ext_iff_of_nodup (distinct middle) (distinct middle')).2 fun n => ?_
    simp only [List.mem_reverse, List.mem_filter, same n]

/-- **Predicates with the same plain names leave the same bindings.** -/
theorem bindings_eq_of_predicate {e e' : Expr} {c' : Command} (hs : s.predicate = some e)
    (h : ofSelect s p = .ok c) (h' : ofSelect { s with predicate := some e' } p = .ok c')
    (same : ∀ name, name ∈ e.mentionedNames ↔ name ∈ e'.mentionedNames)
    (plain : ∀ name ∈ e.mentionedNames, IsPlain name) : c.bindings = c'.bindings := by
  obtain ⟨fragments, hf, hbindings⟩ := bindings_of_ofSelect h
  obtain ⟨fragments', hf', hbindings'⟩ := bindings_of_ofSelect h'
  simp only [SelectOf.fragments, bind_eq_ok, pure_eq_ok] at hf hf'
  obtain ⟨projection, hprojection, predicate, hpredicate, orderings, horderings, paging, hpaging,
    rfl⟩ := hf
  obtain ⟨projection', hprojection', predicate', hpredicate', orderings', horderings', paging',
    hpaging', rfl⟩ := hf'
  cases hprojection.symm.trans hprojection'
  cases horderings.symm.trans horderings'
  cases hpaging.symm.trans hpaging'
  have names : ∀ name, name ∈ usedParameters (.text (" FROM root " ++ s.source) :: predicate) ↔
      name ∈ e.mentionedNames := by
    intro name
    rw [mem_usedParameters, List.mem_cons, SelectOf.mem_predicateFragments hpredicate, hs]
    simp
  have names' : ∀ name, name ∈ usedParameters (.text (" FROM root " ++ s.source) :: predicate') ↔
      name ∈ e'.mentionedNames := by
    intro name
    rw [mem_usedParameters, List.mem_cons, SelectOf.mem_predicateFragments hpredicate']
    simp
  rw [hbindings, hbindings']
  refine Dictionary.eq_of_find?_eq fun key => ?_
  rw [Dictionary.find?_ofList, Dictionary.find?_ofList, List.append_assoc _ orderings paging,
    List.append_assoc _ orderings paging]
  refine lookup_entries_of_middle (fun name => ?_) (fun name member => ?_) key
  · rw [names, names', same]
  · exact plain name ((names name).1 member)

/-- A plain name that the text mentions is bound. -/
theorem exists_binding_of_mentioned (h : ofSelect s p = .ok c) {name : String}
    (mentioned : name ∈ s.mentionedNames) (plain : IsPlain name) :
    ∃ j, c.bindings.find? name = some j := by
  obtain ⟨fragments, hfragments, hbindings⟩ := bindings_of_ofSelect h
  have used := mem_usedParameters.2 ((SelectOf.mem_fragments hfragments).2 mentioned)
  have member : p.entry name ∈ ((usedParameters fragments).map p.entry).reverse :=
    List.mem_reverse.2 (List.mem_map_of_mem used)
  rw [hbindings, Dictionary.find?_ofList]
  cases found : (((usedParameters fragments).map p.entry).reverse.lookup name) with
  | some j => exact ⟨j, rfl⟩
  | none =>
    have differs := List.lookup_eq_none_iff.1 found _ member
    rw [Parameters.entry, bareName_of_isPlain plain] at differs
    simp at differs

end Command

end DocQuery
