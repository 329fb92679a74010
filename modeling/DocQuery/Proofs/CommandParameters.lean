/-
# The parameters of a command

A command takes along the parameters that its text mentions, while the store evaluates the select
that the text was written from.  So a run finds a parameter unbound as soon as it evaluates
something that the text leaves out.  There are three such places.

* A membership in nothing is written as `false`, without its item.
* Of ranked rows only the scoring functions are written, and an ordering that breaks their ties is
  not.
* The names of parameters lose the characters `@` in front on the way to the store, so a parameter
  that has one in its name is not found under it.

`Command.carries_iff` says that there are no others: a command carries what its select asks for
EXACTLY when no name begins with `@` and every parameter is mentioned (`SelectOf.IsMentioned`).
From there no run over any store finds one unbound, because evaluation asks for no parameter that
does not occur in the select (`EvaluationFault`).

The proof follows the text.  What its fragments mention is `SelectOf.mentionedNames`, part by part
(`SelectOf.mem_fragments`); a command has one entry for each of these names
(`Command.mem_parameters_of_ofSelect`), and plain names do not get in each other's way when the
store looks them up (`Command.bindings_of_mentioned`).  `finalize_loses_parameters` has a select
for each of the three places.
-/
import DocQuery.BoundQuery
import DocQuery.Proofs.EvaluationFaults
import DocQuery.Proofs.Inlining

namespace DocQuery

/-! ## 1. Fragments -/

theorem mem_separated {separator name : String} : ∀ {lists : List (List Fragment)},
    .parameter name ∈ separated separator lists ↔ ∃ l ∈ lists, .parameter name ∈ l
  | [] => by simp [separated]
  | [only] => by simp [separated]
  | first :: second :: rest => by
    rw [separated, List.mem_append, List.mem_cons, mem_separated]
    · simp
    · exact List.cons_ne_nil _ _

theorem mem_foldl_parameters {name : String} {add : List String → Fragment → List String}
    (hadd : ∀ used f, name ∈ add used f ↔ .parameter name = f ∨ name ∈ used) :
    ∀ (fragments : List Fragment) (used : List String),
      name ∈ fragments.foldl add used ↔ .parameter name ∈ fragments ∨ name ∈ used
  | [], used => by simp
  | f :: rest, used => by
    rw [List.foldl_cons, mem_foldl_parameters hadd rest, hadd, List.mem_cons, or_left_comm,
      or_assoc]

theorem mem_usedParameters {name : String} {fragments : List Fragment} :
    name ∈ usedParameters fragments ↔ .parameter name ∈ fragments := by
  unfold usedParameters
  rw [List.mem_reverse, mem_foldl_parameters fun used f => ?_]
  · simp
  · cases f with
    | text s => simp
    | parameter n =>
      simp only [Fragment.parameter.injEq]
      split
      · next h =>
        have hn : n ∈ used := List.contains_iff_mem.1 h
        constructor
        · exact .inr
        · rintro (rfl | h)
          · exact hn
          · exact h
      · exact List.mem_cons

/-! ## 2. Parameters that a text mentions -/

namespace Expr

mutual

/-- The parameters that the text of an expression mentions: all that occur in it, but for those in
the item of an `IN` over nothing. -/
def mentionedNames : Expr → List String
  | .column .. | .constant .. => []
  | .parameter name _ _ => [name]
  | .binary _ left right _ => left.mentionedNames ++ right.mentionedNames
  | .unary _ operand _ => operand.mentionedNames
  | .function _ args _ _ _ => mentionedNamesOfList args
  | .inList _ [] => []
  | .inList item (value :: values) =>
    item.mentionedNames ++ value.mentionedNames ++ mentionedNamesOfList values
  | .inParameter item values => values.name :: item.mentionedNames
  | .inSubquery _ _ => []

def mentionedNamesOfList : List Expr → List String
  | [] => []
  | e :: rest => e.mentionedNames ++ mentionedNamesOfList rest

end

variable {name : String}

mutual

theorem mem_fragments : ∀ (e : Expr) {fragments : List Fragment}, e.fragments = .ok fragments →
    (.parameter name ∈ fragments ↔ name ∈ e.mentionedNames)
  | .column .., _, h | .constant .., _, h | .parameter .., _, h => by
    rw [Expr.fragments, Except.ok.injEq] at h
    rw [← h]
    simp [mentionedNames]
  | .binary op l r m, _, h => by
    simp only [Expr.fragments, bind_eq_ok, pure_eq_ok] at h
    obtain ⟨ls, hl, rs, hr, rfl⟩ := h
    simp [mentionedNames, mem_fragments l hl, mem_fragments r hr]
  | .unary op e m, _, h => by
    simp only [Expr.fragments, bind_eq_ok] at h
    obtain ⟨es, he, h⟩ := h
    cases op <;> rw [pure_eq_ok] at h <;> rw [← h] <;> simp [mentionedNames, mem_fragments e he]
  | .function n args s t m, _, h => by
    simp only [Expr.fragments, bind_eq_ok, pure_eq_ok] at h
    obtain ⟨as, has, rfl⟩ := h
    simp [mentionedNames, mem_separated, mem_fragmentsList args has]
  | .inList e [], _, h => by
    rw [Expr.fragments, Except.ok.injEq] at h
    rw [← h]
    simp [mentionedNames]
  | .inList e (v :: vs), _, h => by
    simp only [Expr.fragments, bind_eq_ok, pure_eq_ok] at h
    obtain ⟨es, he, first, hfirst, rest, hrest, rfl⟩ := h
    simp only [mentionedNames, List.mem_append, List.mem_cons, reduceCtorEq, mem_separated,
      List.not_mem_nil, or_false, false_or, exists_eq_or_imp, mem_fragments e he,
      mem_fragments v hfirst, mem_fragmentsList vs hrest, or_assoc]
  | .inParameter e c, _, h => by
    simp only [Expr.fragments, bind_eq_ok, pure_eq_ok] at h
    obtain ⟨es, he, rfl⟩ := h
    simp [mentionedNames, mem_fragments e he]
  | .inSubquery e s, _, h => nomatch h

theorem mem_fragmentsList : ∀ (es : List Expr) {lists : List (List Fragment)},
    fragmentsList es = .ok lists →
    ((∃ l ∈ lists, .parameter name ∈ l) ↔ name ∈ mentionedNamesOfList es)
  | [], _, h => by
    rw [fragmentsList, Except.ok.injEq] at h
    rw [← h]
    simp [mentionedNamesOfList]
  | e :: es, _, h => by
    simp only [fragmentsList, bind_eq_ok, pure_eq_ok] at h
    obtain ⟨first, hfirst, rest, hrest, rfl⟩ := h
    simp [mentionedNamesOfList, mem_fragments e hfirst, mem_fragmentsList es hrest]

end

end Expr

def ProjectionItem.mentionedNames : ProjectionItem Expr → List String
  | .scalar e => e.mentionedNames
  | .entity _ _ => []

namespace SelectOf

/-- The orderings that the text of a select mentions: of ranked rows only those that rank. -/
def mentionedOrderings (s : Select) : List (OrderingTerm Expr) :=
  if s.isScoreOrdered then s.scoringOrderings else s.orderings

/-- The parameters that the text of a select mentions. -/
def mentionedNames (s : Select) : List String :=
  s.projection.flatMap (·.item.mentionedNames) ++ s.predicate.toList.flatMap Expr.mentionedNames ++
    s.mentionedOrderings.flatMap (·.expr.mentionedNames) ++
    s.limit.toList.flatMap Expr.mentionedNames ++ s.offset.toList.flatMap Expr.mentionedNames

variable {name : String}

/-- Fragments that are made one by one. -/
theorem mem_mapM_fragments {α : Type} {f : α → Except QueryError (List Fragment)}
    {g : α → List String} (hfg : ∀ a fragments, f a = .ok fragments →
      (.parameter name ∈ fragments ↔ name ∈ g a)) :
    ∀ {as : List α} {lists : List (List Fragment)}, as.mapM f = .ok lists →
    ((∃ l ∈ lists, .parameter name ∈ l) ↔ name ∈ as.flatMap g)
  | [], _, h => by
    rw [mapM_nil_eq_ok.1 h]
    simp
  | a :: as, _, h => by
    obtain ⟨l, ls, hl, hls, rfl⟩ := mapM_cons_eq_ok.1 h
    simp [hfg a l hl, mem_mapM_fragments hfg hls]

theorem mem_itemFragments (source : String) (item : ProjectionItem Expr)
    (fragments : List Fragment) (h : item.fragments source = .ok fragments) :
    .parameter name ∈ fragments ↔ name ∈ item.mentionedNames := by
  cases item with
  | scalar e => exact e.mem_fragments h
  | entity t path =>
    rw [← Except.ok.inj h]
    simp [ProjectionItem.mentionedNames]

theorem mem_projectionFragments {s : Select} {fragments : List Fragment}
    (h : s.projectionFragments = .ok fragments) :
    .parameter name ∈ fragments ↔ name ∈ s.projection.flatMap (·.item.mentionedNames) := by
  unfold projectionFragments at h
  split at h
  · exact nomatch h
  · next only hs =>
    obtain ⟨fs, hfs, h⟩ := bind_eq_ok.1 h
    rw [← pure_eq_ok.1 h, hs]
    simp [mem_itemFragments s.source only.item fs hfs]
  · obtain ⟨lists, hlists, h⟩ := bind_eq_ok.1 h
    rw [← pure_eq_ok.1 h, mem_separated]
    refine mem_mapM_fragments (fun p fragments hp => ?_) hlists
    obtain ⟨fs, hfs, hp⟩ := bind_eq_ok.1 hp
    rw [← pure_eq_ok.1 hp]
    simp [mem_itemFragments s.source p.item fs hfs]

theorem mem_orderingFragments {s : Select} {fragments : List Fragment}
    (h : s.orderingFragments = .ok fragments) :
    .parameter name ∈ fragments ↔ name ∈ s.mentionedOrderings.flatMap (·.expr.mentionedNames) := by
  unfold orderingFragments at h
  unfold mentionedOrderings
  split at h
  · next hempty =>
    have hs : s.orderings = [] := List.isEmpty_iff.1 hempty
    rw [← Except.ok.inj h]
    simp [scoringOrderings, hs]
  · split at h
    · next hscore =>
      rw [if_pos hscore]
      obtain ⟨lists, hlists, h⟩ := bind_eq_ok.1 h
      have mem : (∃ l ∈ lists, .parameter name ∈ l) ↔
          name ∈ s.scoringOrderings.flatMap (·.expr.mentionedNames) :=
        mem_mapM_fragments (fun o fs ho => o.expr.mem_fragments ho) hlists
      rw [← mem]
      split at h
      · rw [← pure_eq_ok.1 h]
        simp
      · rw [← pure_eq_ok.1 h]
        simp [mem_separated]
    · next hscore =>
      rw [if_neg hscore]
      obtain ⟨lists, hlists, h⟩ := bind_eq_ok.1 h
      rw [← pure_eq_ok.1 h]
      simp only [List.mem_cons, reduceCtorEq, false_or, mem_separated]
      refine mem_mapM_fragments (fun o fs ho => ?_) hlists
      obtain ⟨es, hes, ho⟩ := bind_eq_ok.1 ho
      rw [← pure_eq_ok.1 ho]
      simp [o.expr.mem_fragments hes]

theorem mem_predicateFragments {s : Select} {fragments : List Fragment}
    (h : s.predicateFragments = .ok fragments) :
    .parameter name ∈ fragments ↔ name ∈ s.predicate.toList.flatMap Expr.mentionedNames := by
  unfold predicateFragments at h
  split at h
  · next hs =>
    rw [← Except.ok.inj h, hs]
    simp
  · next e hs =>
    obtain ⟨fs, hfs, h⟩ := bind_eq_ok.1 h
    rw [← pure_eq_ok.1 h, hs]
    simp [e.mem_fragments hfs]

theorem mem_pagingFragments {s : Select} {fragments : List Fragment}
    (h : s.pagingFragments = .ok fragments) :
    .parameter name ∈ fragments ↔
      name ∈ s.limit.toList.flatMap Expr.mentionedNames ∨
        name ∈ s.offset.toList.flatMap Expr.mentionedNames := by
  unfold pagingFragments at h
  cases hoffset : s.offset <;> cases hlimit : s.limit <;>
    simp only [hoffset, hlimit, Option.isNone_none, Option.isNone_some, Bool.and_self,
      Bool.and_false, Bool.and_true, if_true, Bool.false_eq_true, if_false, bind_eq_ok,
      pure_eq_ok, Except.ok.injEq, exists_eq_left'] at h
  · rw [← h]
    simp
  · obtain ⟨fs, hfs, rfl⟩ := h
    simp [Expr.mem_fragments _ hfs]
  · obtain ⟨fs, hfs, rfl⟩ := h
    simp [Expr.mem_fragments _ hfs]
  · obtain ⟨os, hos, ls, hls, rfl⟩ := h
    simp [Expr.mem_fragments _ hos, Expr.mem_fragments _ hls, or_comm]

/-- The text of a select mentions exactly these parameters. -/
theorem mem_fragments {s : Select} {fragments : List Fragment} (h : s.fragments = .ok fragments) :
    .parameter name ∈ fragments ↔ name ∈ s.mentionedNames := by
  simp only [SelectOf.fragments, bind_eq_ok, pure_eq_ok] at h
  obtain ⟨projection, hprojection, predicate, hpredicate, orderings, horderings, paging, hpaging,
    rfl⟩ := h
  simp [mentionedNames, mem_projectionFragments hprojection, mem_predicateFragments hpredicate,
    mem_orderingFragments horderings, mem_pagingFragments hpaging]

end SelectOf

/-! ## 3. Values of parameters -/

/-- A name without `@` at its beginning. -/
def IsPlain (name : String) : Prop := name.toList.head? ≠ some '@'

instance : DecidablePred IsPlain := fun name => inferInstanceAs (Decidable (name.toList.head? ≠ _))

/-- The name under which the store finds a parameter. -/
def bareName (name : String) : String := String.ofList (name.toList.dropWhile (· == '@'))

theorem isPlain_bareName (name : String) : IsPlain (bareName name) := by
  unfold IsPlain bareName
  rw [String.toList_ofList]
  intro h
  have := List.head?_dropWhile_not (· == '@') name.toList
  rw [h] at this
  exact absurd this (by decide)

theorem bareName_of_isPlain {name : String} (h : IsPlain name) : bareName name = name := by
  have kept : name.toList.dropWhile (· == '@') = name.toList := by
    unfold IsPlain at h
    cases hs : name.toList with
    | nil => rfl
    | cons c rest =>
      rw [hs, List.head?_cons] at h
      have hc : (c == '@') = false := by simpa using h
      rw [List.dropWhile_cons, hc]
      rfl
  rw [bareName, kept, String.ofList_toList]

theorem bareName_at (name : String) : bareName ("@" ++ name) = bareName name := by
  unfold bareName
  rw [String.toList_append]
  rfl

namespace Command

variable {s : Select} {p : Parameters} {c : Command}

/-- A command has one entry for each parameter that its text mentions. -/
theorem mem_parameters_of_ofSelect (h : ofSelect s p = .ok c) {entry : String × ParameterValue} :
    entry ∈ c.parameters ↔ ∃ name ∈ s.mentionedNames, entry.1 = "@" ++ name ∧
      p.get name = .ok entry.2 := by
  simp only [ofSelect, bind_eq_ok, pure_eq_ok] at h
  obtain ⟨fragments, hfragments, parameters, hparameters, rfl⟩ := h
  have used : ∀ name, name ∈ usedParameters fragments ↔ name ∈ s.mentionedNames :=
    fun name => mem_usedParameters.trans (SelectOf.mem_fragments hfragments)
  constructor
  · intro he
    obtain ⟨name, hname, hentry⟩ := mem_of_mapM_eq_ok hparameters entry he
    obtain ⟨v, hv, hentry⟩ := bind_eq_ok.1 hentry
    rw [← pure_eq_ok.1 hentry]
    exact ⟨name, (used name).1 hname, rfl, hv⟩
  · rintro ⟨name, hname, hkey, hvalue⟩
    obtain ⟨entry', hmem, hentry'⟩ := mapM_eq_ok_of_mem hparameters name ((used name).2 hname)
    obtain ⟨v, hv, hentry'⟩ := bind_eq_ok.1 hentry'
    have heq : entry = entry' := by
      rw [← pure_eq_ok.1 hentry']
      exact Prod.ext hkey (Except.ok.inj (hvalue.symm.trans hv))
    rw [heq]
    exact hmem

/-- A command that could be made has found the value of each parameter that it mentions. -/
theorem exists_get_of_mentioned (h : ofSelect s p = .ok c) {name : String}
    (hname : name ∈ s.mentionedNames) : ∃ v, p.get name = .ok v := by
  simp only [ofSelect, bind_eq_ok, pure_eq_ok] at h
  obtain ⟨fragments, hfragments, parameters, hparameters, -⟩ := h
  have used := mem_usedParameters.2 ((SelectOf.mem_fragments hfragments).2 hname)
  obtain ⟨entry, -, hentry⟩ := mapM_eq_ok_of_mem hparameters name used
  obtain ⟨v, hv, -⟩ := bind_eq_ok.1 hentry
  exact ⟨v, hv⟩

/-- The store finds a value under a name only if the text mentions a parameter of that bare name. -/
theorem mentioned_of_bindings (h : ofSelect s p = .ok c) {key : String} {j : Json}
    (hj : c.bindings.find? key = some j) :
    ∃ name ∈ s.mentionedNames, ∃ v, p.get name = .ok v ∧ bareName name = key ∧ v.toJson = j := by
  rw [bindings, Dictionary.find?_ofList] at hj
  have hmem := mem_of_lookup_eq_some hj
  rw [List.mem_reverse, List.mem_map] at hmem
  obtain ⟨entry, hentry, heq⟩ := hmem
  obtain ⟨name, hname, hkey, hvalue⟩ := (mem_parameters_of_ofSelect h).1 hentry
  refine ⟨name, hname, entry.2, hvalue, ?_, congrArg Prod.snd heq⟩
  rw [← bareName_at, ← hkey]
  exact congrArg Prod.fst heq

/-- Plain names do not get in each other's way. -/
theorem bindings_of_mentioned (h : ofSelect s p = .ok c)
    (plain : ∀ name ∈ s.mentionedNames, IsPlain name) {name : String}
    (hname : name ∈ s.mentionedNames) {v : ParameterValue} (hv : p.get name = .ok v) :
    c.bindings.find? name = some v.toJson := by
  rw [bindings, Dictionary.find?_ofList]
  refine lookup_eq_some_of_mem ?_ fun other ho => ?_
  · rw [List.mem_reverse, List.mem_map]
    refine ⟨("@" ++ name, v), (mem_parameters_of_ofSelect h).2 ⟨name, hname, rfl, hv⟩, ?_⟩
    refine Prod.ext ?_ rfl
    exact (bareName_at name).trans (bareName_of_isPlain (plain name hname))
  · rw [List.mem_reverse, List.mem_map] at ho
    obtain ⟨entry, hentry, heq⟩ := ho
    obtain ⟨name', hname', hkey, hvalue⟩ := (mem_parameters_of_ofSelect h).1 hentry
    have hbare : bareName ("@" ++ name') = name := hkey ▸ congrArg Prod.fst heq
    rw [bareName_at, bareName_of_isPlain (plain name' hname')] at hbare
    have hjson : entry.2.toJson = other := congrArg Prod.snd heq
    subst hbare
    rw [← hjson, Except.ok.inj (hv.symm.trans hvalue)]

end Command

/-! ## 4. What a command lacks -/

namespace Expr

mutual

theorem mem_parameterNames_of_mentioned {name : String} : ∀ e : Expr, name ∈ e.mentionedNames →
    name ∈ e.parameterNames
  | .column .., h | .constant .., h => absurd h (by rw [mentionedNames]; exact List.not_mem_nil)
  | .parameter .., h => by
    rw [mentionedNames] at h
    rw [parameterNames]
    exact h
  | .binary op l r m, h => by
    rw [mentionedNames] at h
    rw [parameterNames]
    rcases List.mem_append.1 h with h | h
    · exact List.mem_append_left _ (mem_parameterNames_of_mentioned l h)
    · exact List.mem_append_right _ (mem_parameterNames_of_mentioned r h)
  | .unary op e m, h => by
    rw [mentionedNames] at h
    rw [parameterNames]
    exact mem_parameterNames_of_mentioned e h
  | .function n args s t m, h => by
    rw [mentionedNames] at h
    rw [parameterNames]
    exact mem_parameterNamesOfList_of_mentioned args h
  | .inList e [], h => absurd h (by rw [mentionedNames]; exact List.not_mem_nil)
  | .inList e (v :: vs), h => by
    rw [mentionedNames, List.append_assoc] at h
    rw [parameterNames]
    rcases List.mem_append.1 h with h | h
    · exact List.mem_append_left _ (mem_parameterNames_of_mentioned e h)
    · rw [← mentionedNamesOfList] at h
      exact List.mem_append_right _ (mem_parameterNamesOfList_of_mentioned (v :: vs) h)
  | .inParameter e c, h => by
    rw [mentionedNames] at h
    rw [parameterNames]
    rcases List.mem_cons.1 h with h | h
    · exact List.mem_append_right _ (List.mem_singleton.2 h)
    · exact List.mem_append_left _ (mem_parameterNames_of_mentioned e h)
  | .inSubquery .., h => absurd h (by rw [mentionedNames]; exact List.not_mem_nil)

theorem mem_parameterNamesOfList_of_mentioned {name : String} : ∀ es : List Expr,
    name ∈ mentionedNamesOfList es → name ∈ parameterNamesOfList es
  | [], h => absurd h (by rw [mentionedNamesOfList]; exact List.not_mem_nil)
  | e :: es, h => by
    rw [mentionedNamesOfList] at h
    rw [parameterNamesOfList]
    rcases List.mem_append.1 h with h | h
    · exact List.mem_append_left _ (mem_parameterNames_of_mentioned e h)
    · exact List.mem_append_right _ (mem_parameterNamesOfList_of_mentioned es h)

end

end Expr

namespace SelectOf

/-- A text mentions no parameter that does not occur in its select. -/
theorem mem_parameterNames_of_mentioned {s : Select} {name : String}
    (h : name ∈ s.mentionedNames) : name ∈ s.parameterNames := by
  simp only [mentionedNames, List.mem_append, List.mem_flatMap, Option.mem_toList] at h
  rcases h with (((⟨pr, hpr, h⟩ | ⟨e, he, h⟩) | ⟨o, ho, h⟩) | ⟨e, he, h⟩) | ⟨e, he, h⟩
  · refine mem_parameterNames_of_projection hpr ?_
    obtain ⟨item, name'⟩ := pr
    cases item with
    | scalar e => exact e.mem_parameterNames_of_mentioned h
    | entity t path => exact absurd h List.not_mem_nil
  · exact mem_parameterNames_of_predicate he (e.mem_parameterNames_of_mentioned h)
  · refine mem_parameterNames_of_ordering ?_ (o.expr.mem_parameterNames_of_mentioned h)
    unfold mentionedOrderings at ho
    split at ho
    · exact (List.mem_filter.1 ho).1
    · exact ho
  · exact mem_parameterNames_of_limit he (e.mem_parameterNames_of_mentioned h)
  · exact mem_parameterNames_of_offset he (e.mem_parameterNames_of_mentioned h)

theorem finalize_eq_ok {s s' : Select} {p : Parameters} {c : Command}
    (h : s.finalize p = .ok (s', c)) : s.inline p = .ok s' ∧ Command.ofSelect s' p = .ok c := by
  simp only [finalize, bind_eq_ok, pure_eq_ok, Prod.mk.injEq] at h
  obtain ⟨s'', hs, c', hc, rfl, rfl⟩ := h
  exact ⟨hs, hc⟩

end SelectOf

/-- The store finds each of these parameters under its own name and with its own value. -/
def Command.Carries (c : Command) (p : Parameters) (names : List String) : Prop :=
  ∀ name ∈ names, ∃ v, p.find? name = some v ∧ c.bindings.find? name = some v.toJson

/-- Every parameter of a select is mentioned by its text, under a name without `@` in front. -/
def SelectOf.IsMentioned (s : Select) : Prop :=
  ∀ name ∈ s.parameterNames, IsPlain name ∧ name ∈ s.mentionedNames

instance (s : Select) : Decidable s.IsMentioned :=
  inferInstanceAs (Decidable (∀ name ∈ s.parameterNames, _))

theorem Parameters.get_eq_ok {p : Parameters} {name : String} {v : ParameterValue} :
    p.get name = .ok v ↔ p.find? name = some v := by
  unfold get
  cases p.find? name <;> simp

/-- A command carries what its select asks for exactly when all of that is mentioned. -/
theorem Command.carries_iff {s : Select} {p : Parameters} {c : Command}
    (h : ofSelect s p = .ok c) : c.Carries p s.parameterNames ↔ s.IsMentioned := by
  constructor
  · intro carries
    have plain : ∀ name ∈ s.parameterNames, IsPlain name := by
      intro name hname
      obtain ⟨v, -, hv⟩ := carries name hname
      obtain ⟨name', -, -, -, hbare, -⟩ := mentioned_of_bindings h hv
      rw [← hbare]
      exact isPlain_bareName name'
    intro name hname
    obtain ⟨v, -, hv⟩ := carries name hname
    obtain ⟨name', hname', -, -, hbare, -⟩ := mentioned_of_bindings h hv
    have plain' := plain name' (SelectOf.mem_parameterNames_of_mentioned hname')
    rw [bareName_of_isPlain plain'] at hbare
    exact ⟨plain name hname, hbare ▸ hname'⟩
  · intro mentioned name hname
    obtain ⟨-, hmentioned⟩ := mentioned name hname
    have plain : ∀ n ∈ s.mentionedNames, IsPlain n := by
      intro n hn
      exact (mentioned n (SelectOf.mem_parameterNames_of_mentioned hn)).1
    obtain ⟨v, hv⟩ := exists_get_of_mentioned h hmentioned
    exact ⟨v, Parameters.get_eq_ok.1 hv, bindings_of_mentioned h plain hmentioned hv⟩

/-- **When a command carries the parameters of its select.**  The store finds all of them, each with
its own value, exactly when the text mentions all of them and no name begins with `@`.  Then no run
finds one of them unbound, whatever is stored, in every partition and layout; other faults of a run
are left open. -/
theorem finalize_carries_iff {s s' : Select} {p : Parameters} {c : Command}
    (h : s.finalize p = .ok (s', c)) :
    (c.Carries p s'.parameterNames ↔ s'.IsMentioned) ∧
    (s'.IsMentioned → ∀ (store : Store) (partitionKey : Option String) (layout : RowLayout)
      (name : String), store.execute ⟨s'.container, partitionKey, layout, c, s'⟩ ≠
        .error (.query (.unboundParameter name))) := by
  obtain ⟨-, hc⟩ := SelectOf.finalize_eq_ok h
  refine ⟨Command.carries_iff hc, ?_⟩
  intro mentioned store partitionKey layout name hrun
  have carries := (Command.carries_iff hc).2 mentioned
  cases s'.run_failsOnly c.bindings layout _ _ hrun with
  | unbound occurs free =>
    obtain ⟨v, -, hv⟩ := carries name occurs
    rw [free] at hv
    exact nomatch hv

/-- The tagged posts of any number, whose only remaining parameter is mentioned. -/
theorem finalize_carries_iff_taggedPosts :
    ∃ s' c, taggedPosts.finalize taggedParameters = .ok (s', c) ∧
      c.Carries taggedParameters s'.parameterNames ∧
      ∀ (store : Store) (partitionKey : Option String) (layout : RowLayout) (name : String),
        store.execute ⟨s'.container, partitionKey, layout, c, s'⟩ ≠
          .error (.query (.unboundParameter name)) := by
  refine ⟨_, _, rfl, ?_, ?_⟩
  · exact (finalize_carries_iff (s := taggedPosts) (p := taggedParameters) rfl).1.2 (by decide)
  · exact (finalize_carries_iff (s := taggedPosts) (p := taggedParameters) rfl).2 (by decide)

/-- Ranked posts whose ties are broken by a parameter. -/
def tieBrokenPosts : Select where
  container := "posts"
  source := "c"
  projection := [⟨.scalar (.column "c" ["id"] .int32 none), "id"⟩]
  predicate := none
  orderings := [
    ⟨.function "FullTextScore" [.column "c" ["tag"] .utf8 none, .constant (.text "a") .utf8 none]
      true .float64 none, true⟩,
    ⟨.parameter "bias" .int32 none, true⟩]
  limit := none
  offset := none
  distinct := false

/-- The posts that satisfy a predicate. -/
def postsWhere (predicate : Expr) : Select where
  container := "posts"
  source := "c"
  projection := [⟨.scalar (.column "c" ["id"] .int32 none), "id"⟩]
  predicate := some predicate
  orderings := []
  limit := none
  offset := none
  distinct := false

/-- **Commands lose parameters** in three places: where ranked rows are equal, in the item of an
`IN` over nothing, and under a name that begins with `@`. -/
theorem finalize_loses_parameters :
    (∃ s' c, tieBrokenPosts.finalize (.ofList [("bias", .scalar (.int32 1))]) = .ok (s', c) ∧
      postStore.execute ⟨s'.container, none, .document, c, s'⟩ =
        .error (.query (.unboundParameter "bias"))) ∧
    (∃ s' c, (postsWhere (.inList (.parameter "tag" .utf8 none) [])).finalize
        (.ofList [("tag", .scalar (.text "a"))]) = .ok (s', c) ∧
      postStore.execute ⟨s'.container, none, .document, c, s'⟩ =
        .error (.query (.unboundParameter "tag"))) ∧
    (∃ s' c, (postsWhere (.binary .equal (.column "c" ["tag"] .utf8 none)
        (.parameter "@tag" .utf8 none) none)).finalize
        (.ofList [("@tag", .scalar (.text "a"))]) = .ok (s', c) ∧
      postStore.execute ⟨s'.container, none, .document, c, s'⟩ =
        .error (.query (.unboundParameter "@tag"))) :=
  ⟨⟨_, _, rfl, rfl⟩, ⟨_, _, rfl, rfl⟩, ⟨_, _, rfl, rfl⟩⟩

end DocQuery
