/-
# The order of conditions

The order in which the conditions of a filter are listed does not matter, at any depth.  Filters
that differ in nothing else (`Filter.Reordered`) keep the same documents, and their queries have
the same rows (`QueryDefinition.execute_reordered`).

The two queries are not the same to anyone on the way.  Their predicates are different trees, the
commands have different texts, and these list their parameters in another order.  The proof takes
the stages one after another.

* **Finalizing.**  What is left of a filter is a condition without placeholders
  (`Filter.Leaves`).  Reordered filters leave conditions that AGREE: they mention the same
  parameters and have the same values where these are bound (`Filter.Reordered.agree`).  The
  induction is over the reordering; a list of filters is permuted and each of them is reordered
  inside, and joined conditions have a value that does not depend on their order
  (`Expr.eval_join`).
* **Binding.**  The parameters are bound alike although the commands list them in another order
  (`Command.bindings_eq_of_predicate`), as long as their names are plain: of names that differ in
  an `@` in front the store finds the one that is used last, and that is a matter of order.
* **Running.**  A select sees its predicate through its values only
  (`SelectOf.run_withPredicate`).

Errors are covered as well as rows.  Both queries are assumed to be finalized under the
parameters; a query that is not has no outcome to compare.
-/
import DocQuery.Proofs.ColumnReads
import DocQuery.Proofs.JoinedConditions
import DocQuery.Proofs.OwnedTypes
import DocQuery.Proofs.ParameterOrder

namespace DocQuery

/-! ## 1. Finalized filters -/

theorem comparisonOp_isComparison {name : String} {op : BinaryOp} (h : comparisonOp name = .ok op) :
    op.isComparison = true := by
  unfold comparisonOp at h
  split at h <;> cases h <;> rfl

def Argument.parameterNames {α : Type} : Argument α → List String
  | .parameter name => [name]
  | _ => []

namespace Filter

mutual

/-- The parameters that a filter refers to. -/
def parameterNames : Filter → List String
  | .membership _ values => values.parameterNames
  | .comparison _ _ value => value.parameterNames
  | .all filters | .any filters => parameterNamesOfList filters
  | .negation filter => filter.parameterNames
  | .isNull _ | .unclear => []

def parameterNamesOfList : List Filter → List String
  | [] => []
  | f :: rest => f.parameterNames ++ parameterNamesOfList rest

end

variable {m : Model} {t : EntityType} {p : Parameters} {f g : Filter} {x : Expr}

/-- What is left of a filter when its query is finalized. -/
def Leaves (m : Model) (t : EntityType) (p : Parameters) (f : Filter) (x : Expr) : Prop :=
  ∃ e, f.build m t = .ok e ∧ e.inline p = .ok x

theorem Leaves.unique {y : Expr} (hx : f.Leaves m t p x) (hy : f.Leaves m t p y) : x = y := by
  obtain ⟨e, he, hx⟩ := hx
  obtain ⟨e', he', hy⟩ := hy
  cases he.symm.trans he'
  exact Except.ok.inj (hx.symm.trans hy)

theorem buildList_eq_mapM : ∀ fs : List Filter, buildList m t fs = fs.mapM (build m t)
  | [] => rfl
  | f :: fs => by rw [buildList, List.mapM_cons, buildList_eq_mapM fs]

/-- Lists of filters are finalized one by one. -/
theorem forall₂_leaves_iff {fs : List Filter} {xs : List Expr} :
    List.Forall₂ (Leaves m t p) fs xs ↔
      ∃ es, fs.mapM (build m t) = .ok es ∧ es.mapM (Expr.inline p) = .ok xs := by
  induction fs generalizing xs with
  | nil =>
    rw [List.forall₂_nil_left_iff]
    constructor
    · rintro rfl
      exact ⟨[], rfl, rfl⟩
    · rintro ⟨es, hes, hxs⟩
      rw [mapM_nil_eq_ok.1 hes] at hxs
      exact mapM_nil_eq_ok.1 hxs
  | cons f fs ih =>
    rw [List.forall₂_cons_left_iff]
    simp only [mapM_cons_eq_ok, ih]
    constructor
    · rintro ⟨x, xs', ⟨e, he, hx⟩, ⟨es, hes, hxs⟩, rfl⟩
      exact ⟨_, ⟨e, es, he, hes, rfl⟩, mapM_cons_eq_ok.2 ⟨x, xs', hx, hxs, rfl⟩⟩
    · rintro ⟨_, ⟨e, es, he, hes, rfl⟩, hxs⟩
      obtain ⟨x, xs', hx, hrest, rfl⟩ := mapM_cons_eq_ok.1 hxs
      exact ⟨x, xs', ⟨e, he, hx⟩, ⟨es, hes, hrest⟩, rfl⟩

/-- A list of filters that are joined leaves their joined conditions. -/
theorem leaves_join_iff {op : BinaryOp} {fs : List Filter}
    (built : f.build m t = (do joinConditions op (← buildList m t fs))) :
    f.Leaves m t p x ↔
      ∃ xs, List.Forall₂ (Leaves m t p) fs xs ∧ joinConditions op xs = .ok x := by
  simp only [Leaves, built, buildList_eq_mapM, bind_eq_ok, forall₂_leaves_iff]
  constructor
  · rintro ⟨e, ⟨es, hes, joined⟩, hx⟩
    obtain ⟨xs, hxs, joined'⟩ := (Expr.inline_join joined).1 hx
    exact ⟨xs, ⟨es, hes, hxs⟩, joined'⟩
  · rintro ⟨xs, ⟨es, hes, hxs⟩, joined'⟩
    cases es with
    | nil =>
      rw [mapM_nil_eq_ok.1 hxs] at joined'
      cases joined'
    | cons first rest => exact ⟨_, ⟨_, hes, rfl⟩, (Expr.inline_join rfl).2 ⟨xs, hxs, joined'⟩⟩

theorem leaves_all_iff {fs : List Filter} : (all fs).Leaves m t p x ↔
    ∃ xs, List.Forall₂ (Leaves m t p) fs xs ∧ joinConditions .and xs = .ok x :=
  leaves_join_iff (by rw [build])

theorem leaves_any_iff {fs : List Filter} : (any fs).Leaves m t p x ↔
    ∃ xs, List.Forall₂ (Leaves m t p) fs xs ∧ joinConditions .or xs = .ok x :=
  leaves_join_iff (by rw [build])

theorem leaves_negation_iff : (negation f).Leaves m t p x ↔
    ∃ y, f.Leaves m t p y ∧ x = .unary .not y none := by
  simp only [Leaves, build, bind_eq_ok, pure_eq_ok]
  constructor
  · rintro ⟨_, ⟨e, he, rfl⟩, hx⟩
    simp only [Expr.inline, bind_eq_ok, pure_eq_ok] at hx
    obtain ⟨y, hy, rfl⟩ := hx
    exact ⟨y, ⟨e, he, hy⟩, rfl⟩
  · rintro ⟨y, ⟨e, he, hy⟩, rfl⟩
    exact ⟨_, ⟨e, he, rfl⟩, by simp only [Expr.inline, hy]; rfl⟩

/-- A condition with no parameters but these. -/
structure Within (names : List String) (x : Expr) : Prop where
  condition : x.IsCondition
  names : ∀ name ∈ x.mentionedNames, name ∈ names

theorem Within.mono {names others : List String} (h : Within names x)
    (subset : ∀ name ∈ names, name ∈ others) : Within others x :=
  ⟨h.condition, fun name member => subset name (h.names name member)⟩

theorem within_inList {names : List String} (c : Column) {values : List Expr}
    (constants : ∀ v ∈ values, ∃ value t m, v = .constant value t m) :
    Within names (.inList c.toExpr values) where
  condition := Expr.isCondition_inList c constants
  names name member := by
    have none : name ∉ Expr.mentionedNamesOfList values := by
      intro member
      obtain ⟨v, hv, member⟩ := Expr.mem_mentionedNamesOfList.1 member
      obtain ⟨value, t, m, rfl⟩ := constants v hv
      cases member
    cases values with
    | nil => cases member
    | cons v vs =>
      rw [Expr.mentionedNames, List.append_assoc, ← Expr.mentionedNamesOfList] at member
      rcases List.mem_append.1 member with member | member
      · cases member
      · exact absurd member none

/-- What is left of a membership holds constants only. -/
theorem within_membership {property : String} {values : Argument (List Json)}
    (h : (membership property values).Leaves m t p x) : Within values.parameterNames x := by
  obtain ⟨e, he, hx⟩ := h
  rw [build] at he
  obtain ⟨c, -, he⟩ := bind_eq_ok.1 he
  cases values with
  | parameter name =>
    rw [← Except.ok.inj he] at hx
    cases Expr.inlines_of_inline hx with
    | inNothing => exact ⟨fun env _ => ⟨_, .bool false, rfl⟩, fun name member => by cases member⟩
    | inElements elements item =>
      cases item
      refine within_inList c fun v hv => ?_
      obtain ⟨value, -, rfl⟩ := List.mem_map.1 hv
      exact ⟨_, _, _, rfl⟩
  | value items =>
    rw [← Except.ok.inj he] at hx
    cases Expr.inlines_of_inline hx with
    | inList item list =>
      cases item
      rw [Expr.inlineList_eq_mapM] at list
      refine within_inList c fun v hv => ?_
      obtain ⟨e, member, he⟩ := mem_of_mapM_eq_ok list v hv
      obtain ⟨j, -, rfl⟩ := List.mem_map.1 member
      exact ⟨_, _, _, (Except.ok.inj he).symm⟩
  | unclear => cases he

theorem within_comparison {property op : String} {value : Argument Json}
    (h : (comparison property op value).Leaves m t p x) : Within value.parameterNames x := by
  obtain ⟨e, he, hx⟩ := h
  rw [build] at he
  obtain ⟨c, -, he⟩ := bind_eq_ok.1 he
  simp only [buildComparison, bind_eq_ok, pure_eq_ok] at he
  obtain ⟨right, hright, op, hop, rfl⟩ := he
  cases Expr.inlines_of_inline hx with | binary hl hr =>
  cases hl
  have compares := comparisonOp_isComparison hop
  cases value with
  | parameter name =>
    cases hright
    cases hr
    refine ⟨Expr.isCondition_comparison c compares fun env serves => ?_, fun _ member => member⟩
    exact serves.2 name List.mem_cons_self
  | value j =>
    cases hright
    cases hr
    exact ⟨Expr.isCondition_comparison c compares fun env _ => ⟨_, rfl⟩,
      fun _ member => by cases member⟩
  | unclear => cases hright

/-- Joined conditions are one condition. -/
theorem within_join {op : BinaryOp} {total : List Json → Json} (joins : Joins op total)
    {names : List String} {xs : List Expr} (joined : joinConditions op xs = .ok x)
    (within : ∀ y ∈ xs, Within names y) : Within names x where
  condition := Expr.isCondition_join joins joined fun y hy => (within y hy).condition
  names name member := by
    obtain ⟨y, hy, member⟩ := Expr.mem_mentionedNamesOfList.1
      ((Expr.mem_mentionedNames_join joined).1 member)
    exact (within y hy).names name member

mutual

/-- **What is left of a filter is a condition** with no other parameters than the filter's. -/
theorem within_of_leaves : ∀ {f : Filter} {x : Expr}, f.Leaves m t p x → Within f.parameterNames x
  | .membership .., _, h => within_membership h
  | .comparison .., _, h => within_comparison h
  | .isNull property, x, ⟨e, he, hx⟩ => by
    simp only [build, bind_eq_ok, pure_eq_ok] at he
    obtain ⟨c, -, rfl⟩ := he
    cases hx
    exact ⟨Expr.isCondition_isNull c, fun _ member => by cases member⟩
  | .all fs, x, h => by
    obtain ⟨xs, hxs, joined⟩ := leaves_all_iff.1 h
    exact within_join joins_and joined (within_of_leavesList hxs)
  | .any fs, x, h => by
    obtain ⟨xs, hxs, joined⟩ := leaves_any_iff.1 h
    exact within_join joins_or joined (within_of_leavesList hxs)
  | .negation f, x, h => by
    obtain ⟨y, hy, rfl⟩ := leaves_negation_iff.1 h
    have inner := within_of_leaves hy
    exact ⟨Expr.isCondition_not inner.condition, inner.names⟩
  | .unclear, _, ⟨_, he, _⟩ => by cases he

theorem within_of_leavesList : ∀ {fs : List Filter} {xs : List Expr},
    List.Forall₂ (Leaves m t p) fs xs → ∀ x ∈ xs, Within (parameterNamesOfList fs) x
  | [], _, .nil, _, member => by cases member
  | f :: fs, _, .cons head rest, x, member => by
    rcases List.mem_cons.1 member with rfl | member
    · exact (within_of_leaves head).mono fun _ => List.mem_append_left _
    · exact (within_of_leavesList rest x member).mono fun _ => List.mem_append_right _

end

/-! ## 2. Filters in another order -/

mutual

/-- Filters that differ in the order of their lists only, at any depth. -/
inductive Reordered : Filter → Filter → Prop where
  | refl (f : Filter) : Reordered f f
  | all {fs gs : List Filter} (lists : ReorderedLists fs gs) : Reordered (.all fs) (.all gs)
  | any {fs gs : List Filter} (lists : ReorderedLists fs gs) : Reordered (.any fs) (.any gs)
  | negation {f g : Filter} (inner : Reordered f g) : Reordered (.negation f) (.negation g)

/-- Lists of filters that differ in their order, and their filters again. -/
inductive ReorderedLists : List Filter → List Filter → Prop where
  | nil : ReorderedLists [] []
  | cons {f g : Filter} {fs gs : List Filter} (first : Reordered f g)
    (rest : ReorderedLists fs gs) : ReorderedLists (f :: fs) (g :: gs)
  | swap (f g : Filter) (fs : List Filter) : ReorderedLists (f :: g :: fs) (g :: f :: fs)
  | trans {fs gs hs : List Filter} (first : ReorderedLists fs gs) (second : ReorderedLists gs hs) :
    ReorderedLists fs hs

end

/-- Conditions that mention the same names and have the same values where these are bound. -/
structure Agree (x y : Expr) : Prop where
  names : ∀ name, name ∈ x.mentionedNames ↔ name ∈ y.mentionedNames
  outcome : ∀ env : Environment, env.Serves x.mentionedNames → x.outcome env = y.outcome env

/-- Conditions that do so as a whole, whatever their order. -/
structure AgreeLists (xs ys : List Expr) : Prop where
  length : xs.length = ys.length
  names : ∀ name, name ∈ Expr.mentionedNamesOfList xs ↔ name ∈ Expr.mentionedNamesOfList ys
  outcomes : ∀ env : Environment, env.Serves (Expr.mentionedNamesOfList xs) →
    (xs.map (Expr.outcome env)).Perm (ys.map (Expr.outcome env))

theorem agreeLists_refl (xs : List Expr) : AgreeLists xs xs := ⟨rfl, fun _ => .rfl, fun _ _ => .rfl⟩

theorem AgreeLists.cons {x y : Expr} {xs ys : List Expr} (first : Agree x y)
    (rest : AgreeLists xs ys) : AgreeLists (x :: xs) (y :: ys) where
  length := congrArg (· + 1) rest.length
  names name := by
    rw [Expr.mentionedNamesOfList, Expr.mentionedNamesOfList, List.mem_append, List.mem_append,
      first.names, rest.names]
  outcomes env serves := by
    obtain ⟨source, bound⟩ := serves
    rw [List.map_cons, List.map_cons,
      first.outcome env ⟨source, fun name member => bound name (List.mem_append_left _ member)⟩]
    exact (rest.outcomes env ⟨source, fun name member =>
      bound name (List.mem_append_right _ member)⟩).cons _

theorem agreeLists_swap (x y : Expr) (xs : List Expr) :
    AgreeLists (x :: y :: xs) (y :: x :: xs) where
  length := rfl
  names name := by simp only [Expr.mentionedNamesOfList, List.mem_append, or_left_comm]
  outcomes env _ := List.Perm.swap ..

theorem AgreeLists.trans {xs ys zs : List Expr} (first : AgreeLists xs ys)
    (second : AgreeLists ys zs) : AgreeLists xs zs where
  length := first.length.trans second.length
  names name := (first.names name).trans (second.names name)
  outcomes env serves := (first.outcomes env serves).trans (second.outcomes env
    ⟨serves.1, fun name member => serves.2 name ((first.names name).2 member)⟩)

/-- Joined conditions agree when their lists do. -/
theorem AgreeLists.join {op : BinaryOp} {total : List Json → Json} (joins : Joins op total)
    {xs ys : List Expr} {x : Expr} (agree : AgreeLists xs ys)
    (joined : joinConditions op xs = .ok x) (hxs : ∀ x ∈ xs, x.IsCondition)
    (hys : ∀ y ∈ ys, y.IsCondition) :
    ∃ y, joinConditions op ys = .ok y ∧ Agree x y := by
  obtain ⟨y, joined'⟩ : ∃ y, joinConditions op ys = .ok y := by
    cases ys with
    | cons first rest => exact ⟨_, rfl⟩
    | nil =>
      rw [List.eq_nil_of_length_eq_zero agree.length] at joined
      cases joined
  refine ⟨y, joined', fun name => ?_, fun env serves => ?_⟩
  · rw [Expr.mem_mentionedNames_join joined, Expr.mem_mentionedNames_join joined', agree.names]
  · have serves : env.Serves (Expr.mentionedNamesOfList xs) := ⟨serves.1, fun name member =>
      serves.2 name ((Expr.mem_mentionedNames_join joined).2 member)⟩
    have serves' : env.Serves (Expr.mentionedNamesOfList ys) := ⟨serves.1, fun name member =>
      serves.2 name ((agree.names name).2 member)⟩
    rw [Expr.outcome_of_eval (Expr.eval_join joins joined hxs serves),
      Expr.outcome_of_eval (Expr.eval_join joins joined' hys serves')]
    exact joins.perm (agree.outcomes env serves)

mutual

/-- **Reordering keeps what a filter means.** -/
theorem Reordered.agree : ∀ {f g : Filter} {x : Expr}, Reordered f g → f.Leaves m t p x →
    ∃ y, g.Leaves m t p y ∧ Agree x y
  | _, _, x, .refl _, h => ⟨x, h, fun _ => .rfl, fun _ _ => rfl⟩
  | _, _, x, .all lists, h => by
    obtain ⟨xs, hxs, joined⟩ := leaves_all_iff.1 h
    obtain ⟨ys, hys, agree⟩ := lists.agree hxs
    obtain ⟨y, joined', agree⟩ := agree.join joins_and joined
      (fun x hx => (within_of_leavesList hxs x hx).condition)
      (fun y hy => (within_of_leavesList hys y hy).condition)
    exact ⟨y, leaves_all_iff.2 ⟨ys, hys, joined'⟩, agree⟩
  | _, _, x, .any lists, h => by
    obtain ⟨xs, hxs, joined⟩ := leaves_any_iff.1 h
    obtain ⟨ys, hys, agree⟩ := lists.agree hxs
    obtain ⟨y, joined', agree⟩ := agree.join joins_or joined
      (fun x hx => (within_of_leavesList hxs x hx).condition)
      (fun y hy => (within_of_leavesList hys y hy).condition)
    exact ⟨y, leaves_any_iff.2 ⟨ys, hys, joined'⟩, agree⟩
  | _, _, _, .negation inner, h => by
    obtain ⟨x, hx, rfl⟩ := leaves_negation_iff.1 h
    obtain ⟨y, hy, agree⟩ := inner.agree hx
    refine ⟨_, leaves_negation_iff.2 ⟨y, hy, rfl⟩, agree.names, fun env serves => ?_⟩
    have condition := (within_of_leaves hx).condition
    have condition' := (within_of_leaves hy).condition
    have serves' : env.Serves y.mentionedNames := ⟨serves.1, fun name member =>
      serves.2 name ((agree.names name).2 member)⟩
    have evals := (condition.eval_eq serves).1
    rw [agree.outcome env serves, ← (condition'.eval_eq serves').1] at evals
    rw [Expr.outcome, Expr.outcome, Expr.eval, Expr.eval, evals]

theorem ReorderedLists.agree : ∀ {fs gs : List Filter} {xs : List Expr}, ReorderedLists fs gs →
    List.Forall₂ (Leaves m t p) fs xs → ∃ ys, List.Forall₂ (Leaves m t p) gs ys ∧ AgreeLists xs ys
  | _, _, _, .nil, .nil => ⟨[], .nil, agreeLists_refl []⟩
  | _, _, _, .cons first rest, .cons hx hxs => by
    obtain ⟨y, hy, agree⟩ := first.agree hx
    obtain ⟨ys, hys, agrees⟩ := rest.agree hxs
    exact ⟨y :: ys, .cons hy hys, agrees.cons agree⟩
  | _, _, _, .swap _ _ _, .cons hx (.cons hy rest) =>
    ⟨_, .cons hy (.cons hx rest), agreeLists_swap ..⟩
  | _, _, _, .trans first second, hxs => by
    obtain ⟨ys, hys, agree⟩ := first.agree hxs
    obtain ⟨zs, hzs, agree'⟩ := second.agree hys
    exact ⟨zs, hzs, agree.trans agree'⟩

end

end Filter

/-! ## 3. Selects with one predicate or another -/

namespace SelectOf

/-- Inlining inlines the predicate by itself. -/
theorem inline_withPredicate {s r : Select} {p : Parameters} {e : Expr}
    (h : SelectOf.inline { s with predicate := some e } p = .ok r) :
    ∃ x, e.inline p = .ok x ∧ r.predicate = some x ∧ r.source = s.source ∧
      ∀ {e' x' : Expr}, e'.inline p = .ok x' →
        SelectOf.inline { s with predicate := some e' } p =
          .ok { r with predicate := some x' } := by
  simp only [inline, bind_eq_ok, pure_eq_ok] at h
  obtain ⟨projection, hprojection, predicate, hpredicate, orderings, horderings, limit, hlimit,
    offset, hoffset, rfl⟩ := h
  obtain ⟨x, hx, rfl⟩ := map_eq_ok.1 hpredicate
  refine ⟨x, hx, rfl, rfl, fun {e' x'} hx' => ?_⟩
  simp only [inline, bind_eq_ok, pure_eq_ok]
  exact ⟨projection, hprojection, some x', map_eq_ok.2 ⟨x', hx', rfl⟩, orderings, horderings, limit,
    hlimit, offset, hoffset, rfl⟩

/-- A predicate is seen through its values only. -/
theorem run_withPredicate {r : Select} {x x' : Expr} (bindings : Dictionary Json)
    (hr : r.predicate = some x)
    (same : ∀ document, x.eval (r.environment bindings document) =
      x'.eval (r.environment bindings document)) (layout : RowLayout) (documents : List Json) :
    r.run bindings layout documents =
      SelectOf.run { r with predicate := some x' } bindings layout documents := by
  have filtered : ∀ documents, r.filterDocuments bindings documents =
      SelectOf.filterDocuments { r with predicate := some x' } bindings documents := by
    intro documents
    induction documents with
    | nil => rfl
    | cons document rest ih =>
      have kept : r.keeps bindings document =
          SelectOf.keeps { r with predicate := some x' } bindings document := by
        rw [keeps, hr, keeps]
        exact congrArg (Except.map Json.isTrue) (same document)
      rw [filterDocuments, filterDocuments, kept, ih]
  rw [run, run, filtered]
  rfl

end SelectOf

/-! ## 4. Queries -/

/-- A query with a filter is the query without one, with the filter's condition as its predicate. -/
theorem QueryDefinition.build_filtered {m : Model} {entity : String}
    {orderings : List OrderDefinition} {limit offset : Option (Argument Json)}
    {projection : List String} {distinct : Bool} {f : Filter} {q : ShapedQuery}
    (h : (select entity (some f) orderings limit offset projection distinct).build m = .ok q) :
    ∃ t s e, DefinitionError.lift (m.entityType entity) = .ok t ∧ s.source = "c" ∧
      (select entity none orderings limit offset projection distinct).build m =
        .ok ⟨.select s, q.shaper⟩ ∧
      f.build m t = .ok e ∧ q.query = .select { s with predicate := some e } := by
  simp only [build, bind_eq_ok, pure_eq_ok] at h
  obtain ⟨t, ht, predicate, hpredicate, orderings', horderings, limit', hlimit, offset', hoffset,
    columns, hcolumns, rfl⟩ := h
  obtain ⟨e, he, rfl⟩ := map_eq_ok.1 hpredicate
  simp only [build, bind_eq_ok, pure_eq_ok]
  exact ⟨t, _, e, ht, rfl, ⟨t, ht, none, rfl, orderings', horderings, limit', hlimit, offset',
    hoffset, columns, hcolumns, rfl⟩, he, rfl⟩

/-- **The order of conditions does not matter.**  Two queries that differ only in the order of the
lists of their filters, at any depth, have the same shaper, and where both are finalized they have
the same rows in the same order, whatever is stored. -/
theorem QueryDefinition.execute_reordered {m : Model} {entity : String}
    {orderings : List OrderDefinition} {limit offset : Option (Argument Json)}
    {projection : List String} {distinct : Bool} {f g : Filter} {q q' : ShapedQuery}
    (reordered : f.Reordered g) (plain : ∀ name ∈ f.parameterNames, IsPlain name)
    (hq : (select entity (some f) orderings limit offset projection distinct).build m = .ok q)
    (hq' : (select entity (some g) orderings limit offset projection distinct).build m = .ok q') :
    q'.shaper = q.shaper ∧ ∃ s s', q.query = .select s ∧ q'.query = .select s' ∧
      ∀ p r c r' c', s.finalize p = .ok (r, c) → s'.finalize p = .ok (r', c') →
        ∀ (store : Store) (partitionKey : Option String) (layout : RowLayout),
          store.execute ⟨r.container, partitionKey, layout, c, r⟩ =
            store.execute ⟨r'.container, partitionKey, layout, c', r'⟩ := by
  obtain ⟨t, s, e, ht, source, hs, he, hquery⟩ := build_filtered hq
  obtain ⟨t', s', e', ht', -, hs', he', hquery'⟩ := build_filtered hq'
  cases ht.symm.trans ht'
  have base := Except.ok.inj (hs.symm.trans hs')
  simp only [ShapedQuery.mk.injEq, Query.select.injEq] at base
  obtain ⟨rfl, shapers⟩ := base
  refine ⟨shapers.symm, _, _, hquery, hquery', fun p r c r' c' hfinal hfinal' => ?_⟩
  obtain ⟨hinline, hc⟩ := SelectOf.finalize_eq_ok hfinal
  obtain ⟨hinline', hc'⟩ := SelectOf.finalize_eq_ok hfinal'
  obtain ⟨x, hx, hr, kept, others⟩ := SelectOf.inline_withPredicate hinline
  -- the other select is this one with another predicate, which agrees
  obtain ⟨y, ⟨d, hd, hy⟩, agree⟩ := reordered.agree (m := m) (t := t) (p := p) ⟨e, he, hx⟩
  cases he'.symm.trans hd
  cases hinline'.symm.trans (others hy)
  intro store partitionKey layout
  have within := Filter.within_of_leaves ⟨e, he, hx⟩
  have within' := Filter.within_of_leaves ⟨e', he', hy⟩
  have plain : ∀ name ∈ x.mentionedNames, IsPlain name := fun name member =>
    plain name (within.names name member)
  have mentioned : ∀ name ∈ x.mentionedNames, name ∈ r.mentionedNames := by
    intro name member
    simp [SelectOf.mentionedNames, hr, member]
  have same : ∀ document, x.eval (r.environment c.bindings document) =
      y.eval (r.environment c.bindings document) := by
    intro document
    have serves : (r.environment c.bindings document).Serves x.mentionedNames := by
      refine ⟨kept.trans source, fun name member => ?_⟩
      obtain ⟨j, hj⟩ := Command.exists_binding_of_mentioned hc (mentioned name member)
        (plain name member)
      exact ⟨j, by simp only [Environment.parameter, SelectOf.environment, hj]⟩
    have serves' : (r.environment c.bindings document).Serves y.mentionedNames :=
      ⟨serves.1, fun name member => serves.2 name ((agree.names name).2 member)⟩
    rw [(within.condition.eval_eq serves).1, (within'.condition.eval_eq serves').1,
      agree.outcome _ serves]
  rw [Store.execute, Store.execute,
    ← Command.bindings_eq_of_predicate hr hc hc' agree.names plain]
  exact SelectOf.run_withPredicate c.bindings hr same layout _

/-- The first contacts of a filter, at most `@count` of them. -/
def contactsWhere (f : Filter) : QueryDefinition :=
  .select "Contact" (some f) [.property "Id" false] (some (.parameter "count")) none [] false

def taggedFilter : Filter :=
  .all [.membership "Tag" (.parameter "tags"),
    .any [.comparison "Id" ">" (.parameter "low"), .isNull "Tag"]]

/-- The same filter with both of its lists turned round. -/
def turnedFilter : Filter :=
  .all [.any [.isNull "Tag", .comparison "Id" ">" (.parameter "low")],
    .membership "Tag" (.parameter "tags")]

def contactParameters : Parameters :=
  .ofList [("tags", .collection [.text "a", .text "b"]), ("low", .scalar (.int32 1)),
    ("count", .scalar (.int32 2))]

/-- The select of contacts that satisfy a predicate. -/
def contactsSatisfying (predicate : Expr) : Select where
  container := "contacts"
  source := "c"
  projection := [⟨.entity "Contact" [], "c"⟩]
  predicate := some predicate
  orderings := [⟨.column "c" ["id"] .int32 none, true⟩]
  limit := some (.parameter "count" .int32 none)
  offset := none
  distinct := false

theorem column_tag : contactModel.column contact "Tag" =
    .ok ⟨["tag"], ⟨"Tag", .utf8, true, "tag", none⟩⟩ := by
  rw [Model.column, Model.splitOn_tag]
  rfl

theorem column_id : contactModel.column contact "Id" =
    .ok ⟨["id"], ⟨"Id", .int32, false, "id", none⟩⟩ := by
  rw [Model.column, Model.splitOn_id]
  rfl

theorem build_contactsWhere {f : Filter} {e : Expr} (h : f.build contactModel contact = .ok e) :
    (contactsWhere f).build contactModel =
      .ok ⟨.select (contactsSatisfying e), .entity "Contact" 0 false⟩ := by
  have ordered : [OrderDefinition.property "Id" false].mapM
      (OrderDefinition.build contactModel contact) =
        .ok [⟨.column "c" ["id"] .int32 none, true⟩] := by
    rw [List.mapM_cons, OrderDefinition.build, column_id]
    rfl
  simp only [contactsWhere, QueryDefinition.build, bind_eq_ok, pure_eq_ok]
  exact ⟨contact, rfl, some e, map_eq_ok.2 ⟨e, h, rfl⟩, _, ordered, _, rfl, none, rfl, [], rfl, rfl⟩

/-- The queries of the two filters have different texts and the same rows. -/
theorem QueryDefinition.execute_reordered_taggedFilter :
    ∃ s s' shaper, (contactsWhere taggedFilter).build contactModel = .ok ⟨.select s, shaper⟩ ∧
      (contactsWhere turnedFilter).build contactModel = .ok ⟨.select s', shaper⟩ ∧
      ∃ r c r' c', s.finalize contactParameters = .ok (r, c) ∧
        s'.finalize contactParameters = .ok (r', c') ∧ c.text ≠ c'.text ∧
        ∀ (store : Store) (partitionKey : Option String) (layout : RowLayout),
          store.execute ⟨r.container, partitionKey, layout, c, r⟩ =
            store.execute ⟨r'.container, partitionKey, layout, c', r'⟩ := by
  have reordered : taggedFilter.Reordered turnedFilter :=
    .all (.trans (.cons (.refl _) (.cons (.any (.swap ..)) .nil)) (.swap ..))
  let tagged : Expr := .inParameter (.column "c" ["tag"] .utf8 none) ⟨"tags", .utf8, none⟩
  let above : Expr := .binary .greaterThan (.column "c" ["id"] .int32 none)
    (.parameter "low" .int32 none) none
  let untagged : Expr := .unary .isNull (.column "c" ["tag"] .utf8 none) none
  let predicate : Expr := .binary .and tagged (.binary .or above untagged none) none
  let other : Expr := .binary .and (.binary .or untagged above none) tagged none
  have built := build_contactsWhere (f := taggedFilter) (e := predicate) (by
    simp only [taggedFilter, Filter.build, Filter.buildList, column_tag, column_id]
    rfl)
  have turned := build_contactsWhere (f := turnedFilter) (e := other) (by
    simp only [turnedFilter, Filter.build, Filter.buildList, column_tag, column_id]
    rfl)
  obtain ⟨-, s, s', hs, hs', same⟩ := execute_reordered reordered (by decide) built turned
  cases hs
  cases hs'
  refine ⟨_, _, _, built, turned, _, _, _, _, rfl, rfl, ?_, same contactParameters _ _ _ _ rfl rfl⟩
  decide

end DocQuery
