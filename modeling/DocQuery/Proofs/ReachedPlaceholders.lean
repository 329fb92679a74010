/-
# Placeholders that inlining reaches

Inlining a select fails for a placeholder that is not bound, if it comes across it.  It goes from
each expression to its parts, with ONE exception: a membership in an empty collection, or in null,
becomes `false` and its item is left out, placeholders and all (`Expr.Folds`).  So inlining
succeeds exactly when what it reaches is bound (`SelectOf.inline_succeeds_iff`), and a placeholder
within such an item may be missing without notice (`SelectOf.inline_misses_unbound`).

* `Expr.HasPart` are the direct parts of an expression, `Expr.Holds` the parts at any depth, and
  `Expr.Reaches` those that inlining comes to.  What is held and not reached lies in the item of a
  membership that becomes `false` (`Expr.Holds.reaches_or`).
* One step of the pass is compared with one step down the tree (`Expr.exists_inline_step`); the
  rest is induction along the way down.
* A select is inlined when its expressions are and, where it ranks, the bounds of its page have
  values (`SelectOf.exists_inline_iff`).

Where the items of such memberships hold no placeholders, every placeholder is reached, so none is
missing in a select that was inlined.
-/
import DocQuery.Proofs.InlinedForms
import Mathlib.Logic.Relation

namespace DocQuery

variable {p : Parameters}

/-! ## 1. Bound placeholders -/

namespace CollectionParameter

variable {c : CollectionParameter}

/-- The parameter is bound to a collection or to null. -/
def IsBound (c : CollectionParameter) (p : Parameters) : Prop :=
  (∃ values, p.find? c.name = some (.collection values)) ∨
    p.find? c.name = some (.scalar .null)

theorem exists_elements_iff : (∃ values, c.elements p = .ok values) ↔ c.IsBound p := by
  unfold elements IsBound Parameters.get
  cases p.find? c.name with
  | none => simp [bind, Except.bind]
  | some v =>
    cases v with
    | collection values => simp [bind, Except.bind]
    | scalar s => cases s <;> simp [bind, Except.bind]

end CollectionParameter

namespace Expr

/-- A placeholder that inlining replaces has a value to replace it. -/
def IsBound (p : Parameters) : Expr → Prop
  | .inParameter _ c => c.IsBound p
  | .inSubquery _ _ => False
  | _ => True

/-! ## 2. Parts of an expression -/

/-- The direct parts of an expression.  A subquery is another select and none of them. -/
inductive HasPart : Expr → Expr → Prop where
  | left {op : BinaryOp} {l r : Expr} {m : Option TypeMapping} : HasPart (.binary op l r m) l
  | right {op : BinaryOp} {l r : Expr} {m : Option TypeMapping} : HasPart (.binary op l r m) r
  | operand {op : UnaryOp} {e : Expr} {m : Option TypeMapping} : HasPart (.unary op e m) e
  | argument {name : String} {args : List Expr} {scoring : Bool} {t : DataType}
    {m : Option TypeMapping} {e : Expr} (member : e ∈ args) :
    HasPart (.function name args scoring t m) e
  | listItem {e : Expr} {values : List Expr} : HasPart (.inList e values) e
  | listValue {e : Expr} {values : List Expr} {v : Expr} (member : v ∈ values) :
    HasPart (.inList e values) v
  | item {e : Expr} {c : CollectionParameter} : HasPart (.inParameter e c) e
  | subqueryItem {e : Expr} {s : Select} : HasPart (.inSubquery e s) e

theorem HasPart.sizeOf_lt {e a : Expr} (part : e.HasPart a) : sizeOf a < sizeOf e := by
  cases part with
  | argument member | listValue member =>
    have := List.sizeOf_lt_of_mem member
    simp
    omega
  | _ => simp; omega

/-- A membership that becomes `false`. -/
def Folds (p : Parameters) : Expr → Prop
  | .inParameter _ c => c.elements p = .ok []
  | _ => False

/-- An expression occurs in another, at any depth. -/
def Holds (e a : Expr) : Prop := Relation.ReflTransGen HasPart e a

/-- An expression occurs in another where inlining comes to it. -/
def Reaches (p : Parameters) (e a : Expr) : Prop :=
  Relation.ReflTransGen (fun x y => ¬ x.Folds p ∧ x.HasPart y) e a

/-- What is not reached lies in the item of a membership that becomes `false`. -/
theorem Holds.reaches_or {e a : Expr} (holds : e.Holds a) :
    e.Reaches p a ∨ ∃ item c, e.Holds (.inParameter item c) ∧ c.elements p = .ok [] ∧
      item.Holds a := by
  induction holds with
  | refl => exact .inl .refl
  | @tail x y above part ih =>
    rcases ih with reached | ⟨item, c, outer, folds, inner⟩
    · by_cases folds : x.Folds p
      · cases part with
        | item => exact .inr ⟨_, _, above, folds, .refl⟩
        | _ => exact absurd folds id
      · exact .inl (reached.tail ⟨folds, part⟩)
    · exact .inr ⟨item, c, outer, folds, inner.tail part⟩

theorem hasDeferredCollection_of_mem {a : Expr} : ∀ {es : List Expr},
    anyDeferredCollection es = false → a ∈ es → a.hasDeferredCollection = false
  | e :: es, complete, member => by
    rw [anyDeferredCollection, Bool.or_eq_false_iff] at complete
    rcases List.mem_cons.1 member with rfl | member
    · exact complete.1
    · exact hasDeferredCollection_of_mem complete.2 member

/-- Without deferred collections there is nothing to bind. -/
theorem Holds.isBound_of_complete {e a : Expr} (holds : e.Holds a)
    (complete : e.hasDeferredCollection = false) : a.IsBound p := by
  have inner : a.hasDeferredCollection = false := by
    induction holds with
    | refl => exact complete
    | tail _ part ih =>
      cases part with
      | argument member =>
        rw [hasDeferredCollection] at ih
        exact hasDeferredCollection_of_mem ih member
      | listValue member =>
        rw [hasDeferredCollection, Bool.or_eq_false_iff] at ih
        exact hasDeferredCollection_of_mem ih.2 member
      | left | listItem =>
        rw [hasDeferredCollection, Bool.or_eq_false_iff] at ih
        exact ih.1
      | right =>
        rw [hasDeferredCollection, Bool.or_eq_false_iff] at ih
        exact ih.2
      | operand =>
        rw [hasDeferredCollection] at ih
        exact ih
      | item | subqueryItem =>
        rw [hasDeferredCollection] at ih
        cases ih
  cases a with
  | inParameter | inSubquery =>
    rw [hasDeferredCollection] at inner
    cases inner
  | _ => exact trivial

/-! ## 3. Inlining expressions -/

/-- An expression is inlined when it is bound and the parts that inlining comes to are inlined. -/
theorem exists_inline_step (e : Expr) : (∃ e', e.inline p = .ok e') ↔
    e.IsBound p ∧ ∀ a, ¬ e.Folds p → e.HasPart a → ∃ a', inline p a = .ok a' := by
  constructor
  · rintro ⟨e', h⟩
    cases inlines_of_inline h with
    | column | constant | parameter => exact ⟨trivial, fun a _ part => by cases part⟩
    | binary hl hr =>
      refine ⟨trivial, fun a _ part => ?_⟩
      cases part with
      | left => exact ⟨_, hl⟩
      | right => exact ⟨_, hr⟩
    | unary he =>
      refine ⟨trivial, fun a _ part => ?_⟩
      cases part with | operand => exact ⟨_, he⟩
    | function has =>
      refine ⟨trivial, fun a _ part => ?_⟩
      cases part with | argument member =>
      rw [inlineList_eq_mapM] at has
      obtain ⟨a', -, ha⟩ := mapM_eq_ok_of_mem has a member
      exact ⟨a', ha⟩
    | inList he hvs =>
      refine ⟨trivial, fun a _ part => ?_⟩
      cases part with
      | listItem => exact ⟨_, he⟩
      | listValue member =>
        rw [inlineList_eq_mapM] at hvs
        obtain ⟨a', -, ha⟩ := mapM_eq_ok_of_mem hvs a member
        exact ⟨a', ha⟩
    | inNothing helements =>
      exact ⟨CollectionParameter.exists_elements_iff.1 ⟨_, helements⟩,
        fun a unfolded => absurd helements unfolded⟩
    | inElements helements he =>
      refine ⟨CollectionParameter.exists_elements_iff.1 ⟨_, helements⟩, fun a _ part => ?_⟩
      cases part with | item => exact ⟨_, he⟩
  · rintro ⟨bound, parts⟩
    cases e with
    | column | constant | parameter => exact ⟨_, rfl⟩
    | binary op l r m =>
      obtain ⟨l', hl⟩ := parts l id .left
      obtain ⟨r', hr⟩ := parts r id .right
      exact ⟨_, by rw [inline, hl, hr]; rfl⟩
    | unary op e m =>
      obtain ⟨e', he⟩ := parts e id .operand
      exact ⟨_, by rw [inline, he]; rfl⟩
    | function n args s t m =>
      obtain ⟨args', hargs⟩ := exists_mapM fun a member => parts a id (.argument member)
      rw [← inlineList_eq_mapM] at hargs
      exact ⟨_, by rw [inline, hargs]; rfl⟩
    | inList e vs =>
      obtain ⟨e', he⟩ := parts e id .listItem
      obtain ⟨vs', hvs⟩ := exists_mapM fun v member => parts v id (.listValue member)
      rw [← inlineList_eq_mapM] at hvs
      exact ⟨_, by rw [inline, he, hvs]; rfl⟩
    | inParameter e c =>
      obtain ⟨elements, helements⟩ := CollectionParameter.exists_elements_iff.2 bound
      cases elements with
      | nil => exact ⟨_, by rw [inline, helements]; rfl⟩
      | cons v vs =>
        have unfolded : ¬ (inParameter e c).Folds p := fun folds => by
          cases helements.symm.trans folds
        obtain ⟨e', he⟩ := parts e unfolded .item
        exact ⟨_, by rw [inline, helements, he]; rfl⟩
    | inSubquery => exact absurd bound id

/-- **An expression is inlined exactly when all that inlining reaches is bound.** -/
theorem exists_inline_iff (e : Expr) :
    (∃ e', e.inline p = .ok e') ↔ ∀ a, e.Reaches p a → a.IsBound p := by
  constructor
  · intro done a reached
    have inlined : ∃ a', a.inline p = .ok a' := by
      induction reached with
      | refl => exact done
      | tail _ step ih => exact ((exists_inline_step _).1 ih).2 _ step.1 step.2
    exact ((exists_inline_step a).1 inlined).1
  · intro bound
    refine (exists_inline_step e).2 ⟨bound e .refl, fun a unfolded part => ?_⟩
    have := part.sizeOf_lt
    exact (exists_inline_iff a).2 fun x reached => bound x (.head ⟨unfolded, part⟩ reached)
termination_by sizeOf e

/-- A bound of the page of a ranked select has to be a scalar too, if it is a parameter. -/
theorem exists_inlineBound_iff {scoreOrdered : Bool} (e : Expr) :
    (∃ e', e.inlineBound p scoreOrdered = .ok e') ↔ (∃ e', e.inline p = .ok e') ∧
      (scoreOrdered = true → ∀ name t m, e = .parameter name t m →
        ∃ v, p.find? name = some (.scalar v)) := by
  have scalar : ∀ name, (∃ v, p.scalar name = .ok v) ↔ ∃ v, p.find? name = some (.scalar v) := by
    intro name
    unfold Parameters.scalar Parameters.get
    cases p.find? name with
    | none => simp [bind, Except.bind]
    | some v => cases v <;> simp [bind, Except.bind]
  unfold inlineBound
  split
  · next name t m =>
    constructor
    · rintro ⟨_, h⟩
      obtain ⟨v, hv, -⟩ := bind_eq_ok.1 h
      refine ⟨⟨_, rfl⟩, fun _ _ _ _ same => ?_⟩
      cases same
      exact (scalar name).1 ⟨v, hv⟩
    · rintro ⟨-, bound⟩
      obtain ⟨v, hv⟩ := (scalar name).2 (bound rfl name t m rfl)
      exact ⟨_, bind_eq_ok.2 ⟨v, hv, rfl⟩⟩
  · next other =>
    refine (and_iff_left ?_).symm
    rintro rfl name t m rfl
    exact absurd rfl (other name t m rfl)

end Expr

/-! ## 4. Inlining selects -/

theorem exists_inlineOption_iff {f : Expr → Except QueryError Expr} {o : Option Expr} :
    (∃ o', inlineOption f o = .ok o') ↔ ∀ e, o = some e → ∃ e', f e = .ok e' := by
  cases o with
  | none => exact ⟨fun _ _ h => (by cases h), fun _ => ⟨none, rfl⟩⟩
  | some e =>
    simp only [inlineOption, exists_map_iff, Option.some.injEq, forall_eq']

namespace SelectOf

theorem mem_expressions {s : Select} {e : Expr} : e ∈ s.expressions ↔
    (∃ pr ∈ s.projection, pr.item.expr? = some e) ∨ s.predicate = some e ∨
      (∃ o ∈ s.orderings, o.expr = e) ∨ s.limit = some e ∨ s.offset = some e := by
  simp only [expressions, List.mem_append, List.mem_filterMap, List.mem_map, Option.mem_toList,
    or_assoc]

/-- A select is inlined when its expressions are, and the bounds of a ranked page have values. -/
theorem exists_inline_iff (s : Select) : (∃ t, s.inline p = .ok t) ↔
    (∀ e ∈ s.expressions, ∃ e', e.inline p = .ok e') ∧
    (s.isScoreOrdered = true → ∀ e, s.limit = some e ∨ s.offset = some e → ∀ name t m,
      e = .parameter name t m → ∃ v, p.find? name = some (.scalar v)) := by
  have projected : ∀ pr : Projection Expr,
      (∃ pr', (pr.item.inline p).map (Projection.mk · pr.name) = .ok pr') ↔
        ∀ e, pr.item.expr? = some e → ∃ e', e.inline p = .ok e' := by
    rintro ⟨item, name⟩
    rw [exists_map_iff]
    cases item with
    | entity type path => exact ⟨fun _ _ h => (by cases h), fun _ => ⟨_, rfl⟩⟩
    | scalar e =>
      simp only [ProjectionItem.inline, ProjectionItem.expr?, exists_map_iff, Option.some.injEq,
        forall_eq']
  simp only [inline, exists_bind_iff, pure_eq_ok, exists_eq', and_true, exists_and_right,
    exists_mapM_iff, exists_inlineOption_iff, projected, exists_map_iff,
    Expr.exists_inlineBound_iff]
  constructor
  · rintro ⟨hprojection, hpredicate, horderings, hlimit, hoffset⟩
    refine ⟨fun e member => ?_, fun ranked e bound => ?_⟩
    · rcases mem_expressions.1 member with ⟨pr, hpr, he⟩ | he | ⟨o, ho, rfl⟩ | he | he
      · exact hprojection pr hpr e he
      · exact hpredicate e he
      · exact horderings o ho
      · exact (hlimit e he).1
      · exact (hoffset e he).1
    · rcases bound with he | he
      · exact (hlimit e he).2 ranked
      · exact (hoffset e he).2 ranked
  · rintro ⟨inlined, scalars⟩
    refine ⟨fun pr hpr e he => ?_, fun e he => ?_, fun o ho => ?_,
      fun e he => ⟨?_, fun ranked => ?_⟩, fun e he => ⟨?_, fun ranked => ?_⟩⟩
    · exact inlined e (mem_expressions.2 (.inl ⟨pr, hpr, he⟩))
    · exact inlined e (mem_expressions.2 (.inr (.inl he)))
    · exact inlined o.expr (mem_expressions.2 (.inr (.inr (.inl ⟨o, ho, rfl⟩))))
    · exact inlined e (mem_expressions.2 (.inr (.inr (.inr (.inl he)))))
    · exact scalars ranked e (.inl he)
    · exact inlined e (mem_expressions.2 (.inr (.inr (.inr (.inr he)))))
    · exact scalars ranked e (.inr he)

/-- **When inlining succeeds.**  It does exactly when every placeholder that it reaches is bound, no
subquery is reached and the bounds of a ranked page have values.  Where the memberships that become
`false` have items without placeholders, this makes every placeholder of the select bound. -/
theorem inline_succeeds_iff (s : Select) (p : Parameters) :
    ((∃ t, s.inline p = .ok t) ↔
      (∀ e ∈ s.expressions, ∀ a, e.Reaches p a → a.IsBound p) ∧
      (s.isScoreOrdered = true → ∀ e, s.limit = some e ∨ s.offset = some e → ∀ name t m,
        e = .parameter name t m → ∃ v, p.find? name = some (.scalar v))) ∧
    ((∀ e ∈ s.expressions, ∀ item c, e.Holds (.inParameter item c) → c.elements p = .ok [] →
        item.hasDeferredCollection = false) →
      (∃ t, s.inline p = .ok t) → ∀ e ∈ s.expressions, ∀ a, e.Holds a → a.IsBound p) := by
  have reached := s.exists_inline_iff (p := p)
  simp only [Expr.exists_inline_iff] at reached
  refine ⟨reached, fun complete done e member a holds => ?_⟩
  rcases holds.reaches_or with reaches | ⟨item, c, outer, folds, inner⟩
  · exact (reached.1 done).1 e member a reaches
  · exact inner.isBound_of_complete (complete e member item c outer folds)

/-- Both placeholders of the tagged posts are bound. -/
theorem inline_succeeds_iff_taggedPosts : (∃ t, taggedPosts.inline taggedParameters = .ok t) ∧
    ∀ e ∈ taggedPosts.expressions, ∀ a, e.Holds a → a.IsBound taggedParameters := by
  have done : ∃ t, taggedPosts.inline taggedParameters = .ok t := ⟨_, rfl⟩
  refine ⟨done, (inline_succeeds_iff _ _).2 (fun e member item c holds _ => ?_) done⟩
  have ofColumn : ∀ {a s path t m}, (Expr.column s path t m).Holds a → a = .column s path t m := by
    intro a s path t m holds
    rcases Relation.ReflTransGen.cases_head holds with same | ⟨b, part, -⟩
    · exact same.symm
    · cases part
  -- of the expressions only the predicate holds a membership, whose item is a column
  have listed : taggedPosts.expressions = [.column "c" ["id"] .int32 none,
      .inParameter (.column "c" ["tag"] .utf8 none) ⟨"tags", .utf8, none⟩,
      .column "c" ["id"] .int32 none, .parameter "count" .int32 none] := rfl
  rw [listed] at member
  simp only [List.mem_cons, List.not_mem_nil, or_false] at member
  rcases member with rfl | rfl | rfl | rfl
  · cases ofColumn holds
  · rcases Relation.ReflTransGen.cases_head holds with same | ⟨b, part, holds⟩
    · cases same
      rw [Expr.hasDeferredCollection]
    · cases part
      cases ofColumn holds
  · cases ofColumn holds
  · rcases Relation.ReflTransGen.cases_head holds with same | ⟨b, part, -⟩
    · cases same
    · cases part

/-! ## 5. What is missed -/

/-- The posts for which it is among no truth values whether they have a tag of `@tags`. -/
def foldedPosts : Select := { taggedPosts with
  predicate := some (.inParameter
    (.inParameter (.column "c" ["tag"] .utf8 none) ⟨"tags", .utf8, none⟩) ⟨"none", .boolean, none⟩)
  limit := none }

/-- **A placeholder may be missing without notice**: here `@tags` is not bound. -/
theorem inline_misses_unbound :
    (∃ t, foldedPosts.inline (.ofList [("none", .collection [])]) = .ok t) ∧
    ¬ ∀ e ∈ foldedPosts.expressions, ∀ a, e.Holds a →
      a.IsBound (.ofList [("none", .collection [])]) := by
  refine ⟨⟨_, rfl⟩, fun bound => ?_⟩
  have tags := bound _ (mem_expressions.2 (.inr (.inl rfl))) _ (.single .item)
  rcases tags with ⟨values, h⟩ | h
  · cases h
  · cases h

end SelectOf

end DocQuery
