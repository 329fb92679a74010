/-
# Inlined selects

What inlining comes to: no collection is deferred any more, and where the rows are ranked the
bounds of the page are no parameters (`SelectOf.IsInlined`).

The selects of this form are those that inlining leaves as they are, WHATEVER the parameters
(`SelectOf.inline_eq_self_iff`), so a second pass changes nothing.  Both directions are inductions
over expressions.

* `Expr.inline_eq_self`: the pass rebuilds a tree without deferred collections.
* `Expr.hasDeferredCollection_of_inline`: the pass leaves none.  A membership in a collection
  becomes a list of constants or `false`, and neither has parts to defer.

Scalar parameters stay in the form; they are written as parameters.  A ranked select is the
exception in its page only, because the bounds of a ranked page have to be literal numbers
(`Expr.IsInlinedBound`).  Whether a select is ranked does not change by inlining, so it can be
read off either side.
-/
import DocQuery.Proofs.Inlining

namespace DocQuery

/-! ## 1. Expressions -/

namespace Expr

mutual

/-- A tree without deferred collections is rebuilt as it is. -/
theorem inline_eq_self (p : Parameters) : ∀ e : Expr, e.hasDeferredCollection = false →
    e.inline p = .ok e
  | .column .., _ | .constant .., _ | .parameter .., _ => by rw [inline]
  | .binary op l r m, h => by
    rw [hasDeferredCollection, Bool.or_eq_false_iff] at h
    rw [inline, inline_eq_self p l h.1, inline_eq_self p r h.2]
    rfl
  | .unary op e m, h => by
    rw [hasDeferredCollection] at h
    rw [inline, inline_eq_self p e h]
    rfl
  | .function n as s t m, h => by
    rw [hasDeferredCollection] at h
    rw [inline, inlineList_eq_self p as h]
    rfl
  | .inList e vs, h => by
    rw [hasDeferredCollection, Bool.or_eq_false_iff] at h
    rw [inline, inline_eq_self p e h.1, inlineList_eq_self p vs h.2]
    rfl
  | .inParameter e c, h => by
    rw [hasDeferredCollection] at h
    exact nomatch h
  | .inSubquery e s, h => by
    rw [hasDeferredCollection] at h
    exact nomatch h

theorem inlineList_eq_self (p : Parameters) : ∀ es : List Expr, anyDeferredCollection es = false →
    inlineList p es = .ok es
  | [], _ => by rw [inlineList]
  | e :: es, h => by
    rw [anyDeferredCollection, Bool.or_eq_false_iff] at h
    rw [inlineList, inline_eq_self p e h.1, inlineList_eq_self p es h.2]
    rfl

end

theorem anyDeferredCollection_constants (c : CollectionParameter) : ∀ values : List Scalar,
    anyDeferredCollection (values.map c.constant) = false
  | [] => by rw [List.map_nil, anyDeferredCollection]
  | v :: vs => by
    rw [List.map_cons, anyDeferredCollection, anyDeferredCollection_constants c vs,
      CollectionParameter.constant, hasDeferredCollection]
    rfl

mutual

/-- **Inlining leaves no collection deferred.** -/
theorem hasDeferredCollection_of_inline {p : Parameters} : ∀ (e : Expr) {e' : Expr},
    e.inline p = .ok e' → e'.hasDeferredCollection = false
  | .column .., e', h | .constant .., e', h | .parameter .., e', h => by
    rw [inline] at h
    rw [← Except.ok.inj h, hasDeferredCollection]
  | .binary op l r m, e', h => by
    cases inlines_of_inline h with | binary hl hr =>
    rw [hasDeferredCollection, hasDeferredCollection_of_inline l hl,
      hasDeferredCollection_of_inline r hr]
    rfl
  | .unary op e m, e', h => by
    cases inlines_of_inline h with | unary he =>
    rw [hasDeferredCollection, hasDeferredCollection_of_inline e he]
  | .function n as s t m, e', h => by
    cases inlines_of_inline h with | function has =>
    rw [hasDeferredCollection, anyDeferredCollection_of_inlineList as has]
  | .inList e vs, e', h => by
    cases inlines_of_inline h with | inList he hvs =>
    rw [hasDeferredCollection, hasDeferredCollection_of_inline e he,
      anyDeferredCollection_of_inlineList vs hvs]
    rfl
  | .inParameter e c, e', h => by
    cases inlines_of_inline h with
    | inNothing => rw [falseConstant, withDefaultMapping, hasDeferredCollection]
    | inElements _ he =>
      rw [hasDeferredCollection, hasDeferredCollection_of_inline e he,
        anyDeferredCollection_constants]
      rfl
  | .inSubquery e s, e', h => by
    rw [inline] at h
    exact nomatch h

theorem anyDeferredCollection_of_inlineList {p : Parameters} : ∀ (es : List Expr) {es' : List Expr},
    inlineList p es = .ok es' → anyDeferredCollection es' = false
  | [], es', h => by
    rw [inlineList] at h
    rw [← Except.ok.inj h, anyDeferredCollection]
  | e :: es, es', h => by
    simp only [inlineList, bind_eq_ok, pure_eq_ok] at h
    obtain ⟨e', he, es', hes, rfl⟩ := h
    rw [anyDeferredCollection, hasDeferredCollection_of_inline e he,
      anyDeferredCollection_of_inlineList es hes]
    rfl

end

/-- The trees that inlining leaves alone are those without deferred collections. -/
theorem inline_eq_self_iff (e : Expr) (p : Parameters) :
    e.inline p = .ok e ↔ e.hasDeferredCollection = false :=
  ⟨hasDeferredCollection_of_inline e, inline_eq_self p e⟩

/-! ## 2. Bounds of a page -/

def isParameter : Expr → Bool
  | .parameter .. => true
  | _ => false

/-- A parameter comes of itself only. -/
theorem isParameter_of_inline {p : Parameters} {e e' : Expr} (h : e.inline p = .ok e')
    (he' : e'.isParameter = true) : e.isParameter = true := by
  cases inlines_of_inline h with
  | parameter => rfl
  | _ => exact nomatch he'

/-- A bound in its inlined form. -/
structure IsInlinedBound (scoreOrdered : Bool) (e : Expr) : Prop where
  complete : e.hasDeferredCollection = false
  fixed : scoreOrdered = true → e.isParameter = false

theorem isInlinedBound_of_inlineBound {p : Parameters} {scoreOrdered : Bool} {e e' : Expr}
    (h : e.inlineBound p scoreOrdered = .ok e') : e'.IsInlinedBound scoreOrdered := by
  unfold inlineBound at h
  split at h
  · next name type mapping =>
    obtain ⟨value, -, h⟩ := bind_eq_ok.1 h
    rw [← pure_eq_ok.1 h]
    exact ⟨by rw [hasDeferredCollection], fun _ => rfl⟩
  · next other =>
    refine ⟨hasDeferredCollection_of_inline e h, ?_⟩
    rintro rfl
    refine Bool.eq_false_iff.2 fun parameter => ?_
    -- the case of a parameter in a ranked select is the one before
    cases e with
    | parameter name type mapping => exact other name type mapping rfl rfl
    | _ => exact nomatch isParameter_of_inline h parameter

theorem inlineBound_eq_self {scoreOrdered : Bool} {e : Expr} (h : e.IsInlinedBound scoreOrdered)
    (p : Parameters) : e.inlineBound p scoreOrdered = .ok e := by
  unfold inlineBound
  split
  · exact nomatch h.fixed rfl
  · exact inline_eq_self p e h.complete

end Expr

/-! ## 3. Selects -/

/-- The expression of a projection, if it is not of an entity. -/
def ProjectionItem.expr? : ProjectionItem Expr → Option Expr
  | .scalar e => some e
  | .entity .. => none

theorem inlineOption_eq_self {f : Expr → Except QueryError Expr} {o : Option Expr}
    (h : ∀ e, o = some e → f e = .ok e) : inlineOption f o = .ok o := by
  cases o with
  | none => rfl
  | some e => rw [inlineOption, h e rfl, Except.map]

namespace SelectOf

/-- The expressions of a select. -/
def expressions (s : Select) : List Expr :=
  s.projection.filterMap (·.item.expr?) ++ s.predicate.toList ++ s.orderings.map (·.expr) ++
    s.limit.toList ++ s.offset.toList

/-- A select without placeholders. -/
structure IsInlined (s : Select) : Prop where
  complete : ∀ e ∈ s.expressions, e.hasDeferredCollection = false
  fixed : s.isScoreOrdered = true → ∀ e, s.limit = some e ∨ s.offset = some e →
    e.isParameter = false

/-- What inlining gives is inlined. -/
theorem isInlined_of_inline {s t : Select} {p : Parameters} (h : s.inline p = .ok t) :
    t.IsInlined := by
  have h := inlined_of_inline h
  have bound : ∀ {o o' : Option Expr},
      inlineOption (Expr.inlineBound p s.isScoreOrdered) o = .ok o' → ∀ e, o' = some e →
      e.IsInlinedBound s.isScoreOrdered := by
    rintro o o' ho e rfl
    rcases inlineOption_eq_ok.1 ho with ⟨-, ⟨⟩⟩ | ⟨x, x', -, ⟨rfl⟩, hx⟩
    exact Expr.isInlinedBound_of_inlineBound hx
  constructor
  · intro e he
    simp only [expressions, List.mem_append, List.mem_filterMap, List.mem_map,
      Option.mem_toList] at he
    rcases he with (((⟨pr', hpr', he⟩ | he) | ⟨o', ho', rfl⟩) | he) | he
    · rw [h.projected] at hpr'
      obtain ⟨pr, hpr, rfl⟩ := List.mem_map.1 hpr'
      obtain ⟨item, hitem⟩ := h.projection pr hpr
      rw [Projection.inlined, hitem] at he
      obtain ⟨of, name⟩ := pr
      cases of with
      | entity type path =>
        rw [← Except.ok.inj hitem] at he
        exact nomatch he
      | scalar x =>
        obtain ⟨x', hx, rfl⟩ := map_eq_ok.1 hitem
        obtain rfl := Option.some.inj he
        exact Expr.hasDeferredCollection_of_inline x hx
    · rcases inlineOption_eq_ok.1 h.predicate with ⟨-, hnone⟩ | ⟨x, x', -, hsome, hx⟩
      · rw [hnone] at he
        exact nomatch he
      · obtain rfl := Option.some.inj (hsome.symm.trans he)
        exact Expr.hasDeferredCollection_of_inline x hx
    · rw [h.ordered] at ho'
      obtain ⟨o, ho, rfl⟩ := List.mem_map.1 ho'
      obtain ⟨x, hx⟩ := h.orderings o ho
      rw [OrderingTerm.inlined, hx]
      exact Expr.hasDeferredCollection_of_inline o.expr hx
    · exact (bound h.limit e he).complete
    · exact (bound h.offset e he).complete
  · rw [h.isScoreOrdered]
    rintro ranked e (he | he)
    · exact (bound h.limit e he).fixed ranked
    · exact (bound h.offset e he).fixed ranked

/-- Inlining leaves an inlined select as it is. -/
theorem inline_eq_self {t : Select} (h : t.IsInlined) (p : Parameters) : t.inline p = .ok t := by
  have complete := h.complete
  simp only [expressions, List.mem_append, List.mem_filterMap, List.mem_map,
    Option.mem_toList] at complete
  have projection : t.projection.mapM (fun pr => (pr.item.inline p).map (Projection.mk · pr.name)) =
      .ok t.projection := by
    have kept : ∀ pr ∈ t.projection,
        (pr.item.inline p).map (Projection.mk · pr.name) = .ok (id pr) := by
      rintro ⟨item, name⟩ hpr
      cases item with
      | entity type path => rfl
      | scalar e =>
        have := complete e (.inl (.inl (.inl (.inl ⟨_, hpr, rfl⟩))))
        rw [ProjectionItem.inline, Expr.inline_eq_self p e this]
        rfl
    rw [mapM_eq_ok_map kept, List.map_id]
  have orderings : t.orderings.mapM
      (fun o => (o.expr.inline p).map (OrderingTerm.mk · o.ascending)) = .ok t.orderings := by
    have kept : ∀ o ∈ t.orderings,
        (o.expr.inline p).map (OrderingTerm.mk · o.ascending) = .ok (id o) := by
      intro o ho
      rw [Expr.inline_eq_self p o.expr (complete _ (.inl (.inl (.inr ⟨o, ho, rfl⟩))))]
      rfl
    rw [mapM_eq_ok_map kept, List.map_id]
  have predicate : inlineOption (Expr.inline p) t.predicate = .ok t.predicate :=
    inlineOption_eq_self fun e he =>
      Expr.inline_eq_self p e (complete e (.inl (.inl (.inl (.inr he)))))
  have limit : inlineOption (Expr.inlineBound p t.isScoreOrdered) t.limit = .ok t.limit :=
    inlineOption_eq_self fun e he => Expr.inlineBound_eq_self
      ⟨complete e (.inl (.inr he)), fun ranked => h.fixed ranked e (.inl he)⟩ p
  have offset : inlineOption (Expr.inlineBound p t.isScoreOrdered) t.offset = .ok t.offset :=
    inlineOption_eq_self fun e he => Expr.inlineBound_eq_self
      ⟨complete e (.inr he), fun ranked => h.fixed ranked e (.inr he)⟩ p
  rw [inline, projection, predicate, orderings, limit, offset]
  rfl

/-- **Inlining leaves alone what is inlined, and nothing else.**  Whether it does so does not depend
on the parameters. -/
theorem inline_eq_self_iff (t : Select) (p : Parameters) : t.inline p = .ok t ↔ t.IsInlined :=
  ⟨isInlined_of_inline, fun h => inline_eq_self h p⟩

end SelectOf

/-- **Inlining reaches a normal form.**  The inlined select defers no collection in any of its
expressions, it is ranked when the original is, and then no parameter bounds its page; inlining it
again, with whatever parameters, gives it back.  An expression is given back by every inlining
exactly when it defers no collection. -/
theorem inline_reaches_normal_form :
    (∀ (s t : Select) (p : Parameters), s.inline p = .ok t →
      (∀ e ∈ t.expressions, e.hasDeferredCollection = false) ∧
      t.isScoreOrdered = s.isScoreOrdered ∧
      (t.isScoreOrdered = true → ∀ e, t.limit = some e ∨ t.offset = some e →
        e.isParameter = false) ∧
      ∀ q, t.inline q = .ok t) ∧
    ∀ e : Expr, (∀ p, e.inline p = .ok e) ↔ e.hasDeferredCollection = false := by
  constructor
  · intro s t p h
    have inlined := SelectOf.isInlined_of_inline h
    exact ⟨inlined.complete, (SelectOf.inlined_of_inline h).isScoreOrdered, inlined.fixed,
      SelectOf.inline_eq_self inlined⟩
  · intro e
    exact ⟨fun h => (e.inline_eq_self_iff .empty).1 (h .empty),
      fun h p => (e.inline_eq_self_iff p).2 h⟩

/-- The tagged posts, ranked by a score whose term is looked for among deferred tags too. -/
def rankedTaggedPosts : Select :=
  let tag : Expr := .column "c" ["tag"] .utf8 none
  let tagged : Expr := .inParameter tag ⟨"tags", .utf8, none⟩
  { taggedPosts with
    predicate := some (.inList (.inParameter tagged ⟨"none", .boolean, none⟩) [tagged])
    orderings := [⟨.function "FullTextScore" [tag, tagged] true .float64 none, false⟩] }

def rankedTaggedParameters : Parameters :=
  .ofList [("tags", .collection [.text "a", .null]), ("none", .scalar .null),
    ("count", .scalar (.int32 2))]

/-- The tags and the bound of the page become constants, and inlining again, with no parameters at
all, changes nothing. -/
theorem inline_reaches_normal_form_rankedTaggedPosts :
    ∃ t, rankedTaggedPosts.inline rankedTaggedParameters = .ok t ∧
      t.limit = some (.constant (.int32 2) .int32 none) ∧
      (∀ e ∈ t.expressions, e.hasDeferredCollection = false) ∧ t.isScoreOrdered = true ∧
      t.inline .empty = .ok t := by
  obtain ⟨t, ht, limit⟩ : ∃ t, rankedTaggedPosts.inline rankedTaggedParameters = .ok t ∧
      t.limit = some (.constant (.int32 2) .int32 none) := ⟨_, rfl, rfl⟩
  obtain ⟨complete, ranked, -, again⟩ := inline_reaches_normal_form.1 _ t _ ht
  exact ⟨t, ht, limit, complete, ranked, again .empty⟩

end DocQuery
