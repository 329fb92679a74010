/-
# Inlining preserves results

Before a select is written as a command its deferred placeholders are replaced by the values of
their parameters: `IN @tags` becomes a list of constants, or `false` when there is nothing in the
collection.  The select that is run is therefore not the select that was compiled.  This module
proves that it gives the same rows (`inline_preserves_results`).

* **Expressions.**  `Expr.Inlines` has one case for each constructor: a tree is rebuilt from its
  inlined parts, and only the deferred membership changes its form.  What an expression evaluates
  to, its inlined form evaluates to as well (`Expr.eval_inline`).  The converse is not claimed: an
  expression whose item FAILS over an empty collection is inlined to `false`, which does not.
* **Bounds.**  Where the rows are ranked a parameter that bounds the page is replaced too, and a
  constant has the value of its parameter (`Expr.eval_inlineBound`).
* **Sorting.**  A select sees its expressions only through their values, with one exception:
  sorting carries the orderings along.  It reads no more of them than their direction and whether
  they are scoring, and inlining changes neither (`KeepsOrder`).  So entries keep their places, in
  each of the three ways of sorting (`KeepsOrder.sortEntries`).

`SelectOf.run_inline` goes through the clauses of a select in the order of their execution and
uses one of these at each.  The parameters that are left are bound to the same values on both
sides (`Binds`), and the documents are any.
-/
import DocQuery.Proofs.Outcome
import DocQuery.Proofs.SortedPositions
import DocQuery.Store

namespace DocQuery

/-! ## 1. Bound parameters -/

/-- Every parameter is bound to the JSON value of its value. -/
def Binds (bindings : Dictionary Json) (p : Parameters) : Prop :=
  ∀ name v, p.find? name = some v → bindings.find? name = some v.toJson

theorem binds_map_toJson (p : Parameters) : Binds (p.map ParameterValue.toJson) p := by
  intro name v h
  rw [Dictionary.find?_map, h]
  rfl

namespace Binds

variable {bindings : Dictionary Json} {p : Parameters}

theorem of_get (hb : Binds bindings p) {name : String} {v : ParameterValue}
    (h : p.get name = .ok v) : bindings.find? name = some v.toJson := by
  refine hb name v ?_
  unfold Parameters.get at h
  split at h
  · next w hw => rw [hw, Except.ok.inj h]
  · exact nomatch h

theorem parameter {env : Environment} (hb : Binds env.parameters p) {name : String}
    {v : ParameterValue} (h : p.get name = .ok v) : env.parameter name = .ok v.toJson := by
  unfold Environment.parameter
  rw [hb.of_get h]

/-- The elements of a deferred collection are what its parameter is bound to, null being none. -/
theorem elements {env : Environment} (hb : Binds env.parameters p) {c : CollectionParameter}
    {values : List Scalar} (h : c.elements p = .ok values) :
    ∃ j, env.parameter c.name = .ok j ∧ j.asArray?.getD [] = values.map Scalar.toJson := by
  unfold CollectionParameter.elements at h
  obtain ⟨v, hv, h⟩ := bind_eq_ok.1 h
  refine ⟨v.toJson, hb.parameter hv, ?_⟩
  split at h
  · rw [← Except.ok.inj h]; rfl
  · rw [← Except.ok.inj h]; rfl
  · exact nomatch h

end Binds

/-! ## 2. Expressions -/

/-- A binary operation ignores its right operand, or it is a function of its value. -/
theorem applyBinary_cases (op : BinaryOp) (l : Json) :
    (∃ v, ∀ right, applyBinary op l right = .ok v) ∨
    (∃ f, ∀ right, applyBinary op l right = right.map f) := by
  by_cases decided : (op = .and ∧ l = .bool false) ∨ (op = .or ∧ l = .bool true)
  · rcases decided with ⟨rfl, rfl⟩ | ⟨rfl, rfl⟩
    · exact .inl ⟨.bool false, fun _ => rfl⟩
    · exact .inl ⟨.bool true, fun _ => rfl⟩
  · refine .inr ?_
    cases op with
    | and =>
      refine ⟨conjunction l, fun right => ?_⟩
      unfold applyBinary
      split <;> simp_all
    | or =>
      refine ⟨disjunction l, fun right => ?_⟩
      unfold applyBinary
      split <;> simp_all
    | _ => exact ⟨_, fun _ => rfl⟩

theorem applyBinary_mono {op : BinaryOp} {l v : Json} {x y : Except RunError Json}
    (hxy : ∀ w, x = .ok w → y = .ok w) (h : applyBinary op l x = .ok v) :
    applyBinary op l y = .ok v := by
  rcases applyBinary_cases op l with ⟨w, hw⟩ | ⟨f, hf⟩
  · rw [hw] at h ⊢
    exact h
  · rw [hf, map_eq_ok] at h ⊢
    obtain ⟨w, hx, hv⟩ := h
    exact ⟨w, hxy w hx, hv⟩

namespace Expr

theorem evalList_constants (env : Environment) (c : CollectionParameter) :
    ∀ values : List Scalar,
    evalList env (values.map c.constant) = .ok (values.map Scalar.toJson)
  | [] => rfl
  | value :: rest => by
    rw [List.map_cons, evalList, evalList_constants env c rest]
    rfl

/-- What inlining makes of an expression.  A tree is rebuilt from its inlined parts; a deferred
collection becomes the list of its elements, or `false` when it has none. -/
inductive Inlines (p : Parameters) : Expr → Expr → Prop where
  | column (source : String) (path : List String) (t : DataType) (m : Option TypeMapping) :
    Inlines p (.column source path t m) (.column source path t m)
  | constant (v : Scalar) (t : DataType) (m : Option TypeMapping) :
    Inlines p (.constant v t m) (.constant v t m)
  | parameter (name : String) (t : DataType) (m : Option TypeMapping) :
    Inlines p (.parameter name t m) (.parameter name t m)
  | binary {op : BinaryOp} {l l' r r' : Expr} {m : Option TypeMapping}
    (hl : l.inline p = .ok l') (hr : r.inline p = .ok r') :
    Inlines p (.binary op l r m) (.binary op l' r' m)
  | unary {op : UnaryOp} {e e' : Expr} {m : Option TypeMapping} (he : e.inline p = .ok e') :
    Inlines p (.unary op e m) (.unary op e' m)
  | function {n : String} {as as' : List Expr} {s : Bool} {t : DataType} {m : Option TypeMapping}
    (has : inlineList p as = .ok as') : Inlines p (.function n as s t m) (.function n as' s t m)
  | inList {e e' : Expr} {vs vs' : List Expr} (he : e.inline p = .ok e')
    (hvs : inlineList p vs = .ok vs') : Inlines p (.inList e vs) (.inList e' vs')
  | inNothing {e : Expr} {c : CollectionParameter} (helements : c.elements p = .ok []) :
    Inlines p (.inParameter e c) falseConstant
  | inElements {e e' : Expr} {c : CollectionParameter} {v : Scalar} {vs : List Scalar}
    (helements : c.elements p = .ok (v :: vs)) (he : e.inline p = .ok e') :
    Inlines p (.inParameter e c) (.inList e' ((v :: vs).map c.constant))

theorem inlines_of_inline {p : Parameters} {e e' : Expr} (h : e.inline p = .ok e') :
    Inlines p e e' := by
  cases e with
  | column | constant | parameter =>
    rw [← Except.ok.inj h]
    constructor
  | binary op l r m =>
    simp only [inline, bind_eq_ok, pure_eq_ok] at h
    obtain ⟨l', hl, r', hr, rfl⟩ := h
    exact .binary hl hr
  | unary op e m =>
    simp only [inline, bind_eq_ok, pure_eq_ok] at h
    obtain ⟨e', he, rfl⟩ := h
    exact .unary he
  | function n as s t m =>
    simp only [inline, bind_eq_ok, pure_eq_ok] at h
    obtain ⟨as', has, rfl⟩ := h
    exact .function has
  | inList e vs =>
    simp only [inline, bind_eq_ok, pure_eq_ok] at h
    obtain ⟨e', he, vs', hvs, rfl⟩ := h
    exact .inList he hvs
  | inParameter e c =>
    simp only [inline, bind_eq_ok] at h
    obtain ⟨elements, helements, h⟩ := h
    cases elements with
    | nil =>
      rw [← pure_eq_ok.1 h]
      exact .inNothing helements
    | cons v vs =>
      obtain ⟨e', he, h⟩ := bind_eq_ok.1 h
      rw [← pure_eq_ok.1 h]
      exact .inElements helements he
  | inSubquery e s => exact nomatch h

theorem inlineList_eq_mapM (p : Parameters) : ∀ es : List Expr,
    inlineList p es = es.mapM (inline p)
  | [] => rfl
  | e :: es => by
    rw [inlineList, List.mapM_cons, inlineList_eq_mapM p es]

theorem isScoring_inline {p : Parameters} {e e' : Expr} (h : e.inline p = .ok e') :
    e'.isScoring = e.isScoring := by
  cases inlines_of_inline h <;> rfl

mutual

/-- **Inlining preserves values.** -/
theorem eval_inline {p : Parameters} {env : Environment} (hb : Binds env.parameters p) :
    ∀ (e : Expr) {e' : Expr} {v : Json}, e.inline p = .ok e' → e.eval env = .ok v →
    e'.eval env = .ok v
  | .column .., e', v, h, hv | .constant .., e', v, h, hv | .parameter .., e', v, h, hv => by
    rw [← Except.ok.inj h]
    exact hv
  | .binary op l r m, e', v, h, hv => by
    cases inlines_of_inline h with | binary hl hr =>
    simp only [eval, bind_eq_ok] at hv ⊢
    obtain ⟨a, ha, happly⟩ := hv
    exact ⟨a, eval_inline hb l hl ha, applyBinary_mono (fun w hw => eval_inline hb r hr hw) happly⟩
  | .unary op e m, e', v, h, hv => by
    cases inlines_of_inline h with | unary he =>
    simp only [eval, bind_eq_ok] at hv ⊢
    obtain ⟨a, ha, happly⟩ := hv
    exact ⟨a, eval_inline hb e he ha, happly⟩
  | .function n as s t m, e', v, h, hv => by
    cases inlines_of_inline h with | function has =>
    simp only [eval, bind_eq_ok] at hv ⊢
    obtain ⟨vs, hvs, hcall⟩ := hv
    exact ⟨vs, evalList_inlineList hb as has hvs, hcall⟩
  | .inList e values, e', v, h, hv => by
    cases inlines_of_inline h with | inList he hvalues =>
    simp only [eval, bind_eq_ok] at hv ⊢
    obtain ⟨needle, hneedle, vs, hvs, hmember⟩ := hv
    exact ⟨needle, eval_inline hb e he hneedle, vs, evalList_inlineList hb values hvalues hvs,
      hmember⟩
  | .inParameter e c, e', v, h, hv => by
    simp only [eval, bind_eq_ok, pure_eq_ok] at hv
    obtain ⟨needle, hneedle, j, hj, hmember⟩ := hv
    cases inlines_of_inline h with
    | inNothing helements =>
      -- membership in nothing is false, whatever the needle
      obtain ⟨j', hj', hitems⟩ := hb.elements helements
      cases hj'.symm.trans hj
      rw [← hmember, hitems]
      rfl
    | inElements helements he =>
      obtain ⟨j', hj', hitems⟩ := hb.elements helements
      cases hj'.symm.trans hj
      rw [hitems] at hmember
      simp only [eval, bind_eq_ok, pure_eq_ok]
      exact ⟨needle, eval_inline hb e he hneedle, _, evalList_constants env c _, hmember⟩
  | .inSubquery e s, e', v, h, hv => nomatch h

theorem evalList_inlineList {p : Parameters} {env : Environment} (hb : Binds env.parameters p) :
    ∀ (es : List Expr) {es' : List Expr} {vs : List Json}, inlineList p es = .ok es' →
    evalList env es = .ok vs → evalList env es' = .ok vs
  | [], es', vs, h, hv => by
    rw [← Except.ok.inj h]
    exact hv
  | e :: es, es', vs, h, hv => by
    simp only [inlineList, bind_eq_ok, pure_eq_ok] at h
    obtain ⟨e', he, es', hes, rfl⟩ := h
    simp only [evalList, bind_eq_ok] at hv ⊢
    obtain ⟨v, hv, vs, hvs, hcons⟩ := hv
    exact ⟨v, eval_inline hb e he hv, vs, evalList_inlineList hb es hes hvs, hcons⟩

end

/-- A bound that is inlined as a constant has the value of its parameter. -/
theorem eval_inlineBound {p : Parameters} {env : Environment} (hb : Binds env.parameters p)
    {scoreOrdered : Bool} {e e' : Expr} {v : Json} (h : e.inlineBound p scoreOrdered = .ok e')
    (hv : e.eval env = .ok v) : e'.eval env = .ok v := by
  unfold inlineBound at h
  split at h
  · next name type mapping =>
    obtain ⟨value, hvalue, h⟩ := bind_eq_ok.1 h
    rw [← pure_eq_ok.1 h, eval]
    rw [eval] at hv
    unfold Parameters.scalar at hvalue
    obtain ⟨w, hw, hvalue⟩ := bind_eq_ok.1 hvalue
    rw [hb.parameter hw] at hv
    cases w with
    | scalar s => rw [← hv, Except.ok.inj hvalue]; rfl
    | collection vs => exact nomatch hvalue
  · exact eval_inline hb e h hv

end Expr

/-! ## 3. Sorting -/

namespace SortEntry

variable (g : OrderingTerm Expr → OrderingTerm Expr)

/-- A value with another ordering. -/
def relabelKey (k : OrderingTerm Expr × Json) : OrderingTerm Expr × Json := (g k.1, k.2)

/-- The entry of the same document and values under other orderings. -/
def relabel (e : SortEntry) : SortEntry := ⟨e.keys.map (relabelKey g), e.document⟩

end SortEntry

open SortEntry

/-- Comparing values reads nothing of the orderings but their directions. -/
theorem compareKeys_relabel {g : OrderingTerm Expr → OrderingTerm Expr}
    (h : ∀ o, (g o).ascending = o.ascending) : ∀ as bs : List (OrderingTerm Expr × Json),
    compareKeys (as.map (relabelKey g)) (bs.map (relabelKey g)) = compareKeys as bs
  | [], [] | [], _ :: _ | _ :: _, [] => rfl
  | (o, a) :: as, (o', b) :: bs => by
    simp only [List.map_cons, compareKeys, relabelKey, h, compareKeys_relabel h as bs]

/-- A change of orderings that sorting does not see. -/
structure KeepsOrder (g : OrderingTerm Expr → OrderingTerm Expr) : Prop where
  ascending : ∀ o, (g o).ascending = o.ascending
  isScoring : ∀ o, (g o).expr.isScoring = o.expr.isScoring

namespace KeepsOrder

variable {g : OrderingTerm Expr → OrderingTerm Expr}

theorem scores (h : KeepsOrder g) (e : SortEntry) :
    (e.relabel g).scores = e.scores.map (relabelKey g) := by
  unfold SortEntry.scores relabel
  rw [List.filter_map]
  congr 2
  funext k
  exact h.isScoring k.1

theorem plainKeys (h : KeepsOrder g) (e : SortEntry) :
    (e.relabel g).plainKeys = e.plainKeys.map (relabelKey g) := by
  unfold SortEntry.plainKeys relabel
  rw [List.filter_map]
  congr 2
  funext k
  exact congrArg _ (h.isScoring k.1)

theorem singleScore (h : KeepsOrder g) (k : OrderingTerm Expr × Json) :
    DocQuery.singleScore (relabelKey g k) = DocQuery.singleScore k := by
  unfold DocQuery.singleScore relabelKey
  rw [h.ascending]

theorem reciprocalRanks (h : KeepsOrder g) (column : List (OrderingTerm Expr × Json)) :
    DocQuery.reciprocalRanks (column.map (relabelKey g)) = DocQuery.reciprocalRanks column := by
  have directions : ∀ k l : OrderingTerm Expr × Json,
      directedKey (relabelKey g k) (relabelKey g l) = directedKey k l := fun k l => by
    rw [directedKey, relabelKey, h.ascending]
    rfl
  rw [DocQuery.reciprocalRanks, sortedPositions_map directions, List.length_map]
  rfl

/-- The shares that are added are those of the same values. -/
theorem addShares (h : KeepsOrder g) (scores : List (List (OrderingTerm Expr × Json))) :
    DocQuery.addShares (scores.map (List.map (relabelKey g))) = DocQuery.addShares scores := by
  funext sums position
  have column : (scores.map (List.map (relabelKey g))).filterMap (fun s => s[position]?) =
      (scores.filterMap fun s => s[position]?).map (relabelKey g) := by
    rw [List.filterMap_map, List.map_filterMap]
    simp only [Function.comp_def, List.getElem?_map]
  rw [DocQuery.addShares, column, h.reciprocalRanks]
  rfl

theorem fusedScores (h : KeepsOrder g) (entries : List SortEntry) :
    DocQuery.fusedScores (entries.map (relabel g)) = DocQuery.fusedScores entries := by
  have scores : (entries.map (relabel g)).map SortEntry.scores =
      (entries.map SortEntry.scores).map (List.map (relabelKey g)) := by
    rw [List.map_map, List.map_map]
    exact List.map_congr_left fun e _ => h.scores e
  have single : DocQuery.singleScore ∘ relabelKey g = DocQuery.singleScore := funext h.singleScore
  unfold DocQuery.fusedScores
  rw [scores]
  cases entries.map SortEntry.scores with
  | nil => rfl
  | cons first rest =>
    simp only [List.map_cons, List.length_map]
    split
    · simp only [List.head?_map, Option.map_map, single, List.map_map, Function.comp_def]
    · rw [← List.map_cons (f := List.map (relabelKey g)), h.addShares, List.map_map]
      rfl

theorem compareRanked (h : KeepsOrder g) (a b : SortEntry × Double) :
    DocQuery.compareRanked (Prod.map (relabel g) id a) (Prod.map (relabel g) id b) =
      DocQuery.compareRanked a b := by
  unfold DocQuery.compareRanked
  show Ordering.then _ (DocQuery.compareKeys (a.1.relabel g).plainKeys (b.1.relabel g).plainKeys) = _
  rw [h.plainKeys, h.plainKeys, compareKeys_relabel h.ascending]
  rfl

/-- **Entries keep their places when their orderings change within their kind.** -/
theorem sortEntries (h : KeepsOrder g) (scoreOrdered : Bool) (entries : List SortEntry) :
    DocQuery.sortEntries scoreOrdered (entries.map (relabel g)) =
      (DocQuery.sortEntries scoreOrdered entries).map (List.map (relabel g)) := by
  unfold DocQuery.sortEntries
  split
  · rw [h.fusedScores]
    cases DocQuery.fusedScores entries with
    | none => rfl
    | some scores =>
      show (sortBy 8 _ ((entries.map (relabel g)).zip scores) >>= _) =
        (sortBy 8 _ (entries.zip scores) >>= _).map _
      rw [List.zip_map_left, sortBy_map h.compareRanked]
      cases sortBy 8 DocQuery.compareRanked (entries.zip scores) with
      | none => rfl
      | some sorted =>
        refine congrArg some ?_
        rw [List.map_map, List.map_map]
        rfl
  · exact sortBy_map (fun a b => compareKeys_relabel h.ascending a.keys b.keys) entries

end KeepsOrder

/-! ## 4. Selects -/

/-- An ordering with its expression inlined, if that can be done. -/
def OrderingTerm.inlined (p : Parameters) (o : OrderingTerm Expr) : OrderingTerm Expr :=
  match o.expr.inline p with
  | .ok e => ⟨e, o.ascending⟩
  | .error _ => o

theorem OrderingTerm.keepsOrder_inlined (p : Parameters) : KeepsOrder (OrderingTerm.inlined p) where
  ascending o := by
    unfold inlined
    split <;> rfl
  isScoring o := by
    unfold inlined
    split
    · next e h => exact Expr.isScoring_inline h
    · rfl

/-- A projection with its item inlined, if that can be done. -/
def Projection.inlined (p : Parameters) (pr : Projection Expr) : Projection Expr :=
  match pr.item.inline p with
  | .ok item => ⟨item, pr.name⟩
  | .error _ => pr

theorem Projection.name_inlined (p : Parameters) (pr : Projection Expr) :
    (pr.inlined p).name = pr.name := by
  unfold inlined
  split <;> rfl

theorem inlineOption_eq_ok {f : Expr → Except QueryError Expr} {e e' : Option Expr} :
    inlineOption f e = .ok e' ↔
      (e = none ∧ e' = none) ∨ ∃ x x', e = some x ∧ e' = some x' ∧ f x = .ok x' := by
  cases e with
  | none => simp [inlineOption, eq_comm]
  | some x =>
    simp only [inlineOption, map_eq_ok, reduceCtorEq, false_and, Option.some.injEq, false_or]
    constructor
    · rintro ⟨x', h, rfl⟩
      exact ⟨x, x', rfl, rfl, h⟩
    · rintro ⟨_, x', rfl, rfl, h⟩
      exact ⟨x', h, rfl⟩

namespace SelectOf

/-- What inlining does to the parts of a select. -/
structure Inlined (p : Parameters) (s s' : Select) : Prop where
  container : s'.container = s.container
  source : s'.source = s.source
  distinct : s'.distinct = s.distinct
  projection : ∀ pr ∈ s.projection, ∃ item, pr.item.inline p = .ok item
  projected : s'.projection = s.projection.map (Projection.inlined p)
  predicate : inlineOption (Expr.inline p) s.predicate = .ok s'.predicate
  orderings : ∀ o ∈ s.orderings, ∃ e, o.expr.inline p = .ok e
  ordered : s'.orderings = s.orderings.map (OrderingTerm.inlined p)
  limit : inlineOption (Expr.inlineBound p s.isScoreOrdered) s.limit = .ok s'.limit
  offset : inlineOption (Expr.inlineBound p s.isScoreOrdered) s.offset = .ok s'.offset

theorem inlined_of_inline {p : Parameters} {s s' : Select} (h : s.inline p = .ok s') :
    Inlined p s s' := by
  simp only [inline, bind_eq_ok, pure_eq_ok] at h
  obtain ⟨projection, hprojection, predicate, hpredicate, orderings, horderings, limit, hlimit,
    offset, hoffset, rfl⟩ := h
  refine ⟨rfl, rfl, rfl, ?_, ?_, hpredicate, ?_, ?_, hlimit, hoffset⟩
  · intro pr hpr
    obtain ⟨pr', -, hpr'⟩ := mapM_eq_ok_of_mem hprojection pr hpr
    obtain ⟨item, hitem, -⟩ := map_eq_ok.1 hpr'
    exact ⟨item, hitem⟩
  · refine eq_map_of_mapM (fun pr _ pr' hpr' => ?_) hprojection
    obtain ⟨item, hitem, hpr'⟩ := map_eq_ok.1 hpr'
    rw [← hpr', Projection.inlined, hitem]
  · intro o ho
    obtain ⟨o', -, ho'⟩ := mapM_eq_ok_of_mem horderings o ho
    obtain ⟨e, he, -⟩ := map_eq_ok.1 ho'
    exact ⟨e, he⟩
  · refine eq_map_of_mapM (fun o _ o' ho' => ?_) horderings
    obtain ⟨e, he, ho'⟩ := map_eq_ok.1 ho'
    rw [← ho', OrderingTerm.inlined, he]

namespace Inlined

variable {p : Parameters} {s s' : Select} {bindings : Dictionary Json}

theorem environment (h : Inlined p s s') (bindings : Dictionary Json) (document : Json) :
    s'.environment bindings document = s.environment bindings document := by
  rw [SelectOf.environment, SelectOf.environment, h.source]

theorem isScoreOrdered (h : Inlined p s s') : s'.isScoreOrdered = s.isScoreOrdered := by
  unfold SelectOf.isScoreOrdered
  rw [h.ordered]
  cases s.orderings with
  | nil => rfl
  | cons o os => exact (OrderingTerm.keepsOrder_inlined p).isScoring o

theorem keeps (h : Inlined p s s') (hb : Binds bindings p) {document : Json} {b : Bool}
    (hk : s.keeps bindings document = .ok b) : s'.keeps bindings document = .ok b := by
  unfold SelectOf.keeps at hk ⊢
  rcases inlineOption_eq_ok.1 h.predicate with ⟨hs, hs'⟩ | ⟨e, e', hs, hs', he⟩
  · rw [hs] at hk
    rw [hs']
    exact hk
  · rw [hs] at hk
    rw [hs']
    obtain ⟨v, hv, hb'⟩ := map_eq_ok.1 hk
    refine map_eq_ok.2 ⟨v, ?_, hb'⟩
    rw [h.environment]
    exact Expr.eval_inline hb e he hv

theorem filterDocuments (h : Inlined p s s') (hb : Binds bindings p) :
    ∀ {documents kept : List Json}, s.filterDocuments bindings documents = .ok kept →
    s'.filterDocuments bindings documents = .ok kept
  | [], _, hk => hk
  | document :: rest, kept, hk => by
    simp only [SelectOf.filterDocuments, bind_eq_ok] at hk ⊢
    obtain ⟨b, hb', kept', hkept, hk⟩ := hk
    exact ⟨b, h.keeps hb hb', kept', h.filterDocuments hb hkept, hk⟩

/-- The entry of a document carries the inlined orderings and the same values. -/
theorem sortEntry (h : Inlined p s s') (hb : Binds bindings p) {document : Json} {e : SortEntry}
    (he : s.sortEntry bindings document = .ok e) :
    s'.sortEntry bindings document = .ok (e.relabel (OrderingTerm.inlined p)) := by
  simp only [SelectOf.sortEntry, bind_eq_ok, pure_eq_ok] at he ⊢
  obtain ⟨keys, hkeys, rfl⟩ := he
  refine ⟨keys.map (relabelKey (OrderingTerm.inlined p)), ?_, rfl⟩
  rw [h.ordered]
  refine mapM_map_of_mapM (fun o ho k hk => ?_) hkeys
  simp only [bind_eq_ok, pure_eq_ok] at hk ⊢
  obtain ⟨v, hv, rfl⟩ := hk
  refine ⟨v, ?_, rfl⟩
  obtain ⟨e, he⟩ := h.orderings o ho
  rw [h.environment, OrderingTerm.inlined, he]
  exact Expr.eval_inline hb o.expr he hv

theorem sortDocuments (h : Inlined p s s') (hb : Binds bindings p) {documents sorted : List Json}
    (hs : s.sortDocuments bindings documents = .ok sorted) :
    s'.sortDocuments bindings documents = .ok sorted := by
  have isEmpty : s'.orderings.isEmpty = s.orderings.isEmpty := by
    rw [h.ordered, List.isEmpty_map]
  unfold SelectOf.sortDocuments at hs ⊢
  rw [isEmpty, h.isScoreOrdered]
  split at hs
  · next hempty =>
    rw [if_pos hempty]
    exact hs
  · next hempty =>
    rw [if_neg hempty]
    simp only [bind_eq_ok, pure_eq_ok] at hs ⊢
    obtain ⟨entries, hentries, sorted, hsorted, rfl⟩ := hs
    refine ⟨entries.map (relabel (OrderingTerm.inlined p)), ?_,
      sorted.map (relabel (OrderingTerm.inlined p)), ?_, ?_⟩
    · have := mapM_map_of_mapM (g := id) (fun _ _ _ he => h.sortEntry hb he) hentries
      rwa [List.map_id] at this
    · rw [RunError.ofSort_eq_ok] at hsorted ⊢
      rw [(OrderingTerm.keepsOrder_inlined p).sortEntries, hsorted]
      rfl
    · rw [List.map_map]
      rfl

theorem bound? (h : Inlined p s s') (hb : Binds bindings p) {what : String} {e e' : Option Expr}
    {n : Option Nat} (he : inlineOption (Expr.inlineBound p s.isScoreOrdered) e = .ok e')
    (hn : s.bound? bindings what e = .ok n) : s'.bound? bindings what e' = .ok n := by
  rcases inlineOption_eq_ok.1 he with ⟨rfl, rfl⟩ | ⟨e, e', rfl, rfl, hbound⟩
  · exact hn
  · simp only [SelectOf.bound?, SelectOf.bound, map_eq_ok, bind_eq_ok] at hn ⊢
    obtain ⟨k, ⟨v, hv, hk⟩, hn⟩ := hn
    refine ⟨k, ⟨v, ?_, hk⟩, hn⟩
    rw [h.environment]
    exact Expr.eval_inlineBound hb hbound hv

theorem project (h : Inlined p s s') (hb : Binds bindings p) {document : Json} {row : List Json}
    (hr : s.project bindings document = .ok row) : s'.project bindings document = .ok row := by
  unfold SelectOf.project at hr ⊢
  rw [h.projected, ← List.map_id row]
  refine mapM_map_of_mapM (fun pr hpr v hv => ?_) hr
  obtain ⟨item', hitem⟩ := h.projection pr hpr
  rw [Projection.inlined, hitem]
  obtain ⟨item, name⟩ := pr
  cases item with
  | scalar e =>
    obtain ⟨e', he, rfl⟩ := map_eq_ok.1 hitem
    show e'.eval (s'.environment bindings document) = .ok v
    rw [h.environment]
    exact Expr.eval_inline hb e he hv
  | entity t path =>
    rw [← Except.ok.inj hitem]
    exact hv

/-- Rows are laid out by the number of projections and their names. -/
theorem row (h : Inlined p s s') : s'.row = s.row := by
  have names : (fun pr : Projection Expr => pr.name) ∘ Projection.inlined p = (·.name) :=
    funext (Projection.name_inlined p)
  funext layout values
  cases layout with
  | ordinal => rfl
  | document =>
    unfold SelectOf.row
    rw [h.projected]
    rcases s.projection with _ | ⟨pr, _ | ⟨pr', prs⟩⟩ <;>
      rcases values with _ | ⟨v, _ | ⟨v', vs⟩⟩ <;>
      simp only [List.map_nil, List.map_cons, List.map_map, names, Projection.name_inlined]

end Inlined

/-- A select gives the rows it gave before its placeholders were inlined. -/
theorem run_inline {p : Parameters} {s s' : Select} (h : s.inline p = .ok s')
    {bindings : Dictionary Json} (hb : Binds bindings p) {layout : RowLayout}
    {documents : List Json} {rows : List Row} (hr : s.run bindings layout documents = .ok rows) :
    s'.run bindings layout documents = .ok rows := by
  have h := inlined_of_inline h
  simp only [run, bind_eq_ok, pure_eq_ok] at hr ⊢
  obtain ⟨kept, hkept, sorted, hsorted, offset, hoffset, limit, hlimit, projected, hprojected,
    rfl⟩ := hr
  refine ⟨kept, h.filterDocuments hb hkept, sorted, h.sortDocuments hb hsorted, offset,
    h.bound? hb h.offset hoffset, limit, h.bound? hb h.limit hlimit, projected, ?_, ?_⟩
  · have := mapM_map_of_mapM (g := id) (k := id) (fun _ _ _ hd => h.project hb hd) hprojected
    rwa [List.map_id, List.map_id] at this
  · rw [h.row, h.distinct]

end SelectOf

/-! ## 5. Results -/

/-- **Inlining preserves results.**  Where every parameter is bound to its value, an inlined select
gives the rows of the select it was made from, over any documents and in either layout, and an
inlined expression has the value it had. -/
theorem inline_preserves_results {p : Parameters} {bindings : Dictionary Json}
    (hb : Binds bindings p) :
    (∀ s s' : Select, s.inline p = .ok s' →
      ∀ (store : Store) (partitionKey : Option String) (layout : RowLayout) (rows : List Row),
      s.run bindings layout (store.scope s.container partitionKey) = .ok rows →
      s'.run bindings layout (store.scope s'.container partitionKey) = .ok rows) ∧
    (∀ e e' : Expr, e.inline p = .ok e' → ∀ (source : String) (document v : Json),
      e.eval ⟨source, document, bindings⟩ = .ok v →
      e'.eval ⟨source, document, bindings⟩ = .ok v) := by
  constructor
  · intro s s' h store partitionKey layout rows hr
    rw [(SelectOf.inlined_of_inline h).container]
    exact SelectOf.run_inline h hb hr
  · intro e e' h source document v hv
    exact Expr.eval_inline hb e h hv

/-- The first posts with a tag of `@tags`, at most `@count` of them. -/
def taggedPosts : Select where
  container := "posts"
  source := "c"
  projection := [⟨.scalar (.column "c" ["id"] .int32 none), "id"⟩]
  predicate := some (.inParameter (.column "c" ["tag"] .utf8 none) ⟨"tags", .utf8, none⟩)
  orderings := [⟨.column "c" ["id"] .int32 none, true⟩]
  limit := some (.parameter "count" .int32 none)
  offset := none
  distinct := false

def taggedParameters : Parameters :=
  .ofList [("tags", .collection [.text "a", .text "b"]), ("count", .scalar (.int32 2))]

def postStore : Store :=
  let post (id : Int) (tag : String) : StoredDocument :=
    ⟨"posts", tag, none, .object [("id", .ofInt id), ("tag", .string tag)]⟩
  ⟨[post 4 "b", post 3 "a", post 1 "c", post 2 "b"]⟩

/-- Of the posts with the tags `a` and `b` the two of the lowest ids. -/
theorem inline_preserves_results_taggedPosts :
    ∃ s', taggedPosts.inline taggedParameters = .ok s' ∧
      s'.run (taggedParameters.map ParameterValue.toJson) .ordinal
        (postStore.scope s'.container none) = .ok [.ordinal [.ofInt 2], .ordinal [.ofInt 3]] :=
  ⟨_, rfl, (inline_preserves_results (binds_map_toJson taggedParameters)).1 taggedPosts _ rfl
    postStore none .ordinal _ rfl⟩

end DocQuery
