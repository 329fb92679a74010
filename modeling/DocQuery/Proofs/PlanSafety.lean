/-
# Compiled plans do not go wrong

Compilation, binding, the store and the shaper have to agree on names, types, positions and
layouts.  None of them checks that for the others, and each has an error for the case that they do
not (`RunError.IsInternal`).  This module proves that these errors do not arise from compiled
plans.

One notion stands for each stage, and each is what the next one starts from.

* `Plan.Sound` is what compilation establishes (`Compiler.sound_of_compile`).  A cache hands out
  old plans, so it is an invariant of databases that everything in the cache is sound; it holds of
  every database that can be reached by compiling and clearing (`Database.Reachable.sound`).
* `BoundQuery.Safe` is what binding makes of a sound plan (`Plan.Sound.bind_safe`).  Binding fails
  in one case only: a point lookup whose entity type or property the model does not have.
* `Enumeration.Safe` says that the rows an enumeration has left suit its shaper.  A step keeps
  that and fails with external errors only (`Enumeration.Safe.next`).  Fetched rows suit it
  because every row is as wide as the layout and the projections say (`SelectOf.width_of_run`).

What one step does holds of every run, with the store, the session and the other enumerations of
the session changing between the steps as they like (`BoundQuery.Reaches`).  External errors are
left: values that are not what a property declares, parameters without a value, and the like.
-/
import DocQuery.Database
import DocQuery.Session
import DocQuery.Proofs.CommandParameters
import DocQuery.Proofs.ConstantTable
import DocQuery.Proofs.EvaluationFaults
import DocQuery.Proofs.Inlining
import DocQuery.Proofs.PlanCache
import DocQuery.Proofs.ShaperFit

namespace DocQuery

/-! ## 1. Internal errors -/

/-- The errors of parts that disagree with each other. -/
inductive RunError.IsInternal : RunError → Prop where
  | contextMismatch (expected actual : String) : IsInternal (.contextMismatch expected actual)
  | invariant (fault : InvariantFault) : IsInternal (.query (.invariant fault))
  | typeMismatch (name declared actual : String) :
      IsInternal (.query (.typeMismatch name declared actual))
  | nothingSelected : IsInternal (.query (.unreachable .nothingSelected))
  | misfit {fault : MaterializeFault} (h : fault.IsMisfit) : IsInternal (.materialize fault)

/-- An error that is not internal. -/
def IsExternal (e : RunError) : Prop := ¬ e.IsInternal

theorem isExternal_storage (fault : StorageFault) : IsExternal (.storage fault) := nofun

theorem isExternal_unbound (name : String) : IsExternal (.query (.unboundParameter name)) := nofun

theorem isExternal_notSupported (what : Unsupported) : IsExternal (.query (.notSupported what)) :=
  nofun

theorem IsValueError.isExternal {e : RunError} (h : IsValueError e) : IsExternal e := by
  obtain ⟨fault, rfl, hfit⟩ := h
  rintro (_ | _ | _ | _ | hmisfit)
  exact hfit hmisfit

theorem EvaluationFault.isExternal {names : List String} {bindings : Dictionary Json} {e : RunError}
    (h : EvaluationFault names bindings e) : IsExternal e := by
  cases h with
  | storage fault => exact isExternal_storage fault
  | subquery => exact isExternal_notSupported _
  | unbound => exact isExternal_unbound _
  | unordered => exact nofun

/-! ## 2. Finalizing a select -/

/-- Errors of compilation that may arise while a plan runs. -/
def IsExternalQuery (e : QueryError) : Prop := IsExternal (.query e)

theorem Parameters.get_failsOnly (p : Parameters) (name : String) :
    FailsOnly IsExternalQuery (p.get name) := by
  unfold get
  split
  · exact .ok _
  · exact .error nofun

theorem Parameters.scalar_failsOnly (p : Parameters) (name : String) :
    FailsOnly IsExternalQuery (p.scalar name) := by
  refine .bind (p.get_failsOnly name) fun v _ => ?_
  split
  · exact .ok _
  · exact .error nofun

namespace Expr

variable (p : Parameters)

mutual

theorem inline_failsOnly : ∀ e : Expr, FailsOnly IsExternalQuery (e.inline p)
  | .column .. | .constant .. | .parameter .. => .ok _
  | .binary op l r m => by
    rw [inline]
    exact .bind (inline_failsOnly l) fun l' _ => .bind (inline_failsOnly r) fun r' _ => .ok _
  | .unary op e m => by
    rw [inline]
    exact .bind (inline_failsOnly e) fun e' _ => .ok _
  | .function name args s t m => by
    rw [inline]
    exact .bind (inlineList_failsOnly args) fun args' _ => .ok _
  | .inList e vs => by
    rw [inline]
    exact .bind (inline_failsOnly e) fun e' _ => .bind (inlineList_failsOnly vs) fun vs' _ => .ok _
  | .inParameter e c => by
    rw [inline]
    refine .bind ?_ fun elements _ => ?_
    · refine .bind (p.get_failsOnly c.name) fun v _ => ?_
      split
      · exact .ok _
      · exact .ok _
      · exact .error nofun
    · split
      · exact .ok _
      · exact .bind (inline_failsOnly e) fun e' _ => .ok _
  | .inSubquery e s => by
    rw [inline]
    exact .error nofun

theorem inlineList_failsOnly : ∀ es : List Expr, FailsOnly IsExternalQuery (inlineList p es)
  | [] => .ok _
  | e :: es => by
    rw [inlineList]
    exact .bind (inline_failsOnly e) fun e' _ => .bind (inlineList_failsOnly es) fun es' _ => .ok _

end

theorem inlineBound_failsOnly (scoreOrdered : Bool) (e : Expr) :
    FailsOnly IsExternalQuery (e.inlineBound p scoreOrdered) := by
  unfold inlineBound
  split
  · exact .bind (p.scalar_failsOnly _) fun v _ => .ok _
  · exact inline_failsOnly p _

mutual

theorem fragments_failsOnly : ∀ e : Expr, FailsOnly IsExternalQuery e.fragments
  | .column .. | .constant .. | .parameter .. => .ok _
  | .binary op l r m => by
    rw [Expr.fragments]
    exact .bind (fragments_failsOnly l) fun l' _ => .bind (fragments_failsOnly r) fun r' _ => .ok _
  | .unary op e m => by
    rw [Expr.fragments]
    refine .bind (fragments_failsOnly e) fun e' _ => ?_
    cases op <;> exact .ok _
  | .function name args s t m => by
    rw [Expr.fragments]
    exact .bind (fragmentsList_failsOnly args) fun args' _ => .ok _
  | .inList e [] => .ok _
  | .inList e (v :: vs) => by
    rw [Expr.fragments]
    exact .bind (fragments_failsOnly e) fun e' _ => .bind (fragments_failsOnly v) fun v' _ =>
      .bind (fragmentsList_failsOnly vs) fun vs' _ => .ok _
  | .inParameter e c => by
    rw [Expr.fragments]
    exact .bind (fragments_failsOnly e) fun e' _ => .ok _
  | .inSubquery e s => by
    rw [Expr.fragments]
    exact .error nofun

theorem fragmentsList_failsOnly : ∀ es : List Expr, FailsOnly IsExternalQuery (fragmentsList es)
  | [] => .ok _
  | e :: es => by
    rw [fragmentsList]
    exact .bind (fragments_failsOnly e) fun e' _ =>
      .bind (fragmentsList_failsOnly es) fun es' _ => .ok _

end

end Expr

namespace SelectOf

theorem inlineOption_failsOnly {f : Expr → Except QueryError Expr}
    (hf : ∀ e, FailsOnly IsExternalQuery (f e)) (e : Option Expr) :
    FailsOnly IsExternalQuery (inlineOption f e) := by
  cases e with
  | none => exact .ok _
  | some e => exact (hf e).map

theorem itemFragments_failsOnly (source : String) (item : ProjectionItem Expr) :
    FailsOnly IsExternalQuery (item.fragments source) := by
  cases item with
  | scalar e => exact e.fragments_failsOnly
  | entity t path => exact .ok _

theorem inline_failsOnly (s : Select) (p : Parameters) :
    FailsOnly IsExternalQuery (s.inline p) := by
  refine .bind (.mapM fun pr _ => .map ?_) fun projection _ => ?_
  · cases pr.item with
    | scalar e => exact (e.inline_failsOnly p).map
    | entity t path => exact .ok _
  refine .bind (inlineOption_failsOnly (Expr.inline_failsOnly p) _) fun predicate _ => ?_
  refine .bind (.mapM fun o _ => .map (o.expr.inline_failsOnly p)) fun orderings _ => ?_
  refine .bind (inlineOption_failsOnly (Expr.inlineBound_failsOnly p _) _) fun limit _ => ?_
  exact .bind (inlineOption_failsOnly (Expr.inlineBound_failsOnly p _) _) fun offset _ => .ok _

/-- A select with a projection can be written, up to subqueries. -/
theorem fragments_failsOnly {s : Select} (h : s.projection ≠ []) :
    FailsOnly IsExternalQuery s.fragments := by
  refine .bind ?_ fun projection _ => .bind ?_ fun predicate _ => .bind ?_ fun orderings _ =>
    .bind ?_ fun paging _ => .ok _
  · unfold projectionFragments
    split
    · next hempty => exact absurd hempty h
    · exact .bind (itemFragments_failsOnly _ _) fun fs _ => .ok _
    · refine .bind (.mapM fun pr _ => ?_) fun lists _ => .ok _
      exact .bind (itemFragments_failsOnly _ _) fun fs _ => .ok _
  · unfold predicateFragments
    split
    · exact .ok _
    · exact .bind (Expr.fragments_failsOnly _) fun fs _ => .ok _
  · unfold orderingFragments
    refine .ite (fun _ => .ok _) fun _ => .ite (fun _ => ?_) fun _ => ?_
    · refine .bind (.mapM fun o _ => o.expr.fragments_failsOnly) fun lists _ => ?_
      split <;> exact .ok _
    · refine .bind (.mapM fun o _ => ?_) fun lists _ => .ok _
      exact .bind o.expr.fragments_failsOnly fun fs _ => .ok _
  · unfold pagingFragments
    refine .ite (fun _ => .ok _) fun _ => ?_
    rcases s.offset with _ | offset <;> rcases s.limit with _ | limit
    · exact .ok _
    · exact .bind (.ok _) fun _ _ => .bind limit.fragments_failsOnly fun _ _ => .ok _
    · exact .bind offset.fragments_failsOnly fun _ _ => .ok _
    · exact .bind offset.fragments_failsOnly fun _ _ =>
        .bind limit.fragments_failsOnly fun _ _ => .ok _

theorem finalize_failsOnly {s : Select} (h : s.projection ≠ []) (p : Parameters) :
    FailsOnly IsExternalQuery (s.finalize p) := by
  refine .bind (s.inline_failsOnly p) fun s' hs => ?_
  have projects : s'.projection ≠ [] := by
    rw [(inlined_of_inline hs).projected]
    simpa using h
  refine .bind ?_ fun c _ => .ok _
  refine .bind (fragments_failsOnly projects) fun fragments _ => ?_
  refine .bind (.mapM fun name _ => ?_) fun parameters _ => .ok _
  exact .bind (p.get_failsOnly name) fun v _ => .ok _

/-! ## 3. The rows of a select -/

theorem mem_of_mem_dropRepeated {row : List Json} : ∀ {rows kept : List (List Json)},
    row ∈ dropRepeated kept rows → row ∈ kept ∨ row ∈ rows
  | [], kept, h => .inl (List.mem_reverse.1 h)
  | first :: rest, kept, h => by
    rw [dropRepeated] at h
    split at h
    · exact (mem_of_mem_dropRepeated h).imp_right (List.mem_cons_of_mem _)
    · rcases mem_of_mem_dropRepeated h with h | h
      · rcases List.mem_cons.1 h with rfl | h
        · exact .inr List.mem_cons_self
        · exact .inl h
      · exact .inr (List.mem_cons_of_mem _ h)

/-- A page holds only rows that were projected. -/
theorem mem_of_mem_page {distinct : Bool} {rows : List (List Json)} {offset : Nat}
    {limit : Option Nat} {row : List Json}
    (h : row ∈ match limit with
      | none => (if distinct then dropRepeated [] rows else rows).drop offset
      | some n => ((if distinct then dropRepeated [] rows else rows).drop offset).take n) :
    row ∈ rows := by
  have kept : row ∈ (if distinct then dropRepeated [] rows else rows) := by
    cases limit with
    | none => exact List.mem_of_mem_drop h
    | some n => exact List.mem_of_mem_drop (List.mem_of_mem_take h)
  split at kept
  · exact (mem_of_mem_dropRepeated kept).resolve_left List.not_mem_nil
  · exact kept

theorem width_row (s : Select) (layout : RowLayout) {values : List Json}
    (h : values.length = s.projection.length) :
    (s.row layout values).width = layout.width s.projection.length := by
  unfold row
  split
  · exact congrArg some h
  · split <;> rfl

/-- Every row is as wide as the layout and the projections say. -/
theorem width_of_run {s : Select} {bindings : Dictionary Json} {layout : RowLayout}
    {documents : List Json} {rows : List Row} (h : s.run bindings layout documents = .ok rows) :
    ∀ row ∈ rows, row.width = layout.width s.projection.length := by
  simp only [run, bind_eq_ok, pure_eq_ok] at h
  obtain ⟨kept, -, sorted, -, offset, -, limit, -, projected, hprojected, rfl⟩ := h
  have lengths : ∀ values ∈ projected, values.length = s.projection.length := by
    intro values hvalues
    obtain ⟨document, -, hdocument⟩ := mem_of_mapM_eq_ok hprojected values hvalues
    exact length_of_mapM hdocument
  intro row hrow
  obtain ⟨values, hvalues, rfl⟩ := List.mem_map.1 hrow
  exact s.width_row layout (lengths values (mem_of_mem_page hvalues))

end SelectOf

/-! ## 4. What compilation establishes -/

/-- A plan that runs under the settings of a compiler. -/
inductive Plan.Sound (c : Compiler) (p : Plan) : Prop where
  /-- The services of a select are found in every model. -/
  | select {generators expressions : String} {s : Select}
      (source : p.source = .select generators expressions s)
      (context : p.contextType = c.contextType)
      (projects : s.projection ≠ [])
      (fits : p.shaper.Fits (c.config.rowLayout.width s.projection.length))
      (services : ∀ model, ∃ r, p.constants.resolve model = .ok r ∧
        r.sqlGeneratorFactory generators = .ok () ∧ r.sqlExpressionFactory expressions = .ok ())
  /-- The constants of a lookup keep their names and types. -/
  | lookup {q : QuotedLookup}
      (source : p.source = .lookup q)
      (context : p.contextType = c.contextType)
      (fits : p.shaper.Fits none)
      (wellFormed : p.constants.WellFormed)
      (entityType : ∃ name, p.constants.Has q.entityType (.entityType name))
      (properties : ∀ e ∈ q.propertyParameters, ∃ owner name,
        p.constants.Has e.1 (.property owner name))

namespace Compiler

variable {c : Compiler}

theorem sound_of_compileSelect (services : c.constantFactory = id) {s : Select} {shaper : Shaper}
    {p : Plan} (h : c.compileSelect s shaper = .ok p) : p.Sound c := by
  unfold compileSelect at h
  obtain ⟨projects, h⟩ := unless_eq_ok.1 h
  obtain ⟨bound, hbound, h⟩ := bind_eq_ok.1 h
  rw [services] at h
  obtain ⟨constants, hconstants, h⟩ := bind_eq_ok.1 h
  rw [← pure_eq_ok.1 h]
  have frozen : constants =
      ⟨[⟨"querySqlGeneratorFactory", .sqlGeneratorFactory, .sqlGeneratorFactory⟩,
        ⟨"sqlExpressionFactory", .sqlExpressionFactory, .sqlExpressionFactory⟩]⟩ :=
    (Except.ok.inj hconstants).symm
  refine .select rfl rfl (fun hnil => projects (by rw [hnil]; rfl)) ?_ fun model => ?_
  · exact SelectBinding.fits_bind shaper hbound
  · rw [frozen]
    exact ⟨_, rfl, rfl, rfl⟩

theorem sound_of_compileLookup (services : c.constantFactory = id) {l : PointLookup}
    {shaper : Shaper} {p : Plan} (h : c.compileLookup l shaper = .ok p) : p.Sound c := by
  unfold compileLookup at h
  obtain ⟨_, -, h⟩ := bind_eq_ok.1 h
  obtain ⟨bound, hbound, h⟩ := bind_eq_ok.1 h
  obtain ⟨⟨q, t⟩, hquote, h⟩ := bind_eq_ok.1 h
  rw [services] at hquote
  obtain ⟨original, -, h⟩ := bind_eq_ok.1 h
  obtain ⟨-, h⟩ := unless_eq_ok.1 h
  obtain ⟨constants, hfreeze, h⟩ := bind_eq_ok.1 h
  obtain ⟨distinct, -, -, entityType, quotes⟩ :=
    PointLookup.quote_spec ConstantFactory.faithful_id hquote
  rw [← pure_eq_ok.1 h]
  refine .lookup rfl rfl (PointLookup.fits_bind shaper hbound) ?_ ?_ fun e he => ?_
  · exact ConstantTable.wellFormed_of_freeze (distinct ConstantTable.distinct_empty) hfreeze
  · exact ⟨_, entityType.frozen hfreeze⟩
  · obtain ⟨property, has⟩ := quotes.has e he
    exact ⟨_, property, has.frozen hfreeze⟩

/-- **Compilation gives sound plans.** -/
theorem sound_of_compile (services : c.constantFactory = id) {shaped : ShapedQuery} {p : Plan}
    (h : c.compile shaped = .ok p) : p.Sound c := by
  unfold compile at h
  split at h
  · exact sound_of_compileSelect services h
  · exact sound_of_compileLookup services h
  · exact nomatch h

end Compiler

namespace Database

/-- What is so of the plans in the cache and of every fresh plan is so of what a database answers
and of its cache after that. -/
theorem compile_all {d : Database} {P : Plan → Prop} (cached : d.cache.All fun _ plan => P plan.plan)
    {shaped : ShapedQuery} (fresh : ∀ p, d.compiler.compile shaped = .ok p → P p) :
    (∀ plan, (d.compile shaped).1 = .ok plan → P plan.plan) ∧
      (d.compile shaped).2.cache.All fun _ plan => P plan.plan := by
  have computed : ∀ plan, (d.compiler.compile shaped).map (CompiledPlan.mk d.cache.misses) =
      .ok plan → P plan.plan := by
    intro plan hplan
    obtain ⟨p, hp, rfl⟩ := map_eq_ok.1 hplan
    exact fresh p hp
  refine ⟨fun plan hplan => ?_, cached.getOrCompute computed⟩
  rcases cached.answer (d.compiler.key shaped) computed with ⟨a, ha, holds⟩ | ⟨e, he, -⟩
  · have : plan = a := Except.ok.inj (hplan.symm.trans ha)
    rw [this]
    exact holds
  · exact nomatch hplan.symm.trans he

/-- A database of a compiler, after any compilations and losses of its cache. -/
inductive Reachable (c : Compiler) : Database → Prop where
  | opened {d : Database} (h : ofCompiler c = .ok d) : Reachable c d
  | compiled {d : Database} (h : Reachable c d) (shaped : ShapedQuery) :
      Reachable c (d.compile shaped).2
  | cleared {d : Database} (h : Reachable c d) : Reachable c d.clearCache

variable {c : Compiler} {d : Database}

/-- A reachable database keeps its compiler, and every plan in its cache is sound. -/
theorem Reachable.invariant (h : Reachable c d) (services : c.constantFactory = id) :
    d.compiler = c ∧ d.cache.All fun _ plan => plan.plan.Sound c := by
  induction h with
  | opened h =>
    obtain ⟨_, -, h⟩ := bind_eq_ok.1 h
    obtain ⟨_, -, h⟩ := bind_eq_ok.1 h
    rw [← pure_eq_ok.1 h]
    exact ⟨rfl, Cache.all_ofCapacity _⟩
  | compiled h shaped ih =>
    obtain ⟨hcompiler, hcache⟩ := ih
    exact ⟨hcompiler, (compile_all hcache fun p hp =>
      Compiler.sound_of_compile services (hcompiler ▸ hp)).2⟩
  | cleared h ih => exact ⟨ih.1, Cache.all_clear _⟩

/-- What a reachable database compiles is sound, whether it was cached or not. -/
theorem Reachable.sound (h : Reachable c d) (services : c.constantFactory = id)
    {shaped : ShapedQuery} {plan : CompiledPlan} (hp : (d.compile shaped).1 = .ok plan) :
    plan.plan.Sound c := by
  obtain ⟨hcompiler, hcache⟩ := h.invariant services
  exact (compile_all hcache fun p hp =>
    Compiler.sound_of_compile services (hcompiler ▸ hp)).1 plan hp

end Database

/-! ## 5. Binding -/

/-- A bound query whose rows can be fetched and shaped. -/
structure BoundQuery.Safe (q : BoundQuery) : Prop where
  context : q.checkContext = .ok ()
  fetch : ∀ store, FailsOnly IsExternal (q.fetch store)
  fits : ∀ store rows, q.fetch store = .ok rows → ∀ row ∈ rows, q.plan.shaper.Fits row.width

namespace PointLookup

theorem keyValue_failsOnly (l : PointLookup) (p : Parameters) (key : String) :
    FailsOnly IsExternal (l.keyValue p key) := by
  unfold keyValue
  split
  · refine .error ?_
    rintro (_ | _ | _ | _ | hmisfit)
    exact nomatch hmisfit
  · exact .lift (p.scalar_failsOnly _)

theorem documentId_failsOnly (key : List Scalar) : FailsOnly IsExternal (documentId key) := by
  unfold documentId
  exact .ite (fun _ => .error (isExternal_storage _)) fun _ =>
    .ite (fun _ => .error (isExternal_storage _)) fun _ => .ok _

theorem request_failsOnly (l : PointLookup) (configured : Option String) (p : Parameters) :
    FailsOnly IsExternal (l.request configured p) := by
  refine .bind (.mapM fun key _ => l.keyValue_failsOnly p key) fun key _ => ?_
  refine .bind ?_ fun partitionKey _ => .bind (documentId_failsOnly key) fun id _ => .ok _
  unfold partition
  split
  · exact .ok _
  · exact .map (.lift (p.scalar_failsOnly _))
  · exact .ok _

end PointLookup

namespace Plan.Sound

variable {c : Compiler} {p : Plan}

/-- A sound plan fails to bind only when it is a lookup and the model lacks something. -/
theorem bind_error (h : p.Sound c) (parameters : Parameters) {e : QueryError}
    (he : p.bind (c.queryContext parameters) = .error e) :
    IsModelError e ∧ ∃ q, p.source = .lookup q := by
  cases h with
  | @select generators expressions s source _ _ _ services =>
    obtain ⟨r, hr, hgenerators, hexpressions⟩ := services c.model
    have bound : p.bind (c.queryContext parameters) =
        .ok ⟨p, c.queryContext parameters, .select s⟩ := by
      refine bind_eq_ok.2 ⟨r, hr, ?_⟩
      rw [source]
      exact bind_eq_ok.2 ⟨(), hgenerators, bind_eq_ok.2 ⟨(), hexpressions, rfl⟩⟩
    exact nomatch bound.symm.trans he
  | @lookup q source _ _ wellFormed entityType properties =>
    refine ⟨?_, q, source⟩
    refine (FrozenConstants.resolve_failsOnly wellFormed c.model).bind (fun r hr => ?_) e he
    rw [source]
    obtain ⟨l, hl⟩ := QuotedLookup.exists_resolve wellFormed hr entityType properties
    exact .bind (by rw [hl]; exact .ok _) fun l' _ => .ok _

/-- What a sound plan is bound to is safe. -/
theorem bind_safe (h : p.Sound c) (parameters : Parameters) {q : BoundQuery}
    (hq : p.bind (c.queryContext parameters) = .ok q) : q.Safe := by
  obtain ⟨r, -, hq⟩ := bind_eq_ok.1 hq
  cases h with
  | @select generators expressions s source context projects fits _ =>
    rw [source] at hq
    obtain ⟨_, -, hq⟩ := bind_eq_ok.1 hq
    obtain ⟨_, -, hq⟩ := bind_eq_ok.1 hq
    rw [← pure_eq_ok.1 hq]
    refine ⟨if_pos context.symm, ?_, ?_⟩
    · intro store
      refine .bind (.lift (SelectOf.finalize_failsOnly projects parameters)) fun f _ => ?_
      have runs := f.1.run_failsOnly f.2.bindings c.config.rowLayout
        (store.scope f.1.container p.partitionKey)
      exact runs.mono fun e he => he.isExternal
    · intro store rows hrows row hrow
      obtain ⟨⟨s', command⟩, hfinal, hrun⟩ := bind_eq_ok.1 hrows
      obtain ⟨hinline, -⟩ := SelectOf.finalize_eq_ok (RunError.lift_eq_ok.1 hfinal)
      have length : s'.projection.length = s.projection.length := by
        rw [(SelectOf.inlined_of_inline hinline).projected, List.length_map]
      rw [SelectOf.width_of_run hrun row hrow, length]
      exact fits
  | @lookup quoted source context fits _ _ _ =>
    rw [source] at hq
    obtain ⟨l, -, hq⟩ := bind_eq_ok.1 hq
    rw [← pure_eq_ok.1 hq]
    refine ⟨if_pos context.symm, ?_, ?_⟩
    · intro store
      exact .bind (l.request_failsOnly _ _) fun request _ => .ok _
    · intro store rows hrows row hrow
      obtain ⟨request, -, hrows⟩ := bind_eq_ok.1 hrows
      rw [← pure_eq_ok.1 hrows, Option.mem_toList] at hrow
      obtain ⟨document, -, rfl⟩ := Option.map_eq_some_iff.1 hrow
      exact fits

end Plan.Sound

/-! ## 6. Enumerating -/

/-- The enumerations that a query goes through, as results are asked for; the store and the session
may be others at every step. -/
inductive BoundQuery.Reaches (q : BoundQuery) : Enumeration → Prop where
  | start : Reaches q q.enumerate
  | next {e : Enumeration} (h : Reaches q e) (store : Store) (s : Session) :
      Reaches q (e.next Except.ok store s).enumeration

namespace Enumeration

/-- An enumeration of a query whose remaining rows suit the shaper. -/
structure Safe (q : BoundQuery) (e : Enumeration) : Prop where
  query : e.query = q
  fits : ∀ rows, e.progress = .reading rows → ∀ row ∈ rows, q.plan.shaper.Fits row.width

variable {q : BoundQuery} {e : Enumeration}

theorem safe_enumerate (q : BoundQuery) : Safe q q.enumerate :=
  ⟨rfl, nofun⟩

theorem Safe.remaining (h : Safe q e) (hq : q.Safe) (store : Store) :
    FailsOnly IsExternal (e.remaining store) ∧
    ∀ rows, e.remaining store = .ok rows → ∀ row ∈ rows, q.plan.shaper.Fits row.width := by
  unfold Enumeration.remaining
  cases hprogress : e.progress with
  | finished => exact ⟨.ok _, fun rows hrows => Except.ok.inj hrows ▸ nofun⟩
  | reading rows => exact ⟨.ok _, fun rows' hrows => Except.ok.inj hrows ▸ h.fits rows hprogress⟩
  | pending =>
    simp only [h.query, hq.context]
    exact ⟨hq.fetch store, hq.fits store⟩

/-- Shaping a row that fits fails for its values only, and leaves the rows behind it. -/
theorem Safe.shape (h : Safe q e) {row : Row} {rest : List Row}
    (hrow : q.plan.shaper.Fits row.width) (hrest : ∀ r ∈ rest, q.plan.shaper.Fits r.width)
    (s : Session) :
    (∀ fault, (e.shape Except.ok s row rest).outcome = some (.error fault) → IsExternal fault) ∧
    Safe q (e.shape Except.ok s row rest).enumeration := by
  have shaped := RowShaper.shapeRow_failsOnly hrow ⟨s.tracked, e.perQuery, s.nextId⟩
  unfold Enumeration.shape
  rw [h.query]
  dsimp only
  rcases hrun : ExceptT.run (q.plan.shaper.shapeRow row) ⟨s.tracked, e.perQuery, s.nextId⟩ with
    ⟨fault | item, state⟩
  · rw [hrun] at shaped
    refine ⟨?_, rfl, nofun⟩
    intro fault' hfault
    cases hfault
    exact (shaped fault rfl).isExternal
  · refine ⟨nofun, rfl, ?_⟩
    intro rows hrows
    cases hrows
    exact hrest

/-- **A step of a safe enumeration fails with external errors only and is safe again.** -/
theorem Safe.next (h : Safe q e) (hq : q.Safe) (store : Store) (s : Session) :
    (∀ fault, (e.next Except.ok store s).outcome = some (.error fault) → IsExternal fault) ∧
    Safe q (e.next Except.ok store s).enumeration := by
  obtain ⟨fails, fits⟩ := h.remaining hq store
  have finished : ∀ fault, Safe q (e.fail s fault : Step Item).enumeration :=
    fun fault => ⟨h.query, nofun⟩
  unfold Enumeration.next
  split
  · exact ⟨nofun, h⟩
  · split
    · next fault hfault =>
      refine ⟨?_, finished fault⟩
      intro fault' h'
      cases h'
      unfold checkUse at hfault
      split at hfault
      · cases hfault
        exact nofun
      · exact nomatch hfault
    · split
      · next fault hfault =>
        refine ⟨?_, finished fault⟩
        intro fault' h'
        cases h'
        exact fails fault hfault
      · exact ⟨nofun, h.query, nofun⟩
      · next row rest hrows =>
        have hrow := fits _ hrows row List.mem_cons_self
        have hrest : ∀ r ∈ rest, q.plan.shaper.Fits r.width := by
          intro r hr
          exact fits _ hrows r (List.mem_cons_of_mem _ hr)
        exact h.shape hrow hrest s

theorem safe_of_reaches (hq : q.Safe) (h : q.Reaches e) : Safe q e := by
  induction h with
  | start => exact safe_enumerate q
  | next _ store s ih => exact (ih.next hq store s).2

/-- Running to the end takes one safe step after another. -/
theorem Safe.outcomes {e : Enumeration} (h : Safe q e) (hq : q.Safe) (store : Store) (s : Session)
    {fault : RunError} (hfault : .error fault ∈ (e.outcomes Except.ok store s).1) :
    IsExternal fault := by
  obtain ⟨external, safe⟩ := h.next hq store s
  rw [Enumeration.outcomes] at hfault
  split at hfault
  · exact absurd hfault List.not_mem_nil
  · next fault' houtcome =>
    cases List.mem_singleton.1 hfault
    exact external fault houtcome
  · next item houtcome =>
    have := next_rank houtcome
    rcases List.mem_cons.1 hfault with hfault | hfault
    · cases hfault
    · exact safe.outcomes hq store _ hfault
termination_by e.rank
decreasing_by exact this

end Enumeration

/-- **Compiled plans do not go wrong.**  Whatever a database has compiled, from its cache or anew,
binds in its sessions unless a lookup misses something in the model.  No step of an enumeration ends
in an internal error, over any store, session and parameters, with the other enumerations of the
session coming in between as they like; so none does when it is run to its end. -/
theorem compiled_plans_safe {model : Model} {config : Config} {contextType : String}
    {d : Database} (hd : d.Reachable ⟨model, config, contextType, id⟩) {shaped : ShapedQuery}
    {plan : CompiledPlan} (hp : (d.compile shaped).1 = .ok plan) (parameters : Parameters) :
    (∀ e, plan.plan.bind (d.compiler.queryContext parameters) = .error e →
      IsModelError e ∧ ∃ q, plan.plan.source = .lookup q) ∧
    (∀ q, plan.plan.bind (d.compiler.queryContext parameters) = .ok q →
      ∀ e, q.Reaches e → ∀ (store : Store) (s : Session) (fault : RunError),
      ((e.next Except.ok store s).outcome = some (.error fault) → ¬ fault.IsInternal) ∧
      (.error fault ∈ (e.outcomes Except.ok store s).1 → ¬ fault.IsInternal)) := by
  have sound := hd.sound rfl hp
  rw [(hd.invariant rfl).1]
  refine ⟨fun e he => sound.bind_error parameters he, ?_⟩
  intro q hq e he store s fault
  have safe := sound.bind_safe parameters hq
  have reached := Enumeration.safe_of_reaches safe he
  exact ⟨(reached.next safe store s).1 fault, reached.outcomes safe store s⟩

/-- The tagged posts as records. -/
def listedPosts : ShapedQuery where
  query := .select taggedPosts
  shaper := .record [("id", .binding 0 .int32 false), ("kind", .constant (.text "post"))]

/-- A compiler for a model of posts that lays its rows out as value lists. -/
def postCompiler : Compiler where
  model := .ofList [⟨"Post", "posts", [⟨"Id", .int32, false, "id", none⟩], ["Id"], none, []⟩]
  config := { Config.default with rowLayout := .ordinal }
  contextType := "Posts"
  constantFactory := id

def postDatabase : Database := ⟨postCompiler, .ofCapacity postCompiler.config.planCacheCapacity⟩

/-- Records of posts are compiled for value lists and enumerated to any point. -/
theorem compiled_plans_safe_listedPosts :
    ∃ (plan : CompiledPlan) (q : BoundQuery), (postDatabase.compile listedPosts).1 = .ok plan ∧
      plan.plan.bind (postDatabase.compiler.queryContext taggedParameters) = .ok q ∧
      ∀ e, q.Reaches e → ∀ (store : Store) (s : Session) (fault : RunError),
        (e.next Except.ok store s).outcome = some (.error fault) → ¬ fault.IsInternal := by
  have opened : postDatabase.Reachable postCompiler := .opened rfl
  obtain ⟨plan, hplan, hbound⟩ : ∃ plan, (postDatabase.compile listedPosts).1 = .ok plan ∧
      ∃ q, plan.plan.bind (postDatabase.compiler.queryContext taggedParameters) = .ok q :=
    ⟨_, rfl, _, rfl⟩
  obtain ⟨q, hq⟩ := hbound
  exact ⟨plan, q, hplan, hq, fun e he store s fault =>
    ((compiled_plans_safe opened hplan taggedParameters).2 q hq e he store s fault).1⟩

end DocQuery
