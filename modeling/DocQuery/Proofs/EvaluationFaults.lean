/-
# What can go wrong when a select runs

Running a select fails for few reasons: the store refuses a source, a function or a bound of the
page; an `IN` over a subquery is left in it; a parameter that occurs in it has no value; or its
documents cannot be sorted, because what they are sorted by does not compare transitively.
`EvaluationFault` has one case for each, and `SelectOf.run_failsOnly` says that there are no
others.

Which documents there are decides WHETHER an error arises, never which ones can: the statement is
about the select and the names of its parameters (`SelectOf.parameterNames`), for every list of
documents.

Evaluation is followed along the constructors of expressions, a select along its clauses;
`FailsOnly` collects the faults of the parts, and the names of a part are among those of the
whole.
-/
import DocQuery.Proofs.Outcome
import DocQuery.Store

namespace DocQuery

/-! ## 1. The parameters of a select -/

namespace Expr

mutual

/-- The parameters whose values the evaluation of an expression may ask for. -/
def parameterNames : Expr → List String
  | .column .. | .constant .. => []
  | .parameter name _ _ => [name]
  | .binary _ left right _ => left.parameterNames ++ right.parameterNames
  | .unary _ operand _ => operand.parameterNames
  | .function _ args _ _ _ => parameterNamesOfList args
  | .inList item values => item.parameterNames ++ parameterNamesOfList values
  | .inParameter item values => item.parameterNames ++ [values.name]
  | .inSubquery item _ => item.parameterNames

def parameterNamesOfList : List Expr → List String
  | [] => []
  | e :: rest => e.parameterNames ++ parameterNamesOfList rest

end

end Expr

def ProjectionItem.parameterNames : ProjectionItem Expr → List String
  | .scalar e => e.parameterNames
  | .entity _ _ => []

namespace SelectOf

/-- The parameters that occur in a select. -/
def parameterNames (s : Select) : List String :=
  s.projection.flatMap (·.item.parameterNames) ++ s.predicate.toList.flatMap Expr.parameterNames ++
    s.orderings.flatMap (·.expr.parameterNames) ++ s.limit.toList.flatMap Expr.parameterNames ++
    s.offset.toList.flatMap Expr.parameterNames

variable {s : Select} {name : String}

theorem mem_parameterNames_of_projection {pr : Projection Expr} (h : pr ∈ s.projection)
    (hname : name ∈ pr.item.parameterNames) : name ∈ s.parameterNames := by
  simp only [parameterNames, List.mem_append, List.mem_flatMap]
  exact .inl (.inl (.inl (.inl ⟨pr, h, hname⟩)))

theorem mem_parameterNames_of_predicate {e : Expr} (h : s.predicate = some e)
    (hname : name ∈ e.parameterNames) : name ∈ s.parameterNames := by
  simp only [parameterNames, List.mem_append, List.mem_flatMap]
  exact .inl (.inl (.inl (.inr ⟨e, by rw [h]; exact List.mem_singleton_self e, hname⟩)))

theorem mem_parameterNames_of_ordering {o : OrderingTerm Expr} (h : o ∈ s.orderings)
    (hname : name ∈ o.expr.parameterNames) : name ∈ s.parameterNames := by
  simp only [parameterNames, List.mem_append, List.mem_flatMap]
  exact .inl (.inl (.inr ⟨o, h, hname⟩))

theorem mem_parameterNames_of_limit {e : Expr} (h : s.limit = some e)
    (hname : name ∈ e.parameterNames) : name ∈ s.parameterNames := by
  simp only [parameterNames, List.mem_append, List.mem_flatMap]
  exact .inl (.inr ⟨e, by rw [h]; exact List.mem_singleton_self e, hname⟩)

theorem mem_parameterNames_of_offset {e : Expr} (h : s.offset = some e)
    (hname : name ∈ e.parameterNames) : name ∈ s.parameterNames := by
  simp only [parameterNames, List.mem_append, List.mem_flatMap]
  exact .inr ⟨e, by rw [h]; exact List.mem_singleton_self e, hname⟩

end SelectOf

/-! ## 2. Faults of an expression -/

/-- The errors of evaluating something in which the parameters `names` occur. -/
inductive EvaluationFault (names : List String) (bindings : Dictionary Json) : RunError → Prop where
  | storage (fault : StorageFault) : EvaluationFault names bindings (.storage fault)
  | subquery : EvaluationFault names bindings (.query (.notSupported .subquery))
  | unbound {name : String} (occurs : name ∈ names) (free : bindings.find? name = none) :
      EvaluationFault names bindings (.query (.unboundParameter name))
  | unordered : EvaluationFault names bindings .unordered

theorem callFunction_failsOnly (name : String) (args : List Json) :
    FailsOnly (fun e => ∃ fault, e = .storage fault) (callFunction name args) := by
  unfold callFunction
  split
  all_goals first
    | exact .ok _
    | exact .error ⟨_, rfl⟩

theorem applyBinary_failsOnly {P : RunError → Prop} (op : BinaryOp) (l : Json)
    {right : Except RunError Json} (h : FailsOnly P right) :
    FailsOnly P (applyBinary op l right) := by
  unfold applyBinary
  split
  · exact .ok _
  · exact h.map
  · exact .ok _
  · exact h.map
  · exact h.map

theorem Environment.parameter_failsOnly {env : Environment} {names : List String} {name : String}
    (h : name ∈ names) : FailsOnly (EvaluationFault names env.parameters) (env.parameter name) := by
  unfold parameter
  split
  · exact .ok _
  · next free => exact .error (.unbound h free)

namespace Expr

variable (env : Environment) {names : List String}

mutual

/-- **An expression fails only for lack of a parameter that occurs in it**, or because the store
cannot evaluate it at all. -/
theorem eval_failsOnly : ∀ e : Expr, (∀ n ∈ e.parameterNames, n ∈ names) →
    FailsOnly (EvaluationFault names env.parameters) (e.eval env)
  | .column source path _ _, _ => by
    rw [eval]
    exact .ite (fun _ => .error (.storage _)) fun _ => .ok _
  | .constant value _ _, _ => by
    rw [eval]
    exact .ok _
  | .parameter name _ _, h => by
    rw [eval]
    exact env.parameter_failsOnly (h name (by rw [parameterNames]; exact List.mem_singleton_self _))
  | .binary op l r _, h => by
    rw [parameterNames, List.forall_mem_append] at h
    obtain ⟨hl, hr⟩ := h
    rw [eval]
    refine (eval_failsOnly l hl).bind fun v _ => ?_
    exact applyBinary_failsOnly op v (eval_failsOnly r hr)
  | .unary op e _, h => by
    rw [parameterNames] at h
    rw [eval]
    exact (eval_failsOnly e h).bind fun v _ => .ok _
  | .function name args _ _ _, h => by
    rw [parameterNames] at h
    rw [eval]
    refine (evalList_failsOnly args h).bind fun vs _ => ?_
    exact (callFunction_failsOnly name vs).mono fun e ⟨fault, he⟩ => he ▸ .storage fault
  | .inList e values, h => by
    rw [parameterNames, List.forall_mem_append] at h
    obtain ⟨he, hvalues⟩ := h
    rw [eval]
    refine (eval_failsOnly e he).bind fun v _ => ?_
    exact (evalList_failsOnly values hvalues).bind fun vs _ => .ok _
  | .inParameter e c, h => by
    rw [parameterNames, List.forall_mem_append] at h
    obtain ⟨he, hc⟩ := h
    rw [eval]
    refine (eval_failsOnly e he).bind fun v _ => ?_
    have occurs := hc c.name (List.mem_singleton_self _)
    exact (env.parameter_failsOnly occurs).bind fun vs _ => .ok _
  | .inSubquery e s, h => by
    rw [parameterNames] at h
    rw [eval]
    exact (eval_failsOnly e h).bind fun v _ => .error .subquery

theorem evalList_failsOnly : ∀ es : List Expr, (∀ n ∈ parameterNamesOfList es, n ∈ names) →
    FailsOnly (EvaluationFault names env.parameters) (evalList env es)
  | [], _ => by
    rw [evalList]
    exact .ok _
  | e :: es, h => by
    rw [parameterNamesOfList, List.forall_mem_append] at h
    obtain ⟨he, hes⟩ := h
    rw [evalList]
    refine (eval_failsOnly e he).bind fun v _ => ?_
    exact (evalList_failsOnly es hes).bind fun vs _ => .ok _

end

end Expr

/-! ## 3. Faults of a select -/

namespace SelectOf

variable (s : Select) (bindings : Dictionary Json)

theorem keeps_failsOnly (document : Json) :
    FailsOnly (EvaluationFault s.parameterNames bindings) (s.keeps bindings document) := by
  unfold keeps
  split
  · exact .ok _
  · next e he =>
    refine .map ?_
    exact e.eval_failsOnly (s.environment bindings document) fun n hn =>
      mem_parameterNames_of_predicate he hn

theorem filterDocuments_failsOnly : ∀ documents : List Json,
    FailsOnly (EvaluationFault s.parameterNames bindings) (s.filterDocuments bindings documents)
  | [] => .ok _
  | document :: rest => by
    rw [filterDocuments]
    refine (s.keeps_failsOnly bindings document).bind fun keep _ => ?_
    exact (filterDocuments_failsOnly rest).bind fun kept _ => .ok _

theorem sortDocuments_failsOnly (documents : List Json) :
    FailsOnly (EvaluationFault s.parameterNames bindings) (s.sortDocuments bindings documents) := by
  unfold sortDocuments
  refine .ite (fun _ => .ok _) fun _ => ?_
  refine .bind (.mapM fun document _ => ?_) fun entries _ =>
    .bind (.ofSort .unordered _) fun sorted _ => .ok _
  unfold sortEntry
  refine .bind (.mapM fun o ho => .bind ?_ fun v _ => .ok _) fun keys _ => .ok _
  exact o.expr.eval_failsOnly (s.environment bindings document) fun n hn =>
    mem_parameterNames_of_ordering ho hn

theorem bound?_failsOnly (what : String) {e : Option Expr}
    (h : ∀ x, e = some x → ∀ n ∈ x.parameterNames, n ∈ s.parameterNames) :
    FailsOnly (EvaluationFault s.parameterNames bindings) (s.bound? bindings what e) := by
  cases e with
  | none => exact .ok _
  | some x =>
    rw [bound?, bound]
    refine .map (.bind ?_ fun v _ => ?_)
    · exact x.eval_failsOnly (s.environment bindings .null) (h x rfl)
    · split
      · exact .ok _
      · exact .error (.storage _)

theorem project_failsOnly (document : Json) :
    FailsOnly (EvaluationFault s.parameterNames bindings) (s.project bindings document) := by
  unfold project
  refine .mapM fun pr hpr => ?_
  have occurs : ∀ n ∈ pr.item.parameterNames, n ∈ s.parameterNames :=
    fun n hn => mem_parameterNames_of_projection hpr hn
  obtain ⟨item, name⟩ := pr
  cases item with
  | scalar e => exact e.eval_failsOnly (s.environment bindings document) occurs
  | entity t path => exact .ok _

/-- **A select fails only as its expressions do**, or because its page has a bad bound or its
documents cannot be sorted. -/
theorem run_failsOnly (layout : RowLayout) (documents : List Json) :
    FailsOnly (EvaluationFault s.parameterNames bindings) (s.run bindings layout documents) := by
  unfold run
  refine (s.filterDocuments_failsOnly bindings documents).bind fun kept _ => ?_
  refine (s.sortDocuments_failsOnly bindings kept).bind fun sorted _ => ?_
  refine (s.bound?_failsOnly bindings "OFFSET" fun x hx n hn =>
    mem_parameterNames_of_offset hx hn).bind fun offset _ => ?_
  refine (s.bound?_failsOnly bindings "LIMIT" fun x hx n hn =>
    mem_parameterNames_of_limit hx hn).bind fun limit _ => ?_
  exact (FailsOnly.mapM fun document _ => s.project_failsOnly bindings document).bind
    fun rows _ => .ok _

end SelectOf

end DocQuery
