/-
# Bare selects

What a select gives does not depend on everything that is in it.  The types and mappings of its
expressions are not read by the evaluator, nor is the width of its integers; the minus of a number
may stand in the constant or in front of it; an entity is projected as the column of its path; and
no offset is the offset 0.  `SelectOf.bare` leaves these out, and a bare select is run with the
same outcome (`SelectOf.run_bare`).

It is the normal form for what a TEXT can determine.  Two selects of one text are shown to have
one bare form elsewhere, and from here on they are run alike.

* A constant takes in the minus in front of it where the evaluator computes the exact negative
  (`negatesExactly`).  It does for all integers of 53 bits (`negatesExactly_of_lt`), and since it
  counts in doubles not for all beyond.
* The marks of scoring functions are kept where they rank the rows, and only there.
* The name of an only projection is in no row (`SelectOf.row_bare`), so it is left out too.
-/
import DocQuery.Proofs.Inlining
import DocQuery.Proofs.PlanSafety

namespace DocQuery

/-! ## 1. Numbers -/

/-- Whether the minus in front of an integer gives its negative.  Beyond `2^53` it may not, since
the evaluator counts in doubles. -/
def negatesExactly (n : Int) : Bool := (applyUnary .negate (.ofInt n)).same (.ofInt (-n))

theorem applyUnary_negate {n : Int} (h : negatesExactly n = true) :
    applyUnary .negate (.ofInt n) = .ofInt (-n) := by
  unfold negatesExactly at h
  generalize applyUnary .negate (.ofInt n) = j at h
  cases j with
  | number m => cases m with
    | integer i =>
      have : i = -n := by simpa [Json.same, Json.ofInt, Number.same] using h
      rw [this, Json.ofInt]
    | double x => simp [Json.same, Json.ofInt, Number.same] at h
    | single x => simp [Json.same, Json.ofInt, Number.same] at h
  | _ => simp [Json.same, Json.ofInt] at h

namespace Format

theorem nearest_of_dvd {f : Format} {num : Nat} (h : Nat.pow 2 (f.spacing num) ∣ num) :
    f.nearest num 1 = num := by
  obtain ⟨k, hk⟩ := h
  have positive : 0 < Nat.pow 2 (f.spacing num) := Nat.pow_pos (by decide)
  have exact : divideToEven num (Nat.pow 2 (f.spacing num)) = k := by
    generalize Nat.pow 2 (f.spacing num) = step at hk positive
    subst hk
    simp [divideToEven, Nat.mul_div_cancel_left k positive, positive]
  rw [nearest, Nat.div_one, Nat.one_mul, exact, Nat.mul_comm]
  exact hk.symm

end Format

theorem unitsPerOne_pos : 0 < unitsPerOne := Nat.pow_pos Nat.two_pos

namespace Double

/-- Whole numbers of 53 bits are doubles. -/
theorem ofUnits_whole {k : Nat} (h : k < Nat.pow 2 53) {value : Int}
    (hvalue : value.natAbs = k * unitsPerOne) (zeroNegative : Bool) :
    ofUnits value zeroNegative =
      .finite ⟨if value = 0 then zeroNegative else value < 0, k * unitsPerOne⟩ := by
  have scaled : ∀ p q : Nat, k < 2 ^ p → k * 2 ^ q < 2 ^ (p + q) := by
    intro p q h
    rw [Nat.pow_add]
    exact Nat.mul_lt_mul_of_pos_right h (Nat.pow_pos Nat.two_pos)
  have small : k * unitsPerOne < 2 ^ (53 + 1074) := by
    unfold unitsPerOne
    exact scaled 53 1074 h
  have spacing : Format.double.spacing (k * unitsPerOne) ≤ 1074 := by
    by_cases hk : k * unitsPerOne = 0
    · rw [hk]
      decide
    · have := (Nat.log2_lt hk).2 small
      simp only [Format.spacing, Format.double]
      omega
  have divides : Nat.pow 2 (Format.double.spacing (k * unitsPerOne)) ∣ k * unitsPerOne :=
    Nat.dvd_trans (Nat.pow_dvd_pow 2 spacing) (Nat.dvd_mul_left _ _)
  have fits : k * unitsPerOne < Nat.pow 2 Format.double.limit :=
    Nat.lt_trans small (Nat.pow_lt_pow_right (by decide) (by decide))
  simp only [ofUnits, Format.round, hvalue, Format.nearest_of_dvd divides, if_pos fits]

theorem ofInt_whole {k : Nat} (h : k < Nat.pow 2 53) : ofInt k = .finite ⟨false, k * unitsPerOne⟩ := by
  have value : ((k : Int) * unitsPerOne).natAbs = k * unitsPerOne := by
    rw [Int.natAbs_mul, Int.natAbs_natCast, Int.natAbs_natCast]
  have nonneg : ¬ (k : Int) * unitsPerOne < 0 := by
    rw [← Int.natCast_mul]
    omega
  rw [ofInt, ofUnits_whole h value]
  simp only [nonneg, decide_false, ite_self]

/-- The difference to zero of a whole number of 53 bits; that of zero has either sign. -/
theorem zero_sub_whole {k : Nat} (h : k < Nat.pow 2 53) : ∃ negative,
    (ofInt 0).sub (ofInt k) = .finite ⟨negative, k * unitsPerOne⟩ ∧ (k ≠ 0 → negative = true) := by
  have zero : ofInt 0 = .finite ⟨false, 0⟩ := by
    have whole := ofInt_whole (k := 0) (by decide)
    rwa [Nat.zero_mul] at whole
  have difference : (ofInt 0).sub (ofInt k) = ofUnits (-((k : Int) * unitsPerOne)) false := by
    rw [zero, ofInt_whole h]
    simp only [sub, neg, add, Finite.value, Bool.not_false, if_true, Bool.false_and,
      Bool.false_eq_true, if_false, Int.natCast_mul, Int.ofNat_zero, Int.zero_add]
  have magnitude : (-((k : Int) * unitsPerOne)).natAbs = k * unitsPerOne := by
    rw [Int.natAbs_neg, Int.natAbs_mul, Int.natAbs_natCast, Int.natAbs_natCast]
  refine ⟨_, difference.trans (ofUnits_whole h magnitude false), ?_⟩
  intro hk
  have product := Int.mul_pos (Int.natCast_pos.2 (Nat.pos_of_ne_zero hk))
    (Int.natCast_pos.2 unitsPerOne_pos)
  have below : -((k : Int) * unitsPerOne) < 0 := Int.neg_neg_of_pos product
  rw [if_neg (Int.ne_of_lt below)]
  exact decide_eq_true below

end Double

/-- Minus is exact on integers of 53 bits. -/
theorem negatesExactly_of_lt {k : Nat} (h : k < Nat.pow 2 53) : negatesExactly k = true := by
  obtain ⟨negative, difference, sign⟩ := Double.zero_sub_whole h
  have bound : k < 9007199254740992 := h
  have whole : k * unitsPerOne / unitsPerOne = k := Nat.mul_div_cancel k unitsPerOne_pos
  have fits : fitsInt64 k = true := by
    simp only [fitsInt64, Bool.and_eq_true, decide_eq_true_eq]
    omega
  have truncated : clampInt64 (if negative then -(k : Int) else k) = -k := by
    have : (if negative then -(k : Int) else k) = -k := by
      by_cases hk : k = 0
      · simp [hk]
      · rw [if_pos (sign hk)]
    rw [this, clampInt64]
    omega
  have zeroFits : fitsInt64 0 = true := rfl
  simp [negatesExactly, applyUnary, applyArithmetic, Json.ofInt, Json.asDouble?, Number.toDouble,
    arithmetic?, difference, Json.asInt64?, fits, zeroFits, arithmeticResult, Finite.isWhole,
    Finite.truncate, whole, truncated, Json.same, Number.same]

theorem toInt_neg_of_nonneg {n : Int64} (h : 0 ≤ n.toInt) : (-n).toInt = -n.toInt := by
  have := n.toInt_lt
  rw [Int64.toInt_neg]
  exact Int.bmod_eq_of_le (by omega) (by omega)

namespace Scalar

/-- The scalar with its integer, if it is one, in the wider type. -/
def widened : Scalar → Scalar
  | .int32 n => .int64 n.toInt64
  | s => s

theorem toJson_widened (s : Scalar) : s.widened.toJson = s.toJson := by
  cases s with
  | int32 n => rw [widened, toJson, toJson, Int32.toInt_toInt64]
  | _ => rfl

end Scalar

/-! ## 2. Expressions -/

namespace Expr

/-- Minus in front of an expression; a constant takes it in if it is exact there. -/
def negated : Expr → Expr
  | .constant (.int64 n) _ _ =>
    if 0 ≤ n.toInt ∧ negatesExactly n.toInt then .constant (.int64 (-n)) .object none
    else .unary .negate (.constant (.int64 n) .object none) none
  | e => .unary .negate e none

def bareUnary : UnaryOp → Expr → Expr
  | .negate, e => negated e
  | op, e => .unary op e none

mutual

/-- The expression without types, mappings and the marks of scoring functions. -/
def bare : Expr → Expr
  | .column source path _ _ => .column source path .object none
  | .constant value _ _ => .constant value.widened .object none
  | .parameter name _ _ => .parameter name .object none
  | .binary op left right _ => .binary op left.bare right.bare none
  | .unary op operand _ => bareUnary op operand.bare
  | .function name args _ _ _ => .function name (bareList args) false .object none
  | .inList item values => .inList item.bare (bareList values)
  | .inParameter item values => .inParameter item.bare values
  | .inSubquery item values => .inSubquery item.bare values

def bareList : List Expr → List Expr
  | [] => []
  | e :: rest => e.bare :: bareList rest

end

theorem bareList_eq_map (es : List Expr) : bareList es = es.map bare := by
  induction es with
  | nil => rfl
  | cons e es ih => rw [bareList, List.map_cons, ih]

variable (env : Environment)

theorem eval_negated (e : Expr) : (negated e).eval env = (e.eval env).map (applyUnary .negate) := by
  unfold negated
  split
  · next n _ _ =>
    split
    · next h =>
      rw [eval, eval, Scalar.toJson, Scalar.toJson, toInt_neg_of_nonneg h.1]
      show _ = Except.ok _
      rw [applyUnary_negate h.2]
    · rw [eval, eval, eval]
      rfl
  · rw [eval]
    rfl

theorem eval_bareUnary (op : UnaryOp) (e : Expr) :
    (bareUnary op e).eval env = (e.eval env).map (applyUnary op) := by
  cases op with
  | negate => exact eval_negated env e
  | not | isNull | isNotNull =>
    simp only [bareUnary, eval]
    rfl

mutual

/-- A bare expression has the value of the expression. -/
theorem eval_bare : ∀ e : Expr, e.bare.eval env = e.eval env
  | .column .. => by rw [bare, eval, eval]
  | .constant value _ _ => by rw [bare, eval, eval, Scalar.toJson_widened]
  | .parameter .. => by rw [bare, eval, eval]
  | .binary op left right _ => by rw [bare, eval, eval, eval_bare left, eval_bare right]
  | .unary op operand _ => by
    rw [bare, eval_bareUnary, eval, eval_bare operand]
    rfl
  | .function name args _ _ _ => by rw [bare, eval, eval, evalList_bareList args]
  | .inList item values => by rw [bare, eval, eval, eval_bare item, evalList_bareList values]
  | .inParameter item values => by rw [bare, eval, eval, eval_bare item]
  | .inSubquery item values => by rw [bare, eval, eval, eval_bare item]

theorem evalList_bareList : ∀ es : List Expr, evalList env (bareList es) = evalList env es
  | [] => by rw [bareList]
  | e :: rest => by rw [bareList, evalList, evalList, eval_bare e, evalList_bareList rest]

end

/-- A function that is marked as scoring. -/
def marked : Expr → Expr
  | .function name args _ type mapping => .function name args true type mapping
  | e => e

theorem eval_marked (e : Expr) : e.marked.eval env = e.eval env := by
  cases e with
  | function name args isScoring type mapping => rw [marked, eval, eval]
  | _ => rfl

theorem isScoring_bare (e : Expr) : e.bare.isScoring = false := by
  have minus : ∀ e, (negated e).isScoring = false := by
    intro e
    unfold negated
    split
    · split <;> rfl
    · rfl
  cases e with
  | unary op operand mapping =>
    rw [bare]
    cases op with
    | negate => exact minus _
    | _ => rfl
  | _ => rw [bare]; rfl

end Expr

/-! ## 3. Selects -/

/-- An ordering without what execution does not read; the marks of scoring functions are kept where
they rank the rows. -/
def OrderingTerm.bare (ranked : Bool) (o : OrderingTerm Expr) : OrderingTerm Expr :=
  ⟨if ranked && o.expr.isScoring then o.expr.bare.marked else o.expr.bare, o.ascending⟩

/-- An entity is the column of its path. -/
def ProjectionItem.bare (source : String) : ProjectionItem Expr → ProjectionItem Expr
  | .scalar e => .scalar e.bare
  | .entity _ path => .scalar (.column source path .object none)

theorem OrderingTerm.keepsOrder_bare : KeepsOrder (OrderingTerm.bare true) where
  ascending _ := rfl
  isScoring o := by
    obtain ⟨e, ascending⟩ := o
    show (if true && e.isScoring then e.bare.marked else e.bare).isScoring = e.isScoring
    cases h : e.isScoring with
    | false => exact e.isScoring_bare
    | true => cases e with
      | function name args isScoring type mapping =>
        rw [Expr.bare]
        rfl
      | _ => exact nomatch h

namespace SelectOf

/-- The offset that a limit goes with; the first row if there is none. -/
def pageOffset (s : Select) : Option Expr :=
  match s.offset, s.limit with
  | none, some _ => some (.constant (.int64 0) .object none)
  | offset, _ => offset

/-- The select without what execution does not read.  The name of an only projection is left out
too. -/
def bare (s : Select) : Select where
  container := s.container
  source := s.source
  projection := s.projection.map fun p =>
    ⟨p.item.bare s.source, if s.projection.length = 1 then "" else p.name⟩
  predicate := s.predicate.map Expr.bare
  orderings := s.orderings.map (OrderingTerm.bare s.isScoreOrdered)
  limit := s.limit.map Expr.bare
  offset := s.pageOffset.map Expr.bare
  distinct := s.distinct

variable (s : Select) (parameters : Dictionary Json)

theorem isScoreOrdered_bare : s.bare.isScoreOrdered = s.isScoreOrdered := by
  unfold isScoreOrdered bare
  cases h : s.orderings with
  | nil => rfl
  | cons o os =>
    show (OrderingTerm.bare s.isScoreOrdered o).expr.isScoring = o.expr.isScoring
    have ranked : s.isScoreOrdered = o.expr.isScoring := by rw [isScoreOrdered, h]
    cases hscoring : o.expr.isScoring with
    | false =>
      rw [ranked, hscoring]
      exact o.expr.isScoring_bare
    | true =>
      rw [ranked, hscoring]
      exact (OrderingTerm.keepsOrder_bare.isScoring o).trans hscoring

theorem keeps_bare (document : Json) : s.bare.keeps parameters document = s.keeps parameters document := by
  unfold keeps bare
  cases s.predicate with
  | none => rfl
  | some e =>
    show (e.bare.eval _).map _ = _
    rw [Expr.eval_bare]
    rfl

theorem filterDocuments_bare : ∀ documents,
    s.bare.filterDocuments parameters documents = s.filterDocuments parameters documents
  | [] => rfl
  | document :: rest => by
    rw [filterDocuments, filterDocuments, keeps_bare, filterDocuments_bare rest]

theorem sortEntry_bare (document : Json) : s.bare.sortEntry parameters document =
    (s.sortEntry parameters document).map
      (SortEntry.relabel (OrderingTerm.bare s.isScoreOrdered)) := by
  let key (o : OrderingTerm Expr) : Except RunError (OrderingTerm Expr × Json) := do
    return (o, ← o.expr.eval (s.environment parameters document))
  have keys : s.bare.orderings.mapM key =
      (s.orderings.mapM key).map
        (List.map (SortEntry.relabelKey (OrderingTerm.bare s.isScoreOrdered))) := by
    refine mapM_map fun o _ => ?_
    have value : (OrderingTerm.bare s.isScoreOrdered o).expr.eval
        (s.environment parameters document) =
        o.expr.eval (s.environment parameters document) := by
      unfold OrderingTerm.bare
      dsimp only
      split
      · rw [Expr.eval_marked, Expr.eval_bare]
      · rw [Expr.eval_bare]
    simp only [key, value]
    cases o.expr.eval (s.environment parameters document) <;> rfl
  show s.bare.orderings.mapM key >>= _ = (s.orderings.mapM key >>= _).map _
  rw [keys]
  cases s.orderings.mapM key <;> rfl

theorem sortDocuments_bare (documents : List Json) :
    s.bare.sortDocuments parameters documents = s.sortDocuments parameters documents := by
  have isEmpty : s.bare.orderings.isEmpty = s.orderings.isEmpty := List.isEmpty_map
  have entries : documents.mapM (s.bare.sortEntry parameters) =
      (documents.mapM (s.sortEntry parameters)).map
        (List.map (SortEntry.relabel (OrderingTerm.bare s.isScoreOrdered))) := by
    have relabeled : (documents.map id).mapM (s.bare.sortEntry parameters) = _ :=
      mapM_map fun d _ => s.sortEntry_bare parameters d
    rwa [List.map_id] at relabeled
  have sorted : ∀ entries : List SortEntry, sortEntries s.isScoreOrdered
      (entries.map (SortEntry.relabel (OrderingTerm.bare s.isScoreOrdered))) =
      (sortEntries s.isScoreOrdered entries).map
        (List.map (SortEntry.relabel (OrderingTerm.bare s.isScoreOrdered))) := by
    intro entries
    cases s.isScoreOrdered with
    | true => exact OrderingTerm.keepsOrder_bare.sortEntries true entries
    | false =>
      have directions : ∀ o, (OrderingTerm.bare false o).ascending = o.ascending := fun _ => rfl
      exact sortBy_map (fun a b => compareKeys_relabel directions a.keys b.keys) entries
  unfold sortDocuments
  rw [isEmpty, isScoreOrdered_bare, entries]
  split
  · rfl
  · cases documents.mapM (s.sortEntry parameters) with
    | error e => rfl
    | ok entries =>
      show (RunError.ofSort (sortEntries _ (entries.map _)) >>= _) = _
      rw [sorted]
      show _ = (RunError.ofSort (sortEntries _ entries) >>= _)
      cases sortEntries s.isScoreOrdered entries with
      | none => rfl
      | some ordered =>
        refine congrArg Except.ok ?_
        rw [List.map_map]
        rfl

theorem bound?_bare (what : String) (e : Option Expr) :
    s.bare.bound? parameters what (e.map Expr.bare) = s.bound? parameters what e := by
  cases e with
  | none => rfl
  | some e =>
    show (s.bare.bound parameters what e.bare).map _ = _
    unfold bound
    rw [Expr.eval_bare]
    rfl

/-- No offset is the offset 0. -/
theorem bound?_pageOffset {α : Type} (what : String) {f : Option Nat → Except RunError α}
    (first : f (some 0) = f none) :
    (s.bound? parameters what s.pageOffset >>= f) = s.bound? parameters what s.offset >>= f := by
  unfold pageOffset
  split
  · next h _ =>
    rw [h]
    exact first
  · rfl

theorem project_bare (document : Json) :
    s.bare.project parameters document = s.project parameters document := by
  unfold project
  show (s.projection.map _).mapM _ = _
  rw [List.mapM_map]
  congr 1
  funext p
  obtain ⟨item, name⟩ := p
  cases item with
  | scalar e => exact Expr.eval_bare _ e
  | entity t path =>
    show Expr.eval _ (.column s.source path .object none) = _
    rw [Expr.eval]
    exact if_neg (not_not_intro rfl)

/-- The name of an only projection is not in the rows. -/
theorem row_bare (layout : RowLayout) {values : List Json}
    (h : values.length = s.projection.length) : s.bare.row layout values = s.row layout values := by
  cases layout with
  | ordinal => rfl
  | document =>
    unfold row bare
    generalize s.projection = projection at h
    rcases projection with _ | ⟨p, _ | ⟨p', ps⟩⟩
    · rfl
    · obtain ⟨value, rfl⟩ := List.length_eq_one_iff.1 h
      rfl
    · simp [Function.comp_def]

/-- **A bare select is run with the outcome of the select.** -/
theorem run_bare (layout : RowLayout) (documents : List Json) :
    s.bare.run parameters layout documents = s.run parameters layout documents := by
  unfold run
  rw [filterDocuments_bare]
  refine bind_congr_ok fun kept _ => ?_
  rw [sortDocuments_bare]
  refine bind_congr_ok fun sorted _ => ?_
  refine Eq.trans ?_ (s.bound?_pageOffset parameters "OFFSET" rfl)
  show (s.bare.bound? parameters "OFFSET" (s.pageOffset.map Expr.bare)) >>= _ = _
  rw [bound?_bare]
  refine bind_congr_ok fun offset _ => ?_
  show (s.bare.bound? parameters "LIMIT" (s.limit.map Expr.bare)) >>= _ = _
  rw [bound?_bare]
  refine bind_congr_ok fun limit _ => ?_
  have projected : s.bare.project parameters = s.project parameters :=
    funext (s.project_bare parameters)
  rw [projected]
  refine bind_congr_ok fun rows hrows => congrArg Except.ok (List.map_congr_left ?_)
  intro values hvalues
  obtain ⟨document, -, hdocument⟩ := mem_of_mapM_eq_ok hrows values (mem_of_mem_page hvalues)
  exact s.row_bare layout (length_of_mapM hdocument)

end SelectOf

end DocQuery
