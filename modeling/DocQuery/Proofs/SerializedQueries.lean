/-
# The serialized form of expressions, queries and shapers

The trees of a query, each encoded as a variant with its tag and data.  Expressions and selects
contain each other, through subqueries, so their lemmas are one mutual recursion along the
constructors: an encoding is `Written` when those of the parts are, and the tag leads the decoder
to the branch that the constructor was written by.

What is asked of a tree is that the constants in it are portable (`Expr.Portable` and its like for
selects, queries and shapers).  Positions are words of 64 bits.
-/
import DocQuery.Proofs.SerializedModels
import DocQuery.Proofs.ShapeText

namespace DocQuery

open Codec Json

variable {w : Json}

/-! ## 1. Operators and parameters of collections -/

@[simp] theorem BinaryOp.exact_encode (op : BinaryOp) : op.encode.Exact := exact_string _

theorem BinaryOp.written_encode (op : BinaryOp) :
    Written (w := w) (plain BinaryOp.decode?) op.encode op :=
  written_named (fun op => by cases op <;> rfl) op

@[simp] theorem UnaryOp.exact_encode (op : UnaryOp) : op.encode.Exact := exact_string _

theorem UnaryOp.written_encode (op : UnaryOp) :
    Written (w := w) (plain UnaryOp.decode?) op.encode op :=
  written_named (fun op => by cases op <;> rfl) op

@[simp] theorem SetOperator.exact_encode (op : SetOperator) : op.encode.Exact := exact_string _

theorem SetOperator.written_encode (op : SetOperator) :
    Written (w := w) (plain SetOperator.decode?) op.encode op :=
  written_named (fun op => by cases op <;> rfl) op

theorem CollectionParameter.written_encode (c : CollectionParameter) :
    Written (w := w) CollectionParameter.decode? c.encode c := by
  refine .record (by simp) (by simp) fun f holds => ?_
  refine bind_eq_some_of (holds.required rfl (written_text _)) ?_
  refine bind_eq_some_of (holds.required rfl c.elementType.written_encode) ?_
  exact bind_eq_some_of (holds.optional rfl (written_mapping _)) rfl

/-! ## 2. Expressions and selects -/

namespace Expr

theorem written_variant {tag : String} {data : Json} {e : Expr}
    (h : Written (w := variant tag data) (ofVariant? (plain decode?) tag) data e) :
    Written (w := w) (plain decode?) (variant tag data) e :=
  written_tagged h fun _ => by
    change decode? (.object [(tag, data)]) = _
    rw [decode?]
    rfl

theorem isNull_encode (e : Expr) : e.encode.isNull = false := by
  cases e <;> rw [encode] <;> rfl

mutual

/-- **Encoded expressions are read back**, if their constants are. -/
theorem written_encode : ∀ (e : Expr) {w : Json}, (∀ c ∈ e.constants, c.Portable) →
    Written (w := w) (plain decode?) e.encode e
  | .column source path type mapping, w, _ => by
    rw [encode]
    refine written_variant (.record (by simp [typed]) (by simp [typed]) fun f holds => ?_)
    refine bind_eq_some_of (holds.required rfl (written_text _)) ?_
    refine bind_eq_some_of (holds.required rfl (written_texts _)) ?_
    refine bind_eq_some_of (holds.required rfl type.written_encode) ?_
    exact bind_eq_some_of (holds.optional rfl (written_mapping _)) rfl
  | .constant value type mapping, w, h => by
    have portable : value.Portable := h value (by simp [constants])
    rw [encode]
    refine written_variant (.record (by simp [typed])
      (by simp [typed, Scalar.exact_encode portable]) fun f holds => ?_)
    refine bind_eq_some_of (holds.required rfl (Scalar.written_encode portable)) ?_
    refine bind_eq_some_of (holds.required rfl type.written_encode) ?_
    exact bind_eq_some_of (holds.optional rfl (written_mapping _)) rfl
  | .parameter name type mapping, w, _ => by
    rw [encode]
    refine written_variant (.record (by simp [typed]) (by simp [typed]) fun f holds => ?_)
    refine bind_eq_some_of (holds.required rfl (written_text _)) ?_
    refine bind_eq_some_of (holds.required rfl type.written_encode) ?_
    exact bind_eq_some_of (holds.optional rfl (written_mapping _)) rfl
  | .binary op left right mapping, w, h => by
    rw [constants] at h
    obtain ⟨hleft, hright⟩ := List.forall_mem_append.1 h
    have exact := And.intro (written_encode left hleft (w := .null)).exact
      (written_encode right hright (w := .null)).exact
    rw [encode]
    refine written_variant (.record (by simp) (by simp [exact]) fun f holds => ?_)
    refine bind_eq_some_of (holds.required rfl op.written_encode) ?_
    refine bind_eq_some_of (holds.required rfl (written_encode left hleft)) ?_
    refine bind_eq_some_of (holds.required rfl (written_encode right hright)) ?_
    exact bind_eq_some_of (holds.optional rfl (written_mapping _)) rfl
  | .unary op operand mapping, w, h => by
    rw [constants] at h
    have exact := (written_encode operand h (w := .null)).exact
    rw [encode]
    refine written_variant (.record (by simp) (by simp [exact]) fun f holds => ?_)
    refine bind_eq_some_of (holds.required rfl op.written_encode) ?_
    refine bind_eq_some_of (holds.required rfl (written_encode operand h)) ?_
    exact bind_eq_some_of (holds.optional rfl (written_mapping _)) rfl
  | .function name args isScoring type mapping, w, h => by
    rw [constants] at h
    have exact := exact_of_forall (writtenList args h (w := .null))
    rw [encode]
    refine written_variant (.record (by simp [typed]) (by simpa [typed] using exact)
      fun f holds => ?_)
    refine bind_eq_some_of (holds.required rfl (written_text _)) ?_
    refine bind_eq_some_of (holds.required rfl (.list (writtenList args h))) ?_
    refine bind_eq_some_of (holds.required rfl (written_flag _)) ?_
    refine bind_eq_some_of (holds.required rfl type.written_encode) ?_
    exact bind_eq_some_of (holds.optional rfl (written_mapping _)) rfl
  | .inList item values, w, h => by
    rw [constants] at h
    obtain ⟨hitem, hvalues⟩ := List.forall_mem_append.1 h
    have exact := And.intro (written_encode item hitem (w := .null)).exact
      (exact_of_forall (writtenList values hvalues (w := .null)))
    rw [encode, inVariant]
    refine written_variant (.record (by simp) (by simpa using exact) fun f holds => ?_)
    refine bind_eq_some_of (holds.required rfl (written_encode item hitem)) ?_
    obtain ⟨part, found, value⟩ := holds.variant "values" rfl
    refine bind_eq_some_of found ?_
    exact bind_eq_some_of ((Written.list (writtenList values hvalues)).decoded part value) rfl
  | .inParameter item values, w, h => by
    rw [constants] at h
    have exact := And.intro (written_encode item h (w := .null)).exact
      (values.written_encode (w := .null)).exact
    rw [encode, inVariant]
    refine written_variant (.record (by simp) (by simp [exact]) fun f holds => ?_)
    refine bind_eq_some_of (holds.required rfl (written_encode item h)) ?_
    obtain ⟨part, found, value⟩ := holds.variant "values" rfl
    refine bind_eq_some_of found ?_
    exact bind_eq_some_of (values.written_encode.decoded part value) rfl
  | .inSubquery item values, w, h => by
    rw [constants] at h
    obtain ⟨hitem, hvalues⟩ := List.forall_mem_append.1 h
    have exact := And.intro (written_encode item hitem (w := .null)).exact
      (writtenSelect values hvalues (w := .null)).exact
    rw [encode, inVariant]
    refine written_variant (.record (by simp) (by simp [exact]) fun f holds => ?_)
    refine bind_eq_some_of (holds.required rfl (written_encode item hitem)) ?_
    obtain ⟨part, found, value⟩ := holds.variant "values" rfl
    refine bind_eq_some_of found ?_
    exact bind_eq_some_of ((writtenSelect values hvalues).decoded part value) rfl

theorem writtenList : ∀ (es : List Expr) {w : Json}, (∀ c ∈ constantsOfList es, c.Portable) →
    List.Forall₂ (Written (w := w) (plain decode?)) (encodeList es) es
  | [], _, _ => by
    rw [encodeList]
    exact .nil
  | e :: es, _, h => by
    rw [constantsOfList] at h
    obtain ⟨he, hes⟩ := List.forall_mem_append.1 h
    rw [encodeList]
    exact .cons (written_encode e he) (writtenList es hes)

theorem writtenOption : ∀ (o : Option Expr) {w : Json}, (∀ c ∈ constantsOfOption o, c.Portable) →
    WrittenOption (w := w) (plain decode?) (encodeOption o) o
  | none, _, _ => by
    rw [encodeOption]
    exact .none
  | some e, _, h => by
    rw [constantsOfOption] at h
    rw [encodeOption]
    exact .some (written_encode e h) e.isNull_encode

theorem writtenItem : ∀ (i : ProjectionItem Expr) {w : Json},
    (∀ c ∈ constantsOfItem i, c.Portable) →
    Written (w := w) (projectionItem? (plain decode?)) (encodeItem i) i
  | .scalar e, _, h => by
    rw [constantsOfItem] at h
    rw [encodeItem]
    exact .variant ((written_encode e h).map _)
  | .entity type path, _, _ => by
    rw [encodeItem]
    refine .variant (.record (by simp) (by simp) fun f holds => ?_)
    refine bind_eq_some_of (holds.required rfl (written_text _)) ?_
    exact bind_eq_some_of (holds.required rfl (written_texts _)) rfl

theorem writtenProjection : ∀ (ps : List (Projection Expr)) {w : Json},
    (∀ c ∈ constantsOfProjection ps, c.Portable) →
    List.Forall₂ (Written (w := w) (projection? (plain decode?))) (encodeProjection ps) ps
  | [], _, _ => by
    rw [encodeProjection]
    exact .nil
  | ⟨item, name⟩ :: ps, _, h => by
    rw [constantsOfProjection] at h
    obtain ⟨hitem, hps⟩ := List.forall_mem_append.1 h
    have exact := (writtenItem item hitem (w := .null)).exact
    rw [encodeProjection]
    refine .cons (.record (by simp) (by simp [exact]) fun f holds => ?_) (writtenProjection ps hps)
    refine bind_eq_some_of (holds.required rfl (writtenItem item hitem)) ?_
    exact bind_eq_some_of (holds.required rfl (written_text _)) rfl

theorem writtenOrderings : ∀ (os : List (OrderingTerm Expr)) {w : Json},
    (∀ c ∈ constantsOfOrderings os, c.Portable) →
    List.Forall₂ (Written (w := w) (ordering? (plain decode?))) (encodeOrderings os) os
  | [], _, _ => by
    rw [encodeOrderings]
    exact .nil
  | ⟨e, ascending⟩ :: os, _, h => by
    rw [constantsOfOrderings] at h
    obtain ⟨he, hos⟩ := List.forall_mem_append.1 h
    have exact := (written_encode e he (w := .null)).exact
    rw [encodeOrderings]
    refine .cons (.record (by simp) (by simp [exact]) fun f holds => ?_) (writtenOrderings os hos)
    refine bind_eq_some_of (holds.required rfl (written_encode e he)) ?_
    exact bind_eq_some_of (holds.required rfl (written_flag _)) rfl

theorem writtenSelect : ∀ (s : SelectOf Expr) {w : Json},
    (∀ c ∈ constantsOfSelect s, c.Portable) →
    Written (w := w) (select? (plain decode?)) (encodeSelect s) s
  | ⟨container, source, projection, predicate, orderings, limit, offset, distinct⟩, w, h => by
    rw [constantsOfSelect] at h
    simp only [List.forall_mem_append] at h
    obtain ⟨hprojection, hpredicate, horderings, hlimit, hoffset⟩ := h
    have items := exact_of_forall (writtenProjection projection hprojection (w := .null))
    have filter := (writtenOption predicate hpredicate (w := .null)).exact
    have terms := exact_of_forall (writtenOrderings orderings horderings (w := .null))
    have page := And.intro (writtenOption limit hlimit (w := .null)).exact
      (writtenOption offset hoffset (w := .null)).exact
    rw [encodeSelect]
    refine .record (by simp) (by simpa [filter, page] using ⟨items, terms⟩) fun f holds => ?_
    refine bind_eq_some_of (holds.required rfl (written_text _)) ?_
    refine bind_eq_some_of (holds.required rfl (written_text _)) ?_
    refine bind_eq_some_of
      (holds.required rfl (.list (writtenProjection projection hprojection))) ?_
    refine bind_eq_some_of (holds.optional rfl (writtenOption predicate hpredicate)) ?_
    refine bind_eq_some_of (holds.required rfl (.list (writtenOrderings orderings horderings))) ?_
    refine bind_eq_some_of (holds.optional rfl (writtenOption limit hlimit)) ?_
    refine bind_eq_some_of (holds.optional rfl (writtenOption offset hoffset)) ?_
    exact bind_eq_some_of (holds.required rfl (written_flag _)) rfl

end

end Expr

/-- Its constants are portable. -/
def Expr.Portable (e : Expr) : Prop := ∀ c ∈ e.constants, c.Portable

namespace SelectOf

def Portable (s : Select) : Prop := ∀ c ∈ Expr.constantsOfSelect s, c.Portable

theorem written_encode {s : Select} (h : s.Portable) : Written (w := w) decode? s.encode s :=
  Expr.writtenSelect s h

end SelectOf

/-! ## 3. Queries -/

theorem PointLookup.written_encode (l : PointLookup) :
    Written (w := w) PointLookup.decode? l.encode l := by
  have entityType := l.entityType.written_encode (w := .null)
  have parameters := Written.dictionaryOf (d := l.propertyParameters) fun e _ =>
    written_text (w := w) e.2
  refine .record (by simp) (by simp [entityType.exact, parameters.exact]) fun f holds => ?_
  refine bind_eq_some_of (holds.required rfl (written_text _)) ?_
  refine bind_eq_some_of (holds.required rfl l.entityType.written_encode) ?_
  exact bind_eq_some_of (holds.required rfl parameters) rfl

namespace Query

def Portable (q : Query) : Prop := ∀ c ∈ q.constants, c.Portable

theorem written_encode : ∀ {q : Query}, q.Portable → Written (w := w) decode? q.encode q
  | .select s, h => .variant ((SelectOf.written_encode h).map _)
  | .lookup l, _ => .variant (l.written_encode.map _)
  | .setOperation op left right, h => by
    obtain ⟨hleft, hright⟩ := List.forall_mem_append.1 h
    have exact := And.intro (SelectOf.written_encode (w := .null) hleft).exact
      (SelectOf.written_encode (w := .null) hright).exact
    refine .variant (.record (by simp) (by simp [exact]) fun f holds => ?_)
    refine bind_eq_some_of (holds.required rfl op.written_encode) ?_
    refine bind_eq_some_of (holds.required rfl (SelectOf.written_encode hleft)) ?_
    exact bind_eq_some_of (holds.required rfl (SelectOf.written_encode hright)) rfl

end Query

/-! ## 4. Shapers -/

namespace Shaper

mutual

/-- Its constants are portable, and its positions are words of 64 bits. -/
def Portable : Shaper → Prop
  | .binding index _ _ | .entity _ index _ => index < 0x10000000000000000
  | .record fields => PortableFields fields
  | .constant value => value.Portable

def PortableFields : List (String × Shaper) → Prop
  | [] => True
  | (_, s) :: rest => s.Portable ∧ PortableFields rest

end

theorem written_variant {tag : String} {data : Json} {s : Shaper}
    (h : Written (w := variant tag data) (ofVariant? (plain decode?) tag) data s) :
    Written (w := w) (plain decode?) (variant tag data) s :=
  written_tagged h fun _ => by
    change decode? (.object [(tag, data)]) = _
    rw [decode?]
    rfl

mutual

theorem written_encode : ∀ (s : Shaper) {w : Json}, s.Portable →
    Written (w := w) (plain decode?) s.encode s
  | .binding index type nullable, w, h => by
    rw [Portable] at h
    have exact := (written_nat (w := .null) h).exact
    rw [encode]
    refine written_variant (.record (by simp) (by simp [exact]) fun f holds => ?_)
    refine bind_eq_some_of (holds.required rfl (written_nat h)) ?_
    refine bind_eq_some_of (holds.required rfl type.written_encode) ?_
    exact bind_eq_some_of (holds.required rfl (written_flag _)) rfl
  | .entity type index nullable, w, h => by
    rw [Portable] at h
    have exact := (written_nat (w := .null) h).exact
    rw [encode]
    refine written_variant (.record (by simp) (by simp [exact]) fun f holds => ?_)
    refine bind_eq_some_of (holds.required rfl (written_text _)) ?_
    refine bind_eq_some_of (holds.required rfl (written_nat h)) ?_
    exact bind_eq_some_of (holds.required rfl (written_flag _)) rfl
  | .record fields, w, h => by
    rw [Portable] at h
    rw [encode]
    exact written_variant ((Written.list (writtenFields fields h)).map _)
  | .constant value, w, h => by
    rw [Portable] at h
    rw [encode]
    exact written_variant ((Scalar.written_encode h).map _)

theorem writtenFields : ∀ (fields : List (String × Shaper)) {w : Json}, PortableFields fields →
    List.Forall₂ (Written (w := w) (pair? (plain text?) (plain decode?))) (encodeFields fields)
      fields
  | [], _, _ => by
    rw [encodeFields]
    exact .nil
  | (name, s) :: fields, _, h => by
    rw [PortableFields] at h
    rw [encodeFields]
    exact .cons ((written_text name).pair (written_encode s h.1)) (writtenFields fields h.2)

end

end Shaper

end DocQuery
