/-
# The serialized form of row shapers and plans

With these every type of the serialized format is covered, and `serialized_forms_read_back` states
what the format is for: a value that is portable is given back by decoding the text of its
encoding, if that is nested no deeper than the reader allows (`ReadsBack`).

* Row shapers hold accesses, and a position in one is a word of 64 bits.
* Constants are a record of slots; a plan has its source, its shaper, its settings and its
  constants, and both kinds of plan end with the same fields (`Plan.ofFields?_eq`).

Not covered are finite floats and positions beyond 64 bits.
-/
import DocQuery.Proofs.SerializedQueries

namespace DocQuery

open Codec Json

variable {w : Json}

/-! ## 1. Row shapers -/

namespace ValueAccess

/-- Its position is a word of 64 bits. -/
def Portable : ValueAccess → Prop
  | .path _ => True
  | .ordinal index => index < 0x10000000000000000

theorem written_encode : ∀ {a : ValueAccess}, a.Portable → Written (w := w) decode? a.encode a
  | .path names, _ => .variant ((written_texts names).map _)
  | .ordinal _, h => .variant ((written_nat h).map _)

end ValueAccess

@[simp] theorem IdentityMode.exact_encode (m : IdentityMode) : m.encode.Exact := exact_string _

theorem IdentityMode.written_encode (m : IdentityMode) :
    Written (w := w) (plain IdentityMode.decode?) m.encode m :=
  written_named (fun m => by cases m <;> rfl) m

theorem PropertyRead.written_encode (r : PropertyRead) :
    Written (w := w) PropertyRead.decode? r.encode r := by
  refine .record (by simp) (by simp) fun f holds => ?_
  refine bind_eq_some_of (holds.required rfl (written_text _)) ?_
  refine bind_eq_some_of (holds.required rfl (written_text _)) ?_
  refine bind_eq_some_of (holds.required rfl r.dataType.written_encode) ?_
  exact bind_eq_some_of (holds.required rfl (written_flag _)) rfl

theorem written_reads (reads : List PropertyRead) :
    Written (w := w) (list? PropertyRead.decode?) (listOf PropertyRead.encode reads) reads :=
  .listOf fun r _ => r.written_encode

namespace RowShaper

mutual

/-- Its constants are portable, and its positions are words of 64 bits. -/
def Portable : RowShaper → Prop
  | .read access _ _ => access.Portable
  | .entity _ embedded => PortableFields embedded
  | .collection _ element => element.Portable
  | .record fields => PortableFields fields
  | .constant value => value.Portable

def PortableFields : List (String × RowShaper) → Prop
  | [] => True
  | (_, s) :: rest => s.Portable ∧ PortableFields rest

end

theorem written_variant {tag : String} {data : Json} {s : RowShaper}
    (h : Written (w := variant tag data) (ofVariant? (plain decode?) tag) data s) :
    Written (w := w) (plain decode?) (variant tag data) s :=
  written_tagged h fun _ => by
    change decode? (.object [(tag, data)]) = _
    rw [decode?]
    rfl

mutual

theorem written_encode : ∀ (s : RowShaper) {w : Json}, s.Portable →
    Written (w := w) (plain decode?) s.encode s
  | .read access type nullable, w, h => by
    rw [Portable] at h
    have exact := (ValueAccess.written_encode (w := .null) h).exact
    rw [encode]
    refine written_variant (.record (by simp) (by simp [exact]) fun f holds => ?_)
    refine bind_eq_some_of (holds.required rfl (ValueAccess.written_encode h)) ?_
    refine bind_eq_some_of (holds.required rfl type.written_encode) ?_
    exact bind_eq_some_of (holds.required rfl (written_flag _)) rfl
  | .entity info embedded, w, h => by
    rw [Portable] at h
    have reads := (written_reads (w := .null) info.properties).exact
    have fields := exact_of_forall (writtenFields embedded h (w := .null))
    rw [encode]
    refine written_variant (.record (by simp) (by simpa [reads] using fields) fun f holds => ?_)
    refine bind_eq_some_of (holds.required rfl (written_text _)) ?_
    refine bind_eq_some_of (holds.required rfl (written_texts _)) ?_
    refine bind_eq_some_of (holds.required rfl (written_flag _)) ?_
    refine bind_eq_some_of (holds.required rfl (written_reads _)) ?_
    refine bind_eq_some_of (holds.required rfl (written_texts _)) ?_
    refine bind_eq_some_of (holds.required rfl info.identity.written_encode) ?_
    exact bind_eq_some_of (holds.required rfl (.list (writtenFields embedded h))) rfl
  | .collection path element, w, h => by
    rw [Portable] at h
    have exact := (written_encode element h (w := .null)).exact
    rw [encode]
    refine written_variant (.record (by simp) (by simp [exact]) fun f holds => ?_)
    refine bind_eq_some_of (holds.required rfl (written_texts _)) ?_
    exact bind_eq_some_of (holds.required rfl (written_encode element h)) rfl
  | .record fields, w, h => by
    rw [Portable] at h
    rw [encode]
    exact written_variant ((Written.list (writtenFields fields h)).map _)
  | .constant value, w, h => by
    rw [Portable] at h
    rw [encode]
    exact written_variant ((Scalar.written_encode h).map _)

theorem writtenFields : ∀ (fields : List (String × RowShaper)) {w : Json}, PortableFields fields →
    List.Forall₂ (Written (w := w) (pair? (plain text?) (plain decode?))) (encodeFields fields)
      fields
  | [], _, _ => by
    rw [encodeFields]
    exact .nil
  | (name, s) :: fields, _, h => by
    rw [PortableFields] at h
    rw [encodeFields]
    exact .cons ((written_text name).pair (written_encode s h.1)) (writtenFields fields h.2)

end

end RowShaper

/-! ## 2. Constants -/

@[simp] theorem ConstantType.exact_encode (t : ConstantType) : t.encode.Exact := exact_string _

theorem ConstantType.written_encode (t : ConstantType) :
    Written (w := w) (plain ConstantType.decode?) t.encode t :=
  written_named (fun t => by cases t <;> rfl) t

namespace Resolution

theorem written_encode : ∀ r : Resolution, Written (w := w) decode? r.encode r
  | .sqlGeneratorFactory | .sqlExpressionFactory =>
    ⟨exact_string _, fun p hp => by rw [decode?, hp]; rfl⟩
  | .entityType name => by
    have data : Written (w := w) ofVariant? (encode (.entityType name)) (.entityType name) := by
      refine .variant (.record (by simp) (by simp) fun f holds => ?_)
      exact bind_eq_some_of (holds.required rfl (written_text _)) rfl
    exact ⟨data.exact, fun p hp => by rw [decode?, hp]; exact data.decoded p hp⟩
  | .property owner name => by
    have data : Written (w := w) ofVariant? (encode (.property owner name))
        (.property owner name) := by
      refine .variant (.record (by simp) (by simp) fun f holds => ?_)
      refine bind_eq_some_of (holds.required rfl (written_text _)) ?_
      exact bind_eq_some_of (holds.required rfl (written_text _)) rfl
    exact ⟨data.exact, fun p hp => by rw [decode?, hp]; exact data.decoded p hp⟩

end Resolution

theorem ConstantSlot.written_encode (s : ConstantSlot) :
    Written (w := w) ConstantSlot.decode? s.encode s := by
  have exact := (s.resolution.written_encode (w := .null)).exact
  refine .record (by simp) (by simp [exact]) fun f holds => ?_
  refine bind_eq_some_of (holds.required rfl (written_text _)) ?_
  refine bind_eq_some_of (holds.required rfl s.resolution.written_encode) ?_
  exact bind_eq_some_of (holds.required rfl s.declared.written_encode) rfl

theorem FrozenConstants.written_encode (c : FrozenConstants) :
    Written (w := w) FrozenConstants.decode? c.encode c := by
  have slots : Written (w := w) _ (listOf ConstantSlot.encode c.slots) _ :=
    .listOf fun s _ => s.written_encode
  refine .record (by simp) (by simp [slots.exact]) fun f holds => ?_
  exact bind_eq_some_of (holds.required rfl slots) rfl

/-! ## 3. Plans -/

theorem QuotedLookup.written_encode (q : QuotedLookup) :
    Written (w := w) QuotedLookup.decode? q.encode q := by
  have parameters : Written (w := w) _ (listOf (fun e => .array [.string e.1, .string e.2])
      q.propertyParameters) _ := .listOf fun e _ => (written_text e.1).pair (written_text e.2)
  refine .record (by simp) (by simp [parameters.exact]) fun f holds => ?_
  refine bind_eq_some_of (holds.required rfl (written_text _)) ?_
  refine bind_eq_some_of (holds.required rfl (written_text _)) ?_
  exact bind_eq_some_of (holds.required rfl parameters) rfl

namespace Plan

/-- The constants of its select and its shaper are portable, and so are its positions. -/
structure Portable (p : Plan) : Prop where
  source : ∀ generator expressions s, p.source = .select generator expressions s → s.Portable
  shaper : p.shaper.Portable

variable {p : Plan}

theorem written_partitionKey (key : Option String) :
    WrittenOption (w := w) (plain text?) (optionally Json.string key) key :=
  .optionally written_text (fun _ => rfl) key

theorem exact_encodeRest (h : p.shaper.Portable) : ∀ m ∈ p.encodeRest, m.2.Exact := by
  have shaper := (RowShaper.written_encode p.shaper h (w := .null)).exact
  have key := (written_partitionKey (w := .null) p.partitionKey).exact
  simp [encodeRest, shaper, key]

theorem exact_encodeSource (h : p.Portable) : p.encodeSource.Exact := by
  have rest := exact_encodeRest h.shaper
  unfold encodeSource
  split
  · next source =>
    have select := (SelectOf.written_encode (h.source _ _ _ source) (w := .null)).exact
    simpa [select] using rest
  · next l _ =>
    have lookup := (l.written_encode (w := .null)).exact
    simpa [lookup] using rest

/-- The fields that both kinds of plan end with. -/
theorem ofFields?_eq {f : Fields w} {members : List (String × Json)} (holds : f.Holds members)
    (rest : ∀ name ∈ restFields, members.lookup name = p.encodeRest.lookup name)
    (h : p.shaper.Portable) : ofFields? p.source f p.constants = some p := by
  have place : ∀ {name j}, name ∈ restFields → p.encodeRest.lookup name = some j →
      members.lookup name = some j := fun declared found => (rest _ declared).trans found
  refine bind_eq_some_of (holds.required (place (by decide) rfl) (p.shaper.written_encode h)) ?_
  refine bind_eq_some_of (holds.required (place (by decide) rfl) (written_text _)) ?_
  refine bind_eq_some_of
    (holds.optional (place (by decide) rfl) (written_partitionKey p.partitionKey)) ?_
  refine bind_eq_some_of (holds.required (place (by decide) rfl) (written_flag _)) ?_
  exact bind_eq_some_of (holds.required (place (by decide) rfl) (written_flag _)) rfl

theorem written_encode (h : p.Portable) : Written (w := w) decode? p.encode p := by
  have constants := (p.constants.written_encode (w := .null)).exact
  refine .record (by simp) (by simp [exact_encodeSource h, constants]) fun f holds => ?_
  refine bind_eq_some_of (holds.required rfl p.constants.written_encode) ?_
  obtain ⟨source, shaper, contextType, partitionKey, standalone, checks, frozen⟩ := p
  cases source with
  | select generator expressions s =>
    obtain ⟨part, found, value⟩ := holds.variant "constructor" rfl
    obtain ⟨fields, read, inner⟩ := exists_fields value (by simp [encodeRest])
    refine bind_eq_some_of found (bind_eq_some_of read ?_)
    refine bind_eq_some_of (inner.required rfl (written_text _)) ?_
    refine bind_eq_some_of (inner.required rfl (written_text _)) ?_
    refine bind_eq_some_of (inner.required rfl (SelectOf.written_encode (h.source _ _ _ rfl))) ?_
    exact ofFields?_eq inner (by simp [restFields, List.lookup_cons]) h.shaper
  | lookup l =>
    obtain ⟨part, found, value⟩ := holds.variant "constructor" rfl
    obtain ⟨fields, read, inner⟩ := exists_fields value (by simp [encodeRest])
    refine bind_eq_some_of found (bind_eq_some_of read ?_)
    refine bind_eq_some_of (inner.required rfl l.written_encode) ?_
    exact ofFields?_eq inner (by simp [restFields, List.lookup_cons]) h.shaper

end Plan

/-! ## 4. The format -/

/-- A value is given back by decoding the text of its encoding, if that is nested no deeper than the
reader allows. -/
def ReadsBack {α : Type} (encode : α → Json) (decode? : Json → Option α) (v : α) : Prop :=
  (encode v).depth ≤ depthLimit → (parse? (encode v).text).bind decode? = some v

theorem Codec.Written.readsBack {α : Type} {encode : α → Json}
    {decode : ∀ {w : Json}, Part w → Option α} {v : α}
    (h : ∀ {w : Json}, Written (w := w) decode (encode v) v) :
    ReadsBack encode (fun j => decode (whole j)) v := by
  intro shallow
  have written := h (w := .array [encode v])
  rw [parse_text written.exact shallow]
  exact written.decoded (whole (encode v)) rfl

/-- **Decoding undoes encoding**, for every type of the serialized format: a value is given back by
decoding the text of its encoding, if that is nested no deeper than the reader allows.  Not portable
are only finite floats, whose digits are not followed here, and positions beyond the 64 bits of a
word. -/
theorem serialized_forms_read_back :
    (∀ v : Scalar, v.Portable → ReadsBack Scalar.encode Scalar.decode? v) ∧
    (∀ v : Parameters, v.Portable →
      ReadsBack Parameters.encode (fun j => Parameters.decode? (whole j)) v) ∧
    (∀ v : EntityType, ReadsBack EntityType.encode (fun j => EntityType.decode? (whole j)) v) ∧
    (∀ v : Model, ReadsBack Model.encode (fun j => Model.decode? (whole j)) v) ∧
    (∀ v : Expr, v.Portable → ReadsBack Expr.encode Expr.decode? v) ∧
    (∀ v : Select, v.Portable → ReadsBack SelectOf.encode (fun j => SelectOf.decode? (whole j)) v) ∧
    (∀ v : Query, v.Portable → ReadsBack Query.encode (fun j => Query.decode? (whole j)) v) ∧
    (∀ v : Shaper, v.Portable → ReadsBack Shaper.encode Shaper.decode? v) ∧
    (∀ v : RowShaper, v.Portable → ReadsBack RowShaper.encode RowShaper.decode? v) ∧
    ∀ v : Plan, v.Portable → ReadsBack Plan.encode (fun j => Plan.decode? (whole j)) v :=
  ⟨fun _ h => Written.readsBack (Scalar.written_encode h),
    fun _ h => Written.readsBack (Parameters.written_encode h),
    fun v => Written.readsBack v.written_encode,
    fun v => Written.readsBack v.written_encode,
    fun v h => Written.readsBack (Expr.written_encode v h),
    fun _ h => Written.readsBack (SelectOf.written_encode h),
    fun _ h => Written.readsBack (Query.written_encode h),
    fun v h => Written.readsBack (Shaper.written_encode v h),
    fun v h => Written.readsBack (RowShaper.written_encode v h),
    fun _ h => Written.readsBack (Plan.written_encode h)⟩

/-- The posts whose score is below infinity. -/
def scoredPosts : Select where
  container := "posts"
  source := "c"
  projection := [⟨.scalar (.column "c" ["id"] .int32 none), "id"⟩]
  predicate := some (.binary .lessThan (.column "c" ["score"] .float64 none)
    (.constant (.float64 (.infinite false)) .float64 none) none)
  orderings := []
  limit := none
  offset := none
  distinct := false

/-- A plan with an escaped name, a position and a constant that is no number. -/
def scoredPlan : Plan where
  source := .select "generator" "expressions" scoredPosts
  shaper := .record [("\"id\"\n", .read (.ordinal 0) .int32 false),
    ("score", .constant (.float32 .nan))]
  contextType := "Posts"
  partitionKey := some "tenant"
  standaloneStateManager := false
  threadSafetyChecks := true
  constants := ⟨[⟨"type", .entityType "Post", .entityType⟩]⟩

/-- A plan whose text escapes a character of a name and spells an infinite constant. -/
theorem serialized_forms_read_back_scoredPlan :
    scoredPlan.Portable ∧ scoredPlan.encode.depth ≤ depthLimit ∧
      (parse? scoredPlan.encode.text).bind (fun j => Plan.decode? (whole j)) = some scoredPlan := by
  have select : scoredPosts.Portable := by
    simp [SelectOf.Portable, scoredPosts, Expr.constantsOfSelect, Expr.constantsOfProjection,
      Expr.constantsOfItem, Expr.constantsOfOption, Expr.constantsOfOrderings, Expr.constants,
      Scalar.Portable, Double.finite?]
  have portable : scoredPlan.Portable := by
    refine ⟨?_, ?_⟩
    · rintro _ _ _ ⟨⟩
      exact select
    · simp [scoredPlan, RowShaper.Portable, RowShaper.PortableFields, ValueAccess.Portable,
        Scalar.Portable, Double.finite?]
  have shallow : scoredPlan.encode.depth ≤ depthLimit := by decide
  obtain ⟨-, -, -, -, -, -, -, -, -, plans⟩ := serialized_forms_read_back
  exact ⟨portable, shallow, plans scoredPlan portable shallow⟩

end DocQuery
