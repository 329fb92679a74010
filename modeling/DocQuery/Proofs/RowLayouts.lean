/-
# The two row layouts

The rows of a select are laid out as DOCUMENTS, whose members the shaper reads by name, or as
VALUE LISTS, which it reads by position.  A document keeps one member for each name, the last, so
a position is read back as the last position of its name (`SelectOf.readPath_body`).  This is the
only difference that there is.

* Without a condition on the names: a shaper over documents does what the shaper over value lists
  does that reads every value at the last position of its name (`Compiler.documents_read_last`).
* Where the shaper reads no other positions, the layouts cannot be told apart
  (`Compiler.layouts_indistinguishable`).  Distinct names are the usual case.
* A name that is used twice parts them (`Compiler.layouts_differ_sameNamedPosts`).

The proof is a simulation.  `Enumeration.Twin` relates two enumerations that have come equally
far, with remaining rows that are the same up to their layout: the store runs the select alike in
both (`SelectOf.run_alike`), and the shapers do the same over such rows (`ShapesAlike.rows`).  A
step keeps the relation and has one outcome on both sides (`Enumeration.Twin.next`), and so has a
whole run (`Enumeration.Twin.outcomes`).  Queries that no step tells apart are
`BoundQuery.Indistinguishable`.

Only scalars are projected here.  Entities are not laid out as values at all, and compiling them
for value lists fails.
-/
import DocQuery.Proofs.PlanSafety
import Mathlib.Data.List.Forall2

namespace DocQuery

/-! ## 1. Steps that fail alike -/

/-- Two steps that fail with the same error or give related results. -/
inductive FailAlike {ε α β : Type} (R : α → β → Prop) : Except ε α → Except ε β → Prop where
  | error (e : ε) : FailAlike R (.error e) (.error e)
  | ok {a : α} {b : β} (h : R a b) : FailAlike R (.ok a) (.ok b)

namespace FailAlike

variable {ε α β γ δ : Type} {R : α → β → Prop} {S : γ → δ → Prop} {x : Except ε α} {y : Except ε β}

theorem bind (h : FailAlike R x y) {f : α → Except ε γ} {g : β → Except ε δ}
    (hfg : ∀ a b, R a b → FailAlike S (f a) (g b)) : FailAlike S (x >>= f) (y >>= g) := by
  cases h with
  | error e => exact .error e
  | ok h => exact hfg _ _ h

/-- One step has one result. -/
theorem bind_same {f : α → Except ε γ} {g : α → Except ε δ}
    (hfg : ∀ a, x = .ok a → FailAlike S (f a) (g a)) : FailAlike S (x >>= f) (x >>= g) := by
  cases x with
  | error e => exact .error e
  | ok a => exact hfg a rfl

theorem mono {R' : α → β → Prop} (h : FailAlike R x y)
    (hR : ∀ a b, x = .ok a → y = .ok b → R a b → R' a b) : FailAlike R' x y := by
  cases h with
  | error e => exact .error e
  | ok h => exact .ok (hR _ _ rfl rfl h)

theorem lift {x : Except QueryError α} {y : Except QueryError β} (h : FailAlike R x y) :
    FailAlike R (RunError.lift x) (RunError.lift y) := by
  cases h with
  | error e => exact .error _
  | ok h => exact .ok h

end FailAlike

/-! ## 2. Names and positions -/

/-- The last position of a name. -/
def lastPosition? (name : String) : List String → Option Nat
  | [] => none
  | first :: rest => match lastPosition? name rest with
    | some i => some (i + 1)
    | none => if first = name then some 0 else none

section LastPosition

variable {name : String}

theorem getElem?_of_lastPosition? : ∀ {names : List String} {i : Nat},
    lastPosition? name names = some i → names[i]? = some name
  | first :: rest, i, h => by
    rw [lastPosition?] at h
    split at h
    · next j hj =>
      cases h
      have inner : rest[j]? = some name := getElem?_of_lastPosition? hj
      exact inner
    · split at h
      · next hname =>
        cases h
        exact congrArg some hname
      · exact nomatch h

theorem exists_lastPosition? : ∀ {names : List String} {i : Nat}, names[i]? = some name →
    ∃ last, lastPosition? name names = some last ∧ i ≤ last
  | first :: rest, i, h => by
    rw [lastPosition?]
    cases i with
    | zero =>
      cases hrest : lastPosition? name rest with
      | some j => exact ⟨j + 1, rfl, Nat.zero_le _⟩
      | none => exact ⟨0, if_pos (Option.some.inj h), Nat.le_refl _⟩
    | succ i =>
      have inner : rest[i]? = some name := h
      obtain ⟨last, hlast, hle⟩ := exists_lastPosition? inner
      rw [hlast]
      exact ⟨last + 1, rfl, Nat.succ_le_succ hle⟩

/-- The value under a name is the one at the last position of the name. -/
theorem lookup_reverse_zip {α : Type} : ∀ {names : List String} {values : List α},
    values.length = names.length →
    (names.zip values).reverse.lookup name = (lastPosition? name names).bind (values[·]?)
  | [], _, _ => rfl
  | first :: names, value :: values, h => by
    have ih : (names.zip values).reverse.lookup name = _ := lookup_reverse_zip (Nat.succ.inj h)
    rw [List.zip_cons_cons, List.reverse_cons, List.lookup_append, ih, lookup_cons_eq_ite,
      List.lookup_nil, lastPosition?]
    cases hlast : lastPosition? name names with
    | some i =>
      have hi := (List.getElem?_eq_some_iff.1 (getElem?_of_lastPosition? hlast)).1
      rw [← Nat.succ.inj h] at hi
      simp [List.getElem?_eq_getElem hi]
    | none =>
      by_cases hname : first = name
      · simp [hname]
      · rw [if_neg hname, if_neg (Ne.symm hname)]
        rfl

end LastPosition

namespace SelectOf

/-- Only scalars are projected. -/
def ProjectsScalars (s : Select) : Prop := ∀ p ∈ s.projection, ∃ e, p.item = .scalar e

/-- The document of projected values. -/
def body (s : Select) (values : List Json) : Json :=
  match s.projection, values with
  | [_], [value] => value
  | projection, values => .ofDictionary (.ofList ((projection.map (·.name)).zip values))

theorem row_document (s : Select) (values : List Json) :
    s.row .document values = .document (s.body values) := by
  cases hp : s.projection with
  | nil => simp only [row, body, hp]
  | cons first rest =>
    rcases rest with _ | ⟨second, rest⟩ <;> rcases values with _ | ⟨value, _ | ⟨_, _⟩⟩ <;>
      simp only [row, body, hp]

/-- Where a document keeps the value of a position: at the last position of its name. -/
def keptPosition (s : Select) (index : Nat) : Nat :=
  match s.projection[index]? with
  | some p => (lastPosition? p.name (s.projection.map (·.name))).getD index
  | none => index

/-- The projection at this position is the last of its name. -/
def IsLast (s : Select) (index : Nat) : Prop :=
  ∀ p, s.projection[index]? = some p → ∀ later q, s.projection[later]? = some q →
    q.name = p.name → later ≤ index

/-- Every projection is the last of its name when the names differ. -/
theorem isLast_of_nodup {s : Select} (h : (s.projection.map (·.name)).Nodup) (index : Nat) :
    s.IsLast index := by
  intro p hp later q hq hname
  have inside := (List.getElem?_eq_some_iff.1 hq).1
  refine Nat.le_of_eq ((List.getElem?_inj (by rwa [List.length_map]) h).1 ?_)
  rw [List.getElem?_map, List.getElem?_map, hp, hq, Option.map_some, Option.map_some, hname]

theorem keptPosition_spec {s : Select} {index : Nat} {p : Projection Expr}
    (hp : s.projection[index]? = some p) :
    lastPosition? p.name (s.projection.map (·.name)) = some (s.keptPosition index) ∧
      index ≤ s.keptPosition index := by
  have named : (s.projection.map (·.name))[index]? = some p.name := by
    rw [List.getElem?_map, hp]
    rfl
  obtain ⟨last, hlast, hle⟩ := exists_lastPosition? named
  have kept : s.keptPosition index = last := by
    rw [keptPosition, hp]
    exact congrArg (Option.getD · index) hlast
  rw [kept]
  exact ⟨hlast, hle⟩

theorem exists_keptPosition {s : Select} {index : Nat} {p : Projection Expr}
    (hp : s.projection[index]? = some p) :
    ∃ q, s.projection[s.keptPosition index]? = some q ∧ q.name = p.name := by
  have named := getElem?_of_lastPosition? (keptPosition_spec hp).1
  rw [List.getElem?_map, Option.map_eq_some_iff] at named
  exact named

theorem keptPosition_of_absent {s : Select} {index : Nat} (hp : s.projection[index]? = none) :
    s.keptPosition index = index := by rw [keptPosition, hp]

theorem keptPosition_of_isLast {s : Select} {index : Nat} (h : s.IsLast index) :
    s.keptPosition index = index := by
  cases hp : s.projection[index]? with
  | none => exact keptPosition_of_absent hp
  | some p =>
    obtain ⟨q, hq, hname⟩ := exists_keptPosition hp
    exact Nat.le_antisymm (h p hp _ q hq hname) (keptPosition_spec hp).2

/-- **The path of a position leads to the value at the last position of its name.** -/
theorem readPath_body {b : SelectBinding} {index : Nat} {p : Projection Expr}
    (hp : b.select.projection[index]? = some p) {values : List Json}
    (hvalues : values.length = b.select.projection.length) :
    values[b.select.keptPosition index]? =
      some ((b.select.body values).readPath (b.basePath p)) := by
  have hlast := (keptPosition_spec hp).1
  obtain ⟨q, hq, -⟩ := exists_keptPosition hp
  have inside : b.select.keptPosition index < values.length := by
    rw [hvalues]
    exact (List.getElem?_eq_some_iff.1 hq).1
  have found : ((b.select.projection.map (·.name)).zip values).reverse.lookup p.name =
      some values[b.select.keptPosition index] := by
    rw [lookup_reverse_zip (by rw [hvalues, List.length_map]), hlast]
    exact List.getElem?_eq_getElem inside
  rw [List.getElem?_eq_getElem inside, SelectBinding.basePath]
  unfold body
  split
  · next only value hprojection =>
    rw [if_pos (by rw [hprojection]; rfl), Json.readPath]
    exact congrArg some (List.mem_singleton.1 (List.getElem_mem inside))
  · next several =>
    have length : b.select.projection.length ≠ 1 := by
      intro single
      obtain ⟨only, honly⟩ := List.length_eq_one_iff.1 single
      obtain ⟨value, hvalue⟩ := List.length_eq_one_iff.1 (hvalues.trans single)
      exact several only value honly hvalue
    have member := (Dictionary.find?_ofList _ p.name).trans found
    rw [Dictionary.find?] at member
    rw [if_neg length, Json.readPath, Json.ofDictionary, Json.member?, member]
    rfl

end SelectOf

/-! ## 3. Bound shapers -/

namespace Shaper

mutual

/-- Moves the positions of the scalars. -/
def reposition (f : Nat → Nat) : Shaper → Shaper
  | .binding index type nullable => .binding (f index) type nullable
  | .entity entityType index nullable => .entity entityType index nullable
  | .record fields => .record (repositionFields f fields)
  | .constant v => .constant v

def repositionFields (f : Nat → Nat) : List (String × Shaper) → List (String × Shaper)
  | [] => []
  | (name, s) :: rest => (name, s.reposition f) :: repositionFields f rest

end

mutual

/-- The positions of the scalars that a shaper reads. -/
def scalarPositions : Shaper → List Nat
  | .binding index _ _ => [index]
  | .entity .. | .constant _ => []
  | .record fields => fieldScalarPositions fields

def fieldScalarPositions : List (String × Shaper) → List Nat
  | [] => []
  | (_, s) :: rest => s.scalarPositions ++ fieldScalarPositions rest

end

mutual

theorem reposition_eq_self {f : Nat → Nat} : ∀ s : Shaper, (∀ i ∈ s.scalarPositions, f i = i) →
    s.reposition f = s
  | .binding index _ _, h => by
    rw [reposition, h index (List.mem_singleton_self index)]
  | .entity .., _ | .constant _, _ => rfl
  | .record fields, h => by
    rw [scalarPositions] at h
    rw [reposition, repositionFields_eq_self fields h]

theorem repositionFields_eq_self {f : Nat → Nat} : ∀ fields : List (String × Shaper),
    (∀ i ∈ fieldScalarPositions fields, f i = i) → repositionFields f fields = fields
  | [], _ => rfl
  | (_, s) :: rest, h => by
    rw [fieldScalarPositions] at h
    rw [repositionFields, s.reposition_eq_self fun i hi => h i (List.mem_append_left _ hi),
      repositionFields_eq_self rest fun i hi => h i (List.mem_append_right _ hi)]

end

end Shaper

namespace SelectOf

/-- Shapers, one over the documents of a select and one over its value lists, that do the same. -/
def ShapesAlike (s : Select) (r₁ r₂ : RowShaper) : Prop :=
  ∀ values, values.length = s.projection.length →
    r₁.shapeNode none (s.body values) = r₂.shapeNode (some values) .null

def FieldsShapeAlike (s : Select) (fs₁ fs₂ : List (String × RowShaper)) : Prop :=
  ∀ values, values.length = s.projection.length →
    RowShaper.shapeFields none (s.body values) fs₁ =
      RowShaper.shapeFields (some values) .null fs₂

end SelectOf

namespace SelectBinding

/-- The binding of a select for rows of a layout. -/
def laidOut (b : SelectBinding) (layout : RowLayout) : SelectBinding := { b with layout }

variable {b : SelectBinding}

theorem projection_laidOut (layout : RowLayout) (index : Nat) :
    (b.laidOut layout).projection index = b.projection index := rfl

theorem projection_absent {index : Nat} (hp : b.select.projection[index]? = none) :
    b.projection index =
      .error (.unreachable (.missingProjection index b.select.projection.length)) := by
  rw [projection, hp]

theorem projection_present {index : Nat} {p : Projection Expr}
    (hp : b.select.projection[index]? = some p) : b.projection index = .ok p := by
  rw [projection, hp]

/-- How a scalar lies in the rows of a layout. -/
def access (b : SelectBinding) (layout : RowLayout) (index : Nat) (p : Projection Expr) :
    ValueAccess :=
  match layout with
  | .document => .path (b.basePath p)
  | .ordinal => .ordinal index

theorem bindScalar_present (scalars : b.select.ProjectsScalars) (layout : RowLayout) {index : Nat}
    {p : Projection Expr} (hp : b.select.projection[index]? = some p) (type : DataType)
    (nullable : Bool) :
    (b.laidOut layout).bindScalar index type nullable =
      .ok (.read (b.access layout index p) type nullable) := by
  obtain ⟨e, he⟩ := scalars p (List.mem_of_getElem? hp)
  refine bind_eq_ok.2 ⟨p, projection_present hp, ?_⟩
  rw [he]
  rfl

theorem bindScalar_alike (scalars : b.select.ProjectsScalars) (index : Nat) (type : DataType)
    (nullable : Bool) :
    FailAlike b.select.ShapesAlike ((b.laidOut .document).bindScalar index type nullable)
      ((b.laidOut .ordinal).bindScalar (b.select.keptPosition index) type nullable) := by
  cases hp : b.select.projection[index]? with
  | none =>
    rw [SelectOf.keptPosition_of_absent hp, bindScalar, bindScalar, projection_laidOut,
      projection_laidOut, projection_absent hp]
    exact .error _
  | some p =>
    obtain ⟨q, hq, -⟩ := SelectOf.exists_keptPosition hp
    rw [bindScalar_present scalars _ hp, bindScalar_present scalars _ hq]
    refine .ok fun values hvalues => ?_
    have value := SelectOf.readPath_body hp hvalues
    simp only [RowShaper.shapeNode, access, ValueAccess.node, value]

/-- There is no entity to bind, whatever the layout. -/
theorem bindEntity_scalars (scalars : b.select.ProjectsScalars) (layout : RowLayout)
    (entityType : String) (index : Nat) (nullable : Bool) :
    (b.laidOut layout).bindEntity entityType index nullable = (do
      let _ ← b.projection index
      .error (.unreachable (.entityBindsScalar entityType index))) := by
  rw [bindEntity, projection_laidOut]
  cases hp : b.select.projection[index]? with
  | none =>
    rw [projection_absent hp]
    rfl
  | some p =>
    obtain ⟨e, he⟩ := scalars p (List.mem_of_getElem? hp)
    rw [projection_present hp]
    simp only [Bind.bind, Except.bind, he]

theorem bindEntity_alike (scalars : b.select.ProjectsScalars) (entityType : String) (index : Nat)
    (nullable : Bool) :
    FailAlike b.select.ShapesAlike ((b.laidOut .document).bindEntity entityType index nullable)
      ((b.laidOut .ordinal).bindEntity entityType index nullable) := by
  rw [bindEntity_scalars scalars, bindEntity_scalars scalars]
  cases b.projection index with
  | error e => exact .error e
  | ok p => exact .error _

mutual

theorem bind_alike (scalars : b.select.ProjectsScalars) : ∀ shaper : Shaper,
    FailAlike b.select.ShapesAlike ((b.laidOut .document).bind shaper)
      ((b.laidOut .ordinal).bind (shaper.reposition b.select.keptPosition))
  | .binding index type nullable => bindScalar_alike scalars index type nullable
  | .entity entityType index nullable => bindEntity_alike scalars entityType index nullable
  | .constant v => .ok fun _ _ => by rw [RowShaper.shapeNode, RowShaper.shapeNode]
  | .record fields => by
    rw [Shaper.reposition, bind, bind]
    refine (bindFields_alike scalars fields).bind fun fs₁ fs₂ h => .ok fun values hvalues => ?_
    rw [RowShaper.shapeNode, RowShaper.shapeNode, h values hvalues]

theorem bindFields_alike (scalars : b.select.ProjectsScalars) : ∀ fields : List (String × Shaper),
    FailAlike b.select.FieldsShapeAlike ((b.laidOut .document).bindFields fields)
      ((b.laidOut .ordinal).bindFields (Shaper.repositionFields b.select.keptPosition fields))
  | [] => .ok fun _ _ => by rw [RowShaper.shapeFields, RowShaper.shapeFields]
  | (name, s) :: rest => by
    rw [Shaper.repositionFields, bindFields, bindFields]
    refine (bind_alike scalars s).bind fun r₁ r₂ h => ?_
    refine (bindFields_alike scalars rest).bind fun fs₁ fs₂ hrest => .ok fun values hvalues => ?_
    rw [RowShaper.shapeFields, RowShaper.shapeFields, h values hvalues, hrest values hvalues]

end

end SelectBinding

/-! ## 4. Rows -/

/-- What an access reads in a row. -/
def ValueAccess.inRow (access : ValueAccess) : Row → Except RunError Json
  | .document body => access.node body none
  | .ordinal values => access.node .null (some values)

theorem RowShaper.shapeRow_read (access : ValueAccess) (type : DataType) (nullable : Bool)
    (row : Row) :
    (read access type nullable).shapeRow row =
      Shaping.ofExcept ((access.inRow row >>= readValue type nullable).map .value) := by
  have bound : ∀ x : Except RunError Json, (do
      let raw ← Shaping.ofExcept x
      return Item.value (← Shaping.ofExcept (readValue type nullable raw))) =
        Shaping.ofExcept ((x >>= readValue type nullable).map Item.value) := by
    rintro (e | raw)
    · rfl
    · show (do return Item.value (← Shaping.ofExcept (readValue type nullable raw))) =
        Shaping.ofExcept ((readValue type nullable raw).map Item.value)
      cases readValue type nullable raw <;> rfl
  cases row <;> rw [shapeRow, shapeNode] <;> exact bound _

/-- Lists of rows that two shapers shape alike, one by one. -/
def RowShaper.RowsAlike (r₁ r₂ : RowShaper) : List Row → List Row → Prop :=
  List.Forall₂ fun row₁ row₂ => r₁.shapeRow row₁ = r₂.shapeRow row₂

namespace SelectOf

/-- The document of the values that a value list holds. -/
def asDocument (s : Select) : Row → Row
  | .ordinal values => .document (s.body values)
  | .document body => .document body

/-- A select runs alike in the two layouts, up to the form of its rows. -/
theorem run_alike (s : Select) (bindings : Dictionary Json) (documents : List Json) :
    FailAlike (fun rows₁ rows₂ => rows₁ = rows₂.map s.asDocument)
      (s.run bindings .document documents) (s.run bindings .ordinal documents) := by
  have row : s.row .document = s.asDocument ∘ s.row .ordinal := by
    funext values
    rw [row_document]
    rfl
  unfold run
  refine .bind_same fun kept _ => .bind_same fun sorted _ => .bind_same fun offset _ =>
    .bind_same fun limit _ => .bind_same fun rows _ => .ok ?_
  rw [row, List.map_map]

/-- Shapers that do the same over the values do the same over the rows. -/
theorem ShapesAlike.rows {s : Select} {r₁ r₂ : RowShaper} (h : s.ShapesAlike r₁ r₂)
    {bindings : Dictionary Json} {documents : List Json} :
    FailAlike (RowShaper.RowsAlike r₁ r₂)
      (s.run bindings .document documents) (s.run bindings .ordinal documents) := by
  refine (s.run_alike bindings documents).mono fun rows₁ rows₂ _ hrun hrows => ?_
  rw [hrows, RowShaper.RowsAlike, List.forall₂_map_left_iff, List.forall₂_same]
  intro row hrow
  have width := width_of_run hrun row hrow
  cases row with
  | document body => exact nomatch width
  | ordinal values => exact h values (Option.some.inj width)

/-- Inlining changes neither the names nor the number of the values. -/
theorem ShapesAlike.inlined {s s' : Select} {p : Parameters} {r₁ r₂ : RowShaper}
    (h : s.ShapesAlike r₁ r₂) (hs : Inlined p s s') : s'.ShapesAlike r₁ r₂ := by
  intro values hvalues
  have body : s'.body values = s.body values := by
    have := congrFun (congrFun hs.row .document) values
    rw [row_document, row_document] at this
    exact Row.document.inj this
  rw [body]
  refine h values ?_
  rw [hvalues, hs.projected, List.length_map]

end SelectOf

/-! ## 5. Enumerations in step -/

/-- Two bound queries whose rows are fetched alike and shaped alike. -/
structure BoundQuery.Twin (q₁ q₂ : BoundQuery) : Prop where
  checks : q₁.plan.threadSafetyChecks = q₂.plan.threadSafetyChecks
  identity : q₁.plan.standaloneStateManager = q₂.plan.standaloneStateManager
  context : q₁.checkContext = q₂.checkContext
  fetch : ∀ store, FailAlike (RowShaper.RowsAlike q₁.plan.shaper q₂.plan.shaper)
    (q₁.fetch store) (q₂.fetch store)

/-- The same progress, with rows before it that correspond. -/
inductive Progress.Twin (R : List Row → List Row → Prop) : Progress → Progress → Prop where
  | pending : Twin R .pending .pending
  | reading {rows₁ rows₂ : List Row} (h : R rows₁ rows₂) : Twin R (.reading rows₁) (.reading rows₂)
  | finished : Twin R .finished .finished

/-- Enumerations of two queries that have come equally far. -/
structure Enumeration.Twin (q₁ q₂ : BoundQuery) (e₁ e₂ : Enumeration) : Prop where
  query₁ : e₁.query = q₁
  query₂ : e₂.query = q₂
  progress : e₁.progress.Twin (RowShaper.RowsAlike q₁.plan.shaper q₂.plan.shaper) e₂.progress
  perQuery : e₁.perQuery = e₂.perQuery

/-- Steps with one outcome and one session, which lead equally far. -/
structure Step.Twin {α : Type} (q₁ q₂ : BoundQuery) (x y : Step α) : Prop where
  outcome : x.outcome = y.outcome
  session : x.session = y.session
  enumeration : Enumeration.Twin q₁ q₂ x.enumeration y.enumeration

namespace Enumeration

variable {α : Type} {q₁ q₂ : BoundQuery} {e₁ e₂ : Enumeration}

theorem twin_enumerate (hq : q₁.Twin q₂) : Twin q₁ q₂ q₁.enumerate q₂.enumerate where
  query₁ := rfl
  query₂ := rfl
  progress := .pending
  perQuery := by rw [BoundQuery.enumerate, BoundQuery.enumerate, hq.identity]

theorem Twin.fail (h : Twin q₁ q₂ e₁ e₂) (s : Session) (fault : RunError) :
    Step.Twin q₁ q₂ (e₁.fail s fault : Step α) (e₂.fail s fault) :=
  ⟨rfl, rfl, h.query₁, h.query₂, .finished, h.perQuery⟩

theorem Twin.remaining (h : Twin q₁ q₂ e₁ e₂) (hq : q₁.Twin q₂) (store : Store) :
    FailAlike (RowShaper.RowsAlike q₁.plan.shaper q₂.plan.shaper)
      (e₁.remaining store) (e₂.remaining store) := by
  obtain ⟨rfl, rfl, progress, -⟩ := h
  unfold Enumeration.remaining
  generalize e₁.progress = progress₁ at progress ⊢
  generalize e₂.progress = progress₂ at progress ⊢
  cases progress with
  | finished => exact .ok .nil
  | reading h => exact .ok h
  | pending =>
    rw [hq.context]
    exact .bind_same fun _ _ => hq.fetch store

theorem Twin.deliver (h : Twin q₁ q₂ e₁ e₂) (view : Item → Except MaterializeFault α) (s : Session)
    {rest₁ rest₂ : List Row} (hrest : RowShaper.RowsAlike q₁.plan.shaper q₂.plan.shaper rest₁ rest₂)
    (shaped : Except RunError Item) :
    Step.Twin q₁ q₂ (e₁.deliver view s rest₁ shaped) (e₂.deliver view s rest₂ shaped) := by
  cases shaped with
  | error fault => exact h.fail s fault
  | ok item =>
    cases hv : view item with
    | error fault =>
      simp only [Enumeration.deliver, hv]
      exact h.fail s _
    | ok a =>
      simp only [Enumeration.deliver, hv]
      exact ⟨rfl, rfl, h.query₁, h.query₂, .reading hrest, h.perQuery⟩

theorem Twin.shape (h : Twin q₁ q₂ e₁ e₂) (view : Item → Except MaterializeFault α) (s : Session)
    {row₁ row₂ : Row} (hrow : q₁.plan.shaper.shapeRow row₁ = q₂.plan.shaper.shapeRow row₂)
    {rest₁ rest₂ : List Row}
    (hrest : RowShaper.RowsAlike q₁.plan.shaper q₂.plan.shaper rest₁ rest₂) :
    Step.Twin q₁ q₂ (e₁.shape view s row₁ rest₁) (e₂.shape view s row₂ rest₂) := by
  unfold Enumeration.shape
  rw [h.query₁, h.query₂, hrow, h.perQuery]
  dsimp only
  generalize ExceptT.run (q₂.plan.shaper.shapeRow row₂) ⟨s.tracked, e₂.perQuery, s.nextId⟩ = shaped
  have moved : Twin q₁ q₂ ⟨q₁, e₁.progress, shaped.2.perQuery⟩
      ⟨q₂, e₂.progress, shaped.2.perQuery⟩ := ⟨rfl, rfl, h.progress, rfl⟩
  exact moved.deliver view _ hrest shaped.1

/-- **Enumerations that have come equally far take the same next step.** -/
theorem Twin.next (h : Twin q₁ q₂ e₁ e₂) (hq : q₁.Twin q₂)
    (view : Item → Except MaterializeFault α) (store : Store) (s : Session) :
    Step.Twin q₁ q₂ (e₁.next view store s) (e₂.next view store s) := by
  have use : e₁.checkUse s = e₂.checkUse s := by
    rw [checkUse, checkUse, h.query₁, h.query₂, hq.checks]
  have rows := h.remaining hq store
  unfold Enumeration.next
  have progress := h.progress
  generalize e₁.progress = progress₁ at progress
  generalize e₂.progress = progress₂ at progress
  cases progress with
  | finished => exact ⟨rfl, rfl, h⟩
  | pending | reading =>
    dsimp only
    rw [use]
    cases e₂.checkUse s with
    | error fault => exact h.fail s fault
    | ok _ =>
      revert rows
      generalize e₁.remaining store = remaining₁
      generalize e₂.remaining store = remaining₂
      rintro (fault | rows)
      · exact h.fail s fault
      · cases rows with
        | nil => exact ⟨rfl, rfl, h.query₁, h.query₂, .finished, h.perQuery⟩
        | cons hrow hrest => exact h.shape view s hrow hrest

/-- The first step of a shaper that reads one value of each row. -/
theorem next_read {e : Enumeration} {store : Store} {s : Session} {row : Row} {rest : List Row}
    {access : ValueAccess} {type : DataType} {nullable : Bool} {value : Scalar}
    (pending : e.progress = .pending) (use : e.checkUse s = .ok ())
    (rows : e.remaining store = .ok (row :: rest))
    (shaper : e.query.plan.shaper = .read access type nullable)
    (found : access.inRow row >>= readValue type nullable = .ok value) :
    (e.next Item.toScalar store s).outcome = some (.ok value) := by
  simp only [Enumeration.next, pending, use, rows, Enumeration.shape, shaper,
    RowShaper.shapeRow_read, found]
  rfl

theorem outcomes_eq (e : Enumeration) (view : Item → Except MaterializeFault α) (store : Store)
    (s : Session) :
    e.outcomes view store s =
      match (e.next view store s).outcome with
      | none => ([], (e.next view store s).session)
      | some (.error fault) => ([.error fault], (e.next view store s).session)
      | some (.ok a) =>
        let rest :=
          (e.next view store s).enumeration.outcomes view store (e.next view store s).session
        (.ok a :: rest.1, rest.2) := by
  rw [outcomes]
  split
  · next h => simp only [h]
  · next fault h => simp only [h]
  · next a h => simp only [h]

/-- **Runs to the end have the same outcomes and leave the same session.** -/
theorem Twin.outcomes (hq : q₁.Twin q₂) (view : Item → Except MaterializeFault α) (store : Store)
    {e₁ e₂ : Enumeration} (h : Twin q₁ q₂ e₁ e₂) (s : Session) :
    e₁.outcomes view store s = e₂.outcomes view store s := by
  obtain ⟨outcome, session, twin⟩ := h.next hq view store s
  rw [outcomes_eq, outcomes_eq e₂, ← outcome, ← session]
  cases hnext : (e₁.next view store s).outcome with
  | none => rfl
  | some o =>
    cases o with
    | error fault => rfl
    | ok a =>
      have := next_rank hnext
      simp only [twin.outcomes hq view store]
termination_by e₁.rank
decreasing_by exact this

end Enumeration

/-! ## 6. Compilation for the two layouts -/

/-- The compiler for rows of a layout. -/
def Compiler.laidOut (c : Compiler) (layout : RowLayout) : Compiler :=
  { c with config := { c.config with rowLayout := layout } }

/-- The query that a compiler makes ready to be enumerated with these parameters. -/
def Compiler.ready (c : Compiler) (shaped : ShapedQuery) (parameters : Parameters) :
    Except QueryError BoundQuery := do
  (← c.compile shaped).bind (c.queryContext parameters)

namespace BoundQuery

/-- The enumerations of two queries after the same steps: results are asked for in the same views,
over the same stores, and in sessions that other enumerations may have changed meanwhile. -/
inductive InStep (q₁ q₂ : BoundQuery) : Enumeration → Enumeration → Prop where
  | start : InStep q₁ q₂ q₁.enumerate q₂.enumerate
  | next {e₁ e₂ : Enumeration} (h : InStep q₁ q₂ e₁ e₂) {α : Type}
      (view : Item → Except MaterializeFault α) (store : Store) (s : Session) :
      InStep q₁ q₂ (e₁.next view store s).enumeration (e₂.next view store s).enumeration

/-- Queries that no enumeration tells apart: step by step they give the same item, error or end and
leave the same session, and so they do when they are run to the end. -/
def Indistinguishable (q₁ q₂ : BoundQuery) : Prop :=
  ∀ {e₁ e₂ : Enumeration}, q₁.InStep q₂ e₁ e₂ → ∀ {α : Type}
    (view : Item → Except MaterializeFault α) (store : Store) (s : Session),
    (e₁.next view store s).outcome = (e₂.next view store s).outcome ∧
    (e₁.next view store s).session = (e₂.next view store s).session ∧
    e₁.outcomes view store s = e₂.outcomes view store s

theorem Twin.indistinguishable {q₁ q₂ : BoundQuery} (hq : q₁.Twin q₂) :
    q₁.Indistinguishable q₂ := by
  intro e₁ e₂ h
  have twin : Enumeration.Twin q₁ q₂ e₁ e₂ := by
    induction h with
    | start => exact Enumeration.twin_enumerate hq
    | next _ view store s ih => exact (ih.next hq view store s).enumeration
  intro α view store s
  have step := twin.next hq view store s
  exact ⟨step.outcome, step.session, twin.outcomes hq view store s⟩

end BoundQuery

namespace Compiler

variable (c : Compiler) {s : Select}

/-- Plans of a select for the two layouts, with shapers that do the same. -/
inductive PlansAlike (s : Select) : Plan → Plan → Prop where
  | select (generators expressions : String) (constants : FrozenConstants) {r₁ r₂ : RowShaper}
      (h : s.ShapesAlike r₁ r₂) :
      PlansAlike s
        ((c.laidOut .document).plan (.select generators expressions s) r₁ constants)
        ((c.laidOut .ordinal).plan (.select generators expressions s) r₂ constants)

theorem compileSelect_alike (scalars : s.ProjectsScalars) (shaper : Shaper) :
    FailAlike (c.PlansAlike s) ((c.laidOut .document).compileSelect s shaper)
      ((c.laidOut .ordinal).compileSelect s (shaper.reposition s.keptPosition)) := by
  rw [compileSelect, compileSelect]
  by_cases hempty : s.projection.isEmpty
  · rw [if_pos hempty, if_pos hempty]
    exact .error _
  · rw [if_neg hempty, if_neg hempty]
    have bound := SelectBinding.bind_alike (b := ⟨c.model, s, .document, c.identity⟩) scalars shaper
    exact bound.bind fun r₁ r₂ h => .bind_same fun constants _ => .ok (.select _ _ constants h)

theorem PlansAlike.bind {p₁ p₂ : Plan} (h : c.PlansAlike s p₁ p₂) (parameters : Parameters) :
    FailAlike BoundQuery.Twin (p₁.bind ((c.laidOut .document).queryContext parameters))
      (p₂.bind ((c.laidOut .ordinal).queryContext parameters)) := by
  obtain ⟨generators, expressions, constants, shapes⟩ := h
  refine .bind_same fun resolved _ => .bind_same fun _ _ => .bind_same fun _ _ => .ok ?_
  refine ⟨rfl, rfl, rfl, fun store => .bind_same fun ⟨s', command⟩ hfinal => ?_⟩
  obtain ⟨hinline, -⟩ := SelectOf.finalize_eq_ok (RunError.lift_eq_ok.1 hfinal)
  exact (shapes.inlined (SelectOf.inlined_of_inline hinline)).rows

theorem twin_ready (scalars : s.ProjectsScalars) (shaper : Shaper) (parameters : Parameters) :
    FailAlike BoundQuery.Twin ((c.laidOut .document).ready ⟨.select s, shaper⟩ parameters)
      ((c.laidOut .ordinal).ready ⟨.select s, shaper.reposition s.keptPosition⟩ parameters) :=
  (c.compileSelect_alike scalars shaper).bind fun _ _ h => h.bind c parameters

/-- **Documents are read at the last position of each name.**  A query over documents is compiled
and bound as the query over value lists is whose scalars are read at the positions that documents
keep: both fail with one error, or no enumeration tells them apart. -/
theorem documents_read_last (scalars : s.ProjectsScalars) (shaper : Shaper)
    (parameters : Parameters) :
    FailAlike BoundQuery.Indistinguishable
      ((c.laidOut .document).ready ⟨.select s, shaper⟩ parameters)
      ((c.laidOut .ordinal).ready ⟨.select s, shaper.reposition s.keptPosition⟩ parameters) :=
  (c.twin_ready scalars shaper parameters).mono fun _ _ _ _ h => h.indistinguishable

/-- **The layouts are equivalent where names are told apart.**  For a query of scalars whose shaper
reads only projections that are the last of their name, two databases that differ in the row layout
compile and bind alike: both fail with one error, or the enumerations in them have the same outcome
at every step, over any store, with any parameters, and with other enumerations coming in
between. -/
theorem layouts_indistinguishable (scalars : s.ProjectsScalars) {shaper : Shaper}
    (last : ∀ index ∈ shaper.scalarPositions, s.IsLast index) (parameters : Parameters) :
    FailAlike BoundQuery.Indistinguishable
      ((c.laidOut .document).ready ⟨.select s, shaper⟩ parameters)
      ((c.laidOut .ordinal).ready ⟨.select s, shaper⟩ parameters) := by
  have same : shaper.reposition s.keptPosition = shaper :=
    shaper.reposition_eq_self fun i hi => SelectOf.keptPosition_of_isLast (last i hi)
  have := c.documents_read_last scalars shaper parameters
  rw [same] at this
  exact this

/-- The number and the tag of posts, each read by name. -/
def namedPosts : Select where
  container := "posts"
  source := "c"
  projection := [⟨.scalar (.column "c" ["id"] .int32 none), "id"⟩,
    ⟨.scalar (.column "c" ["tag"] .utf8 none), "tag"⟩]
  predicate := none
  orderings := []
  limit := none
  offset := none
  distinct := false

/-- The projections come in the other order, and one of them twice. -/
def namedPostShaper : Shaper :=
  .record [("tag", .binding 1 .utf8 true), ("again", .record [("tag", .binding 1 .utf8 true)]),
    ("id", .binding 0 .int32 false)]

/-- Posts are read by name in both layouts, though the projections come in another order than the
fields and one of them is there twice. -/
theorem layouts_indistinguishable_namedPosts :
    ∃ q₁ q₂, (postCompiler.laidOut .document).ready ⟨.select namedPosts, namedPostShaper⟩ .empty =
        .ok q₁ ∧
      (postCompiler.laidOut .ordinal).ready ⟨.select namedPosts, namedPostShaper⟩ .empty = .ok q₂ ∧
      q₁.Indistinguishable q₂ := by
  have scalars : namedPosts.ProjectsScalars := by
    intro p hp
    simp only [namedPosts, List.mem_cons, List.not_mem_nil, or_false] at hp
    rcases hp with rfl | rfl <;> exact ⟨_, rfl⟩
  have last := SelectOf.isLast_of_nodup (by decide : (namedPosts.projection.map (·.name)).Nodup)
  have alike := layouts_indistinguishable postCompiler scalars
    (fun index (_ : index ∈ namedPostShaper.scalarPositions) => last index) .empty
  obtain ⟨q₁, h₁⟩ : ∃ q, (postCompiler.laidOut .document).ready
      ⟨.select namedPosts, namedPostShaper⟩ .empty = .ok q := ⟨_, rfl⟩
  obtain ⟨q₂, h₂⟩ : ∃ q, (postCompiler.laidOut .ordinal).ready
      ⟨.select namedPosts, namedPostShaper⟩ .empty = .ok q := ⟨_, rfl⟩
  rw [h₁, h₂] at alike
  cases alike with
  | ok h => exact ⟨q₁, q₂, h₁, h₂, h⟩

/-- The tag of posts and the word for them under one name. -/
def sameNamedPosts : Select :=
  { namedPosts with
    projection := [⟨.scalar (.column "c" ["tag"] .utf8 none), "x"⟩,
      ⟨.scalar (.constant (.text "post") .utf8 none), "x"⟩] }

/-- **A name that is used twice parts the layouts.**  The first projection is read as the tag from
value lists, and from documents as what the second one holds. -/
theorem layouts_differ_sameNamedPosts :
    ∃ q₁ q₂, (postCompiler.laidOut .document).ready ⟨.select sameNamedPosts, .binding 0 .utf8 true⟩
        .empty = .ok q₁ ∧
      (postCompiler.laidOut .ordinal).ready ⟨.select sameNamedPosts, .binding 0 .utf8 true⟩
        .empty = .ok q₂ ∧
      (q₁.enumerate.next Item.toScalar postStore .fresh).outcome = some (.ok (.text "post")) ∧
      (q₂.enumerate.next Item.toScalar postStore .fresh).outcome = some (.ok (.text "b")) :=
  ⟨_, _, rfl, rfl, Enumeration.next_read rfl rfl rfl rfl rfl,
    Enumeration.next_read rfl rfl rfl rfl rfl⟩

end Compiler

end DocQuery
