/-
# Rows that conform

A document row conforms to a shaper when each value it reads is there at its type, each entity
that may not be null has a node, and each collection has an array or none (`RowShaper.Conforms`).
A condition on the nodes of entities can be asked for as well; it is on these nodes only
(`RowShaper.conforms_iff`).

Without identities shaping a row succeeds EXACTLY when the row conforms, with no condition on the
nodes of entities (`RowShaper.shapeRow_succeeds_iff`).

* Success does not depend on the state, and the conditions of steps add up
  (`Shaping.SucceedsIff`), so the proof is a recursion along the shaper with one case for each
  constructor.
* A property is read by its name, so among properties of one name the first counts
  (`EntityRead.Accepts`); with distinct names each of them counts
  (`EntityRead.accepts_iff_of_nodup`).

**Objects.**  A node that is no object, like a text or a number, is read as an entity of which
everything is missing.  So a row that conforms with objects only is shaped, and where all entities
have objects no other row is; but an entity whose properties may all be null is made of a text too
(`RowShaper.shapeRow_text_as_entity`).
-/
import DocQuery.Proofs.IdentityResolution
import DocQuery.Proofs.OwnedTypes
import DocQuery.Proofs.ShapingResults

namespace DocQuery

/-! ## 1. Conditions on nodes -/

/-- A node can be read at a type, and as null only where this is allowed. -/
def Json.Readable (node : Json) (type : DataType) (nullable : Bool) : Prop :=
  ∃ v, Scalar.ofJsonAs? type node = some v ∧ (v.isNull = true → nullable = true)

def Json.IsObject (node : Json) : Prop := ∃ members, node = .object members

/-- Each property that is listed can be read from a node.  Properties are read by name, so of those
with one name it is the first that counts; with distinct names each of them does
(`accepts_iff_of_nodup`). -/
def EntityRead.Accepts (r : EntityRead) (node : Json) : Prop :=
  ∀ p ∈ r.properties, ∃ q, r.properties.find? (·.name == p.name) = some q ∧
    (node.propertyNode q.jsonName).Readable q.dataType q.nullable

/-- With distinct names each property counts. -/
theorem EntityRead.accepts_iff_of_nodup {r : EntityRead}
    (distinct : (r.properties.map (·.name)).Nodup) {node : Json} : r.Accepts node ↔
      ∀ p ∈ r.properties, (node.propertyNode p.jsonName).Readable p.dataType p.nullable := by
  refine forall₂_congr fun p member => ?_
  rw [find?_of_nodup distinct member]
  constructor
  · rintro ⟨q, same, readable⟩
    cases same
    exact readable
  · exact fun readable => ⟨p, rfl, readable⟩

namespace RowShaper

mutual

/-- A node conforms to a shaper, with nodes of entities as `admits` says. -/
def Conforms (admits : Json → Prop) (node : Json) : RowShaper → Prop
  | .read access type nullable =>
    ∃ value, access.node node none = .ok value ∧ value.Readable type nullable
  | .entity info embedded =>
    let own := node.readPath info.path
    (own.isNull = true ∧ info.nullable = true) ∨
      (own.isNull = false ∧ admits own ∧ info.Accepts own ∧ FieldsConform admits own embedded)
  | .collection path element =>
    node.readPath path = .null ∨
      ∃ elements, node.readPath path = .array elements ∧ ∀ e ∈ elements, element.Conforms admits e
  | .record fields => FieldsConform admits node fields
  | .constant _ => True

def FieldsConform (admits : Json → Prop) (node : Json) : List (String × RowShaper) → Prop
  | [] => True
  | (_, s) :: rest => s.Conforms admits node ∧ FieldsConform admits node rest

end

mutual

/-- The nodes at which entities are read. -/
def entityNodes (node : Json) : RowShaper → List Json
  | .read .. | .constant _ => []
  | .entity info embedded =>
    let own := node.readPath info.path
    if own.isNull then [] else own :: fieldEntityNodes own embedded
  | .collection path element => match node.readPath path with
    | .array elements => elements.flatMap fun e => element.entityNodes e
    | _ => []
  | .record fields => fieldEntityNodes node fields

def fieldEntityNodes (node : Json) : List (String × RowShaper) → List Json
  | [] => []
  | (_, s) :: rest => s.entityNodes node ++ fieldEntityNodes node rest

end

section

variable {admits : Json → Prop}

mutual

/-- A condition on the nodes of entities can be asked apart from the rest. -/
theorem conforms_iff : ∀ (s : RowShaper) (node : Json), s.Conforms admits node ↔
    s.Conforms (fun _ => True) node ∧ ∀ n ∈ s.entityNodes node, admits n
  | .read access type nullable, node => by
    rw [Conforms, Conforms, entityNodes]
    exact (and_iff_left nofun).symm
  | .entity info embedded, node => by
    rw [Conforms, Conforms, entityNodes]
    cases null : (node.readPath info.path).isNull with
    | true => simp
    | false =>
      rw [if_neg Bool.false_ne_true, fieldsConform_iff embedded (node.readPath info.path)]
      simp only [Bool.false_eq_true, false_and, false_or, true_and, List.forall_mem_cons]
      tauto
  | .collection path element, node => by
    rw [Conforms, Conforms, entityNodes]
    cases found : node.readPath path with
    | array elements =>
      have each : (∀ e ∈ elements, element.Conforms admits e) ↔
          (∀ e ∈ elements, element.Conforms (fun _ => True) e) ∧
            ∀ n ∈ elements.flatMap fun e => element.entityNodes e, admits n := by
        simp only [List.mem_flatMap, forall_exists_index, and_imp]
        constructor
        · intro h
          refine ⟨fun e he => ((conforms_iff element e).1 (h e he)).1, fun n e he hn => ?_⟩
          exact ((conforms_iff element e).1 (h e he)).2 n hn
        · exact fun h e he => (conforms_iff element e).2 ⟨h.1 e he, fun n hn => h.2 n e he hn⟩
      simp only [reduceCtorEq, false_or, Json.array.injEq, exists_eq_left']
      exact each
    | _ => simp
  | .record fields, node => by
    rw [Conforms, Conforms, entityNodes]
    exact fieldsConform_iff fields node
  | .constant value, node => by
    rw [Conforms, Conforms, entityNodes]
    exact (and_iff_left nofun).symm

theorem fieldsConform_iff : ∀ (fields : List (String × RowShaper)) (node : Json),
    FieldsConform admits node fields ↔
      FieldsConform (fun _ => True) node fields ∧ ∀ n ∈ fieldEntityNodes node fields, admits n
  | [], node => by
    rw [FieldsConform, FieldsConform, fieldEntityNodes]
    exact (and_iff_left nofun).symm
  | (name, s) :: rest, node => by
    rw [FieldsConform, FieldsConform, fieldEntityNodes, conforms_iff s node,
      fieldsConform_iff rest node, List.forall_mem_append]
    exact and_and_and_comm

end

end

end RowShaper

/-! ## 2. Reading -/

open Shaping (SucceedsIff)

theorem exists_readValue {type : DataType} {nullable : Bool} {node : Json} :
    (∃ v, readValue type nullable node = .ok v) ↔ node.Readable type nullable := by
  unfold readValue Json.Readable
  cases Scalar.ofJsonAs? type node with
  | none => simp
  | some v =>
    dsimp only
    cases null : v.isNull <;> cases nullable <;> simp [null]

namespace EntityRead

variable {r : EntityRead} {node : Json}

theorem exists_readProperty {name : String} : (∃ v, r.readProperty node name = .ok v) ↔
    ∃ q, r.properties.find? (·.name == name) = some q ∧
      (node.propertyNode q.jsonName).Readable q.dataType q.nullable := by
  unfold readProperty Json.Readable
  cases r.properties.find? (·.name == name) with
  | none => simp
  | some q =>
    simp only [Option.some.injEq, exists_eq_left']
    cases Scalar.ofJsonAs? q.dataType (node.propertyNode q.jsonName) with
    | none => simp
    | some v =>
      dsimp only
      cases null : v.isNull <;> cases q.nullable <;> simp [null]

theorem exists_readProperties : (∃ values, r.readProperties node = .ok values) ↔ r.Accepts node := by
  constructor
  · rintro ⟨values, h⟩ p member
    obtain ⟨entries, hentries, -⟩ := bind_eq_ok.1 h
    obtain ⟨entry, -, hentry⟩ := mapM_eq_ok_of_mem hentries p member
    obtain ⟨v, hv, -⟩ := bind_eq_ok.1 hentry
    exact exists_readProperty.1 ⟨v, hv⟩
  · intro accepts
    obtain ⟨entries, hentries⟩ : ∃ entries, r.properties.mapM (fun p => do
        return (p.name, ← r.readProperty node p.name)) = Except.ok entries := by
      refine exists_mapM fun p member => ?_
      obtain ⟨v, hv⟩ := exists_readProperty.2 (accepts p member)
      exact ⟨(p.name, v), bind_eq_ok.2 ⟨v, hv, rfl⟩⟩
    exact ⟨.ofList entries, bind_eq_ok.2 ⟨entries, hentries, rfl⟩⟩

end EntityRead

/-! ## 3. Shaping -/

namespace RowShaper

mutual

/-- Without identities a node is shaped exactly when it conforms. -/
theorem succeedsIff_shapeNode : ∀ (s : RowShaper), s.Plain → ∀ node,
    SucceedsIff (s.Conforms (fun _ => True) node) (s.shapeNode none node)
  | .read access type nullable, _, node => by
    rw [shapeNode, Conforms]
    cases found : access.node node none with
    | error e =>
      exact fun s => iff_of_false (fun ⟨_, h⟩ => nomatch h) fun ⟨_, h, _⟩ => nomatch h
    | ok value =>
      refine ((Shaping.SucceedsIff.ofExcept (readValue type nullable value)).congr ?_).andThen
        fun v => .pure _
      rw [exists_readValue]
      simp only [Except.ok.injEq, exists_eq_left']
  | .entity info embedded, plain, node => by
    rw [Plain] at plain
    rw [shapeNode, Conforms, if_neg (by exact Bool.false_ne_true), shapeEntity, plain.1, if_pos rfl]
    cases (node.readPath info.path).isNull with
    | true =>
      cases info.nullable with
      | true => exact (SucceedsIff.pure _).congr (by simp)
      | false => exact (SucceedsIff.fail _).congr (by simp)
    | false =>
      exact (succeedsIff_makeEntity info embedded plain.2 _).congr (by simp)
  | .collection path element, plain, node => by
    rw [Plain] at plain
    rw [shapeNode, Conforms]
    cases node.readPath path with
    | null => exact (SucceedsIff.pure _).congr (by simp)
    | array elements =>
      refine SucceedsIff.congr (.andThen (.mapM fun e _ =>
        succeedsIff_shapeNode element plain e) fun items => .pure _) ?_
      simp only [reduceCtorEq, false_or, Json.array.injEq, exists_eq_left']
    | _ => exact (SucceedsIff.fail _).congr (by simp)
  | .record fields, plain, node => by
    rw [Plain] at plain
    rw [shapeNode, Conforms]
    exact (succeedsIff_shapeFields fields plain node).andThen fun items => .pure _
  | .constant value, _, node => by
    rw [shapeNode, Conforms]
    exact .pure _

theorem succeedsIff_makeEntity (info : EntityRead) : ∀ (embedded : List (String × RowShaper)),
    FieldsPlain embedded → ∀ node,
    SucceedsIff (info.Accepts node ∧ FieldsConform (fun _ => True) node embedded)
      (makeEntity info node embedded)
  | embedded, plain, node => by
    rw [makeEntity, ← EntityRead.exists_readProperties]
    refine (SucceedsIff.ofExcept _).bind fun values _ => ?_
    refine (succeedsIff_shapeFields embedded plain node).andThen fun items => ?_
    exact SucceedsIff.freshId.andThen fun id => .pure _

theorem succeedsIff_shapeFields : ∀ (fields : List (String × RowShaper)), FieldsPlain fields →
    ∀ node, SucceedsIff (FieldsConform (fun _ => True) node fields) (shapeFields none node fields)
  | [], _, node => by
    rw [shapeFields, FieldsConform]
    exact .pure _
  | (name, s) :: rest, plain, node => by
    rw [FieldsPlain] at plain
    rw [shapeFields, FieldsConform]
    refine (succeedsIff_shapeNode s plain.1 node).bind fun first _ => ?_
    exact (succeedsIff_shapeFields rest plain.2 node).andThen fun others => .pure _

end

/-- **Shaping accepts the rows that conform**, whatever the nodes of their entities are: it gives an
item exactly when each value is there at its type, at every depth, from every state.  Where the
nodes of entities are objects it accepts exactly the rows that conform with objects only, so what is
missing in the condition is that a node be an object. -/
theorem shapeRow_succeeds_iff {m : Model} {t : EntityType} {path : List String} {nullable : Bool}
    {s : RowShaper} (h : m.entityShaper t path nullable .none = .ok s) (body : Json)
    (state : ShapingState) :
    ((∃ item, ((s.shapeRow (.document body)).run state).1 = .ok item) ↔
      s.Conforms (fun _ => True) body) ∧
    ((∀ n ∈ s.entityNodes body, n.IsObject) →
      ((∃ item, ((s.shapeRow (.document body)).run state).1 = .ok item) ↔
        s.Conforms Json.IsObject body)) := by
  have plain : s.Plain := by
    obtain ⟨info, embedded, rfl, identity, -, -, -, plain⟩ := expandEntity_spec h
    rw [Plain]
    exact ⟨identity, plain⟩
  have accepted := succeedsIff_shapeNode s plain body state
  refine ⟨accepted, fun objects => accepted.trans ?_⟩
  exact (and_iff_left objects).symm.trans (conforms_iff s body).symm

/-- A contact conforms, with objects for itself, its home and its office, and is shaped. -/
theorem shapeRow_succeeds_iff_contact :
    contactModel.entityShaper contact [] false .none = .ok (contactShaper .none) ∧
      (∃ item, (((contactShaper .none).shapeRow (.document contactRow)).run
        ⟨.empty, none, 0⟩).1 = .ok item) ∧
      (contactShaper .none).Conforms Json.IsObject contactRow := by
  have h := entityShaper_contact .none
  have nodes : (contactShaper .none).entityNodes contactRow =
      [contactRow, .object [("city", .string "Bergen")], .object [("city", .string "Oslo")]] := rfl
  have objects : ∀ n ∈ (contactShaper .none).entityNodes contactRow, n.IsObject := by
    rw [nodes]
    intro n member
    simp only [List.mem_cons, List.not_mem_nil, or_false] at member
    rcases member with rfl | rfl | rfl <;> exact ⟨_, rfl⟩
  obtain ⟨id, entityType, values, embedded, shaped⟩ := shapeRow_contact
  exact ⟨h, ⟨_, shaped⟩, ((shapeRow_succeeds_iff h contactRow _).2 objects).1 ⟨_, shaped⟩⟩

/-- A contact whose home is a text. -/
def strayRow : Json := .object [("home", .string "Bergen"), ("id", .ofInt 1)]

/-- **A text is shaped as an entity.** -/
theorem shapeRow_text_as_entity :
    ¬∀ (m : Model) (t : EntityType) (path : List String) (nullable : Bool) (s : RowShaper)
      (body : Json) (state : ShapingState), m.entityShaper t path nullable .none = .ok s →
      ((∃ item, ((s.shapeRow (.document body)).run state).1 = .ok item) ↔
        s.Conforms Json.IsObject body) := by
  intro all
  have shaped : ∃ item, (((contactShaper .none).shapeRow (.document strayRow)).run
      ⟨.empty, none, 0⟩).1 = .ok item := by
    simp only [contactShaper, shapeRow, shapeNode, shapeEntity, makeEntity, shapeFields]
    exact ⟨_, rfl⟩
  have conforms :=
    (all contactModel contact [] false _ strayRow _ (entityShaper_contact .none)).1 shaped
  have home : Json.IsObject (.string "Bergen") :=
    ((conforms_iff _ _).1 conforms).2 _ (List.mem_cons_of_mem _ List.mem_cons_self)
  obtain ⟨members, text⟩ := home
  cases text

end RowShaper

end DocQuery
