/-
# Columns and entities

A dotted path is followed in two ways.  Filters and projections resolve it to a column, which is
read in the document; a caller walks through the entity that the document is shaped into and the
entities it owns (`Item.valueAlong`).  The two agree: an entity that is MADE for a document has at
the end of each path the value of the column there, and null where an entity on the way is null
(`Model.valueAlong_entityShaper`).

The proof follows the path, one navigation at a time.  The results of navigations have the names
of these, so a reference has its result among them (`Model.exists_of_shapesOwned`), and it was
made of the node that the column's path leads to; at the end stands a property, which has the
value that is read in that node (`Model.find?_of_makeEntity`).

With identities an entity need not be made for the document.  When one has been recorded for its
key, that one is given out, with the values it was made with.  The theorem names this case as the
only other one, and `Model.recorded_entity_differs_from_column` is a document that was changed
since.
-/
import DocQuery.Definition.Build
import DocQuery.Proofs.IdentityResolution
import DocQuery.Proofs.KeyedSelects
import DocQuery.Proofs.OwnedTypes
import DocQuery.Proofs.ShapingResults

namespace DocQuery

/-! ## 1. Paths -/

theorem splitOnAux_ne_nil (s separator : String) (b i j : String.Pos.Raw) (parts : List String) :
    s.splitOnAux separator b i j parts ≠ [] := by
  induction b, i, j, parts using String.splitOnAux.induct s separator with
  | case1 b i j parts ended =>
    rw [String.splitOnAux, if_pos ended]
    simp
  | case2 b i j parts going same i' j' whole ih =>
    rw [String.splitOnAux, if_neg going, if_pos same]
    exact (if_pos whole).symm ▸ ih
  | case3 b i j parts going same i' j' partly ih =>
    rw [String.splitOnAux, if_neg going, if_pos same]
    exact (if_neg partly).symm ▸ ih
  | case4 b i j parts going other ih =>
    rw [String.splitOnAux, if_neg going, if_neg other]
    exact ih

/-- A text has at least one part. -/
theorem splitOn_ne_nil (s separator : String) : s.splitOn separator ≠ [] := by
  rw [String.splitOn]
  split
  · exact List.cons_ne_nil _ _
  · exact splitOnAux_ne_nil s separator 0 0 0 []

namespace Json

theorem eq_null_of_isNull {node : Json} (h : node.isNull = true) : node = .null := by
  cases node <;> cases h
  rfl

theorem readPath_null (names : List String) : Json.null.readPath names = .null := by
  cases names <;> rfl

theorem readPath_cons (node : Json) (name : String) (names : List String) :
    node.readPath (name :: names) = (node.propertyNode name).readPath names := by
  rw [readPath, propertyNode]
  cases node.member? name with
  | some inner => rfl
  | none => exact (readPath_null names).symm

end Json

/-- The value at the end of a path: navigations to owned entities, and a property of the last one.
Below null there is null. -/
def Item.valueAlong (item : Item) : List String → Option Scalar
  | [] => none
  | [name] => match item with
    | .null => some .null
    | .entity _ _ values _ => values.find? name
    | _ => none
  | name :: rest => match item with
    | .null => some .null
    | .entity _ _ _ embedded => (embedded.lookup name).bind fun owned => owned.valueAlong rest
    | _ => none

theorem Item.valueAlong_null {names : List String} (h : names ≠ []) :
    Item.null.valueAlong names = some .null := by
  match names with
  | [] => exact absurd rfl h
  | [_] | _ :: _ :: _ => rfl

theorem EntityType.property?_of_property {t : EntityType} {name : String} {p : Property}
    (h : t.property name = .ok p) : t.property? name = some p := by
  unfold property at h
  split at h
  · next found =>
    cases h
    exact found
  · cases h

theorem DefinitionError.eq_ok_of_lift {α : Type} {x : Except QueryError α} {a : α}
    (h : DefinitionError.lift x = .ok a) : x = .ok a := by
  cases x with
  | ok b => exact congrArg _ (Except.ok.inj h)
  | error e => cases h

/-! ## 2. Owned entities -/

namespace Model

variable {m : Model}

theorem columnAlong_singleton {t : EntityType} {name : String} {c : Column}
    (h : m.columnAlong t [name] = .ok c) :
    ∃ p, t.property name = .ok p ∧ c = ⟨[p.jsonName], p⟩ := by
  rw [columnAlong] at h
  obtain ⟨p, hp, h⟩ := bind_eq_ok.1 h
  exact ⟨p, DefinitionError.eq_ok_of_lift hp, (pure_eq_ok.1 h).symm⟩

theorem columnAlong_cons {t : EntityType} {name next : String} {rest : List String} {c : Column}
    (h : m.columnAlong t (name :: next :: rest) = .ok c) :
    ∃ n u inner, n ∈ t.embedded ∧ n.name = name ∧ n.isCollection = false ∧
      m.entityType? n.target = some u ∧ m.columnAlong u (next :: rest) = .ok inner ∧
      c = ⟨n.jsonName :: inner.path, inner.property⟩ := by
  simp only [columnAlong] at h
  split at h
  · cases h
  · next n found =>
    have chosen := List.find?_some found
    rw [Bool.and_eq_true, beq_iff_eq, Bool.not_eq_true'] at chosen
    obtain ⟨u, hu, h⟩ := bind_eq_ok.1 h
    obtain ⟨inner, hinner, h⟩ := bind_eq_ok.1 h
    exact ⟨n, u, inner, List.mem_of_find?_eq_some found, chosen.1, chosen.2,
      entityType_eq_ok (DefinitionError.eq_ok_of_lift hu), hinner, (pure_eq_ok.1 h).symm⟩

open Shaping (Yields)

/-- The results of navigations have the names of these. -/
theorem map_fst_of_shapesOwned {node : Json} : ∀ {navigations : List Navigation}
    {fields : List (String × RowShaper)} {items : List (String × Item)},
    m.ShapesOwned navigations fields → Yields (RowShaper.shapeFields none node fields) items →
    items.map Prod.fst = navigations.map (·.name)
  | _, _, _, .nil, h => by
    rw [RowShaper.yields_shapeFields_nil h]
    rfl
  | _, _, _, .reference _ _ _ rest, h | _, _, _, .collection _ _ _ rest, h => by
    obtain ⟨first, others, rfl, -, hothers⟩ := RowShaper.yields_shapeFields_cons h
    rw [List.map_cons, List.map_cons, map_fst_of_shapesOwned rest hothers]

/-- A reference has its result among those of the navigations. -/
theorem exists_of_shapesOwned {node : Json} {n : Navigation} {u : EntityType}
    (single : n.isCollection = false) (target : m.entityType? n.target = some u) :
    ∀ {navigations : List Navigation} {fields : List (String × RowShaper)}
    {items : List (String × Item)}, m.ShapesOwned navigations fields → n ∈ navigations →
    Yields (RowShaper.shapeFields none node fields) items →
    ∃ s i, m.Shapes u [n.jsonName] true .none s ∧ (n.name, i) ∈ items ∧
      Yields (s.shapeNode none node) i
  | _, _, _, .nil, member, _ => nomatch member
  | n' :: _, _, _, .reference _ target' inner rest, member, h => by
    obtain ⟨first, others, rfl, hfirst, hothers⟩ := RowShaper.yields_shapeFields_cons h
    rcases List.mem_cons.1 member with rfl | member
    · cases target.symm.trans target'
      exact ⟨_, first, inner, List.mem_cons_self, hfirst⟩
    · obtain ⟨s, i, shapes, listed, given⟩ := exists_of_shapesOwned single target rest member hothers
      exact ⟨s, i, shapes, List.mem_cons_of_mem _ listed, given⟩
  | n' :: _, _, _, .collection many _ _ rest, member, h => by
    obtain ⟨first, others, rfl, hfirst, hothers⟩ := RowShaper.yields_shapeFields_cons h
    rcases List.mem_cons.1 member with rfl | member
    · cases single.symm.trans many
    · obtain ⟨s, i, shapes, listed, given⟩ := exists_of_shapesOwned single target rest member hothers
      exact ⟨s, i, shapes, List.mem_cons_of_mem _ listed, given⟩

/-- A property of a new entity has the value that is read in its node. -/
theorem find?_of_makeEntity {t : EntityType} {path : List String} {nullable : Bool}
    {identity : IdentityMode} {node : Json} {name : String} {p : Property}
    {values : Dictionary Scalar} (property : t.property name = .ok p)
    (h : (EntityRead.ofType t path nullable identity).readProperties node = .ok values) :
    values.find? name = Scalar.ofJsonAs? p.dataType (node.readPath [p.jsonName]) := by
  obtain ⟨member, named⟩ := EntityType.property_eq_ok property
  obtain ⟨entries, hentries, -⟩ := bind_eq_ok.1 h
  obtain ⟨entry, -, hentry⟩ := mapM_eq_ok_of_mem hentries (.ofProperty p)
    (List.mem_map_of_mem member)
  obtain ⟨v, hv, -⟩ := bind_eq_ok.1 hentry
  have hv : (EntityRead.ofType t path nullable identity).readProperty node name = .ok v := named ▸ hv
  obtain ⟨q, found, read⟩ := EntityRead.exists_of_readProperty hv
  -- a property and its read are found by the same name
  rw [EntityRead.ofType, List.find?_map, Option.map_eq_some_iff] at found
  obtain ⟨p', found, rfl⟩ := found
  cases (EntityType.property?_of_property property).symm.trans found
  rw [EntityRead.find?_of_readProperties h hv, Json.readPath_propertyNode]
  exact read.symm

/-- A new entity has the values of all columns. -/
theorem valueAlong_of_makeEntity : ∀ {names : List String} {t : EntityType} {path : List String}
    {nullable : Bool} {identity : IdentityMode} {fields : List (String × RowShaper)} {node : Json}
    {item : Item} {c : Column}, names ≠ [] → (∀ u, m.Reaches t u → u.DistinctNames) →
    m.ShapesOwned t.embedded fields →
    Yields (RowShaper.makeEntity (.ofType t path nullable identity) node fields) item →
    m.columnAlong t names = .ok c →
    item.valueAlong names = Scalar.ofJsonAs? c.property.dataType (node.readPath c.path)
  | [], _, _, _, _, _, _, _, _, empty, _, _, _, _ => absurd rfl empty
  | [name], t, path, nullable, identity, fields, node, item, c, _, _, _, made, column => by
    obtain ⟨id, values, items, hvalues, -, rfl⟩ := RowShaper.yields_makeEntity made
    obtain ⟨p, property, rfl⟩ := columnAlong_singleton column
    exact find?_of_makeEntity property hvalues
  | name :: next :: rest, t, path, nullable, identity, fields, node, item, c, _, distinct, owned,
      made, column => by
    obtain ⟨id, values, items, -, hitems, rfl⟩ := RowShaper.yields_makeEntity made
    obtain ⟨n, u, inner, member, rfl, single, target, below, rfl⟩ := columnAlong_cons column
    obtain ⟨s, i, shapes, listed, given⟩ := exists_of_shapesOwned single target owned member hitems
    have names : (items.map Prod.fst).Nodup := by
      rw [map_fst_of_shapesOwned owned hitems]
      exact (distinct t (.refl m t)).navigations
    have found : (items.foldl (fun sorted f => insertAscending f.1 f.2 sorted) []).lookup n.name =
        some i := by
      have entry := Dictionary.find?_ofList_of_mem names listed
      rwa [Dictionary.find?, Dictionary.entries_ofList] at entry
    rw [Json.readPath_cons]
    simp only [Item.valueAlong, found, Option.bind_some]
    cases shapes with
    | entity owned =>
      rcases RowShaper.yields_entity rfl given with ⟨null, -, rfl⟩ | ⟨-, made⟩
      · have empty : node.propertyNode n.jsonName = .null := by
          rw [← Json.readPath_propertyNode]
          exact Json.eq_null_of_isNull null
        rw [empty, Json.readPath_null, Item.valueAlong_null (List.cons_ne_nil _ _)]
        rfl
      · have distinct' : ∀ v, m.Reaches u v → v.DistinctNames := fun v reached =>
          distinct v (Owns.reaches ⟨n, member, target⟩ reached)
        rw [← Json.readPath_propertyNode]
        exact valueAlong_of_makeEntity (List.cons_ne_nil _ _) distinct' owned made below

/-- **Columns show what is in the entity.**  At the end of a dotted path an entity that is shaped
has the value that its column has in the document, and null where an entity on the way is null.
That is so in every identity mode and from every state, unless the entity is the one that was
recorded before for the key of its node: then it is given out with the values it was made with.
Without an identity nothing is recorded. -/
theorem valueAlong_entityShaper {t : EntityType} (distinct : ∀ u, m.Reaches t u → u.DistinctNames)
    {base : List String} {nullable : Bool} {identity : IdentityMode} {s : RowShaper}
    (compiled : m.entityShaper t base nullable identity = .ok s) {body : Json}
    {state : ShapingState} {item : Item}
    (shaped : ((s.shapeRow (.document body)).run state).1 = .ok item) {path : String} {c : Column}
    (column : m.column t path = .ok c) :
    (∃ key, t.key.mapM ((EntityRead.ofType t base nullable identity).readProperty
        (body.readPath base)) = .ok key ∧
      (state.map identity).find? t.name key = some item) ∨
    item.valueAlong (path.splitOn ".") =
      Scalar.ofJsonAs? c.property.dataType ((body.readPath base).readPath c.path) := by
  have names := splitOn_ne_nil path "."
  have shapes := shapes_entityShaper compiled
  obtain ⟨info, fields, rfl, -, -, -, -, plain⟩ := RowShaper.expandEntity_spec compiled
  cases shapes with
  | entity owned =>
    rw [RowShaper.shapeRow, RowShaper.shapeNode, if_neg (by exact Bool.false_ne_true)] at shaped
    rcases RowShaper.shapeEntity_cases plain shaped with ⟨null, rfl⟩ | ⟨-, recorded | made⟩
    · refine .inr ?_
      have empty : body.readPath base = .null := Json.eq_null_of_isNull null
      rw [empty, Json.readPath_null, Item.valueAlong_null names]
      rfl
    · exact .inl recorded
    · exact .inr (valueAlong_of_makeEntity names distinct owned made column)

theorem splitOnAux_skip {s separator : String} {b i : String.Pos.Raw} {parts : List String}
    (going : ¬ i.atEnd s) (other : ¬ i.get s == String.Pos.Raw.get separator 0) :
    s.splitOnAux separator b i 0 parts =
      s.splitOnAux separator b (String.Pos.Raw.next s i) 0 parts := by
  rw [String.splitOnAux, if_neg going, if_neg other]
  rfl

theorem splitOn_homeCity : "Home.City".splitOn "." = ["Home", "City"] := by
  rw [String.splitOn, if_neg (by decide)]
  iterate 4 rw [splitOnAux_skip (by decide) (by decide)]
  rw [String.splitOnAux, if_neg (by decide), if_pos (by decide), if_pos (by decide)]
  iterate 4 rw [splitOnAux_skip (by decide) (by decide)]
  rw [String.splitOnAux, if_pos (by decide)]
  decide

theorem splitOn_tag : "Tag".splitOn "." = ["Tag"] := by
  rw [String.splitOn, if_neg (by decide)]
  iterate 3 rw [splitOnAux_skip (by decide) (by decide)]
  rw [String.splitOnAux, if_pos (by decide)]
  decide

theorem splitOn_id : "Id".splitOn "." = ["Id"] := by
  rw [String.splitOn, if_neg (by decide)]
  iterate 2 rw [splitOnAux_skip (by decide) (by decide)]
  rw [String.splitOnAux, if_pos (by decide)]
  decide

/-- The city of a home, as a filter and as a reader of the contact see it. -/
theorem valueAlong_entityShaper_contact : ∃ item c,
    (((contactShaper .none).shapeRow (.document contactRow)).run ⟨.empty, none, 0⟩).1 = .ok item ∧
      contactModel.column contact "Home.City" = .ok c ∧
      item.valueAlong ("Home.City".splitOn ".") = some (.text "Bergen") ∧
      Scalar.ofJsonAs? c.property.dataType (contactRow.readPath c.path) = some (.text "Bergen") := by
  obtain ⟨id, entityType, values, embedded, shaped⟩ := shapeRow_contact
  have column : contactModel.column contact "Home.City" =
      .ok ⟨["home", "city"], ⟨"City", .utf8, true, "city", none⟩⟩ := by
    rw [Model.column, splitOn_homeCity]
    rfl
  have value : Scalar.ofJsonAs? .utf8 (contactRow.readPath ["home", "city"]) =
      some (.text "Bergen") := rfl
  refine ⟨_, _, shaped, column, ?_, value⟩
  rcases valueAlong_entityShaper distinctNames_contact (entityShaper_contact .none) shaped column with
    ⟨key, -, recorded⟩ | agree
  · cases recorded
  · exact agree.trans value

/-- A contact before and after its tag was changed. -/
def changedRow (tag : String) : Json := .object [("id", .ofInt 1), ("tag", .string tag)]

/-- The state in which the contact has been shaped before the change. -/
def recordedState : ShapingState :=
  (((contactShaper .tracked).shapeRow (.document (changedRow "a"))).run ⟨.empty, none, 0⟩).2

/-- **A recorded entity differs from the column** when the document was changed since. -/
theorem recorded_entity_differs_from_column :
    ¬∀ (m : Model) (t : EntityType) (base : List String) (nullable : Bool) (identity : IdentityMode)
      (s : RowShaper) (body : Json) (state : ShapingState) (item : Item) (path : String) (c : Column),
      (∀ u, m.Reaches t u → u.DistinctNames) → m.entityShaper t base nullable identity = .ok s →
      ((s.shapeRow (.document body)).run state).1 = .ok item → m.column t path = .ok c →
      item.valueAlong (path.splitOn ".") =
        Scalar.ofJsonAs? c.property.dataType ((body.readPath base).readPath c.path) := by
  intro all
  have column : contactModel.column contact "Tag" =
      .ok ⟨["tag"], ⟨"Tag", .utf8, true, "tag", none⟩⟩ := by
    rw [Model.column, splitOn_tag]
    rfl
  have recorded : ∃ item, (((contactShaper .tracked).shapeRow (.document (changedRow "b"))).run
      recordedState).1 = .ok item ∧ item.valueAlong ["Tag"] = some (.text "a") := by
    simp only [recordedState, contactShaper, RowShaper.shapeRow, RowShaper.shapeNode,
      RowShaper.shapeEntity, RowShaper.makeEntity, RowShaper.shapeFields]
    exact ⟨_, rfl, rfl⟩
  obtain ⟨item, given, stale⟩ := recorded
  have agree := all _ _ _ _ _ _ _ _ item "Tag" _ distinctNames_contact
    (entityShaper_contact .tracked) given column
  have value : Scalar.ofJsonAs? .utf8 (((changedRow "b").readPath []).readPath ["tag"]) =
      some (.text "b") := rfl
  rw [splitOn_tag, stale] at agree
  exact absurd (agree.trans value) (by decide)

end Model

end DocQuery
