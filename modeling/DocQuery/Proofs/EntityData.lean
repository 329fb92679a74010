/-
# The data of entities

What a model says an entity is in a document is its MIRROR (`Model.mirror`): an object with the
value of each property under the property's name, and with the mirrors of what it owns under the
names of the navigations.  Shaping and writing as JSON go there and back along a quite different
way: typed values, maps by name, instances with numbers.  Where types keep their JSON values and
names are distinct nothing is lost or changed on it: an entity that is shaped is written as the
mirror of its node (`Model.toJson_entityShaper`).

* What is read at a type that keeps its values is written as it was (`DataType.KeepsJson`).
* The values of an entity are those of its node, under the names of the properties
  (`EntityRead.toJson_readProperties`); distinct names are needed, since one name has one value.
* The results of navigations are written as the mirrors of what they own: a recursion along the
  owned types, which ends because none of them owns itself (`Model.Mirrored`).

Not kept are floats, whose digits may change, and values of type object, which are held as their
JSON text.  Types that have these are not `Mirrored`.
-/
import DocQuery.Proofs.KeyedSelects
import DocQuery.Proofs.OwnedTypes
import DocQuery.Proofs.ScalarOrder
import DocQuery.Proofs.ShapingResults

namespace DocQuery

/-! ## 1. Types that keep values -/

/-- The types whose values are written as they were read.  Doubles are not, nor is what is held as
JSON text. -/
inductive DataType.KeepsJson : DataType → Prop where
  | boolean : KeepsJson .boolean
  | int32 : KeepsJson .int32
  | int64 : KeepsJson .int64
  | date64 : KeepsJson .date64
  | utf8 : KeepsJson .utf8
  | binary : KeepsJson .binary

namespace Scalar

theorem eq_ofInt_of_asInt64? {j : Json} {n : Int} (h : j.asInt64? = some n) :
    j = .ofInt n ∧ fitsInt64 n = true := by
  cases j with
  | number m => cases m with
    | integer i =>
      simp only [Json.asInt64?, Option.ite_none_right_eq_some, Option.some.injEq] at h
      obtain ⟨fits, rfl⟩ := h
      exact ⟨rfl, fits⟩
    | double x | single x => cases h
  | _ => cases h

theorem eq_of_byte? {j : Json} {b : UInt8} (h : byte? j = some b) : j = .ofInt b.toNat := by
  obtain ⟨n, hn, h⟩ := Option.bind_eq_some_iff.1 h
  split at h
  · next small =>
    cases h
    rw [UInt8.toNat_ofNat_of_lt' small]
    cases j with
    | number m => cases m with
      | integer i =>
        simp only [Json.asNat?, Option.ite_none_right_eq_some, Option.some.injEq] at hn
        obtain ⟨positive, rfl⟩ := hn
        rw [Int.toNat_of_nonneg positive]
        rfl
      | double x | single x => cases hn
    | _ => cases hn
  · cases h

theorem map_bytes : ∀ {items : List Json} {bytes : List UInt8}, items.mapM byte? = some bytes →
    bytes.map (fun b => Json.ofInt b.toNat) = items
  | [], _, h => by
    cases h
    rfl
  | j :: items, _, h => by
    rw [List.mapM_cons] at h
    obtain ⟨b, hb, h⟩ := Option.bind_eq_some_iff.1 h
    obtain ⟨bytes, hbytes, h⟩ := Option.bind_eq_some_iff.1 h
    cases h
    rw [List.map_cons, map_bytes hbytes, eq_of_byte? hb]

/-- What is read at such a type is written as it was. -/
theorem toJson_of_ofJsonAs? {type : DataType} (keeps : type.KeepsJson) {j : Json} {a : Scalar}
    (h : ofJsonAs? type j = some a) : a.toJson = j := by
  unfold ofJsonAs? at h
  split at h
  · next null =>
    cases h
    cases j <;> cases null
    rfl
  · cases keeps with
    | boolean =>
      obtain ⟨x, hx, rfl⟩ := Option.map_eq_some_iff.1 h
      cases j <;> cases hx
      rfl
    | int32 =>
      obtain ⟨n, hn, h⟩ := Option.bind_eq_some_iff.1 h
      split at h
      · next fits =>
        cases h
        rw [toJson, toInt_ofInt_of_fits fits, (eq_ofInt_of_asInt64? hn).1]
      · cases h
    | int64 | date64 =>
      obtain ⟨n, hn, rfl⟩ := Option.map_eq_some_iff.1 h
      obtain ⟨rfl, fits⟩ := eq_ofInt_of_asInt64? hn
      rw [toJson, toInt_ofInt_of_fits64 fits]
    | utf8 =>
      obtain ⟨x, hx, rfl⟩ := Option.map_eq_some_iff.1 h
      cases j <;> cases hx
      rfl
    | binary =>
      obtain ⟨items, hitems, h⟩ := Option.bind_eq_some_iff.1 h
      obtain ⟨bytes, hbytes, rfl⟩ := Option.map_eq_some_iff.1 h
      cases j <;> cases hitems
      rw [toJson, map_bytes hbytes]

end Scalar

/-! ## 2. Objects -/

section

variable {α β : Type}

/-- A map over the members of a list, as it is met with in a recursion along them. -/
theorem map_eq_map_attach {γ : Type} {l : List α} {bs : List β} {g : β → γ} {f : {a // a ∈ l} → γ}
    (h : List.Forall₂ (fun a b => ∀ member : a ∈ l, g b = f ⟨a, member⟩) l bs) :
    bs.map g = l.attach.map f := by
  refine List.ext_getElem ?_ fun i hi hi' => ?_
  · rw [List.length_map, List.length_map, List.length_attach, h.length_eq]
  · rw [List.getElem_map, List.getElem_map, List.getElem_attach]
    rw [List.length_map] at hi hi'
    rw [List.length_attach] at hi'
    exact h.get hi' hi (List.getElem_mem hi')

namespace Dictionary

/-- Adding the entries of a dictionary. -/
theorem find?_foldl_insert_entries (d d' : Dictionary α) (key : String) :
    (d'.entries.foldl (fun d e => d.insert e.1 e.2) d).find? key =
      (d'.find? key).or (d.find? key) := by
  rw [find?_foldl_insert, ← find?_ofList, ofList_entries]

theorem find?_map_ofList (f : α → β) (entries : List (String × α)) (key : String) :
    ((ofList entries).map f).find? key =
      (entries.map fun e => (e.1, f e.2)).reverse.lookup key := by
  rw [find?_map, find?_ofList, ← List.map_reverse, lookup_map_values]

end Dictionary

end

namespace Item

/-- An entity is written as the object of its properties and navigations. -/
theorem toJson_entity (id : Nat) (entityType : String) (values : List (String × Scalar))
    (items : List (String × Item)) :
    (entity id entityType (.ofList values)
        (items.foldl (fun sorted f => insertAscending f.1 f.2 sorted) [])).toJson =
      .ofDictionary (.ofList (values.map (fun e => (e.1, e.2.toJson)) ++
        items.map fun i => (i.1, i.2.toJson))) := by
  have sorted := Dictionary.entries_ofList items
  have written : insertFields ((Dictionary.ofList values).map Scalar.toJson).entries
      (Dictionary.ofList items).entries =
        (((Dictionary.ofList items).map toJson).entries.foldl (fun d e => d.insert e.1 e.2)
          ((Dictionary.ofList values).map Scalar.toJson)).entries := by
    rw [insertFields_eq_foldl, Dictionary.entries_foldl_insert]
    rfl
  rw [toJson, ← sorted, written]
  refine congrArg Json.ofDictionary (Dictionary.eq_of_find?_eq fun key => ?_)
  rw [Dictionary.find?_foldl_insert_entries, Dictionary.find?_map_ofList,
    Dictionary.find?_map_ofList, Dictionary.find?_ofList, List.reverse_append, List.lookup_append]

end Item

/-! ## 3. Mirrors -/

/-- What a navigation owns in the node of its owner: the mirrors of the elements of an array, or of
a single node that is not null. -/
def Navigation.project (n : Navigation) (node : Json) (mirror : Json → Json) : Json :=
  let own := node.propertyNode n.jsonName
  if n.isCollection then .array ((own.asArray?.getD []).map mirror)
  else if own.isNull then .null else mirror own

namespace Model

/-- Navigations with the types they lead to. -/
def resolve (m : Model) (navigations : List Navigation) : List (Navigation × EntityType) :=
  navigations.filterMap fun n => (m.entityType? n.target).map fun u => (n, u)

theorem resolve_cons {m : Model} {n : Navigation} {u : EntityType}
    (target : m.entityType? n.target = some u) (navigations : List Navigation) :
    m.resolve (n :: navigations) = (n, u) :: m.resolve navigations :=
  List.filterMap_cons_some (congrArg (Option.map fun u => (n, u)) target)

theorem owns_of_mem_resolve {m : Model} {t : EntityType} {n : Navigation} {u : EntityType}
    (h : (n, u) ∈ m.resolve t.embedded) : m.Owns t u := by
  obtain ⟨_, member, h⟩ := List.mem_filterMap.1 h
  obtain ⟨_, target, h⟩ := Option.map_eq_some_iff.1 h
  cases h
  exact ⟨n, member, target⟩

/-- The mirror of a node as an entity of a type. -/
def mirror (m : Model) (t : EntityType) (acyclic : m.Acyclic t) (node : Json) : Json :=
  .ofDictionary (.ofList (
    t.properties.map (fun p => (p.name, node.propertyNode p.jsonName)) ++
    (m.resolve t.embedded).attach.map fun ⟨(n, u), owned⟩ =>
      (n.name, n.project node (m.mirror u (acyclic.of_owns (owns_of_mem_resolve owned))))))
termination_by m.reach t
decreasing_by exact reach_lt acyclic (owns_of_mem_resolve owned)

end Model

/-! ## 4. Entities that are shaped -/

/-- The values of an entity are those of its node. -/
theorem EntityRead.toJson_readProperties {r : EntityRead} {node : Json} {values : Dictionary Scalar}
    (distinct : (r.properties.map (·.name)).Nodup)
    (keeps : ∀ p ∈ r.properties, p.dataType.KeepsJson) (h : r.readProperties node = .ok values) :
    ∃ entries, values = .ofList entries ∧ entries.map (fun e => (e.1, e.2.toJson)) =
      r.properties.map fun p => (p.name, node.propertyNode p.jsonName) := by
  obtain ⟨entries, hentries, h⟩ := bind_eq_ok.1 h
  refine ⟨entries, (pure_eq_ok.1 h).symm, map_of_mapM (fun p member e he => ?_) hentries⟩
  obtain ⟨v, hv, he⟩ := bind_eq_ok.1 he
  cases pure_eq_ok.1 he
  obtain ⟨q, found, read⟩ := exists_of_readProperty hv
  rw [find?_of_nodup distinct member] at found
  cases found
  exact congrArg _ (Scalar.toJson_of_ofJsonAs? (keeps p member) read)

namespace Model

variable {m : Model}

/-- The types that a type reaches have distinct names and keep their values, and none owns itself. -/
structure Mirrored (m : Model) (t : EntityType) : Prop where
  acyclic : m.Acyclic t
  distinct : ∀ u, m.Reaches t u → u.DistinctNames
  keeps : ∀ u, m.Reaches t u → ∀ p ∈ u.properties, p.dataType.KeepsJson

theorem Mirrored.of_owns {t u : EntityType} (h : m.Mirrored t) (owns : m.Owns t u) :
    m.Mirrored u where
  acyclic := h.acyclic.of_owns owns
  distinct v reached := h.distinct v (owns.reaches reached)
  keeps v reached := h.keeps v (owns.reaches reached)

/-- Results of navigations are written as their mirrors. -/
def WrittenAs (m : Model) (node : Json) (e : Navigation × EntityType) (i : String × Item) : Prop :=
  ∀ acyclic : m.Acyclic e.2, (i.1, i.2.toJson) = (e.1.name, e.1.project node (m.mirror e.2 acyclic))

open Shaping (Yields)

mutual

/-- A shaped entity is null, where it may be, or written as the mirror of its node. -/
theorem toJson_of_shapes {node : Json} {item : Item} : ∀ {t : EntityType} {path : List String}
    {nullable : Bool} {s : RowShaper}, m.Shapes t path nullable .none s →
    ∀ mirrored : m.Mirrored t, Yields (s.shapeNode none node) item →
    ((node.readPath path).isNull = true ∧ nullable = true ∧ item = .null) ∨
      (node.readPath path).isNull = false ∧
        item.toJson = m.mirror t mirrored.acyclic (node.readPath path)
  | t, path, nullable, _, .entity owned, mirrored, h => by
    rcases RowShaper.yields_entity rfl h with null | ⟨full, made⟩
    · exact .inl null
    · refine .inr ⟨full, ?_⟩
      obtain ⟨id, values, items, hvalues, hitems, rfl⟩ := RowShaper.yields_makeEntity made
      have distinct := (mirrored.distinct t (.refl m t)).properties
      have listed : ((EntityRead.ofType t path nullable .none).properties.map (·.name)).Nodup := by
        rw [EntityRead.ofType, List.map_map]
        exact distinct
      have keeps : ∀ p ∈ (EntityRead.ofType t path nullable .none).properties,
          p.dataType.KeepsJson := by
        intro p member
        obtain ⟨q, listed, rfl⟩ := List.mem_map.1 member
        exact mirrored.keeps t (.refl m t) q listed
      obtain ⟨entries, rfl, hentries⟩ := EntityRead.toJson_readProperties listed keeps hvalues
      have written := written_of_shapesOwned owned
        (fun e he => mirrored.of_owns (owns_of_mem_resolve he)) hitems
      rw [Item.toJson_entity, hentries, mirror, EntityRead.ofType, List.map_map]
      refine congrArg (fun l => Json.ofDictionary (.ofList (_ ++ l))) (map_eq_map_attach ?_)
      exact written.imp fun e i w member => w _

/-- The results of navigations are written as the mirrors of what they own. -/
theorem written_of_shapesOwned {node : Json} : ∀ {navigations : List Navigation}
    {fields : List (String × RowShaper)} {items : List (String × Item)},
    m.ShapesOwned navigations fields →
    (∀ e ∈ m.resolve navigations, m.Mirrored e.2) →
    Yields (RowShaper.shapeFields none node fields) items →
    List.Forall₂ (m.WrittenAs node) (m.resolve navigations) items
  | _, _, _, .nil, _, h => by
    rw [RowShaper.yields_shapeFields_nil h]
    exact .nil
  | n :: navigations, _, _, .reference single target inner rest, mirrored, h => by
    rw [resolve_cons target] at mirrored ⊢
    obtain ⟨first, others, rfl, hfirst, hothers⟩ := RowShaper.yields_shapeFields_cons h
    have below := mirrored _ List.mem_cons_self
    refine .cons (fun acyclic => ?_)
      (written_of_shapesOwned rest (fun e he => mirrored e (List.mem_cons_of_mem _ he)) hothers)
    rw [Navigation.project, single, if_neg Bool.false_ne_true]
    have own := toJson_of_shapes inner below hfirst
    rw [Json.readPath_propertyNode] at own
    rcases own with ⟨null, -, rfl⟩ | ⟨full, own⟩
    · rw [if_pos null, Item.toJson]
    · rw [if_neg (by rw [full]; exact Bool.false_ne_true), own]
  | n :: navigations, _, _, .collection many target inner rest, mirrored, h => by
    rw [resolve_cons target] at mirrored ⊢
    obtain ⟨first, others, rfl, hfirst, hothers⟩ := RowShaper.yields_shapeFields_cons h
    have below := mirrored _ List.mem_cons_self
    refine .cons (fun acyclic => ?_)
      (written_of_shapesOwned rest (fun e he => mirrored e (List.mem_cons_of_mem _ he)) hothers)
    rw [Navigation.project, many, if_pos rfl]
    have own := RowShaper.yields_collection hfirst
    rw [Json.readPath_propertyNode] at own
    rcases own with ⟨null, rfl⟩ | ⟨elements, items, array, rfl, each⟩
    · rw [null, Item.toJson, Item.itemsToJson]
      rfl
    · rw [array, Item.toJson, Item.itemsToJson_eq_map]
      refine congrArg (fun l => (n.name, Json.array l)) (map_eq_map_of_forall₂ ?_)
      rw [Json.asArray?, Option.getD_some]
      refine (each.imp fun e i given => ?_).flip
      rcases toJson_of_shapes inner below given with ⟨-, required, -⟩ | ⟨-, own⟩
      · cases required
      · exact own

end

/-- **Shaping preserves data.**  What the shaper of an entity type makes without tracking is written
as the mirror of its node: every property and every navigation of the type is there with the value
of the document, at every depth, and nothing else is.  The types that are reached own none of
themselves, have distinct names for their properties and navigations, and keep the JSON values of
their properties. -/
theorem toJson_entityShaper {t : EntityType} (acyclic : m.Acyclic t)
    (distinct : ∀ u, m.Reaches t u → u.DistinctNames)
    (keeps : ∀ u, m.Reaches t u → ∀ p ∈ u.properties, p.dataType.KeepsJson)
    {path : List String} {nullable : Bool} {s : RowShaper}
    (compiled : m.entityShaper t path nullable .none = .ok s) {body : Json} {state : ShapingState}
    {id : Nat} {entityType : String} {values : Dictionary Scalar} {embedded : List (String × Item)}
    (shaped : ((s.shapeRow (.document body)).run state).1 =
      .ok (.entity id entityType values embedded)) :
    (Item.entity id entityType values embedded).toJson =
      m.mirror t acyclic (body.readPath path) := by
  rcases toJson_of_shapes (shapes_entityShaper compiled) ⟨acyclic, distinct, keeps⟩ ⟨state, shaped⟩
    with ⟨-, -, null⟩ | ⟨-, mirrored⟩
  · cases null
  · exact mirrored

/-- A contact with a home and an office, each an address. -/
theorem toJson_entityShaper_contact : ∃ id entityType values embedded,
    contactModel.entityShaper contact [] false .none = .ok (contactShaper .none) ∧
      (((contactShaper .none).shapeRow (.document contactRow)).run ⟨.empty, none, 0⟩).1 =
        .ok (.entity id entityType values embedded) ∧
      (Item.entity id entityType values embedded).toJson =
        contactModel.mirror contact acyclic_contact contactRow := by
  obtain ⟨id, entityType, values, embedded, shaped⟩ := shapeRow_contact
  refine ⟨id, entityType, values, embedded, entityShaper_contact .none, shaped,
    toJson_entityShaper acyclic_contact distinctNames_contact (fun u reached p member => ?_)
      (entityShaper_contact .none) shaped⟩
  rcases eq_of_reaches_contact reached with rfl | rfl
  · rcases List.mem_cons.1 member with rfl | member
    · exact .int32
    · cases List.mem_singleton.1 member
      exact .utf8
  · cases List.mem_singleton.1 member
    exact .utf8

end Model

end DocQuery
