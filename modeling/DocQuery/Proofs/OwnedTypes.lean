/-
# Owned types

The navigations of a model lead from each entity type to the types it owns (`Model.Owns`).  Where
no type is owned by itself, directly or through others, the types below an entity type are fewer
with each navigation (`Model.reach_lt`), so what is said of the navigations of a type can be said
by recursion along them.

The shaper of an entity type follows these navigations: a reference is read as an entity of the
target that may be null, a collection as a list of such entities that may not
(`Model.shapes_entityShaper`).  `Shapes` and `ShapesOwned` say this as relations between a type
and a shaper, without the bookkeeping of the expansion: the owners it has come through, and the
types that are still to be met.  Later proofs go by these relations.
-/
import DocQuery.Binding
import DocQuery.Proofs.Outcome
import Mathlib.Logic.Relation

namespace DocQuery

/-! ## 1. Ownership -/

namespace Model

variable {m : Model} {t u v : EntityType}

/-- A navigation leads from one entity type to the other. -/
def Owns (m : Model) (t u : EntityType) : Prop := ∃ n ∈ t.embedded, m.entityType? n.target = some u

/-- The types that an entity type owns, directly or through others, and the type itself. -/
def Reaches (m : Model) (t u : EntityType) : Prop := Relation.ReflTransGen m.Owns t u

/-- No type that an entity type reaches owns itself, directly or through others. -/
def Acyclic (m : Model) (t : EntityType) : Prop :=
  ∀ u, m.Reaches t u → ¬ Relation.TransGen m.Owns u u

theorem Reaches.refl (m : Model) (t : EntityType) : m.Reaches t t := Relation.ReflTransGen.refl

theorem Owns.reaches (owns : m.Owns t u) (h : m.Reaches u v) : m.Reaches t v := .head owns h

theorem Acyclic.of_owns (acyclic : m.Acyclic t) (owns : m.Owns t u) : m.Acyclic u :=
  fun v h => acyclic v (owns.reaches h)

open Classical in
/-- The number of entity types below a type. -/
noncomputable def reach (m : Model) (t : EntityType) : Nat :=
  (m.entityTypes.values.filter fun u => Relation.TransGen m.Owns t u).length

/-- Each navigation leads to a type with fewer types below it: all of these are below its owner, and
so is the type itself, which is not below itself. -/
theorem reach_lt (acyclic : m.Acyclic t) (owns : m.Owns t u) : m.reach u < m.reach t := by
  classical
  obtain ⟨n, member, target⟩ := owns
  have owns : m.Owns t u := ⟨n, member, target⟩
  have fewer : m.entityTypes.values.filter (fun v => Relation.TransGen m.Owns u v) =
      (m.entityTypes.values.filter fun v => Relation.TransGen m.Owns t v).filter
        fun v => Relation.TransGen m.Owns u v := by
    rw [List.filter_filter]
    refine List.filter_congr fun v _ => ?_
    by_cases below : Relation.TransGen m.Owns u v
    · have above : Relation.TransGen m.Owns t v := .head owns below
      simp only [below, above, decide_true, Bool.and_self]
    · simp only [below, decide_false, Bool.false_and]
  rw [reach, reach, fewer]
  refine List.length_filter_lt_length_iff_exists.2 ⟨u, ?_, ?_⟩
  · rw [List.mem_filter]
    exact ⟨mem_values_of_entityType? target, decide_eq_true (.single owns)⟩
  · rw [decide_eq_true_iff]
    exact acyclic u (.single owns)

end Model

/-! ## 2. Names -/

namespace EntityType

/-- The properties and navigations of an entity type have different names. -/
def DistinctNames (t : EntityType) : Prop :=
  (t.properties.map (·.name) ++ t.embedded.map (·.name)).Nodup

variable {t : EntityType}

theorem DistinctNames.properties (h : t.DistinctNames) : (t.properties.map (·.name)).Nodup :=
  (List.nodup_append.1 h).1

theorem DistinctNames.navigations (h : t.DistinctNames) : (t.embedded.map (·.name)).Nodup :=
  (List.nodup_append.1 h).2.1

end EntityType

/-- With distinct names each element is the one of its name. -/
theorem find?_of_nodup {α : Type} {name : α → String} {a : α} : ∀ {l : List α},
    (l.map name).Nodup → a ∈ l → l.find? (fun x => name x == name a) = some a
  | x :: rest, distinct, member => by
    obtain ⟨other, others⟩ := List.nodup_cons.1 distinct
    rcases List.mem_cons.1 member with rfl | member
    · exact List.find?_cons_of_pos (beq_self_eq_true (name a))
    · have different : name x ≠ name a := fun same => other (same ▸ List.mem_map_of_mem member)
      rw [List.find?_cons_of_neg (by simpa using different)]
      exact find?_of_nodup others member

/-! ## 3. The shapers of entity types -/

/-- How an entity of a type is read. -/
def EntityRead.ofType (t : EntityType) (path : List String) (nullable : Bool)
    (identity : IdentityMode) : EntityRead where
  entityType := t.name
  path := path
  nullable := nullable
  properties := t.properties.map .ofProperty
  key := t.key
  identity := identity

namespace Model

mutual

/-- The shaper of an entity type and everything it owns. -/
inductive Shapes (m : Model) : EntityType → List String → Bool → IdentityMode → RowShaper → Prop where
  | entity {t : EntityType} {path : List String} {nullable : Bool} {identity : IdentityMode}
      {fields : List (String × RowShaper)} (owned : ShapesOwned m t.embedded fields) :
      Shapes m t path nullable identity (.entity (.ofType t path nullable identity) fields)

/-- The shapers of navigations, which lie inside the node of their owner. -/
inductive ShapesOwned (m : Model) : List Navigation → List (String × RowShaper) → Prop where
  | nil : ShapesOwned m [] []
  | reference {n : Navigation} {navigations : List Navigation} {u : EntityType} {s : RowShaper}
      {fields : List (String × RowShaper)} (single : n.isCollection = false)
      (target : m.entityType? n.target = some u) (inner : Shapes m u [n.jsonName] true .none s)
      (rest : ShapesOwned m navigations fields) :
      ShapesOwned m (n :: navigations) ((n.name, s) :: fields)
  | collection {n : Navigation} {navigations : List Navigation} {u : EntityType} {s : RowShaper}
      {fields : List (String × RowShaper)} (many : n.isCollection = true)
      (target : m.entityType? n.target = some u) (inner : Shapes m u [] false .none s)
      (rest : ShapesOwned m navigations fields) :
      ShapesOwned m (n :: navigations) ((n.name, .collection [n.jsonName] s) :: fields)

end

/-- The shapers of navigations that are made one by one. -/
theorem shapesOwned_of_mapM {m : Model} {f : Navigation → Except QueryError (String × RowShaper)} :
    ∀ {navigations : List Navigation} {fields : List (String × RowShaper)},
    (∀ n ∈ navigations, ∀ field, f n = .ok field → ∀ {rest others}, m.ShapesOwned rest others →
      m.ShapesOwned (n :: rest) (field :: others)) →
    navigations.mapM f = .ok fields → m.ShapesOwned navigations fields
  | [], _, _, h => by
    rw [mapM_nil_eq_ok.1 h]
    exact .nil
  | n :: rest, _, each, h => by
    obtain ⟨field, others, hfield, hothers, rfl⟩ := mapM_cons_eq_ok.1 h
    exact each n List.mem_cons_self field hfield
      (shapesOwned_of_mapM (fun x hx => each x (List.mem_cons_of_mem _ hx)) hothers)

/-- Expanding an entity gives its shaper.  The recursion is that of the expansion. -/
theorem shapes_expandEntity {m : Model} {t : EntityType} {path : List String} {nullable : Bool}
    {identity : IdentityMode} {owners : List String} {s : RowShaper}
    (h : expandEntity m t path nullable identity owners = .ok s) :
    m.Shapes t path nullable identity s := by
  rw [expandEntity] at h
  split at h
  · cases h
  · simp only [bind_eq_ok, pure_eq_ok] at h
    obtain ⟨-, -, embedded, hembedded, rfl⟩ := h
    refine .entity (shapesOwned_of_mapM ?_ hembedded)
    intro n _ field hfield rest others owned
    split at hfield
    · cases hfield
    · next u target =>
      split at hfield
      · cases hfield
      · next fresh =>
        have := length_unowned_cons_lt (mem_values_of_entityType? target) fresh
        split at hfield
        · next many =>
          obtain ⟨s, hs, rfl⟩ := map_eq_ok.1 hfield
          exact .collection many target (shapes_expandEntity hs) owned
        · next single =>
          obtain ⟨s, hs, rfl⟩ := map_eq_ok.1 hfield
          exact .reference (Bool.not_eq_true _ ▸ single) target (shapes_expandEntity hs) owned
termination_by (m.unowned owners).length

theorem shapes_entityShaper {m : Model} {t : EntityType} {path : List String} {nullable : Bool}
    {identity : IdentityMode} {s : RowShaper}
    (h : m.entityShaper t path nullable identity = .ok s) : m.Shapes t path nullable identity s :=
  shapes_expandEntity h

end Model

/-! ## 4. A model with owned types -/

def address : EntityType where
  name := "Address"
  container := ""
  properties := [⟨"City", .utf8, true, "city", none⟩]
  key := []
  partitionKey := none
  embedded := []

/-- A contact owns the address of its home, if it has one, and those of its offices. -/
def contact : EntityType where
  name := "Contact"
  container := "contacts"
  properties := [⟨"Id", .int32, false, "id", none⟩, ⟨"Tag", .utf8, true, "tag", none⟩]
  key := ["Id"]
  partitionKey := none
  embedded := [⟨"Home", "Address", "home", false⟩, ⟨"Offices", "Address", "offices", true⟩]

def contactModel : Model := .ofList [address, contact]

def contactShaper (identity : IdentityMode) : RowShaper :=
  .entity (.ofType contact [] false identity)
    [("Home", .entity (.ofType address ["home"] true .none) []),
      ("Offices", .collection ["offices"] (.entity (.ofType address [] false .none) []))]

theorem expandEntity_address (path : List String) (nullable : Bool) :
    expandEntity contactModel address path nullable .none ["Address", "Contact"] =
      .ok (.entity (.ofType address path nullable .none) []) := by
  rw [expandEntity]
  rfl

theorem entityShaper_contact (identity : IdentityMode) :
    contactModel.entityShaper contact [] false identity = .ok (contactShaper identity) := by
  have home := congrArg (Except.map fun s => ("Home", s)) (expandEntity_address ["home"] true)
  have offices := congrArg (Except.map fun s => ("Offices", RowShaper.collection ["offices"] s))
    (expandEntity_address [] false)
  rw [Model.entityShaper, expandEntity, if_neg (by cases identity <;> decide)]
  exact bind_eq_ok.2 ⟨_, rfl, bind_eq_ok.2 ⟨_, mapM_cons_eq_ok.2 ⟨_, _, home,
    mapM_cons_eq_ok.2 ⟨_, _, offices, rfl, rfl⟩, rfl⟩, rfl⟩⟩

/-- A contact with a home and an office. -/
def contactRow : Json :=
  .object [("home", .object [("city", .string "Bergen")]), ("id", .ofInt 1),
    ("offices", .array [.object [("city", .string "Oslo")]]), ("tag", .string "a")]

/-- The contact is shaped into an entity. -/
theorem shapeRow_contact : ∃ id entityType values embedded,
    (((contactShaper .none).shapeRow (.document contactRow)).run ⟨.empty, none, 0⟩).1 =
      .ok (.entity id entityType values embedded) := by
  simp only [contactShaper, RowShaper.shapeRow, RowShaper.shapeNode, RowShaper.shapeEntity,
    RowShaper.makeEntity, RowShaper.shapeFields]
  exact ⟨_, _, _, _, rfl⟩

/-- Addresses are all that contacts own. -/
theorem eq_of_owns_contact {t u : EntityType} (h : t = contact ∨ t = address)
    (owns : contactModel.Owns t u) : u = address := by
  obtain ⟨n, member, target⟩ := owns
  rcases h with rfl | rfl
  · have named : n.target = "Address" := by
      rcases List.mem_cons.1 member with rfl | member
      · rfl
      · rw [List.mem_singleton.1 member]
    rw [named] at target
    exact (Option.some.inj target).symm
  · cases member

theorem eq_of_reaches_contact {u : EntityType} (h : contactModel.Reaches contact u) :
    u = contact ∨ u = address := by
  induction h with
  | refl => exact .inl rfl
  | tail _ owns ih => exact .inr (eq_of_owns_contact ih owns)

theorem acyclic_contact : contactModel.Acyclic contact := by
  have addresses : ∀ {u}, ¬ contactModel.Owns address u := fun ⟨_, member, _⟩ => nomatch member
  intro u reached cycle
  obtain ⟨v, owns, -⟩ := Relation.TransGen.head'_iff.1 cycle
  obtain ⟨w, back, last⟩ := Relation.TransGen.tail'_iff.1 cycle
  rcases eq_of_reaches_contact reached with rfl | rfl
  · have same := eq_of_owns_contact (eq_of_reaches_contact back) last
    exact absurd (congrArg EntityType.name same) (by decide)
  · exact addresses owns

theorem distinctNames_contact : ∀ u, contactModel.Reaches contact u → u.DistinctNames := by
  intro u reached
  rcases eq_of_reaches_contact reached with rfl | rfl <;> unfold EntityType.DistinctNames <;> decide

end DocQuery
