/-
# Tracking modes

The tracking of a database decides which results share an instance, not what the instances hold.
When the keys of a query identify the nodes that its entities are read from (`KeysIdentify`), the
query gives out the same values under every tracking, and where it fails it fails under all of
them (`Compiler.trackings_agree`).

Each tracking is compared with none, and two trackings through that.

* **Steps.**  `Shaping.Mirrors` says that a step ends as another one does that may start in ANY
  state, as long as its own state satisfies an invariant, which it keeps.  The untracked side has
  no entities to remember, so nothing need be known of its state.
* **The invariant** is `ShapingState.Recalls`: making the entity of an entry anew, from the node
  that it was made from, would give its value again.  An entity that is found by its key is then
  as good as a new one, because the node at hand is that node (`RowShaper.shapeEntity_mirrors`).
  It has to be read and made alike, for which entities of one type are `uniform` in a shaper: a
  query that names a type in two places expands it twice.
* **Plans.**  A query compiles to the same plan but for the identities
  (`Compiler.compile_untracked`), so it is bound to the same rows.
* **Runs.**  `Enumeration.Mirrors` relates the two enumerations, each in its session; a step keeps
  it and has one value on both sides (`Enumeration.Mirrors.next`).

Values are compared as JSON, in which instances have no numbers.  Errors are compared by their
position only, because with identities a key is read before the rest of its entity.
-/
import DocQuery.Proofs.IdentityResolution
import DocQuery.Proofs.RowLayouts

namespace DocQuery

/-! ## 1. Values of results -/

namespace Item

/-- Results with one JSON value. -/
def SameValue (a b : Item) : Prop := a.toJson = b.toJson

/-- Fields with the same names and values. -/
def SameFields : List (String × Item) → List (String × Item) → Prop :=
  List.Forall₂ fun f g => f.1 = g.1 ∧ f.2.SameValue g.2

theorem itemsToJson_eq {items items' : List Item} (h : List.Forall₂ SameValue items items') :
    itemsToJson items = itemsToJson items' := by
  rw [itemsToJson_eq_map, itemsToJson_eq_map]
  exact map_eq_map_of_forall₂ h

theorem insertFields_eq {fs gs : List (String × Item)} (h : SameFields fs gs)
    (sorted : List (String × Json)) : insertFields sorted fs = insertFields sorted gs := by
  have written : fs.map (fun f => (f.1, f.2.toJson)) = gs.map fun f => (f.1, f.2.toJson) :=
    map_eq_map_of_forall₂ (h.imp fun f g same => Prod.ext same.1 same.2)
  rw [insertFields_eq_foldl, insertFields_eq_foldl, written]

/-- An insertion puts fields of one value at the same place. -/
theorem sameFields_insertAscending {name : String} {a b : Item} (same : a.SameValue b)
    {fs gs : List (String × Item)} (h : SameFields fs gs) :
    SameFields (insertAscending name a fs) (insertAscending name b gs) := by
  induction h with
  | nil => exact .cons ⟨rfl, same⟩ .nil
  | @cons f g _ _ head rest ih =>
    obtain ⟨k, c⟩ := f
    obtain ⟨_, d⟩ := g
    obtain ⟨rfl, value⟩ := head
    rw [insertAscending, insertAscending]
    split
    · exact .cons ⟨rfl, same⟩ (.cons ⟨rfl, value⟩ rest)
    · split
      · exact .cons ⟨rfl, value⟩ ih
      · exact .cons ⟨rfl, same⟩ rest

theorem sameFields_sorted {fs gs : List (String × Item)} (h : SameFields fs gs)
    {sorted sorted' : List (String × Item)} (hsorted : SameFields sorted sorted') :
    SameFields (fs.foldl (fun sorted f => insertAscending f.1 f.2 sorted) sorted)
      (gs.foldl (fun sorted f => insertAscending f.1 f.2 sorted) sorted') := by
  induction h generalizing sorted sorted' with
  | nil => exact hsorted
  | @cons f g _ _ same _ ih =>
    obtain ⟨name, a⟩ := f
    obtain ⟨_, b⟩ := g
    obtain ⟨rfl, value⟩ := same
    exact ih (sameFields_insertAscending value hsorted)

end Item

/-! ## 2. Steps that end alike -/

/-- Both steps fail, whatever their errors, or their results are related. -/
inductive EndAlike {ε α β : Type} (R : α → β → Prop) : Except ε α → Except ε β → Prop where
  | error (e e' : ε) : EndAlike R (.error e) (.error e')
  | ok {a : α} {b : β} (h : R a b) : EndAlike R (.ok a) (.ok b)

/-- A property of states that does not depend on the numbers that are left to give. -/
def ShapingState.Steady (I : ShapingState → Prop) : Prop :=
  ∀ s n, I s → I { s with nextId := n }

namespace Shaping

variable {α β γ δ : Type} {I : ShapingState → Prop} {R : α → β → Prop} {S : γ → δ → Prop}

/-- From a state with the invariant the first step keeps it, and ends as the second does from any
state. -/
def Mirrors (I : ShapingState → Prop) (R : α → β → Prop) (x : Shaping α) (y : Shaping β) : Prop :=
  ∀ s s', I s → I (x.run s).2 ∧ EndAlike R (x.run s).1 (y.run s').1

namespace Mirrors

theorem pure {a : α} {b : β} (h : R a b) :
    Mirrors I R (Pure.pure a : Shaping α) (Pure.pure b : Shaping β) :=
  fun _ _ hs => ⟨hs, .ok h⟩

theorem throw (e e' : RunError) :
    Mirrors I R (MonadExcept.throw e : Shaping α) (MonadExcept.throw e' : Shaping β) :=
  fun _ _ hs => ⟨hs, .error e e'⟩

theorem bind {x : Shaping α} {y : Shaping β} {f : α → Shaping γ} {g : β → Shaping δ}
    (h : Mirrors I R x y) (hfg : ∀ a b, R a b → Mirrors I S (f a) (g b)) :
    Mirrors I S (x >>= f) (y >>= g) := by
  intro s s' hs
  obtain ⟨kept, ended⟩ := h s s' hs
  rw [run_bind, run_bind]
  rcases hx : x.run s with ⟨rx, sx⟩
  rcases hy : y.run s' with ⟨ry, sy⟩
  rw [hx] at kept ended
  rw [hy] at ended
  cases ended with
  | error e e' => exact ⟨kept, .error e e'⟩
  | ok hab => exact hfg _ _ hab sx sy kept

/-- The same value is read on both sides. -/
theorem bind_ofExcept {ε : Except RunError α} {f : α → Shaping γ} {g : α → Shaping δ}
    (h : ∀ a, Mirrors I S (f a) (g a)) :
    Mirrors I S (Shaping.ofExcept ε >>= f) (Shaping.ofExcept ε >>= g) := by
  cases ε with
  | error e => exact throw e e
  | ok a => exact h a

theorem mapM {f : γ → Shaping α} {g : γ → Shaping β} {as : List γ}
    (h : ∀ a ∈ as, Mirrors I R (f a) (g a)) :
    Mirrors I (List.Forall₂ R) (as.mapM f) (as.mapM g) := by
  induction as with
  | nil => exact pure .nil
  | cons a as ih =>
    rw [List.mapM_cons, List.mapM_cons]
    refine (h a List.mem_cons_self).bind fun b c hbc => ?_
    refine (ih fun x hx => h x (List.mem_cons_of_mem _ hx)).bind fun bs cs hs => ?_
    exact pure (.cons hbc hs)

theorem freshId (steady : ShapingState.Steady I) :
    Mirrors I (fun _ _ => True) Shaping.freshId Shaping.freshId :=
  fun s _ hs => ⟨steady s _ hs, .ok trivial⟩

end Mirrors

end Shaping

/-! ## 3. Making instances -/

namespace RowShaper

variable {I : ShapingState → Prop}

mutual

/-- Without identities the value of a node depends on no state. -/
theorem shapeNode_mirrors (steady : ShapingState.Steady I) : ∀ s : RowShaper, s.Plain →
    ∀ (ordinals : Option (List Json)) (node : Json),
    Shaping.Mirrors I Item.SameValue (s.shapeNode ordinals node) (s.shapeNode ordinals node)
  | .read access type nullable, _, ordinals, node => by
    rw [shapeNode]
    exact .bind_ofExcept fun raw => .bind_ofExcept fun value => .pure rfl
  | .entity info embedded, h, ordinals, node => by
    rw [Plain] at h
    rw [shapeNode]
    split
    · exact .throw _ _
    · rw [shapeEntity]
      split
      · split
        · exact .pure rfl
        · exact .throw _ _
      · rw [if_pos h.1]
        exact makeEntity_mirrors steady info embedded h.2 _
  | .collection path element, h, ordinals, node => by
    rw [Plain] at h
    rw [shapeNode]
    split
    · exact .pure rfl
    · refine .bind (.mapM fun item _ => element.shapeNode_mirrors steady h none item)
        fun items items' same => .pure ?_
      rw [Item.SameValue, Item.toJson, Item.toJson, Item.itemsToJson_eq same]
    · exact .throw _ _
  | .record fields, h, ordinals, node => by
    rw [Plain] at h
    rw [shapeNode]
    refine (shapeFields_mirrors steady fields h ordinals node).bind fun fs gs same => .pure ?_
    rw [Item.SameValue, Item.toJson, Item.toJson, Item.insertFields_eq same]
  | .constant value, _, ordinals, node => by
    rw [shapeNode]
    exact .pure rfl

theorem makeEntity_mirrors (steady : ShapingState.Steady I) (info : EntityRead) :
    ∀ embedded : List (String × RowShaper), FieldsPlain embedded → ∀ node : Json,
    Shaping.Mirrors I Item.SameValue (makeEntity info node embedded) (makeEntity info node embedded)
  | embedded, h, node => by
    rw [makeEntity]
    refine .bind_ofExcept fun values => ?_
    refine (shapeFields_mirrors steady embedded h none node).bind fun fs gs same => ?_
    refine (Shaping.Mirrors.freshId steady).bind fun _ _ _ => .pure ?_
    rw [Item.SameValue, Item.toJson, Item.toJson,
      Item.insertFields_eq (Item.sameFields_sorted same .nil)]

theorem shapeFields_mirrors (steady : ShapingState.Steady I) :
    ∀ fields : List (String × RowShaper), FieldsPlain fields →
    ∀ (ordinals : Option (List Json)) (node : Json),
    Shaping.Mirrors I Item.SameFields (shapeFields ordinals node fields)
      (shapeFields ordinals node fields)
  | [], _, ordinals, node => by
    rw [shapeFields]
    exact .pure .nil
  | (name, s) :: rest, h, ordinals, node => by
    rw [FieldsPlain] at h
    rw [shapeFields]
    refine (s.shapeNode_mirrors steady h.1 ordinals node).bind fun a b same => ?_
    refine (shapeFields_mirrors steady rest h.2 ordinals node).bind fun fs gs others => .pure ?_
    exact .cons ⟨rfl, same⟩ others

end

end RowShaper

/-! ## 4. Entities of one type -/

namespace EntityRead

/-- The read of an entity that is made anew each time. -/
def untracked (r : EntityRead) : EntityRead := { r with identity := .none }

@[simp] theorem identity_untracked (r : EntityRead) : r.untracked.identity = .none := rfl

@[simp] theorem entityType_untracked (r : EntityRead) : r.untracked.entityType = r.entityType := rfl

@[simp] theorem properties_untracked (r : EntityRead) : r.untracked.properties = r.properties := rfl

variable {r r' : EntityRead} {node : Json}

/-- Reading all properties reads the key. -/
theorem exists_key_of_readProperties (listed : r.KeyListed) {values : Dictionary Scalar}
    (h : r.readProperties node = .ok values) :
    ∃ key, r.key.mapM (r.readProperty node) = .ok key := by
  obtain ⟨entries, hentries, -⟩ := bind_eq_ok.1 h
  refine exists_mapM fun k hk => ?_
  obtain ⟨p, hp, rfl⟩ := listed k hk
  obtain ⟨entry, -, hentry⟩ := mapM_eq_ok_of_mem hentries p hp
  obtain ⟨value, hvalue, -⟩ := bind_eq_ok.1 hentry
  exact ⟨value, hvalue⟩

/-- The properties are read by their descriptions and the name of the type. -/
theorem readProperty_congr (type : r.entityType = r'.entityType)
    (properties : r.properties = r'.properties) : r.readProperty = r'.readProperty := by
  funext node name
  rw [readProperty, readProperty, type, properties]

theorem readProperties_congr (type : r.entityType = r'.entityType)
    (properties : r.properties = r'.properties) : r.readProperties = r'.readProperties := by
  funext node
  rw [readProperties, readProperties, properties, readProperty_congr type properties]

end EntityRead

theorem RowShaper.makeEntity_congr {r r' : EntityRead} (type : r.entityType = r'.entityType)
    (properties : r.properties = r'.properties) (node : Json)
    (embedded : List (String × RowShaper)) :
    makeEntity r node embedded = makeEntity r' node embedded := by
  rw [makeEntity, makeEntity, EntityRead.readProperties_congr type properties, type]

/-- An entity shaper is expanded from the type of its name.  `typeOf` says which types a query may
name: those of the model, or the one that it looks up. -/
def Model.Expands (m : Model) (typeOf : String → Option EntityType) (r : EntityRead)
    (embedded : List (String × RowShaper)) : Prop :=
  ∃ t, typeOf r.entityType = some t ∧
    m.entityShaper t r.path r.nullable r.identity = .ok (.entity r embedded)

/-- The expansion of a type at another place, made anew each time, differs in nothing else. -/
theorem expandEntity_place {m : Model} {t : EntityType} {path : List String} {nullable : Bool}
    {identity : IdentityMode} {owners : List String} {s : RowShaper}
    (h : expandEntity m t path nullable identity owners = .ok s) :
    ∃ r embedded, s = .entity r embedded ∧ r.path = path ∧ r.nullable = nullable ∧
      r.identity = identity ∧ r.entityType = t.name ∧
      ∀ path nullable, expandEntity m t path nullable .none owners =
        .ok (.entity { r.untracked with path, nullable } embedded) := by
  rw [expandEntity] at h
  split at h
  · cases h
  · simp only [bind_eq_ok, pure_eq_ok] at h
    obtain ⟨ps, hps, embedded, hembedded, rfl⟩ := h
    refine ⟨_, _, rfl, rfl, rfl, rfl, rfl, fun path nullable => ?_⟩
    rw [expandEntity, if_neg (by simp)]
    exact bind_eq_ok.2 ⟨ps, hps, bind_eq_ok.2 ⟨embedded, hembedded, rfl⟩⟩

namespace Model.Expands

variable {m : Model} {typeOf : String → Option EntityType} {r r' : EntityRead}
  {embedded embedded' : List (String × RowShaper)}

theorem keyListed (h : m.Expands typeOf r embedded) : r.KeyListed := by
  obtain ⟨t, -, h⟩ := h
  have fits := m.fits_entityShaper h
  rw [RowShaper.Fits] at fits
  exact fits.2.1

theorem plain (h : m.Expands typeOf r embedded) : RowShaper.FieldsPlain embedded := by
  obtain ⟨t, -, h⟩ := h
  obtain ⟨_, _, hs, -, -, -, -, plain⟩ := RowShaper.expandEntity_spec h
  cases hs
  exact plain

/-- Entities of one type are read alike and own alike. -/
theorem uniform (h : m.Expands typeOf r embedded) (h' : m.Expands typeOf r' embedded')
    (type : r.entityType = r'.entityType) :
    r.key = r'.key ∧ r.properties = r'.properties ∧ embedded = embedded' := by
  obtain ⟨t, ht, h⟩ := h
  obtain ⟨t', ht', h'⟩ := h'
  rw [← type, ht] at ht'
  cases ht'
  obtain ⟨_, _, hs, -, -, -, -, place⟩ := expandEntity_place h
  obtain ⟨_, _, hs', -, -, -, -, place'⟩ := expandEntity_place h'
  cases hs
  cases hs'
  have same := (place [] false).symm.trans (place' [] false)
  simp only [Except.ok.injEq, RowShaper.entity.injEq, EntityRead.mk.injEq,
    EntityRead.untracked] at same
  exact ⟨same.1.2.2.2.2.1, same.1.2.2.2.1, same.2⟩

end Model.Expands

/-- Nodes with the same key of the same entity type are the same JSON. -/
def KeysIdentify (reads : EntityRead → Json → Prop) : Prop :=
  ∀ {r r' : EntityRead} {node node' : Json} {key key' : List Scalar},
    reads r node → reads r' node' → r.entityType = r'.entityType →
    node.isNull = false → node'.isNull = false →
    r.key.mapM (r.readProperty node) = .ok key → r'.key.mapM (r'.readProperty node') = .ok key' →
    sameKey key key' = true → node = node'

/-! ## 5. Entities with an identity -/

section

variable {m : Model} {typeOf : String → Option EntityType} {reads : EntityRead → Json → Prop}
  {mode : IdentityMode}

/-- An entry is of a node that was read, and making its entity anew gives its value. -/
structure IdentityEntry.Recalls (m : Model) (typeOf : String → Option EntityType)
    (reads : EntityRead → Json → Prop) (e : IdentityEntry) (r : EntityRead)
    (embedded : List (String × RowShaper)) (node : Json) : Prop where
  expands : m.Expands typeOf r embedded
  read : reads r node
  present : node.isNull = false
  entityType : r.entityType = e.entityType
  key : r.key.mapM (r.readProperty node) = .ok e.key
  value : ∀ s, ∃ item, ((RowShaper.makeEntity r node embedded).run s).1 = .ok item ∧
    e.entity.SameValue item

/-- A state in which a mode has a map, all of whose entries recall their nodes. -/
structure ShapingState.Recalls (m : Model) (typeOf : String → Option EntityType)
    (reads : EntityRead → Json → Prop) (mode : IdentityMode) (s : ShapingState) : Prop where
  present : mode = .perQuery → s.perQuery.isSome
  entries : ∀ e ∈ (s.map mode).entries, ∃ r embedded node, e.Recalls m typeOf reads r embedded node

theorem ShapingState.steady_recalls : Steady (Recalls m typeOf reads mode) :=
  fun _ _ h => ⟨h.present, h.entries⟩

namespace RowShaper

/-- When the key cannot be read the entity cannot be made. -/
theorem makeEntity_ends_of_key {α : Type} {R : α → Item → Prop} {r : EntityRead}
    (listed : r.KeyListed) {node : Json} {e : RunError}
    (h : r.key.mapM (r.readProperty node) = .error e) (embedded : List (String × RowShaper))
    (s : ShapingState) : EndAlike R (.error e : Except RunError α)
      ((makeEntity r node embedded).run s).1 := by
  rw [makeEntity, Shaping.run_bind, Shaping.run_ofExcept]
  cases hvalues : r.readProperties node with
  | error e' => exact .error e e'
  | ok values =>
    obtain ⟨key, hkey⟩ := EntityRead.exists_key_of_readProperties listed hvalues
    exact nomatch h.symm.trans hkey

/-- An entry of the same key is of the same node, so its entity has the value of a new one. -/
theorem makeEntity_ends_of_entry (identify : KeysIdentify reads) {r : EntityRead}
    {embedded : List (String × RowShaper)} (expands : m.Expands typeOf r embedded) {node : Json}
    (read : reads r node) (present : node.isNull = false) {key : List Scalar}
    (hkey : r.key.mapM (r.readProperty node) = .ok key) {s : ShapingState}
    (recalls : s.Recalls m typeOf reads mode) {existing : Item}
    (found : (s.map mode).find? r.entityType key = some existing) (s' : ShapingState) :
    EndAlike Item.SameValue (.ok existing : Except RunError Item)
      ((makeEntity r node embedded).run s').1 := by
  obtain ⟨e, he, rfl, htype, hsame⟩ := IdentityMap.exists_of_find? found
  obtain ⟨r', embedded', node', held⟩ := recalls.entries e he
  have type : r'.entityType = r.entityType := held.entityType.trans htype
  obtain ⟨-, properties, rfl⟩ := held.expands.uniform expands type
  obtain rfl : node' = node :=
    identify held.read read type held.present present held.key hkey hsame
  obtain ⟨item, hitem, value⟩ := held.value s'
  rw [makeEntity_congr type properties] at hitem
  rw [hitem]
  exact .ok value

/-- A new entity is filed with the node that it was made from. -/
theorem recordEntity_recalls {r : EntityRead} {embedded : List (String × RowShaper)}
    (expands : m.Expands typeOf r embedded) {node : Json} (read : reads r node)
    (present : node.isNull = false) {key : List Scalar}
    (hkey : r.key.mapM (r.readProperty node) = .ok key) (hmode : mode ≠ .none) {s : ShapingState}
    (recalls : s.Recalls m typeOf reads mode)
    (absent : (s.map mode).find? r.entityType key = none) {item : Item}
    (value : ∀ s, EndAlike Item.SameValue (.ok item : Except RunError Item)
      ((makeEntity r node embedded).run s).1) :
    ((Shaping.recordEntity mode r.entityType key item).run s).2.Recalls m typeOf reads mode ∧
    ((Shaping.recordEntity mode r.entityType key item).run s).1 = .ok item := by
  rw [Shaping.run_recordEntity hmode recalls.present absent]
  refine ⟨⟨?_, ?_⟩, rfl⟩
  · rintro rfl
    rfl
  · rw [ShapingState.map_withMap hmode]
    intro e he
    rcases List.mem_append.1 he with he | he
    · exact recalls.entries e he
    · rw [List.mem_singleton.1 he]
      refine ⟨r, embedded, node, expands, read, present, rfl, hkey, fun s => ?_⟩
      have ended := value s
      generalize ((makeEntity r node embedded).run s).1 = made at ended
      cases ended with
      | ok h => exact ⟨_, rfl, h⟩

/-- **An entity with an identity has the value of one that is made anew.** -/
theorem shapeEntity_mirrors (identify : KeysIdentify reads) {r : EntityRead}
    {embedded : List (String × RowShaper)} (expands : m.Expands typeOf r embedded)
    (identity : r.identity = mode) {node : Json} (read : reads r node) :
    Shaping.Mirrors (ShapingState.Recalls m typeOf reads mode) Item.SameValue
      (shapeEntity r node embedded) (shapeEntity r.untracked node embedded) := by
  have made := makeEntity_mirrors (I := ShapingState.Recalls m typeOf reads mode)
    ShapingState.steady_recalls r embedded expands.plain node
  have untracked : makeEntity r.untracked node embedded = makeEntity r node embedded :=
    makeEntity_congr r.entityType_untracked r.properties_untracked node embedded
  rw [shapeEntity, shapeEntity, identity]
  cases null : node.isNull with
  | true =>
    rw [if_pos rfl, if_pos rfl]
    show Shaping.Mirrors _ _ (if r.nullable then _ else _) (if r.nullable then _ else _)
    split
    · exact .pure rfl
    · exact .throw _ _
  | false =>
    rw [if_neg Bool.false_ne_true, if_neg Bool.false_ne_true,
      if_pos r.identity_untracked, untracked]
    by_cases hmode : mode = .none
    · rw [if_pos hmode]
      exact made
    · rw [if_neg hmode]
      intro s s' recalls
      rw [Shaping.run_bind, Shaping.run_ofExcept]
      cases hkey : r.key.mapM (r.readProperty node) with
      | error e => exact ⟨recalls, makeEntity_ends_of_key expands.keyListed hkey embedded s'⟩
      | ok key =>
        dsimp only
        rw [Shaping.run_bind, Shaping.run_findEntity]
        cases hfind : (s.map mode).find? r.entityType key with
        | some existing =>
          exact ⟨recalls,
            makeEntity_ends_of_entry identify expands read null hkey recalls hfind s'⟩
        | none =>
          obtain ⟨next, -, state, -⟩ := run_makeEntity r expands.plain node s
          obtain ⟨kept, ended⟩ := made s s' recalls
          have value := fun s'' => (made s s'' recalls).2
          dsimp only
          rw [Shaping.run_bind]
          rcases hrun : (makeEntity r node embedded).run s with ⟨fault | item, s₁⟩
          · rw [hrun] at kept ended
            exact ⟨kept, ended⟩
          · rw [hrun] at kept ended value state
            have absent : (s₁.map mode).find? r.entityType key = none := by
              rw [show s₁ = _ from state]
              exact hfind
            obtain ⟨kept', given⟩ :=
              recordEntity_recalls expands read null hkey hmode kept absent value
            dsimp only
            rw [given]
            exact ⟨kept', ended⟩

/-! ## 6. Rows -/

mutual

/-- The shaper with its entities made anew each time. -/
def untracked : RowShaper → RowShaper
  | .read access type nullable => .read access type nullable
  | .entity info embedded => .entity info.untracked embedded
  | .collection path element => .collection path element
  | .record fields => .record (untrackedFields fields)
  | .constant value => .constant value

def untrackedFields : List (String × RowShaper) → List (String × RowShaper)
  | [] => []
  | (name, s) :: rest => (name, s.untracked) :: untrackedFields rest

end

mutual

/-- The entities of a shaper that are not owned by others. -/
def entities : RowShaper → List EntityRead
  | .entity info _ => [info]
  | .record fields => fieldEntities fields
  | _ => []

def fieldEntities : List (String × RowShaper) → List EntityRead
  | [] => []
  | (_, s) :: rest => s.entities ++ fieldEntities rest

end

mutual

theorem mem_entities_untracked {r : EntityRead} : ∀ {s : RowShaper}, r ∈ s.entities →
    r.untracked ∈ s.untracked.entities
  | .entity info embedded, h => by
    rw [List.mem_singleton.1 h]
    exact List.mem_singleton_self _
  | .record fields, h => mem_fieldEntities_untracked h

theorem mem_fieldEntities_untracked {r : EntityRead} : ∀ {fields : List (String × RowShaper)},
    r ∈ fieldEntities fields → r.untracked ∈ fieldEntities (untrackedFields fields)
  | (_, s) :: rest, h => by
    rcases List.mem_append.1 h with h | h
    · exact List.mem_append_left _ (mem_entities_untracked h)
    · exact List.mem_append_right _ (mem_fieldEntities_untracked h)

end

mutual

/-- The entities of the shaper have the mode and are expanded from their types. -/
def Tracks (m : Model) (typeOf : String → Option EntityType) (mode : IdentityMode) :
    RowShaper → Prop
  | .read .. | .constant _ => True
  | .entity info embedded => info.identity = mode ∧ m.Expands typeOf info embedded
  | .collection .. => False
  | .record fields => FieldsTrack m typeOf mode fields

def FieldsTrack (m : Model) (typeOf : String → Option EntityType) (mode : IdentityMode) :
    List (String × RowShaper) → Prop
  | [] => True
  | (_, s) :: rest => s.Tracks m typeOf mode ∧ FieldsTrack m typeOf mode rest

end

mutual

theorem shapeNode_mirrors_untracked (identify : KeysIdentify reads) : ∀ s : RowShaper,
    s.Tracks m typeOf mode → ∀ (ordinals : Option (List Json)) (node : Json),
    (∀ r ∈ s.entities, ordinals = none → reads r (node.readPath r.path)) →
    Shaping.Mirrors (ShapingState.Recalls m typeOf reads mode) Item.SameValue
      (s.shapeNode ordinals node) (s.untracked.shapeNode ordinals node)
  | .read access type nullable, _, ordinals, node, _ =>
    shapeNode_mirrors ShapingState.steady_recalls _ (by rw [Plain]; trivial) ordinals node
  | .constant value, _, ordinals, node, _ =>
    shapeNode_mirrors ShapingState.steady_recalls _ (by rw [Plain]; trivial) ordinals node
  | .entity info embedded, h, ordinals, node, known => by
    rw [Tracks] at h
    rw [untracked, shapeNode, shapeNode]
    cases ordinals with
    | some values => exact .throw _ _
    | none =>
      exact shapeEntity_mirrors identify h.2 h.1 (known info (List.mem_singleton_self _) rfl)
  | .collection _ _, h, _, _, _ => by
    rw [Tracks] at h
    exact h.elim
  | .record fields, h, ordinals, node, known => by
    rw [Tracks] at h
    rw [untracked, shapeNode, shapeNode]
    refine (shapeFields_mirrors_untracked identify fields h ordinals node known).bind
      fun fs gs same => .pure ?_
    rw [Item.SameValue, Item.toJson, Item.toJson, Item.insertFields_eq same]

theorem shapeFields_mirrors_untracked (identify : KeysIdentify reads) :
    ∀ fields : List (String × RowShaper), FieldsTrack m typeOf mode fields →
    ∀ (ordinals : Option (List Json)) (node : Json),
    (∀ r ∈ fieldEntities fields, ordinals = none → reads r (node.readPath r.path)) →
    Shaping.Mirrors (ShapingState.Recalls m typeOf reads mode) Item.SameFields
      (shapeFields ordinals node fields) (shapeFields ordinals node (untrackedFields fields))
  | [], _, ordinals, node, _ => by
    rw [untrackedFields, shapeFields]
    exact .pure .nil
  | (name, s) :: rest, h, ordinals, node, known => by
    rw [FieldsTrack] at h
    rw [untrackedFields, shapeFields, shapeFields]
    refine (shapeNode_mirrors_untracked identify s h.1 ordinals node
      fun r hr => known r (List.mem_append_left _ hr)).bind fun a b same => ?_
    refine (shapeFields_mirrors_untracked identify rest h.2 ordinals node
      fun r hr => known r (List.mem_append_right _ hr)).bind fun fs gs others => .pure ?_
    exact .cons ⟨rfl, same⟩ others

end

/-- **A row has one value under every tracking.** -/
theorem shapeRow_mirrors_untracked (identify : KeysIdentify reads) {s : RowShaper}
    (tracks : s.Tracks m typeOf mode) {row : Row}
    (known : ∀ body, row = .document body → ∀ r ∈ s.entities, reads r (body.readPath r.path)) :
    Shaping.Mirrors (ShapingState.Recalls m typeOf reads mode) Item.SameValue
      (s.shapeRow row) (s.untracked.shapeRow row) := by
  cases row with
  | document body =>
    exact shapeNode_mirrors_untracked identify s tracks none body fun r hr _ => known body rfl r hr
  | ordinal values => exact shapeNode_mirrors_untracked identify s tracks (some values) .null nofun

end RowShaper

end

/-! ## 7. Bound shapers -/

/-- An entity's shaper tracks it, and without tracking it is the same but for this. -/
theorem Model.entityShaper_untracked {m : Model} {typeOf : String → Option EntityType}
    {t : EntityType} (named : typeOf t.name = some t) {path : List String} {nullable : Bool}
    {identity : IdentityMode} {s : RowShaper}
    (h : m.entityShaper t path nullable identity = .ok s) :
    s.Tracks m typeOf identity ∧ m.entityShaper t path nullable .none = .ok s.untracked := by
  obtain ⟨r, embedded, rfl, rfl, rfl, rfl, type, place⟩ := expandEntity_place h
  rw [RowShaper.Tracks, RowShaper.untracked]
  exact ⟨⟨rfl, t, type ▸ named, h⟩, place r.path r.nullable⟩

namespace SelectBinding

/-- The binding of the select without tracking. -/
def untracked (b : SelectBinding) : SelectBinding := { b with identity := .none }

variable {b : SelectBinding}

theorem bindScalar_untracked {index : Nat} {type : DataType} {nullable : Bool} {s : RowShaper}
    (h : b.bindScalar index type nullable = .ok s) :
    s.Tracks b.model b.model.entityType? b.identity ∧
      b.untracked.bindScalar index type nullable = .ok s.untracked := by
  obtain ⟨p, hp, hs⟩ := bind_eq_ok.1 h
  split at hs
  · cases hs
  · rw [← pure_eq_ok.1 hs] at h ⊢
    rw [RowShaper.Tracks, RowShaper.untracked]
    exact ⟨trivial, h⟩

theorem bindEntity_untracked (names : b.model.NamesTypes) {entityType : String} {index : Nat}
    {nullable : Bool} {s : RowShaper} (h : b.bindEntity entityType index nullable = .ok s) :
    s.Tracks b.model b.model.entityType? b.identity ∧
      b.untracked.bindEntity entityType index nullable = .ok s.untracked := by
  obtain ⟨p, path, t, hp, hitem, layout, ht, h⟩ := bindEntity_eq_ok.1 h
  have found := Model.entityType_eq_ok ht
  have own : b.model.entityType? t.name = some t := (names _ t found).symm ▸ found
  obtain ⟨tracks, bound⟩ := Model.entityShaper_untracked own h
  exact ⟨tracks, bindEntity_eq_ok.2 ⟨p, path, t, hp, hitem, layout, ht, bound⟩⟩

mutual

/-- A bound shaper tracks its entities, and without tracking it is the same but for this. -/
theorem bind_untracked (names : b.model.NamesTypes) : ∀ (shaper : Shaper) {s : RowShaper},
    b.bind shaper = .ok s →
    s.Tracks b.model b.model.entityType? b.identity ∧ b.untracked.bind shaper = .ok s.untracked
  | .binding index type nullable, s, h => bindScalar_untracked h
  | .entity entityType index nullable, s, h => bindEntity_untracked names h
  | .record fields, s, h => by
    rw [bind] at h
    obtain ⟨fs, hfs, h⟩ := bind_eq_ok.1 h
    obtain ⟨tracks, bound⟩ := bindFields_untracked names fields hfs
    rw [← pure_eq_ok.1 h, RowShaper.Tracks, RowShaper.untracked, bind]
    exact ⟨tracks, bind_eq_ok.2 ⟨_, bound, rfl⟩⟩
  | .constant v, s, h => by
    rw [bind] at h
    rw [← Except.ok.inj h, RowShaper.Tracks, RowShaper.untracked, bind]
    exact ⟨trivial, rfl⟩

theorem bindFields_untracked (names : b.model.NamesTypes) : ∀ (fields : List (String × Shaper))
    {fs : List (String × RowShaper)}, b.bindFields fields = .ok fs →
    RowShaper.FieldsTrack b.model b.model.entityType? b.identity fs ∧
      b.untracked.bindFields fields = .ok (RowShaper.untrackedFields fs)
  | [], fs, h => by
    rw [bindFields] at h
    rw [← Except.ok.inj h, RowShaper.FieldsTrack, RowShaper.untrackedFields, bindFields]
    exact ⟨trivial, rfl⟩
  | (name, shaper) :: rest, fs, h => by
    rw [bindFields] at h
    obtain ⟨first, hfirst, h⟩ := bind_eq_ok.1 h
    obtain ⟨fs', hrest, h⟩ := bind_eq_ok.1 h
    obtain ⟨tracks, bound⟩ := bind_untracked names shaper hfirst
    obtain ⟨tracks', bound'⟩ := bindFields_untracked names rest hrest
    rw [← pure_eq_ok.1 h, RowShaper.FieldsTrack, RowShaper.untrackedFields, bindFields]
    exact ⟨⟨tracks, tracks'⟩, bind_eq_ok.2 ⟨_, bound, bind_eq_ok.2 ⟨_, bound', rfl⟩⟩⟩

end

end SelectBinding

namespace PointLookup

/-- Whatever the shaper of a lookup names is the type that is looked up. -/
def typeOf (l : PointLookup) (_ : String) : Option EntityType := some l.entityType

variable {l : PointLookup} {m : Model} {identity : IdentityMode}

mutual

theorem bind_untracked : ∀ (shaper : Shaper) {s : RowShaper}, l.bind m identity shaper = .ok s →
    s.Tracks m l.typeOf identity ∧ l.bind m .none shaper = .ok s.untracked
  | .binding _ _ _, s, h => by
    rw [bind] at h
    exact nomatch h
  | .entity entityType _ nullable, s, h => by
    rw [bind] at h
    split at h
    · exact nomatch h
    · next hname =>
      have named : l.typeOf l.entityType.name = some l.entityType := rfl
      obtain ⟨tracks, bound⟩ := Model.entityShaper_untracked named h
      refine ⟨tracks, ?_⟩
      rw [bind, if_neg hname, bound]
  | .record fields, s, h => by
    rw [bind] at h
    obtain ⟨fs, hfs, h⟩ := bind_eq_ok.1 h
    obtain ⟨tracks, bound⟩ := bindFields_untracked fields hfs
    rw [← pure_eq_ok.1 h, RowShaper.Tracks, RowShaper.untracked, bind]
    exact ⟨tracks, bind_eq_ok.2 ⟨_, bound, rfl⟩⟩
  | .constant v, s, h => by
    rw [bind] at h
    rw [← Except.ok.inj h, RowShaper.Tracks, RowShaper.untracked, bind]
    exact ⟨trivial, rfl⟩

theorem bindFields_untracked : ∀ (fields : List (String × Shaper)) {fs : List (String × RowShaper)},
    l.bindFields m identity fields = .ok fs →
    RowShaper.FieldsTrack m l.typeOf identity fs ∧
      l.bindFields m .none fields = .ok (RowShaper.untrackedFields fs)
  | [], fs, h => by
    rw [bindFields] at h
    rw [← Except.ok.inj h, RowShaper.FieldsTrack, RowShaper.untrackedFields, bindFields]
    exact ⟨trivial, rfl⟩
  | (name, shaper) :: rest, fs, h => by
    rw [bindFields] at h
    obtain ⟨first, hfirst, h⟩ := bind_eq_ok.1 h
    obtain ⟨fs', hrest, h⟩ := bind_eq_ok.1 h
    obtain ⟨tracks, bound⟩ := bind_untracked shaper hfirst
    obtain ⟨tracks', bound'⟩ := bindFields_untracked rest hrest
    rw [← pure_eq_ok.1 h, RowShaper.FieldsTrack, RowShaper.untrackedFields, bindFields]
    exact ⟨⟨tracks, tracks'⟩, bind_eq_ok.2 ⟨_, bound, bind_eq_ok.2 ⟨_, bound', rfl⟩⟩⟩

end

end PointLookup

/-! ## 8. Plans -/

/-- The compiler under a tracking. -/
def Compiler.under (c : Compiler) (tracking : Tracking) : Compiler :=
  { c with config := { c.config with tracking } }

/-- The plan without tracking. -/
def Plan.untracked (p : Plan) : Plan :=
  { p with shaper := p.shaper.untracked, standaloneStateManager := false }

/-- A plan whose entities have the identities of the compiler's tracking. -/
def Plan.Tracks (c : Compiler) (p : Plan) : Prop :=
  (∃ typeOf, p.shaper.Tracks c.model typeOf c.identity) ∧
    p.standaloneStateManager = c.config.standaloneIdentityResolution

/-- **Without tracking a query compiles to the same plan but for the identities.** -/
theorem Compiler.compile_untracked {c : Compiler} (names : c.model.NamesTypes)
    {shaped : ShapedQuery} {p : Plan} (h : c.compile shaped = .ok p) :
    p.Tracks c ∧ (c.under .noTracking).compile shaped = .ok p.untracked := by
  unfold compile at h ⊢
  split at h
  · next s _ =>
    unfold compileSelect at h ⊢
    obtain ⟨projects, h⟩ := unless_eq_ok.1 h
    obtain ⟨bound, hbound, h⟩ := bind_eq_ok.1 h
    obtain ⟨constants, hconstants, h⟩ := bind_eq_ok.1 h
    obtain ⟨tracks, hbound'⟩ := SelectBinding.bind_untracked names shaped.shaper hbound
    rw [← pure_eq_ok.1 h]
    refine ⟨⟨⟨_, tracks⟩, rfl⟩, unless_eq_ok.2 ⟨projects, ?_⟩⟩
    exact bind_eq_ok.2 ⟨_, hbound', bind_eq_ok.2 ⟨_, hconstants, rfl⟩⟩
  · next l hl =>
    obtain ⟨checked, hchecked, h⟩ := bind_eq_ok.1 h
    obtain ⟨bound, hbound, h⟩ := bind_eq_ok.1 h
    obtain ⟨⟨quoted, t⟩, hquoted, h⟩ := bind_eq_ok.1 h
    obtain ⟨original, horiginal, h⟩ := bind_eq_ok.1 h
    obtain ⟨same, h⟩ := unless_eq_ok.1 h
    obtain ⟨constants, hconstants, h⟩ := bind_eq_ok.1 h
    obtain ⟨tracks, hbound'⟩ := PointLookup.bind_untracked shaped.shaper hbound
    rw [← pure_eq_ok.1 h]
    refine ⟨⟨⟨_, tracks⟩, rfl⟩, bind_eq_ok.2 ⟨checked, hchecked, bind_eq_ok.2 ⟨_, hbound', ?_⟩⟩⟩
    refine bind_eq_ok.2 ⟨_, hquoted, bind_eq_ok.2 ⟨original, horiginal, ?_⟩⟩
    exact unless_eq_ok.2 ⟨same, bind_eq_ok.2 ⟨_, hconstants, rfl⟩⟩
  · exact nomatch h

namespace BoundQuery

/-- The bound query without tracking. -/
def untracked (q : BoundQuery) : BoundQuery :=
  ⟨q.plan.untracked, { q.context with tracking := .noTracking }, q.source⟩

/-- The entities of a query that are not owned, with the nodes that they are read from. -/
def Reads (q : BoundQuery) (store : Store) (r : EntityRead) (node : Json) : Prop :=
  ∃ rows body, q.fetch store = .ok rows ∧ .document body ∈ rows ∧ r ∈ q.plan.shaper.entities ∧
    node = body.readPath r.path

/-- What a query gives out in a new session, as JSON; nothing stands for an error. -/
def values (q : BoundQuery) (store : Store) : List (Option Json) :=
  (q.enumerate.outcomes .ok store .fresh).1.map fun outcome => outcome.toOption.map Item.toJson

end BoundQuery

theorem Plan.bind_untracked (p : Plan) (c : QueryContext) :
    FailAlike (fun q u => u = q.untracked ∧ q.plan = p) (p.bind c)
      (p.untracked.bind { c with tracking := .noTracking }) := by
  rcases p with ⟨source, shaper, contextType, partitionKey, standalone, checks, constants⟩
  refine .bind_same fun resolved _ => ?_
  cases source with
  | select generators expressions s =>
    exact .bind_same fun _ _ => .bind_same fun _ _ => .ok ⟨rfl, rfl⟩
  | lookup l => exact .bind_same fun _ _ => .ok ⟨rfl, rfl⟩

/-! ## 9. Enumerations -/

/-- Two outcomes that are both the end, or end alike. -/
def Step.EndsAlike (x y : Step Item) : Prop :=
  (x.outcome = none ∧ y.outcome = none) ∨
    ∃ a b, x.outcome = some a ∧ y.outcome = some b ∧ EndAlike Item.SameValue a b

/-- An enumeration of a tracking query and one of the query without tracking that has come equally
far, each in its session. -/
structure Enumeration.Mirrors (c : Compiler) (typeOf : String → Option EntityType)
    (reads : EntityRead → Json → Prop) (store : Store) (e u : Enumeration) (s s' : Session) :
    Prop where
  query : u.query = e.query.untracked
  progress : u.progress = e.progress
  inUse : s'.inUse = s.inUse
  tracks : e.query.plan.shaper.Tracks c.model typeOf c.identity
  recalls : (e.state s).Recalls c.model typeOf reads c.identity
  reads : ∀ rows, e.remaining store = .ok rows → ∀ body, Row.document body ∈ rows →
    ∀ r ∈ e.query.plan.shaper.entities, reads r (body.readPath r.path)

namespace Enumeration

variable {c : Compiler} {typeOf : String → Option EntityType} {reads : EntityRead → Json → Prop}
  {store : Store} {e u : Enumeration} {s s' : Session}

theorem Mirrors.checkUse (h : Mirrors c typeOf reads store e u s s') :
    u.checkUse s' = e.checkUse s := by
  rw [Enumeration.checkUse, Enumeration.checkUse, h.query, h.inUse]
  rfl

theorem Mirrors.remaining (h : Mirrors c typeOf reads store e u s s') :
    u.remaining store = e.remaining store := by
  rw [Enumeration.remaining, Enumeration.remaining, h.query, h.progress]
  rfl

theorem Mirrors.shape (identify : KeysIdentify reads) (h : Mirrors c typeOf reads store e u s s')
    {row : Row} {rest : List Row} (hrow : e.remaining store = .ok (row :: rest)) :
    (e.shape .ok s row rest).EndsAlike (u.shape .ok s' row rest) ∧
    ∀ a, (e.shape .ok s row rest).outcome = some (.ok a) →
      Mirrors c typeOf reads store (e.shape .ok s row rest).enumeration
        (u.shape .ok s' row rest).enumeration (e.shape .ok s row rest).session
        (u.shape .ok s' row rest).session := by
  have known : ∀ body, row = .document body → ∀ r ∈ e.query.plan.shaper.entities,
      reads r (body.readPath r.path) :=
    fun body hbody r hr => h.reads _ hrow body (hbody ▸ List.mem_cons_self) r hr
  obtain ⟨kept, ended⟩ := RowShaper.shapeRow_mirrors_untracked identify h.tracks known (e.state s)
    (u.state s') h.recalls
  have shaper : u.query.plan.shaper = e.query.plan.shaper.untracked := by
    rw [h.query]
    rfl
  unfold Enumeration.shape
  rw [shaper]
  unfold state at kept ended
  generalize (e.query.plan.shaper.shapeRow row).run ⟨s.tracked, e.perQuery, s.nextId⟩ = x at *
  generalize (e.query.plan.shaper.untracked.shapeRow row).run ⟨s'.tracked, u.perQuery, s'.nextId⟩ =
    y at *
  rcases x with ⟨rx, sx⟩
  rcases y with ⟨ry, sy⟩
  dsimp only at kept ended
  cases ended with
  | error fault fault' => exact ⟨.inr ⟨_, _, rfl, rfl, .error _ _⟩, nofun⟩
  | ok same =>
    refine ⟨.inr ⟨_, _, rfl, rfl, .ok same⟩, fun _ _ => ?_⟩
    refine ⟨h.query, rfl, h.inUse, h.tracks, kept, fun rows hrows body hbody => ?_⟩
    cases hrows
    exact h.reads _ hrow body (List.mem_cons_of_mem _ hbody)

/-- **A step has one value under every tracking.** -/
theorem Mirrors.next (identify : KeysIdentify reads) (h : Mirrors c typeOf reads store e u s s') :
    (e.next .ok store s).EndsAlike (u.next .ok store s') ∧
    ∀ a, (e.next .ok store s).outcome = some (.ok a) →
      Mirrors c typeOf reads store (e.next .ok store s).enumeration
        (u.next .ok store s').enumeration (e.next .ok store s).session
        (u.next .ok store s').session := by
  unfold Enumeration.next
  rw [h.progress, h.checkUse, h.remaining]
  cases e.progress with
  | finished => exact ⟨.inl ⟨rfl, rfl⟩, nofun⟩
  | pending | reading =>
    dsimp only
    cases e.checkUse s with
    | error fault => exact ⟨.inr ⟨_, _, rfl, rfl, .error _ _⟩, nofun⟩
    | ok _ =>
      cases hrows : e.remaining store with
      | error fault => exact ⟨.inr ⟨_, _, rfl, rfl, .error _ _⟩, nofun⟩
      | ok rows => cases rows with
        | nil => exact ⟨.inl ⟨rfl, rfl⟩, nofun⟩
        | cons row rest => exact h.shape identify hrows

/-- **A run to the end has the same values under every tracking.** -/
theorem Mirrors.outcomes (identify : KeysIdentify reads) {e u : Enumeration} {s s' : Session}
    (h : Mirrors c typeOf reads store e u s s') :
    (e.outcomes .ok store s).1.map (fun outcome => outcome.toOption.map Item.toJson) =
      (u.outcomes .ok store s').1.map fun outcome => outcome.toOption.map Item.toJson := by
  obtain ⟨ends, later⟩ := h.next identify
  rw [outcomes_eq, outcomes_eq u]
  rcases ends with ⟨hx, hy⟩ | ⟨a, b, hx, hy, alike⟩
  · rw [hx, hy]
  · rw [hx, hy]
    cases alike with
    | error fault fault' => rfl
    | ok same =>
      have := next_rank hx
      dsimp only
      rw [List.map_cons, List.map_cons, (later _ hx).outcomes identify]
      exact congrArg (· :: _) (congrArg some same)
termination_by e.rank
decreasing_by exact this

end Enumeration

namespace BoundQuery

variable {c : Compiler} {q : BoundQuery} {store : Store}

/-- A new enumeration has no entries, and all its rows are to come. -/
theorem mirrors_enumerate {typeOf : String → Option EntityType}
    (tracks : q.plan.shaper.Tracks c.model typeOf c.identity)
    (standalone : q.plan.standaloneStateManager = c.config.standaloneIdentityResolution) :
    Enumeration.Mirrors c typeOf (q.Reads store) store q.enumerate q.untracked.enumerate .fresh
      .fresh where
  query := rfl
  progress := rfl
  inUse := rfl
  tracks := tracks
  recalls := by
    constructor
    · intro mode
      have tracking : c.config.tracking = .identityResolution := by
        unfold Compiler.identity IdentityMode.ofTracking at mode
        split at mode
        · cases mode
        · assumption
        · cases mode
      have own : q.plan.standaloneStateManager = true := by
        rw [standalone, Config.standaloneIdentityResolution, tracking]
        rfl
      rw [Enumeration.state, enumerate, if_pos own]
      rfl
    · have empty : ((q.enumerate.state .fresh).map c.identity).entries = [] := by
        rw [Enumeration.state, enumerate]
        cases c.identity with
        | none | tracked => rfl
        | perQuery => cases q.plan.standaloneStateManager <;> rfl
      intro e he
      rw [empty] at he
      exact absurd he List.not_mem_nil
  reads := by
    intro rows hrows body hbody r hr
    obtain ⟨_, -, hfetch⟩ := bind_eq_ok.1 hrows
    exact ⟨rows, body, hfetch, hbody, hr, rfl⟩

theorem values_untracked {typeOf : String → Option EntityType}
    (tracks : q.plan.shaper.Tracks c.model typeOf c.identity)
    (standalone : q.plan.standaloneStateManager = c.config.standaloneIdentityResolution)
    (identify : KeysIdentify (q.untracked.Reads store)) :
    q.values store = q.untracked.values store := by
  have reads : ∀ {r node}, q.Reads store r node → q.untracked.Reads store r.untracked node := by
    rintro r node ⟨rows, body, hfetch, hbody, hr, rfl⟩
    exact ⟨rows, body, hfetch, hbody, RowShaper.mem_entities_untracked hr, rfl⟩
  have identify' : KeysIdentify (q.Reads store) :=
    fun h h' type present present' key key' same =>
      identify (reads h) (reads h') type present present' key key' same
  exact (mirrors_enumerate tracks standalone).outcomes identify'

end BoundQuery

/-- Two results that each correspond to a third one. -/
theorem FailAlike.join {ε α β γ : Type} {R : α → γ → Prop} {S : β → γ → Prop} {T : α → β → Prop}
    {x : Except ε α} {y : Except ε β} {z : Except ε γ} (h : FailAlike R x z) (h' : FailAlike S y z)
    (hT : ∀ a b c, R a c → S b c → T a b) : FailAlike T x y := by
  cases h with
  | error e =>
    cases h' with
    | error => exact .error e
  | ok hr =>
    cases h' with
    | ok hs => exact .ok (hT _ _ _ hr hs)

namespace Compiler

variable (c : Compiler)

/-- Under a tracking a query is made ready as without tracking, with the same values. -/
theorem ready_untracked (names : c.model.NamesTypes) {shaped : ShapedQuery}
    {parameters : Parameters} {store : Store} {tracking : Tracking} {p : Plan}
    (compiled : (c.under tracking).compile shaped = .ok p)
    (identify : ∀ u, (c.under .noTracking).ready shaped parameters = .ok u →
      KeysIdentify (u.Reads store)) :
    FailAlike (fun q u => q.values store = u.values store)
      ((c.under tracking).ready shaped parameters)
      ((c.under .noTracking).ready shaped parameters) := by
  obtain ⟨⟨⟨typeOf, tracks⟩, standalone⟩, compiled'⟩ :=
    compile_untracked (c := c.under tracking) names compiled
  have compiled' : (c.under .noTracking).compile shaped = .ok p.untracked := compiled'
  have ready : (c.under tracking).ready shaped parameters =
      p.bind ((c.under tracking).queryContext parameters) := by
    rw [Compiler.ready, compiled]
    rfl
  have ready' : (c.under .noTracking).ready shaped parameters =
      p.untracked.bind ((c.under .noTracking).queryContext parameters) := by
    rw [Compiler.ready, compiled']
    rfl
  rw [ready'] at identify
  rw [ready, ready']
  refine (p.bind_untracked ((c.under tracking).queryContext parameters)).mono ?_
  rintro q u - hu ⟨rfl, rfl⟩
  exact BoundQuery.values_untracked tracks standalone (identify _ hu)

/-- **Tracking changes identity, never values.**  Take a query that compiles under every tracking,
and a store and parameters with which the keys of its entities identify the nodes they are read
from.  Under any two trackings it is made ready alike, and in new sessions it gives out the same
JSON values at the same positions, with an error in one where there is one in the other. -/
theorem trackings_agree {types : List EntityType} (model : c.model = .ofList types)
    {shaped : ShapedQuery} (compiles : ∀ tracking, ∃ p, (c.under tracking).compile shaped = .ok p)
    {parameters : Parameters} {store : Store}
    (identify : ∀ u, (c.under .noTracking).ready shaped parameters = .ok u →
      KeysIdentify (u.Reads store)) (a b : Tracking) :
    FailAlike (fun q q' => q.values store = q'.values store)
      ((c.under a).ready shaped parameters) ((c.under b).ready shaped parameters) := by
  have names : c.model.NamesTypes := model ▸ Model.namesTypes_ofList types
  obtain ⟨p, hp⟩ := compiles a
  obtain ⟨p', hp'⟩ := compiles b
  exact (c.ready_untracked names hp identify).join (c.ready_untracked names hp' identify)
    fun _ _ _ h h' => h.trans h'.symm

/-- The read of a post under a tracking. -/
def numberedRead (tracking : Tracking) : EntityRead :=
  ⟨"Post", [], false, [⟨"Id", "id", .int32, false⟩], ["Id"], .ofTracking tracking⟩

/-- The select of the paired posts with its shaper's identities. -/
def pairedBinding (tracking : Tracking) : SelectBinding where
  model := (Run.trackingCompiler .trackAll).model
  select := { taggedPosts with projection := [⟨.entity "Post" [], "c"⟩] }
  layout := .document
  identity := .ofTracking tracking

/-- The paired posts under a tracking, ready to be enumerated. -/
def pairedQuery (tracking : Tracking) : BoundQuery where
  plan := ((Run.trackingCompiler .trackAll).under tracking).plan
    (.select "querySqlGeneratorFactory" "sqlExpressionFactory" (pairedBinding tracking).select)
    (.record [("first", .entity (numberedRead tracking) []),
      ("second", .entity (numberedRead tracking) [])])
    ⟨[⟨"querySqlGeneratorFactory", .sqlGeneratorFactory, .sqlGeneratorFactory⟩,
      ⟨"sqlExpressionFactory", .sqlExpressionFactory, .sqlExpressionFactory⟩]⟩
  context := ((Run.trackingCompiler .trackAll).under tracking).queryContext taggedParameters
  source := .select (pairedBinding tracking).select

theorem compile_pairedPosts (tracking : Tracking) :
    ((Run.trackingCompiler .trackAll).under tracking).compile Run.pairedPosts =
      .ok (pairedQuery tracking).plan := by
  have expanded : (Run.trackingCompiler .trackAll).model.entityShaper Run.numberedPost [] false
      (.ofTracking tracking) = .ok (.entity (numberedRead tracking) []) := by
    rw [Model.entityShaper, expandEntity]
    cases tracking <;> rfl
  have entity : (pairedBinding tracking).bind (.entity "Post" 0 false) =
      .ok (.entity (numberedRead tracking) []) := expanded
  have second : (pairedBinding tracking).bindFields [("second", .entity "Post" 0 false)] =
      .ok [("second", .entity (numberedRead tracking) [])] := bind_eq_ok.2 ⟨_, entity, rfl⟩
  have fields : (pairedBinding tracking).bindFields [("first", .entity "Post" 0 false),
      ("second", .entity "Post" 0 false)] = .ok [("first", .entity (numberedRead tracking) []),
      ("second", .entity (numberedRead tracking) [])] :=
    bind_eq_ok.2 ⟨_, entity, bind_eq_ok.2 ⟨_, second, rfl⟩⟩
  exact bind_eq_ok.2 ⟨_, bind_eq_ok.2 ⟨_, fields, rfl⟩, rfl⟩

theorem ready_pairedPosts (tracking : Tracking) :
    ((Run.trackingCompiler .trackAll).under tracking).ready Run.pairedPosts taggedParameters =
      .ok (pairedQuery tracking) :=
  bind_eq_ok.2 ⟨_, compile_pairedPosts tracking, rfl⟩

/-- Two posts are fetched, and their keys identify them. -/
theorem keysIdentify_pairedQuery : KeysIdentify ((pairedQuery .noTracking).Reads postStore) := by
  have fetched : (pairedQuery .noTracking).fetch postStore =
      .ok [.document (.object [("id", .ofInt 2), ("tag", .string "b")]),
        .document (.object [("id", .ofInt 3), ("tag", .string "a")])] := rfl
  have read : ∀ {r node key}, (pairedQuery .noTracking).Reads postStore r node →
      r.key.mapM (r.readProperty node) = .ok key →
      (node = .object [("id", .ofInt 2), ("tag", .string "b")] ∧ key = [.int32 2]) ∨
      (node = .object [("id", .ofInt 3), ("tag", .string "a")] ∧ key = [.int32 3]) := by
    rintro r node key ⟨rows, body, hrows, hbody, hr, rfl⟩ hkey
    rw [fetched] at hrows
    cases hrows
    have hr : r ∈ [numberedRead .noTracking, numberedRead .noTracking] := hr
    obtain rfl : r = numberedRead .noTracking := by simpa using hr
    simp only [List.mem_cons, Row.document.injEq, List.not_mem_nil, or_false] at hbody
    rcases hbody with rfl | rfl
    · exact .inl ⟨rfl, (Except.ok.inj hkey).symm⟩
    · exact .inr ⟨rfl, (Except.ok.inj hkey).symm⟩
  intro r r' node node' key key' h h' _ _ _ hkey hkey' same
  rcases read h hkey with ⟨rfl, rfl⟩ | ⟨rfl, rfl⟩ <;>
    rcases read h' hkey' with ⟨rfl, rfl⟩ | ⟨rfl, rfl⟩
  · rfl
  · exact absurd same Bool.false_ne_true
  · exact absurd same Bool.false_ne_true
  · rfl

/-- Each row reads its post twice: two instances without tracking, one otherwise. -/
theorem trackings_agree_pairedPosts : ∃ tracked resolved fresh,
    (Run.trackingCompiler .trackAll).ready Run.pairedPosts taggedParameters = .ok tracked ∧
    (Run.trackingCompiler .identityResolution).ready Run.pairedPosts taggedParameters =
      .ok resolved ∧
    (Run.trackingCompiler .noTracking).ready Run.pairedPosts taggedParameters = .ok fresh ∧
    tracked.values postStore = fresh.values postStore ∧
    resolved.values postStore = fresh.values postStore := by
  have model : (Run.trackingCompiler .trackAll).model = .ofList [Run.numberedPost] := rfl
  have identify : ∀ u, ((Run.trackingCompiler .trackAll).under .noTracking).ready Run.pairedPosts
      taggedParameters = .ok u → KeysIdentify (u.Reads postStore) := by
    intro u hu
    rw [← Except.ok.inj ((ready_pairedPosts .noTracking).symm.trans hu)]
    exact keysIdentify_pairedQuery
  have agree := trackings_agree _ model (fun tracking => ⟨_, compile_pairedPosts tracking⟩) identify
  have tracked := agree .trackAll .noTracking
  have resolved := agree .identityResolution .noTracking
  rw [ready_pairedPosts, ready_pairedPosts] at tracked resolved
  refine ⟨_, _, _, ready_pairedPosts .trackAll, ready_pairedPosts .identityResolution,
    ready_pairedPosts .noTracking, ?_, ?_⟩
  · cases tracked with
    | ok same => exact same
  · cases resolved with
    | ok same => exact same

end Compiler

end DocQuery
