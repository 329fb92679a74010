/-
# Shaping with identities

An entity with an identity is looked up by its type and key before it is made, and filed once it
is made.  So whatever shaping gives out is an entry of the map that it leaves, and the entries
that were there stay (`RowShaper.shapeRow_files`).

* **Owned entities** have no identity; making them gives out new numbers and does nothing else.
  `Shaping.Numbers` says that of a step: the numbers of its result were known before or are new.
* **Entities with an identity.**  `Shaping.Files` says of a step that its results hold instances
  which were known before or are in the map of the mode when the step has ended, and that the map
  has only been added to (`ShapingState.Extends`).  An entity is found in the map, or made, and
  then its key is still not in the map, because what was made in between is owned
  (`RowShaper.shapeEntity_files`).

Both are closed under taking one step after another, so a row is an induction along its shaper.
The key under which an entity is filed is read from the node before the entity is made; that it is
the key of the entity that was made is `EntityRead.find?_key`.
-/
import DocQuery.Proofs.IdentityMaps
import DocQuery.Proofs.Outcome
import DocQuery.RowShaper

namespace DocQuery

/-! ## 1. Steps of shaping -/

namespace ShapingState

/-- The identity map that a mode uses. -/
def map (s : ShapingState) : IdentityMode → IdentityMap
  | .tracked => s.tracked
  | .perQuery => s.perQuery.getD .empty
  | .none => .empty

/-- A state in which a mode has a valid map. -/
structure Sound (m : Model) (mode : IdentityMode) (s : ShapingState) : Prop where
  present : mode = .perQuery → s.perQuery.isSome
  valid : (s.map mode).Valid m s.nextId

/-- An entry of the mode's map holds the instance. -/
def Holds (s : ShapingState) (mode : IdentityMode) (i : Instance) : Prop :=
  ∃ e ∈ (s.map mode).entries, e.entity = .ofInstance i

/-- What shaping may do to a state: it adds entries of new instances to the mode's map, and leaves
the other map as it is. -/
structure Extends (mode : IdentityMode) (s s' : ShapingState) : Prop where
  tracked : mode ≠ .tracked → s'.tracked = s.tracked
  perQuery : mode ≠ .perQuery → s'.perQuery = s.perQuery
  nextId : s.nextId ≤ s'.nextId
  entries : ∃ new, (s'.map mode).entries = (s.map mode).entries ++ new ∧
    ∀ e ∈ new, ∀ n ∈ e.entity.numbers, s.nextId ≤ n

variable {mode : IdentityMode} {s s' s'' : ShapingState}

theorem Extends.refl (mode : IdentityMode) (s : ShapingState) : s.Extends mode s :=
  ⟨fun _ => rfl, fun _ => rfl, Nat.le_refl _, [], (List.append_nil _).symm, nofun⟩

theorem Extends.trans (h : s.Extends mode s') (h' : s'.Extends mode s'') : s.Extends mode s'' := by
  obtain ⟨new, hnew, above⟩ := h.entries
  obtain ⟨new', hnew', above'⟩ := h'.entries
  refine ⟨fun hm => (h'.tracked hm).trans (h.tracked hm),
    fun hm => (h'.perQuery hm).trans (h.perQuery hm), Nat.le_trans h.nextId h'.nextId, new ++ new',
    by rw [hnew', hnew, List.append_assoc], ?_⟩
  intro e he n hn
  rcases List.mem_append.1 he with he | he
  · exact above e he n hn
  · exact Nat.le_trans h.nextId (above' e he n hn)

theorem Holds.mono {i : Instance} (hi : s.Holds mode i) (h : s.Extends mode s') :
    s'.Holds mode i := by
  obtain ⟨e, he, hentity⟩ := hi
  obtain ⟨new, hnew, -⟩ := h.entries
  exact ⟨e, hnew ▸ List.mem_append_left _ he, hentity⟩

/-- A state with other numbers left to give. -/
theorem Sound.renumber {m : Model} (h : s.Sound m mode) {n : Nat} (hn : s.nextId ≤ n) :
    Sound m mode { s with nextId := n } := ⟨h.present, h.valid.mono hn⟩

theorem extends_renumber (mode : IdentityMode) (s : ShapingState) {n : Nat} (hn : s.nextId ≤ n) :
    s.Extends mode { s with nextId := n } :=
  ⟨fun _ => rfl, fun _ => rfl, hn, [], (List.append_nil _).symm, nofun⟩

end ShapingState

namespace Shaping

variable {α β : Type}

/-- A step that only gives out numbers: those of its result are known before or new. -/
def Numbers (known : List Nat) (numbers : α → List Nat) (x : Shaping α) : Prop :=
  ∀ s, (x.run s).2 = { s with nextId := (x.run s).2.nextId } ∧ s.nextId ≤ (x.run s).2.nextId ∧
    ∀ a, (x.run s).1 = .ok a → ∀ n ∈ numbers a,
      n ∈ known ∨ (s.nextId ≤ n ∧ n < (x.run s).2.nextId)

namespace Numbers

variable {known : List Nat} {numbers : α → List Nat} {numbers' : β → List Nat}

theorem pure {a : α} (h : ∀ n ∈ numbers a, n ∈ known) :
    Numbers known numbers (Pure.pure a : Shaping α) := by
  refine fun s => ⟨rfl, Nat.le_refl _, ?_⟩
  intro b hb n hn
  cases hb
  exact .inl (h n hn)

theorem throw (e : RunError) : Numbers known numbers (MonadExcept.throw e : Shaping α) :=
  fun _ => ⟨rfl, Nat.le_refl _, nofun⟩

/-- Reading a value gives out no numbers. -/
theorem bind_ofExcept {x : Except RunError α} {f : α → Shaping β}
    (hf : ∀ a, Numbers known numbers' (f a)) :
    Numbers known numbers' (Shaping.ofExcept x >>= f) := by
  cases x with
  | error e => exact throw e
  | ok a => exact hf a

theorem bind {x : Shaping α} {f : α → Shaping β} (hx : Numbers known numbers x)
    (hf : ∀ a, Numbers (known ++ numbers a) numbers' (f a)) : Numbers known numbers' (x >>= f) := by
  intro s
  obtain ⟨state, le, given⟩ := hx s
  rw [run_bind]
  rcases hrun : x.run s with ⟨e | a, s'⟩
  · rw [hrun] at state le
    exact ⟨state, le, nofun⟩
  · rw [hrun] at state le given
    dsimp only at state le given ⊢
    obtain ⟨state', le', given'⟩ := hf a s'
    refine ⟨?_, Nat.le_trans le le', ?_⟩
    · rw [state', state]
    · intro b hb n hn
      rcases given' b hb n hn with hn | ⟨low, high⟩
      · rcases List.mem_append.1 hn with hn | hn
        · exact .inl hn
        · rcases given a rfl n hn with hn | ⟨low, high⟩
          · exact .inl hn
          · exact .inr ⟨low, Nat.lt_of_lt_of_le high le'⟩
      · exact .inr ⟨Nat.le_trans le low, high⟩

theorem mapM {γ : Type} {f : γ → Shaping Item} : ∀ {as : List γ} {known : List Nat},
    (∀ a ∈ as, ∀ known, Numbers known Item.numbers (f a)) →
    Numbers known Item.itemNumbers (as.mapM f)
  | [], known, _ => pure (a := []) nofun
  | a :: as, known, h => by
    rw [List.mapM_cons]
    refine (h a List.mem_cons_self known).bind fun item => ?_
    refine (mapM fun x hx => h x (List.mem_cons_of_mem _ hx)).bind fun items => pure ?_
    intro n hn
    rcases List.mem_append.1 hn with hn | hn
    · exact List.mem_append_left _ (List.mem_append_right _ hn)
    · exact List.mem_append_right _ hn

theorem freshId (known : List Nat) : Numbers known (fun n => [n]) Shaping.freshId := by
  refine fun s => ⟨rfl, Nat.le_succ _, ?_⟩
  intro a ha n hn
  cases ha
  rw [List.mem_singleton.1 hn]
  exact .inr ⟨Nat.le_refl _, Nat.lt_succ_self _⟩

end Numbers

theorem exists_of_run_bind {x : Shaping α} {f : α → Shaping β} {s : ShapingState} {b : β}
    (h : ((x >>= f).run s).1 = .ok b) :
    ∃ a s', x.run s = (.ok a, s') ∧ ((f a).run s').1 = .ok b := by
  rw [run_bind] at h
  rcases hrun : x.run s with ⟨e | a, s'⟩
  · rw [hrun] at h
    exact nomatch h
  · rw [hrun] at h
    exact ⟨a, s', rfl, h⟩

theorem run_ofExcept (x : Except RunError α) (s : ShapingState) :
    (Shaping.ofExcept x).run s = (x, s) := by cases x <;> rfl

end Shaping

/-! ## 2. Owned entities -/

namespace RowShaper

mutual

/-- No entity of the shaper has an identity. -/
def Plain : RowShaper → Prop
  | .read .. | .constant _ => True
  | .entity info embedded => info.identity = .none ∧ FieldsPlain embedded
  | .collection _ element => element.Plain
  | .record fields => FieldsPlain fields

def FieldsPlain : List (String × RowShaper) → Prop
  | [] => True
  | (_, s) :: rest => s.Plain ∧ FieldsPlain rest

end

theorem fieldsPlain_of_forall : ∀ {fields : List (String × RowShaper)},
    (∀ f ∈ fields, f.2.Plain) → FieldsPlain fields
  | [], _ => by rw [FieldsPlain]; trivial
  | (_, s) :: rest, h => by
    rw [FieldsPlain]
    exact ⟨h _ List.mem_cons_self,
      fieldsPlain_of_forall fun f hf => h f (List.mem_cons_of_mem _ hf)⟩

open Shaping in
mutual

/-- Without identities shaping gives out new numbers and nothing else. -/
theorem shapeNode_numbers : ∀ (s : RowShaper), s.Plain → ∀ (known : List Nat)
    (ordinals : Option (List Json)) (node : Json),
    Numbers known Item.numbers (s.shapeNode ordinals node)
  | .read access type nullable, _, known, ordinals, node => by
    rw [shapeNode]
    exact .bind_ofExcept fun raw => .bind_ofExcept fun value => .pure nofun
  | .entity info embedded, h, known, ordinals, node => by
    rw [Plain] at h
    rw [shapeNode]
    split
    · exact .throw _
    · exact shapeEntity_numbers info h.1 embedded h.2 known (node.readPath info.path)
  | .collection path element, h, known, ordinals, node => by
    rw [Plain] at h
    rw [shapeNode]
    split
    · exact .pure nofun
    · next items _ =>
      refine .bind (.mapM fun item _ known => element.shapeNode_numbers h known none item)
        fun list => .pure fun n hn => List.mem_append_right _ hn
    · exact .throw _
  | .record fields, h, known, ordinals, node => by
    rw [Plain] at h
    rw [shapeNode]
    exact .bind (shapeFields_numbers fields h known ordinals node) fun items =>
      .pure fun n hn => List.mem_append_right _ hn
  | .constant value, _, known, ordinals, node => by
    rw [shapeNode]
    exact .pure nofun

theorem shapeEntity_numbers (info : EntityRead) (identity : info.identity = .none) :
    ∀ (embedded : List (String × RowShaper)), FieldsPlain embedded → ∀ (known : List Nat)
    (node : Json), Numbers known Item.numbers (shapeEntity info node embedded)
  | embedded, h, known, node => by
    rw [shapeEntity]
    split
    · split
      · exact .pure nofun
      · exact .throw _
    · exact makeEntity_numbers info embedded h known node

theorem makeEntity_numbers (info : EntityRead) : ∀ (embedded : List (String × RowShaper)),
    FieldsPlain embedded → ∀ (known : List Nat) (node : Json),
    Numbers known Item.numbers (makeEntity info node embedded)
  | embedded, h, known, node => by
    rw [makeEntity]
    refine .bind_ofExcept fun values => ?_
    refine .bind (shapeFields_numbers embedded h _ none node) fun fields => ?_
    refine .bind (.freshId _) fun id => .pure ?_
    intro n hn
    rcases List.mem_cons.1 hn with rfl | hn
    · simp
    · rcases Item.mem_fieldNumbers_of_sorted hn with hn | hn
      · simp [hn]
      · exact nomatch hn

theorem shapeFields_numbers : ∀ (fields : List (String × RowShaper)), FieldsPlain fields →
    ∀ (known : List Nat) (ordinals : Option (List Json)) (node : Json),
    Numbers known Item.fieldNumbers (shapeFields ordinals node fields)
  | [], _, known, ordinals, node => by
    rw [shapeFields]
    exact .pure nofun
  | (name, s) :: rest, h, known, ordinals, node => by
    rw [FieldsPlain] at h
    rw [shapeFields]
    refine .bind (s.shapeNode_numbers h.1 known ordinals node) fun first => ?_
    refine .bind (shapeFields_numbers rest h.2 _ ordinals node) fun items => .pure ?_
    intro n hn
    rcases List.mem_append.1 hn with hn | hn
    · simp [hn]
    · simp [hn]

end

end RowShaper

/-! ## 3. Keys that are read -/

theorem Json.isNaN_asDouble? {j : Json} {x : Double} (h : j.asDouble? = some x) :
    x.isNaN = false := by
  cases j with
  | number n =>
    cases h
    cases n with
    | integer i => exact Double.isNaN_ofInt i
    | double x => rfl
    | single x => rfl
  | _ => exact nomatch h

/-- What is read at a type is a value of the type. -/
theorem Scalar.holds_of_ofJsonAs? {type : DataType} {j : Json} {s : Scalar}
    (h : ofJsonAs? type j = some s) (typed : type ≠ .object) : type.Holds s := by
  unfold ofJsonAs? at h
  split at h
  · cases h
    exact .null type
  · cases type with
    | boolean =>
      obtain ⟨b, -, rfl⟩ := Option.map_eq_some_iff.1 h
      exact .bool b
    | int32 =>
      obtain ⟨n, -, h⟩ := Option.bind_eq_some_iff.1 h
      split at h
      · cases h
        exact .int32 _
      · exact nomatch h
    | int64 =>
      obtain ⟨n, -, rfl⟩ := Option.map_eq_some_iff.1 h
      exact .int64 _
    | date64 =>
      obtain ⟨n, -, rfl⟩ := Option.map_eq_some_iff.1 h
      exact .date64 _
    | float32 =>
      obtain ⟨x, hx, rfl⟩ := Option.map_eq_some_iff.1 h
      exact .float32 (Double.isNaN_toSingle (Json.isNaN_asDouble? hx))
    | float64 =>
      obtain ⟨x, hx, rfl⟩ := Option.map_eq_some_iff.1 h
      exact .float64 (Json.isNaN_asDouble? hx)
    | decimal128 =>
      obtain ⟨x, hx, rfl⟩ := Option.map_eq_some_iff.1 h
      exact .decimal128 (Json.isNaN_asDouble? hx)
    | utf8 =>
      obtain ⟨t, -, rfl⟩ := Option.map_eq_some_iff.1 h
      exact .text t
    | binary =>
      obtain ⟨items, -, h⟩ := Option.bind_eq_some_iff.1 h
      obtain ⟨bytes, -, rfl⟩ := Option.map_eq_some_iff.1 h
      exact .binary bytes
    | object => exact absurd rfl typed

namespace EntityRead

/-- The entity is read as the model describes its type. -/
structure IsOf (m : Model) (r : EntityRead) (t : EntityType) : Prop where
  found : m.entityType? r.entityType = some t
  key : r.key = t.key
  properties : r.properties = t.properties.map .ofProperty

variable {m : Model} {r : EntityRead} {t : EntityType} {node : Json} {name : String} {s : Scalar}

theorem exists_of_readProperty (h : r.readProperty node name = .ok s) :
    ∃ p, r.properties.find? (·.name == name) = some p ∧
      Scalar.ofJsonAs? p.dataType (node.propertyNode p.jsonName) = some s := by
  unfold readProperty at h
  split at h
  · exact nomatch h
  · next p hp =>
    dsimp only at h
    split at h
    · exact nomatch h
    · next v hv =>
      split at h
      · exact nomatch h
      · cases h
        exact ⟨p, hp, hv⟩

/-- The value of a property is the one that is read by its name. -/
theorem find?_of_readProperties {values : Dictionary Scalar} (h : r.readProperties node = .ok values)
    (hs : r.readProperty node name = .ok s) : values.find? name = some s := by
  obtain ⟨entries, hentries, h⟩ := bind_eq_ok.1 h
  rw [← pure_eq_ok.1 h, Dictionary.find?_ofList]
  obtain ⟨p, hp, -⟩ := exists_of_readProperty hs
  have listed : p ∈ r.properties := List.mem_of_find?_eq_some hp
  have named : p.name = name := by simpa using List.find?_some hp
  have entry : ∀ {e : String × Scalar}, e ∈ entries → e.1 = name → e.2 = s := by
    intro e he hname
    obtain ⟨q, -, hq⟩ := mem_of_mapM_eq_ok hentries e he
    obtain ⟨v, hv, hq⟩ := bind_eq_ok.1 hq
    rw [← pure_eq_ok.1 hq] at hname ⊢
    dsimp only at hname ⊢
    rw [hname, hs] at hv
    exact (Except.ok.inj hv).symm
  refine lookup_eq_some_of_mem (List.mem_reverse.2 ?_) fun other ho => ?_
  · obtain ⟨e, he, hread⟩ := mapM_eq_ok_of_mem hentries p listed
    obtain ⟨v, -, hread⟩ := bind_eq_ok.1 hread
    have := pure_eq_ok.1 hread
    have key : e.1 = name := by rw [← this]; exact named
    have value := entry he key
    rw [← key, ← value]
    exact he
  · exact entry (List.mem_reverse.1 ho) rfl

/-- A key property that is read has a value of its type. -/
theorem IsOf.holds (h : r.IsOf m t) (typed : m.TypesKeys) (hkey : name ∈ t.key)
    (hs : r.readProperty node name = .ok s) :
    ∃ p, t.property? name = some p ∧ p.dataType.Holds s := by
  obtain ⟨q, hq, hv⟩ := exists_of_readProperty hs
  rw [h.properties, List.find?_map, Option.map_eq_some_iff] at hq
  obtain ⟨p, hp, rfl⟩ := hq
  exact ⟨p, hp, Scalar.holds_of_ofJsonAs? hv (typed _ t h.found name hkey p hp)⟩

/-- The key that is read is of the types that the model gives. -/
theorem IsOf.typedKey (h : r.IsOf m t) (typed : m.TypesKeys) {key : List Scalar}
    (hkey : r.key.mapM (r.readProperty node) = .ok key) : TypedKey (m.keyTypes r.entityType) key := by
  have parts : ∀ {names : List String} {key : List Scalar}, (∀ k ∈ names, k ∈ t.key) →
      names.mapM (r.readProperty node) = .ok key →
      TypedKey (names.filterMap fun k => (t.property? k).map (·.dataType)) key := by
    intro names
    induction names with
    | nil =>
      intro key _ hkey
      rw [mapM_nil_eq_ok.1 hkey]
      exact .nil
    | cons k names ih =>
      intro key hnames hkey
      obtain ⟨s, rest, hs, hrest, rfl⟩ := mapM_cons_eq_ok.1 hkey
      obtain ⟨p, hp, holds⟩ := h.holds typed (hnames k List.mem_cons_self) hs
      rw [List.filterMap_cons, hp]
      exact .cons holds (ih (fun x hx => hnames x (List.mem_cons_of_mem _ hx)) hrest)
  rw [h.key] at hkey
  rw [Model.keyTypes, h.found]
  exact parts (fun _ hk => hk) hkey

/-- The values of an entity at its key properties are its key. -/
theorem find?_key {key : List Scalar} {values : Dictionary Scalar}
    (hkey : r.key.mapM (r.readProperty node) = .ok key) (hvalues : r.readProperties node = .ok values) :
    r.key.map values.find? = key.map some :=
  (map_of_mapM (fun _ _ _ hs => (find?_of_readProperties hvalues hs).symm) hkey).symm

end EntityRead

/-! ## 4. Entities with an identity -/

namespace ShapingState

variable {mode : IdentityMode} {s : ShapingState}

/-- The state with another map for a mode. -/
def withMap (s : ShapingState) (mode : IdentityMode) (map : IdentityMap) : ShapingState :=
  match mode with
  | .tracked => { s with tracked := map }
  | .perQuery => { s with perQuery := some map }
  | .none => s

theorem map_withMap (hmode : mode ≠ .none) (map : IdentityMap) :
    (s.withMap mode map).map mode = map := by
  cases mode with
  | none => exact absurd rfl hmode
  | perQuery => rfl
  | tracked => rfl

theorem nextId_withMap (s : ShapingState) (mode : IdentityMode) (map : IdentityMap) :
    (s.withMap mode map).nextId = s.nextId := by cases mode <;> rfl

/-- A new entry may be added to the map of the mode. -/
theorem sound_withMap {m : Model} (hmode : mode ≠ .none) {map : IdentityMap}
    (valid : map.Valid m s.nextId) : (s.withMap mode map).Sound m mode where
  present h := by
    cases h
    rfl
  valid := by
    rw [map_withMap hmode, nextId_withMap]
    exact valid

theorem extends_withMap (hmode : mode ≠ .none) (s : ShapingState) {e : IdentityEntry}
    (above : ∀ n ∈ e.entity.numbers, s.nextId ≤ n) {n : Nat} (hn : s.nextId ≤ n) :
    s.Extends mode
      (withMap { s with nextId := n } mode ⟨(s.map mode).entries ++ [e]⟩) where
  tracked h := by
    cases mode with
    | tracked => exact absurd rfl h
    | _ => rfl
  perQuery h := by
    cases mode with
    | perQuery => exact absurd rfl h
    | _ => rfl
  nextId := by
    rw [nextId_withMap]
    exact hn
  entries := by
    refine ⟨[e], by rw [map_withMap hmode], ?_⟩
    intro x hx
    rw [List.mem_singleton.1 hx]
    exact above

end ShapingState

namespace Shaping

variable {mode : IdentityMode} {s : ShapingState} {entityType : String} {key : List Scalar}

theorem run_findEntity (mode : IdentityMode) (entityType : String) (key : List Scalar)
    (s : ShapingState) :
    (findEntity mode entityType key).run s = (.ok ((s.map mode).find? entityType key), s) := by
  rcases s with ⟨tracked, _ | map, nextId⟩ <;> cases mode <;> rfl

theorem run_recordEntity (hmode : mode ≠ .none) (present : mode = .perQuery → s.perQuery.isSome)
    (absent : (s.map mode).find? entityType key = none) (item : Item) :
    (recordEntity mode entityType key item).run s =
      (.ok item, s.withMap mode ⟨(s.map mode).entries ++ [⟨entityType, key, item⟩]⟩) := by
  have track : ∀ {map : IdentityMap}, map.find? entityType key = none →
      map.track entityType key item = (item, ⟨map.entries ++ [⟨entityType, key, item⟩]⟩) := by
    intro map hmap
    rw [IdentityMap.track, hmap]
  cases mode with
  | none => exact absurd rfl hmode
  | tracked =>
    have step : (recordEntity .tracked entityType key item).run s =
        (.ok (s.tracked.track entityType key item).1,
          { s with tracked := (s.tracked.track entityType key item).2 }) := rfl
    have recorded : s.tracked.track entityType key item = _ := track absent
    rw [step, recorded]
    rfl
  | perQuery =>
    obtain ⟨map, hmap⟩ := Option.isSome_iff_exists.1 (present rfl)
    rcases s with ⟨tracked, perQuery, nextId⟩
    cases hmap
    have step : (recordEntity .perQuery entityType key item).run ⟨tracked, some map, nextId⟩ =
        (.ok (map.track entityType key item).1,
          ⟨tracked, some (map.track entityType key item).2, nextId⟩) := rfl
    have recorded : map.track entityType key item = _ := track absent
    rw [step, recorded]
    rfl

variable {α β : Type} {m : Model} {known : List Instance} {given : α → List Instance}
  {given' : β → List Instance}

/-- A step whose results hold instances that are known before or are in the map of the mode when the
step has ended. -/
def Files (m : Model) (mode : IdentityMode) (known : List Instance) (given : α → List Instance)
    (x : Shaping α) : Prop :=
  ∀ s, ShapingState.Sound m mode s → (∀ i ∈ known, s.Holds mode i) →
    (x.run s).2.Sound m mode ∧ s.Extends mode (x.run s).2 ∧
    ∀ a, (x.run s).1 = .ok a → ∀ i ∈ given a, (x.run s).2.Holds mode i

namespace Files

theorem pure {a : α} (h : ∀ i ∈ given a, i ∈ known) :
    Files m mode known given (Pure.pure a : Shaping α) := by
  refine fun s sound holds => ⟨sound, .refl mode s, ?_⟩
  intro b hb i hi
  cases hb
  exact holds i (h i hi)

theorem throw (e : RunError) : Files m mode known given (MonadExcept.throw e : Shaping α) :=
  fun s sound _ => ⟨sound, .refl mode s, nofun⟩

theorem bind_ofExcept {x : Except RunError α} {f : α → Shaping β}
    (hf : ∀ a, Files m mode known given' (f a)) :
    Files m mode known given' (Shaping.ofExcept x >>= f) := by
  cases x with
  | error e => exact throw e
  | ok a => exact hf a

theorem bind {x : Shaping α} {f : α → Shaping β} (hx : Files m mode known given x)
    (hf : ∀ a, Files m mode (known ++ given a) given' (f a)) :
    Files m mode known given' (x >>= f) := by
  intro s sound holds
  obtain ⟨sound₁, extends₁, given₁⟩ := hx s sound holds
  rw [run_bind]
  rcases hrun : x.run s with ⟨e | a, s₁⟩
  · rw [hrun] at sound₁ extends₁
    exact ⟨sound₁, extends₁, nofun⟩
  · rw [hrun] at sound₁ extends₁ given₁
    have holds₁ : ∀ i ∈ known ++ given a, s₁.Holds mode i := by
      intro i hi
      rcases List.mem_append.1 hi with hi | hi
      · exact (holds i hi).mono extends₁
      · exact given₁ a rfl i hi
    obtain ⟨sound₂, extends₂, given₂⟩ := hf a s₁ sound₁ holds₁
    exact ⟨sound₂, extends₁.trans extends₂, given₂⟩

end Files

end Shaping

namespace RowShaper

/-- A new entity is an instance of the read type, with the values of the node. -/
theorem run_makeEntity (info : EntityRead) {embedded : List (String × RowShaper)}
    (plain : FieldsPlain embedded) (node : Json) (s : ShapingState) :
    ∃ next, s.nextId ≤ next ∧
      ((makeEntity info node embedded).run s).2 = { s with nextId := next } ∧
      ∀ item, ((makeEntity info node embedded).run s).1 = .ok item →
        ∃ i, item = .ofInstance i ∧ i.entityType = info.entityType ∧
          info.readProperties node = .ok i.values ∧
          ∀ n ∈ item.numbers, s.nextId ≤ n ∧ n < next := by
  obtain ⟨state, le, given⟩ := makeEntity_numbers info embedded plain [] node s
  refine ⟨_, le, state, ?_⟩
  intro item hitem
  have fresh := given item hitem
  rw [makeEntity] at hitem
  obtain ⟨values, s₁, hvalues, hitem⟩ := Shaping.exists_of_run_bind hitem
  obtain ⟨fields, s₂, -, hitem⟩ := Shaping.exists_of_run_bind hitem
  obtain ⟨id, s₃, -, hitem⟩ := Shaping.exists_of_run_bind hitem
  rw [Shaping.run_ofExcept] at hvalues
  cases hitem
  refine ⟨⟨_, _, _, _⟩, rfl, rfl, (Prod.ext_iff.1 hvalues).1, ?_⟩
  intro n hn
  exact (fresh n hn).resolve_left List.not_mem_nil

/-- **An entity with an identity is the one of its key.**  It is found in the map, or made and filed
there. -/
theorem shapeEntity_files {m : Model} (typed : m.TypesKeys) {mode : IdentityMode}
    (hmode : mode ≠ .none) {info : EntityRead} {t : EntityType} (hinfo : info.IsOf m t)
    (identity : info.identity = mode) {embedded : List (String × RowShaper)}
    (plain : FieldsPlain embedded) (known : List Instance) (node : Json) :
    Shaping.Files m mode known Item.instances (shapeEntity info node embedded) := by
  rw [shapeEntity, identity, if_neg hmode]
  split
  · split
    · exact .pure nofun
    · exact .throw _
  · intro s sound holds
    rw [Shaping.run_bind, Shaping.run_ofExcept]
    cases hkey : info.key.mapM (info.readProperty node) with
    | error e => exact ⟨sound, .refl mode s, nofun⟩
    | ok key =>
      dsimp only
      rw [Shaping.run_bind, Shaping.run_findEntity]
      cases hfind : (s.map mode).find? info.entityType key with
      | some existing =>
        obtain ⟨e, he, hentity, -⟩ := IdentityMap.exists_of_find? hfind
        obtain ⟨i, files⟩ := sound.valid.files e he
        refine ⟨sound, .refl mode s, ?_⟩
        intro item hitem j hj
        cases hitem
        rw [← hentity, files.entity] at hj
        rw [List.mem_singleton.1 hj]
        exact ⟨e, he, files.entity⟩
      | none =>
        dsimp only
        obtain ⟨next, le, state, made⟩ := run_makeEntity info plain node s
        rw [Shaping.run_bind]
        rcases hmake : (makeEntity info node embedded).run s with ⟨fault | item, s'⟩
        · rw [hmake] at state
          dsimp only at state ⊢
          rw [state]
          exact ⟨sound.renumber le, s.extends_renumber mode le, nofun⟩
        · rw [hmake] at state made
          dsimp only at state made ⊢
          obtain ⟨i, hi, htype, hvalues, fresh⟩ := made item rfl
          have absent : (s'.map mode).find? info.entityType key = none := by
            rw [state]
            exact hfind
          rw [Shaping.run_recordEntity hmode (state ▸ sound.present) absent, state]
          have files : IdentityEntry.Files m ⟨info.entityType, key, item⟩ i := {
            entity := hi
            entityType := htype
            values := ⟨t, hinfo.found, hinfo.key ▸ EntityRead.find?_key hkey hvalues⟩
            typed := hinfo.typedKey typed hkey }
          have own : i.id ∈ item.numbers := by rw [hi]; exact List.mem_cons_self
          have valid : IdentityMap.Valid m next
              ⟨(s.map mode).entries ++ [⟨info.entityType, key, item⟩]⟩ :=
            sound.valid.add files hfind (fresh i.id own).1 le fun n hn => (fresh n hn).2
          refine ⟨ShapingState.sound_withMap hmode valid,
            s.extends_withMap hmode (fun n hn => (fresh n hn).1) le, ?_⟩
          intro given hgiven j hj
          cases hgiven
          rw [hi] at hj
          rw [List.mem_singleton.1 hj]
          refine ⟨⟨info.entityType, key, item⟩, ?_, hi⟩
          rw [ShapingState.map_withMap hmode]
          exact List.mem_append_right _ (List.mem_singleton_self _)

/-! ## 5. Rows -/

mutual

/-- The entities of the shaper are read as the model says, with one identity mode, and what they own
has no identity. -/
def Resolves (m : Model) (mode : IdentityMode) : RowShaper → Prop
  | .read .. | .constant _ => True
  | .entity info embedded =>
    info.identity = mode ∧ (∃ t, info.IsOf m t) ∧ FieldsPlain embedded
  | .collection .. => False
  | .record fields => FieldsResolve m mode fields

def FieldsResolve (m : Model) (mode : IdentityMode) : List (String × RowShaper) → Prop
  | [] => True
  | (_, s) :: rest => s.Resolves m mode ∧ FieldsResolve m mode rest

end

section

variable {m : Model} {mode : IdentityMode}

mutual

theorem shapeNode_files (typed : m.TypesKeys) (hmode : mode ≠ .none) : ∀ s : RowShaper,
    s.Resolves m mode → ∀ (known : List Instance) (ordinals : Option (List Json)) (node : Json),
    Shaping.Files m mode known Item.instances (s.shapeNode ordinals node)
  | .read access type nullable, _, known, ordinals, node => by
    rw [shapeNode]
    exact .bind_ofExcept fun raw => .bind_ofExcept fun value => .pure nofun
  | .entity info embedded, h, known, ordinals, node => by
    rw [Resolves] at h
    obtain ⟨identity, ⟨t, hinfo⟩, plain⟩ := h
    rw [shapeNode]
    split
    · exact .throw _
    · exact shapeEntity_files typed hmode hinfo identity plain known _
  | .collection path element, h, _, _, _ => by
    rw [Resolves] at h
    exact h.elim
  | .record fields, h, known, ordinals, node => by
    rw [Resolves] at h
    rw [shapeNode]
    exact .bind (shapeFields_files typed hmode fields h known ordinals node) fun items =>
      .pure fun i hi => List.mem_append_right _ hi
  | .constant value, _, known, ordinals, node => by
    rw [shapeNode]
    exact .pure nofun

theorem shapeFields_files (typed : m.TypesKeys) (hmode : mode ≠ .none) :
    ∀ fields : List (String × RowShaper), FieldsResolve m mode fields →
    ∀ (known : List Instance) (ordinals : Option (List Json)) (node : Json),
    Shaping.Files m mode known Item.fieldInstances (shapeFields ordinals node fields)
  | [], _, known, ordinals, node => by
    rw [shapeFields]
    exact .pure nofun
  | (name, s) :: rest, h, known, ordinals, node => by
    rw [FieldsResolve] at h
    rw [shapeFields]
    refine .bind (shapeNode_files typed hmode s h.1 known ordinals node) fun first => ?_
    refine .bind (shapeFields_files typed hmode rest h.2 _ ordinals node) fun items => .pure ?_
    intro i hi
    rcases List.mem_append.1 hi with hi | hi
    · exact List.mem_append_left _ (List.mem_append_right _ hi)
    · exact List.mem_append_right _ hi

end

/-- **Shaping a row gives out entries of the map that it leaves.** -/
theorem shapeRow_files (typed : m.TypesKeys) (hmode : mode ≠ .none) {s : RowShaper}
    (h : s.Resolves m mode) (row : Row) :
    Shaping.Files m mode [] Item.instances (s.shapeRow row) := by
  cases row with
  | document body => exact shapeNode_files typed hmode s h [] none body
  | ordinal values => exact shapeNode_files typed hmode s h [] (some values) .null

end

end RowShaper

end DocQuery
