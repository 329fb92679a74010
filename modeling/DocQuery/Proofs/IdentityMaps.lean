/-
# Identity maps

An identity map files instances under their type and key.  `IdentityMap.Valid` is what is kept of
it: the entries have different keys and different instances, each holds an instance of the type
and with the key that it is filed under, and the numbers of instances are below the next one to be
given out.  Of a valid map two instances are one EXACTLY when they have one type and equal keys
(`IdentityMap.Valid.identified`).

Keys are found by the order in which scalars sort, which is coarser than equality and not even
transitive on all values.  For keys of one entity type it is equality of their values, part by
part (`sameKey_iff`), as long as no key property is of the type that takes values of any kind
(`Model.TypesKeys`): a property of another type has values of one kind (`DataType.Holds`), and
among these the order says equal of equal values only (`Scalar.compare_eq_iff`).

Adding an entry for a key that is not there, with a new instance, keeps a map valid
(`IdentityMap.Valid.add`), and nothing else is ever done to one.
-/
import DocQuery.Materialize
import DocQuery.Model
import Mathlib.Data.List.Forall2

namespace DocQuery

/-! ## 1. Keys of one entity type -/

/-- The values that a property of a type other than object may have. -/
inductive DataType.Holds : DataType → Scalar → Prop where
  | null (type : DataType) : Holds type .null
  | bool (b : Bool) : Holds .boolean (.bool b)
  | int32 (n : Int32) : Holds .int32 (.int32 n)
  | int64 (n : Int64) : Holds .int64 (.int64 n)
  | date64 (n : Int64) : Holds .date64 (.int64 n)
  | float32 {x : Double} (h : x.isNaN = false) : Holds .float32 (.float32 x)
  | float64 {x : Double} (h : x.isNaN = false) : Holds .float64 (.float64 x)
  | decimal128 {x : Double} (h : x.isNaN = false) : Holds .decimal128 (.float64 x)
  | text (s : String) : Holds .utf8 (.text s)
  | binary (bytes : List UInt8) : Holds .binary (.binary bytes)

namespace Double

theorem isNaN_round (f : Format) (negative : Bool) (num den : Nat) :
    (f.round negative num den).isNaN = false := by
  unfold Format.round
  dsimp only
  split <;> rfl

theorem isNaN_ofInt (n : Int) : (ofInt n).isNaN = false := by
  rw [ofInt, ofUnits]
  exact isNaN_round ..

theorem isNaN_toSingle {x : Double} (h : x.isNaN = false) : x.toSingle.isNaN = false := by
  cases x with
  | finite v => exact isNaN_round .single v.negative v.units 1
  | infinite n => rfl
  | nan => exact h

/-- Doubles are equal when they have one place on the line. -/
theorem equal_iff {x y : Double} : x.equal y = true ↔ ∃ k, x.key = some k ∧ y.key = some k := by
  unfold equal compare?
  generalize x.key = a
  generalize y.key = b
  cases a with
  | none => simp
  | some a => cases b with
    | none => simp
    | some b =>
      simp only [beq_iff_eq, Option.some.injEq, Ordering.then_eq_eq, Std.compare_eq_iff_eq]
      constructor
      · rintro ⟨h₁, h₂⟩
        exact ⟨a, rfl, (Prod.ext h₁ h₂).symm⟩
      · rintro ⟨k, rfl, rfl⟩
        exact ⟨rfl, rfl⟩

theorem exists_key {x : Double} (h : x.isNaN = false) : ∃ k, x.key = some k := by
  cases x with
  | nan => exact nomatch h
  | infinite n => exact ⟨_, rfl⟩
  | finite v => exact ⟨_, rfl⟩

theorem equal_self {x : Double} (h : x.isNaN = false) : x.equal x = true := by
  obtain ⟨k, hk⟩ := exists_key h
  exact equal_iff.2 ⟨k, hk, hk⟩

theorem equal_symm {x y : Double} (h : x.equal y = true) : y.equal x = true := by
  obtain ⟨k, hx, hy⟩ := equal_iff.1 h
  exact equal_iff.2 ⟨k, hy, hx⟩

theorem compareNaNLast_eq_iff {x y : Double} (hx : x.isNaN = false) (hy : y.isNaN = false) :
    x.compareNaNLast y = .eq ↔ x.equal y = true := by
  obtain ⟨a, ha⟩ := exists_key hx
  obtain ⟨b, hb⟩ := exists_key hy
  simp [compareNaNLast, equal, compare?, hx, hy, ha, hb]

end Double

namespace Scalar

theorem compareLists_eq_iff {α : Type} {cmp : α → α → Ordering} : ∀ {as bs : List α},
    compareLists cmp as bs = .eq ↔ List.Forall₂ (fun a b => cmp a b = .eq) as bs
  | [], [] => by simp [compareLists]
  | [], _ :: _ => by simp [compareLists]
  | _ :: _, [] => by simp [compareLists]
  | a :: as, b :: bs => by
    rw [compareLists, Ordering.then_eq_eq, compareLists_eq_iff, List.forall₂_cons]

variable {type : DataType} {a b : Scalar}

theorem compare_bytes_eq_iff : ∀ {as bs : List UInt8},
    compareLists (fun x y => Ord.compare x.toNat y.toNat) as bs = .eq ↔ as = bs := by
  intro as bs
  rw [compareLists_eq_iff]
  simp only [Std.compare_eq_iff_eq, UInt8.toNat_inj, List.forall₂_eq_eq_eq]

/-- Values of one type come equal in the sorting order when they are equal. -/
theorem compare_eq_iff (ha : type.Holds a) (hb : type.Holds b) :
    a.compare b = .eq ↔ a.same b = true := by
  cases ha with
  | null => cases hb <;> simp [compare, same, asDouble?, rank]
  | bool x => cases hb with
    | null => simp [compare, same, asDouble?, rank]
    | bool y => cases x <;> cases y <;> simp [compare, same]
  | int32 x => cases hb <;> simp [compare, same, asDouble?, rank, Int32.toInt_inj]
  | int64 x => cases hb <;> simp [compare, same, asDouble?, rank, Int64.toInt_inj]
  | date64 x => cases hb <;> simp [compare, same, asDouble?, rank, Int64.toInt_inj]
  | float32 hx => cases hb with
    | null => simp [compare, same, asDouble?, rank]
    | float32 hy => simpa [compare, same, asDouble?] using Double.compareNaNLast_eq_iff hx hy
  | float64 hx => cases hb with
    | null => simp [compare, same, asDouble?, rank]
    | float64 hy => simpa [compare, same, asDouble?] using Double.compareNaNLast_eq_iff hx hy
  | decimal128 hx => cases hb with
    | null => simp [compare, same, asDouble?, rank]
    | decimal128 hy => simpa [compare, same, asDouble?] using Double.compareNaNLast_eq_iff hx hy
  | text x => cases hb <;> simp [compare, same, asDouble?, rank]
  | binary x => cases hb <;> simp [compare, same, asDouble?, rank, compare_bytes_eq_iff]

theorem same_self (ha : type.Holds a) : a.same a = true := by
  cases ha with
  | float32 h | float64 h | decimal128 h => exact Double.equal_self h
  | _ => simp [same]

theorem same_symm (h : a.same b = true) : b.same a = true := by
  unfold same at h
  split at h
  · exact Double.equal_symm h
  · exact Double.equal_symm h
  · next other single double =>
    obtain rfl := beq_iff_eq.1 h
    unfold same
    split
    · exact absurd rfl (single _ _ rfl)
    · exact absurd rfl (double _ _ rfl)
    · exact h

end Scalar

/-- Keys are equal when their values are, part by part. -/
def EqualKeys (a b : List Scalar) : Prop := List.Forall₂ (fun x y => x.same y = true) a b

/-- A key whose parts are of these types. -/
def TypedKey (types : List DataType) (key : List Scalar) : Prop :=
  List.Forall₂ DataType.Holds types key

namespace EqualKeys

variable {types : List DataType} {a b : List Scalar}

theorem refl : ∀ {types : List DataType} {a : List Scalar}, TypedKey types a → EqualKeys a a
  | _, _, .nil => .nil
  | _, _, .cons h rest => .cons (Scalar.same_self h) (refl rest)

theorem symm (h : EqualKeys a b) : EqualKeys b a := h.flip.imp fun _ _ => Scalar.same_symm

end EqualKeys

/-- **Keys of one entity type are the same key when they are equal.** -/
theorem sameKey_iff : ∀ {types : List DataType} {a b : List Scalar}, TypedKey types a →
    TypedKey types b → (sameKey a b = true ↔ EqualKeys a b)
  | _, _, _, .nil, .nil => by simp [sameKey, Scalar.compareTuples, Scalar.compareLists, EqualKeys]
  | _, _, _, .cons ha as, .cons hb bs => by
    have rest := sameKey_iff as bs
    unfold sameKey Scalar.compareTuples EqualKeys at rest ⊢
    rw [beq_iff_eq] at rest ⊢
    rw [Scalar.compareLists, Ordering.then_eq_eq, Scalar.compare_eq_iff ha hb, rest,
      List.forall₂_cons]

/-! ## 2. Instances -/

/-- An entity instance. -/
structure Instance where
  id : Nat
  entityType : String
  values : Dictionary Scalar
  embedded : List (String × Item)

namespace Item

/-- An instance as a result. -/
def ofInstance (i : Instance) : Item := .entity i.id i.entityType i.values i.embedded

theorem ofInstance_inj {i j : Instance} (h : ofInstance i = ofInstance j) : i = j := by
  obtain ⟨hid, htype, hvalues, hembedded⟩ := Item.entity.inj h
  cases i
  cases j
  cases hid
  cases htype
  cases hvalues
  cases hembedded
  rfl

mutual

/-- The instances in a result that are not owned by others. -/
def instances : Item → List Instance
  | .null | .value _ => []
  | .entity id entityType values embedded => [⟨id, entityType, values, embedded⟩]
  | .record fields => fieldInstances fields
  | .list items => itemInstances items

def fieldInstances : List (String × Item) → List Instance
  | [] => []
  | (_, item) :: rest => item.instances ++ fieldInstances rest

def itemInstances : List Item → List Instance
  | [] => []
  | item :: rest => item.instances ++ itemInstances rest

end

mutual

/-- The numbers of all instances in a result, owned ones too. -/
def numbers : Item → List Nat
  | .null | .value _ => []
  | .entity id _ _ embedded => id :: fieldNumbers embedded
  | .record fields => fieldNumbers fields
  | .list items => itemNumbers items

def fieldNumbers : List (String × Item) → List Nat
  | [] => []
  | (_, item) :: rest => item.numbers ++ fieldNumbers rest

def itemNumbers : List Item → List Nat
  | [] => []
  | item :: rest => item.numbers ++ itemNumbers rest

end

theorem mem_fieldNumbers {n : Nat} : ∀ {fields : List (String × Item)},
    n ∈ fieldNumbers fields ↔ ∃ f ∈ fields, n ∈ f.2.numbers
  | [] => by simp [fieldNumbers]
  | (_, item) :: rest => by simp [fieldNumbers, mem_fieldNumbers]

/-- Sorting the navigations of an instance adds none. -/
theorem mem_fieldNumbers_of_sorted {n : Nat} : ∀ {fields sorted : List (String × Item)},
    n ∈ fieldNumbers (fields.foldl (fun sorted f => insertAscending f.1 f.2 sorted) sorted) →
    n ∈ fieldNumbers fields ∨ n ∈ fieldNumbers sorted
  | [], sorted, h => .inr h
  | f :: rest, sorted, h => by
    rw [List.foldl_cons] at h
    rcases mem_fieldNumbers_of_sorted h with h | h
    · exact .inl (List.mem_append_right _ h)
    · obtain ⟨g, hg, hn⟩ := mem_fieldNumbers.1 h
      rcases mem_insertAscending hg with rfl | hg
      · exact .inl (List.mem_append_left _ hn)
      · exact .inr (mem_fieldNumbers.2 ⟨g, hg, hn⟩)

end Item

/-- The key of an instance: its values at the key properties of its type. -/
def Instance.key (m : Model) (i : Instance) : List Scalar :=
  match m.entityType? i.entityType with
  | some t => t.key.filterMap i.values.find?
  | none => []

/-- Two instances are one exactly when they have one type and equal keys. -/
structure Instance.Identified (m : Model) (a b : Instance) : Prop where
  iff : a.id = b.id ↔ a.entityType = b.entityType ∧ EqualKeys (a.key m) (b.key m)
  same : a.id = b.id → a = b

/-! ## 3. Identity maps -/

namespace Model

/-- The types of the key properties of an entity type. -/
def keyTypes (m : Model) (name : String) : List DataType :=
  match m.entityType? name with
  | some t => t.key.filterMap fun k => (t.property? k).map (·.dataType)
  | none => []

/-- No key property takes values of any kind. -/
def TypesKeys (m : Model) : Prop :=
  ∀ name t, m.entityType? name = some t → ∀ k ∈ t.key, ∀ p, t.property? k = some p →
    p.dataType ≠ .object

/-- Every entity type is found under its own name. -/
def NamesTypes (m : Model) : Prop := ∀ name t, m.entityType? name = some t → t.name = name

end Model

/-- An entry that holds an instance of the type, and with the values at the key properties, that it
is filed under. -/
structure IdentityEntry.Files (m : Model) (e : IdentityEntry) (i : Instance) : Prop where
  entity : e.entity = .ofInstance i
  entityType : i.entityType = e.entityType
  values : ∃ t, m.entityType? e.entityType = some t ∧ t.key.map i.values.find? = e.key.map some
  typed : TypedKey (m.keyTypes e.entityType) e.key

theorem IdentityEntry.Files.key {m : Model} {e : IdentityEntry} {i : Instance} (h : e.Files m i) :
    i.key m = e.key := by
  obtain ⟨t, ht, values⟩ := h.values
  have some_key : e.key.filterMap (fun s => some s) = e.key := List.filterMap_some
  rw [Instance.key, h.entityType, ht]
  have filtered : t.key.filterMap i.values.find? = (t.key.map i.values.find?).filterMap id := by
    rw [List.filterMap_map]
    rfl
  dsimp only
  rw [filtered, values, List.filterMap_map]
  exact some_key

namespace IdentityMap

/-- The entries have different keys and different instances, filed as they should be; `next` is
above all numbers. -/
structure Valid (m : Model) (next : Nat) (map : IdentityMap) : Prop where
  files : ∀ e ∈ map.entries, ∃ i, e.Files m i
  keys : ∀ a ∈ map.entries, ∀ b ∈ map.entries, a.entityType = b.entityType →
    EqualKeys a.key b.key → a = b
  instances : ∀ a ∈ map.entries, ∀ b ∈ map.entries, ∀ i j, a.entity = .ofInstance i →
    b.entity = .ofInstance j → i.id = j.id → a = b
  below : ∀ e ∈ map.entries, ∀ n ∈ e.entity.numbers, n < next

variable {m : Model} {next : Nat} {map : IdentityMap} {entityType : String} {key : List Scalar}

theorem valid_empty (m : Model) (next : Nat) : empty.Valid m next :=
  ⟨nofun, nofun, nofun, nofun⟩

theorem Valid.mono (h : map.Valid m next) {next' : Nat} (hle : next ≤ next') : map.Valid m next' :=
  { h with below := fun e he n hn => Nat.lt_of_lt_of_le (h.below e he n hn) hle }

theorem exists_of_find? {item : Item} (h : map.find? entityType key = some item) :
    ∃ e ∈ map.entries, e.entity = item ∧ e.entityType = entityType ∧ sameKey e.key key = true := by
  obtain ⟨e, he, hitem⟩ := Option.map_eq_some_iff.1 h
  have found := List.find?_some he
  simp only [Bool.and_eq_true, beq_iff_eq] at found
  exact ⟨e, List.mem_of_find?_eq_some he, hitem, found.1, found.2⟩

theorem find?_eq_none_iff : map.find? entityType key = none ↔
    ∀ e ∈ map.entries, e.entityType = entityType → sameKey e.key key = false := by
  simp [find?, List.find?_eq_none]

/-- A new entry for a key that is not there, with a new instance, keeps a map valid. -/
theorem Valid.add (h : map.Valid m next) {e : IdentityEntry} {i : Instance} (files : e.Files m i)
    (absent : map.find? e.entityType e.key = none) (fresh : next ≤ i.id) {next' : Nat}
    (hle : next ≤ next') (below : ∀ n ∈ e.entity.numbers, n < next') :
    Valid m next' ⟨map.entries ++ [e]⟩ := by
  have old : ∀ a ∈ map.entries, a.entityType = e.entityType → ¬ EqualKeys a.key e.key := by
    intro a ha htype hkeys
    obtain ⟨j, hj⟩ := h.files a ha
    have typed := hj.typed
    rw [htype] at typed
    have := find?_eq_none_iff.1 absent a ha htype
    rw [(sameKey_iff typed files.typed).2 hkeys] at this
    exact nomatch this
  have young : ∀ a ∈ map.entries, ∀ j, a.entity = .ofInstance j → j.id ≠ i.id := by
    intro a ha j hj hid
    have := h.below a ha j.id (by rw [hj]; exact List.mem_cons_self)
    omega
  refine ⟨?_, ?_, ?_, ?_⟩
  · intro a ha
    rcases List.mem_append.1 ha with ha | ha
    · exact h.files a ha
    · exact List.mem_singleton.1 ha ▸ ⟨i, files⟩
  · intro a ha b hb htype hkeys
    rcases List.mem_append.1 ha with ha | ha <;> rcases List.mem_append.1 hb with hb | hb
    · exact h.keys a ha b hb htype hkeys
    · rw [List.mem_singleton.1 hb] at htype hkeys
      exact absurd hkeys (old a ha htype)
    · rw [List.mem_singleton.1 ha] at htype hkeys
      exact absurd hkeys.symm (old b hb htype.symm)
    · rw [List.mem_singleton.1 ha, List.mem_singleton.1 hb]
  · intro a ha b hb j k hj hk hid
    rcases List.mem_append.1 ha with ha | ha <;> rcases List.mem_append.1 hb with hb | hb
    · exact h.instances a ha b hb j k hj hk hid
    · rw [List.mem_singleton.1 hb, files.entity] at hk
      rw [← Item.ofInstance_inj hk] at hid
      exact absurd hid (young a ha j hj)
    · rw [List.mem_singleton.1 ha, files.entity] at hj
      rw [← Item.ofInstance_inj hj] at hid
      exact absurd hid.symm (young b hb k hk)
    · rw [List.mem_singleton.1 ha, List.mem_singleton.1 hb]
  · intro a ha n hn
    rcases List.mem_append.1 ha with ha | ha
    · exact Nat.lt_of_lt_of_le (h.below a ha n hn) hle
    · rw [List.mem_singleton.1 ha] at hn
      exact below n hn

/-- Instances of a valid map are one exactly when they have one type and equal keys. -/
theorem Valid.identified (h : map.Valid m next) {a b : IdentityEntry} (ha : a ∈ map.entries)
    (hb : b ∈ map.entries) {i j : Instance} (hi : a.entity = .ofInstance i)
    (hj : b.entity = .ofInstance j) : i.Identified m j := by
  have filed : ∀ {e : IdentityEntry} {k : Instance}, e ∈ map.entries → e.entity = .ofInstance k →
      e.Files m k := by
    intro e k he hk
    obtain ⟨k', files⟩ := h.files e he
    rw [Item.ofInstance_inj (hk.symm.trans files.entity)]
    exact files
  have one : a = b → i = j := by
    rintro rfl
    exact Item.ofInstance_inj (hi.symm.trans hj)
  have filesI := filed ha hi
  have filesJ := filed hb hj
  constructor
  · rw [filesI.key, filesJ.key, filesI.entityType, filesJ.entityType]
    constructor
    · intro hid
      rw [h.instances a ha b hb i j hi hj hid]
      exact ⟨rfl, .refl filesJ.typed⟩
    · rintro ⟨htype, hkeys⟩
      rw [one (h.keys a ha b hb htype hkeys)]
  · exact fun hid => one (h.instances a ha b hb i j hi hj hid)

end IdentityMap

end DocQuery
