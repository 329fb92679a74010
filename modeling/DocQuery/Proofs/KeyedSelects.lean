/-
# Selecting by key

A document can be read by its id, or selected by the condition that each of its key properties has
its value.  The first way compares texts and the second JSON values, numbers by their doubles.
For key properties of type boolean, 32-bit integer or text both come down to the values
themselves.

* **The condition.**  `EntityType.selectByKey` joins one equality for each key property.  On a
  document whose key can be read, an equality holds when the value is the one that was read
  (`Property.eval_equals`), and the joined conditions when each of them does (`eval_joined`).
* **The id.**  Keys of these types are the same when their ids are (`documentId_eq_iff`).
* **The store.**  A container of one entity type holds what that type makes of its documents, each
  at its place (`Store.stored_of_mem_container`); in a partition there is at most one document
  with an id.

So in a container of one entity type the lookup reads the first document that the select gives, in
a partition and across all of them (`Store.read_agrees_with_select`).

They part for other types: 64-bit integers may be different and equal as doubles, the two zeros
are equal and have different texts, and byte strings are equal to nothing.
-/
import DocQuery.Definition.Build
import DocQuery.Proofs.BareSelects
import DocQuery.Proofs.DocumentIds
import DocQuery.Proofs.IdentityMaps
import DocQuery.Proofs.LastWrites

namespace DocQuery

/-! ## 1. Comparing values -/

namespace Double

theorem ofInt_key {n : Int} (h : n.natAbs < Nat.pow 2 53) :
    (ofInt n).key = some (0, n * unitsPerOne) := by
  have magnitude : (n * unitsPerOne).natAbs = n.natAbs * unitsPerOne := by
    rw [Int.natAbs_mul, Int.natAbs_natCast]
  rw [ofInt, ofUnits_whole h magnitude, ← magnitude]
  generalize n * (unitsPerOne : Int) = v
  have value : (⟨if v = 0 then false else v < 0, v.natAbs⟩ : Finite).value = v := by
    by_cases negative : v < 0
    · simp only [Finite.value, if_neg (Int.ne_of_lt negative), decide_eq_true negative, if_true]
      omega
    · simp only [Finite.value, decide_eq_false negative, ite_self, Bool.false_eq_true, if_false]
      omega
  rw [key, value]

theorem ofInt_equal_iff {m n : Int} (hm : m.natAbs < Nat.pow 2 53) (hn : n.natAbs < Nat.pow 2 53) :
    (ofInt m).equal (ofInt n) = true ↔ m = n := by
  rw [equal_iff, ofInt_key hm, ofInt_key hn]
  constructor
  · rintro ⟨k, hk, hk'⟩
    have same := (Prod.ext_iff.1 (Option.some.inj (hk.trans hk'.symm))).2
    exact Int.eq_of_mul_eq_mul_right (Int.natCast_ne_zero.2 (Nat.ne_of_gt unitsPerOne_pos)) same
  · rintro rfl
    exact ⟨_, rfl, rfl⟩

end Double

/-- Types whose values are equal in a document when they are the same value. -/
inductive DataType.ComparesExactly : DataType → Prop where
  | boolean : ComparesExactly .boolean
  | int32 : ComparesExactly .int32
  | utf8 : ComparesExactly .utf8

theorem DataType.ComparesExactly.spelled {type : DataType} : type.ComparesExactly → type.Spelled
  | .boolean => .boolean
  | .int32 => .int32
  | .utf8 => .utf8

namespace Scalar

variable {type : DataType} {a b : Scalar}

theorem toInt_ofInt_of_fits {n : Int} (fits : fitsInt32 n = true) : (Int32.ofInt n).toInt = n := by
  simp only [fitsInt32, Bool.and_eq_true, decide_eq_true_eq] at fits
  exact Int32.toInt_ofInt_of_le fits.1 fits.2

/-- Values of such a type are read from their own JSON values. -/
theorem eq_toJson_of_ofJsonAs? (exact : type.ComparesExactly) {j : Json}
    (h : ofJsonAs? type j = some a) (full : a ≠ .null) :
    j = a.toJson ∧ a.dataType? = some type := by
  unfold ofJsonAs? at h
  split at h
  · exact absurd (Option.some.inj h).symm full
  · cases exact with
    | boolean =>
      obtain ⟨x, hx, rfl⟩ := Option.map_eq_some_iff.1 h
      cases j <;> cases hx
      exact ⟨rfl, rfl⟩
    | utf8 =>
      obtain ⟨x, hx, rfl⟩ := Option.map_eq_some_iff.1 h
      cases j <;> cases hx
      exact ⟨rfl, rfl⟩
    | int32 =>
      obtain ⟨n, hn, narrow⟩ := Option.bind_eq_some_iff.1 h
      split at narrow
      · next fits =>
        cases narrow
        rw [toJson, toInt_ofInt_of_fits fits]
        cases j with
        | number m => cases m with
          | integer i =>
            simp only [Json.asInt64?, Option.ite_none_right_eq_some, Option.some.injEq] at hn
            rw [hn.2]
            exact ⟨rfl, rfl⟩
          | double x | single x => cases hn
        | _ => cases hn
      · cases narrow

theorem applyComparison_toJson (exact : type.ComparesExactly) (ha : a.dataType? = some type)
    (hb : b.dataType? = some type) :
    applyComparison .equal a.toJson b.toJson = .bool (decide (a = b)) := by
  cases exact <;> cases a <;> cases ha <;> cases b <;> cases hb
  case boolean a b =>
    simp [toJson, applyComparison, Json.isNull, areOrdered, compareOrdered, Json.equal,
      Json.asDouble?, Json.same, Bool.beq_eq_decide_eq]
  case int32 a b =>
    have small : ∀ n : Int32, n.toInt.natAbs < Nat.pow 2 53 := by
      intro n
      have := n.le_toInt
      have := n.toInt_lt
      have : Nat.pow 2 53 = 9007199254740992 := rfl
      omega
    have whole : (Double.ofInt a.toInt).equal (.ofInt b.toInt) = decide (int32 a = int32 b) := by
      rw [Bool.eq_iff_iff, Double.ofInt_equal_iff (small a) (small b), Int32.toInt_inj,
        decide_eq_true_eq, int32.injEq]
    exact congrArg Json.bool whole
  case utf8 a b =>
    simp [toJson, applyComparison, Json.isNull, areOrdered, compareOrdered, Json.equal,
      Json.asDouble?, Json.same, Bool.beq_eq_decide_eq]

end Scalar

/-! ## 2. The condition of a key -/

/-- The values of a key property of a type that compares exactly. -/
structure Property.Takes (p : Property) (v : Scalar) : Prop where
  exact : p.dataType.ComparesExactly
  typed : v.dataType? = some p.dataType

/-- A property has a value. -/
def Property.equals (p : Property) (v : Scalar) : Expr :=
  .binary .equal (.column "c" [p.jsonName] p.dataType p.typeMapping)
    (.constant v p.dataType p.typeMapping) none

/-- The select of the documents whose key properties have the values of a key. -/
def EntityType.selectByKey (t : EntityType) (properties : List Property) (key : List Scalar) :
    Select :=
  { SelectOf.ofEntity t with
    predicate := (joinConditions .and (List.zipWith Property.equals properties key)).toOption }

theorem Json.readPath_propertyNode (document : Json) (name : String) :
    document.readPath [name] = document.propertyNode name := by
  unfold readPath propertyNode
  cases document.member? name <;> rfl

variable {parameters : Dictionary Json} {document : Json}

theorem Property.eval_equals {p : Property} {a v : Scalar} (read : p.read? document = some a)
    (ha : p.Takes a) (hv : p.Takes v) :
    (p.equals v).eval ⟨"c", document, parameters⟩ = .ok (.bool (decide (a = v))) := by
  have compared := Scalar.applyComparison_toJson ha.exact ha.typed hv.typed
  have full : a ≠ .null := by
    rintro rfl
    cases ha.typed
  rw [← (Scalar.eq_toJson_of_ofJsonAs? ha.exact read full).1, ← Json.readPath_propertyNode] at compared
  exact congrArg Except.ok compared

/-- Conditions that are joined hold when each of them does. -/
theorem eval_joined : ∀ {properties : List Property} {values key : List Scalar} {joined : Expr}
    {holds : Bool},
    List.Forall₂ (fun p a => p.read? document = some a ∧ p.Takes a) properties values →
    List.Forall₂ Property.Takes properties key →
    joined.eval ⟨"c", document, parameters⟩ = .ok (.bool holds) →
    ((List.zipWith Property.equals properties key).foldl
      (fun joined e => .binary .and joined e none) joined).eval ⟨"c", document, parameters⟩ =
        .ok (.bool (holds && decide (values = key)))
  | [], _, _, _, _, .nil, .nil, h => by simpa using h
  | p :: _, a :: _, v :: _, joined, holds, .cons ⟨read, ha⟩ values, .cons hv key, h => by
    have both : (Expr.binary .and joined (p.equals v) none).eval ⟨"c", document, parameters⟩ =
        .ok (.bool (holds && decide (a = v))) := by
      rw [Expr.eval, h]
      show applyBinary .and (.bool holds) ((p.equals v).eval _) = _
      rw [p.eval_equals read ha hv]
      cases holds <;> rfl
    rw [List.zipWith_cons_cons, List.foldl_cons, eval_joined values key both, Bool.and_assoc]
    simp only [List.cons.injEq, Bool.decide_and]

/-- The select keeps the documents with the key. -/
theorem keeps_selectByKey {t : EntityType} : ∀ {properties : List Property}
    {values key : List Scalar},
    List.Forall₂ (fun p a => p.read? document = some a ∧ p.Takes a) properties values →
    List.Forall₂ Property.Takes properties key →
    (t.selectByKey properties key).keeps parameters document = .ok (decide (values = key))
  | [], _, _, .nil, .nil => rfl
  | p :: properties, a :: values, v :: key, .cons ⟨read, ha⟩ hvalues, .cons hv hkey => by
    have kept : (t.selectByKey (p :: properties) (v :: key)).keeps parameters document =
        .ok (decide (a = v) && decide (values = key)) :=
      congrArg (Except.map Json.isTrue) (eval_joined hvalues hkey (p.eval_equals read ha hv))
    rw [kept]
    simp only [List.cons.injEq, Bool.decide_and]

section

variable {α : Type} {f : α → Json} {keeps : α → Bool}

theorem SelectOf.filterDocuments_map {s : Select} : ∀ {l : List α},
    (∀ a ∈ l, s.keeps parameters (f a) = .ok (keeps a)) →
    s.filterDocuments parameters (l.map f) = .ok ((l.filter keeps).map f)
  | [], _ => rfl
  | a :: rest, h => by
    rw [List.map_cons, filterDocuments, h a List.mem_cons_self,
      filterDocuments_map fun x hx => h x (List.mem_cons_of_mem _ hx), List.filter_cons]
    cases keeps a <;> rfl

/-- A select of whole documents gives those that it keeps. -/
theorem run_selectByKey {t : EntityType} {properties : List Property} {key : List Scalar}
    {l : List α}
    (h : ∀ a ∈ l, (t.selectByKey properties key).keeps parameters (f a) = .ok (keeps a))
    (layout : RowLayout) :
    (t.selectByKey properties key).run parameters layout (l.map f) =
      .ok (((l.filter keeps).map f).map fun document =>
        (t.selectByKey properties key).row layout [document]) := by
  have projected : ((l.filter keeps).map f).mapM
      ((t.selectByKey properties key).project parameters) =
        .ok (((l.filter keeps).map f).map fun document => [document]) :=
    mapM_eq_ok_map fun _ _ => rfl
  simp only [SelectOf.run, bind_eq_ok, pure_eq_ok]
  refine ⟨_, SelectOf.filterDocuments_map h, _, rfl, none, rfl, none, rfl, _, projected, ?_⟩
  exact List.map_map

end

/-! ## 3. The id of a key -/

/-- The values of a document's key are of the types of its properties. -/
theorem takes_of_read : ∀ {properties : List Property} {values key : List Scalar},
    List.Forall₂ Property.Takes properties key →
    List.Forall₂ (fun p a => p.read? document = some a) properties values →
    (∀ a ∈ values, a ≠ .null) →
    List.Forall₂ (fun p a => p.read? document = some a ∧ p.Takes a) properties values
  | [], _, _, .nil, .nil, _ => .nil
  | p :: _, a :: _, _, .cons hv key, .cons read values, full => by
    have typed := (Scalar.eq_toJson_of_ofJsonAs? hv.exact read (full a List.mem_cons_self)).2
    exact .cons ⟨read, hv.exact, typed⟩
      (takes_of_read key values fun b hb => full b (List.mem_cons_of_mem _ hb))

theorem ne_null_of_takes : ∀ {properties : List Property} {key : List Scalar},
    List.Forall₂ Property.Takes properties key → ∀ v ∈ key, v ≠ .null
  | _, _, .cons hv key, v, h => by
    rcases List.mem_cons.1 h with rfl | h
    · rintro rfl
      cases hv.typed
    · exact ne_null_of_takes key v h

theorem spelled_of_takes : ∀ {properties : List Property} {values key : List Scalar},
    List.Forall₂ Property.Takes properties values → List.Forall₂ Property.Takes properties key →
    ∀ x ∈ values.zip key, ∃ type : DataType, type.Spelled ∧ x.1.dataType? = some type ∧
      x.2.dataType? = some type
  | [], _, _, .nil, .nil => nofun
  | p :: _, _, _, .cons ha values, .cons hv key => by
    intro x hx
    rcases List.mem_cons.1 hx with rfl | hx
    · exact ⟨p.dataType, ha.exact.spelled, ha.typed, hv.typed⟩
    · exact spelled_of_takes values key x hx

/-- Keys of these types are the same when their ids are. -/
theorem documentId_eq_iff {properties : List Property} {values key : List Scalar} {id id' : String}
    (hvalues : List.Forall₂ Property.Takes properties values)
    (hkey : List.Forall₂ Property.Takes properties key)
    (h : documentId values = .ok id) (h' : documentId key = .ok id') : id = id' ↔ values = key := by
  constructor
  · rintro rfl
    exact eq_of_keyTexts (spelled_of_takes hvalues hkey) (keyTexts_of_documentId h h')
  · rintro rfl
    exact Except.ok.inj (h.symm.trans h')

/-! ## 4. Stores of one entity type -/

namespace Store

variable {uses : List Use}

/-- A container of one entity type holds what that type makes of its documents. -/
theorem stored_of_mem_container
    (alone : ∀ u document, Use.insert u document ∈ uses → u.container = t.container → u = t)
    {d : StoredDocument} (hd : d ∈ (perform uses).container t.container) :
    stored t d.body = .ok d := by
  have inside := container_eq_of_mem hd
  rw [container_of_follows (follows_perform uses)] at hd
  have logged := (List.mem_filter.1 ((StoredDocument.latest_sublist _).subset hd)).1
  rcases mem_written uses logged with h | ⟨u, document, inserted, hstored⟩
  · exact absurd h List.not_mem_nil
  · obtain ⟨-, -, -, -, -, container, body⟩ := stored_eq_ok.1 hstored
    obtain rfl := alone u document inserted (container.symm.trans inside)
    rw [body]
    exact hstored

/-- The select of a key keeps a stored document when the id of the key is the document's. -/
theorem keeps_stored {t : EntityType} {properties : List Property} {key : List Scalar}
    {d : StoredDocument} {parameters : Dictionary Json}
    (hproperties : t.keyProperties = .ok properties)
    (hkey : List.Forall₂ Property.Takes properties key) (hd : stored t d.body = .ok d) :
    (t.selectByKey properties key).keeps parameters d.body =
      .ok (some d.id == (documentId key).toOption) := by
  obtain ⟨-, values, hvalues, hid, -⟩ := stored_eq_ok.1 hd
  obtain ⟨found, hfound, hvalues⟩ := EntityType.keyValues_eq_ok.1 hvalues
  obtain rfl : properties = found := Except.ok.inj (hproperties.symm.trans hfound)
  have read := takes_of_read hkey (EntityType.forall₂_of_mapM_keyValue hvalues)
    (documentId_eq_ok.1 hid).2.1
  have same : decide (values = key) = (some d.id == (documentId key).toOption) := by
    rw [Bool.eq_iff_iff, decide_eq_true_eq, beq_iff_eq]
    cases h : documentId key with
    | error e =>
      refine ⟨?_, nofun⟩
      rintro rfl
      cases h.symm.trans hid
    | ok id =>
      have ids := documentId_eq_iff (read.imp fun _ _ holds => holds.2) hkey hid h
      exact ids.symm.trans (Option.some.injEq _ _).symm.to_iff
  rw [keeps_selectByKey read hkey, same]

theorem length_le_one_of_pairwise {α : Type} {R : α → α → Prop} : ∀ {l : List α},
    l.Pairwise R → (∀ a ∈ l, ∀ b ∈ l, ¬R a b) → l.length ≤ 1
  | [], _, _ => Nat.zero_le 1
  | [_], _, _ => Nat.le_refl 1
  | a :: b :: rest, related, never => by
    have later : b ∈ a :: b :: rest := List.mem_cons_of_mem a List.mem_cons_self
    exact absurd (List.rel_of_pairwise_cons related List.mem_cons_self)
      (never a List.mem_cons_self b later)

/-- In a partition there is at most one document with an id. -/
theorem length_inPartition_le_one (uses : List Use) (name partition : String) (id : Option String) :
    ((((perform uses).container name).filter (·.inPartition (some partition))).filter
      fun d => some d.id == id).length ≤ 1 := by
  have apart := pairwise_container (follows_perform uses) name
  refine length_le_one_of_pairwise ((apart.filter _).filter _) fun a ha b hb different => ?_
  simp only [List.mem_filter, beq_iff_eq, StoredDocument.inPartition, Option.isNone_some,
    Bool.false_or] at ha hb
  exact different ⟨Option.some.inj (ha.2.trans hb.2.symm), ha.1.2.trans hb.1.2.symm⟩

/-- **A lookup reads the first document that the select of its key gives.**  In a container of one
entity type, whose key properties are of types that compare exactly, the select of a key gives the
documents with the key and the lookup of the key's id the first of them, in each scope; in a
partition there is at most one. -/
theorem read_agrees_with_select {t : EntityType} {properties : List Property} {key : List Scalar}
    (alone : ∀ u document, Use.insert u document ∈ uses → u.container = t.container → u = t)
    (hproperties : t.keyProperties = .ok properties)
    (hkey : List.Forall₂ Property.Takes properties key) (partitionKey : Option String)
    (command : Command) :
    ∃ documents : List Json,
      (perform uses).execute ⟨t.container, partitionKey, .document, command,
        t.selectByKey properties key⟩ = .ok (documents.map .document) ∧
      (perform uses).execute ⟨t.container, partitionKey, .ordinal, command,
        t.selectByKey properties key⟩ = .ok (documents.map fun document => .ordinal [document]) ∧
      (t.key ≠ [] → ∃ id, documentId key = .ok id ∧
        (perform uses).read ⟨t.container, partitionKey, id⟩ = documents.head?.map .document) ∧
      (partitionKey.isSome → documents.length ≤ 1) := by
  have kept : ∀ d ∈ ((perform uses).container t.container).filter (·.inPartition partitionKey),
      (t.selectByKey properties key).keeps command.bindings d.body =
        .ok (some d.id == (documentId key).toOption) := fun d hd =>
    keeps_stored hproperties hkey (stored_of_mem_container alone (List.mem_of_mem_filter hd))
  refine ⟨_, run_selectByKey kept .document, run_selectByKey kept .ordinal, ?_, ?_⟩
  · intro keyed
    have filled : key ≠ [] := by
      rintro rfl
      have length := (length_of_mapM hproperties).symm.trans hkey.length_eq
      exact keyed (List.length_eq_zero_iff.1 length)
    have hid := documentId_eq_ok.2 ⟨filled, ne_null_of_takes hkey, rfl⟩
    refine ⟨_, hid, ?_⟩
    rw [hid, Store.read, List.head?_map, List.filter_filter, List.head?_filter, Option.map_map]
    rfl
  · intro inside
    obtain ⟨partition, rfl⟩ := Option.isSome_iff_exists.1 inside
    rw [List.length_map]
    exact length_inPartition_le_one uses t.container partition _

/-- Books by shelf and number; those that are lent are in another partition. -/
def bookType : EntityType :=
  ⟨"Book", "books", [⟨"Shelf", .utf8, false, "shelf", none⟩, ⟨"No", .int32, false, "no", none⟩,
    ⟨"Lent", .boolean, true, "lent", none⟩], ["Shelf", "No"], some "Lent", []⟩

def book (shelf : String) (number : Int) (lent : Bool) : Json :=
  .object [("lent", .bool lent), ("no", .ofInt number), ("shelf", .string shelf)]

/-- One book is there twice, lent and not, and another one has the separator of ids in its shelf. -/
def bookUses : List Use :=
  [.insert bookType (book "a" 1 false), .insert bookType (book "a|1" 2 false),
    .insert bookType (book "a" 1 true)]

/-- Across all partitions the first of two books with one key is read. -/
theorem read_agrees_with_select_books : ∃ documents : List Json,
    (perform bookUses).execute ⟨"books", none, .document, ⟨"", []⟩,
      bookType.selectByKey (bookType.properties.take 2) [.text "a", .int32 1]⟩ =
        .ok (documents.map .document) ∧
    documents.head?.map Row.document = some (.document (book "a" 1 false)) := by
  have alone : ∀ u document, Use.insert u document ∈ bookUses → u.container = bookType.container →
      u = bookType := by
    intro u document inserted _
    simp only [bookUses, List.mem_cons, Use.insert.injEq, List.not_mem_nil, or_false] at inserted
    rcases inserted with ⟨rfl, -⟩ | ⟨rfl, -⟩ | ⟨rfl, -⟩ <;> rfl
  have hkey : List.Forall₂ Property.Takes (bookType.properties.take 2) [.text "a", .int32 1] :=
    .cons ⟨.utf8, rfl⟩ (.cons ⟨.int32, rfl⟩ .nil)
  obtain ⟨documents, selected, -, found, -⟩ :=
    read_agrees_with_select alone rfl hkey none ⟨"", []⟩
  obtain ⟨id, hid, read⟩ := found (List.cons_ne_nil _ _)
  refine ⟨documents, selected, read.symm.trans ?_⟩
  cases hid
  rfl

end Store

end DocQuery
