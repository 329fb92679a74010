/-
# What the id of a document determines

An id is the join of escaped parts.  Keys of different lengths have ids too, and their parts may
hold the separator and the escape character, so it has to be shown that no part can run into the
next one.

* **Parts.**  The separator behind a part is the first that has no escape character before it:
  where a part ends can be read off the text (`escapePart_append_inj`).  So the id determines the
  texts of the parts (`joinParts_injective`).  There has to be one part; none and an empty one
  have one text.
* **Values.**  The text of a part determines its value when that is known to be a boolean, an
  integer of one width, a text or a byte string (`Scalar.keyText_injective`).
* **Keys.**  So keys of such values, alike where both have one, have different ids
  (`documentIds_apart`), and every such key has one (`exists_documentId`).

The text of a part does not show the kind of its value: the number 7 and the text `7` have one
text, and that is why the two keys are asked to be alike place by place.  Floats are left out, for
two zeros are equal and have different texts.
-/
import DocQuery.DocumentKey
import DocQuery.Proofs.JsonText
import DocQuery.Proofs.Outcome
import Mathlib.Data.List.Forall2

namespace DocQuery

/-! ## 1. Parts -/

/-- What may stand behind a part: nothing, or the separator and what comes after it. -/
def EndsPart (r : List Char) : Prop := r = [] ∨ ∃ more, r = '|' :: more

theorem escapePart_cons_ne {c : Char} {cs r : List Char} (hr : EndsPart r) (rest : List Char) :
    escapePart (c :: cs) ++ rest ≠ r := by
  rw [escapePart]
  rcases hr with rfl | ⟨more, rfl⟩
  · split <;> exact List.cons_ne_nil _ _
  · split
    · simp
    · next plain => exact fun h => plain (.inr (List.cons.inj h).1)

/-- Where a part ends can be read off the text. -/
theorem escapePart_append_inj : ∀ {a b r s : List Char}, EndsPart r → EndsPart s →
    escapePart a ++ r = escapePart b ++ s → a = b ∧ r = s
  | [], [], _, _, _, _, h => ⟨rfl, h⟩
  | [], _ :: _, _, s, hr, _, h => absurd h.symm (escapePart_cons_ne hr s)
  | _ :: _, [], r, _, _, hs, h => absurd h (escapePart_cons_ne hs r)
  | c :: a, d :: b, r, s, hr, hs, h => by
    have tails : escapePart a ++ r = escapePart b ++ s → c = d → c :: a = d :: b ∧ r = s := by
      intro same heads
      obtain ⟨rfl, rests⟩ := escapePart_append_inj hr hs same
      exact ⟨congrArg (· :: a) heads, rests⟩
    rw [escapePart, escapePart] at h
    split at h <;> split at h
    · obtain ⟨-, h⟩ := List.cons.inj h
      obtain ⟨heads, h⟩ := List.cons.inj h
      exact tails h heads
    · next plain => exact absurd (.inl (List.cons.inj h).1.symm) plain
    · next plain _ => exact absurd (.inl (List.cons.inj h).1) plain
    · obtain ⟨heads, h⟩ := List.cons.inj h
      exact tails h heads

/-- The parts behind the first one, each with the separator before it. -/
def laterParts : List (List Char) → List Char
  | [] => []
  | part :: rest => '|' :: (escapePart part ++ laterParts rest)

theorem endsPart_laterParts : ∀ parts : List (List Char), EndsPart (laterParts parts)
  | [] => .inl rfl
  | _ :: _ => .inr ⟨_, rfl⟩

theorem joinParts_cons (part : List Char) : ∀ rest : List (List Char),
    joinParts (part :: rest) = escapePart part ++ laterParts rest
  | [] => (List.intercalate_singleton).trans (List.append_nil _).symm
  | next :: rest => by
    have ih := joinParts_cons next rest
    unfold joinParts at ih ⊢
    rw [List.map_cons, List.map_cons, List.intercalate_cons_cons, ← List.map_cons, ih, laterParts,
      List.append_assoc]
    rfl

theorem laterParts_injective : ∀ {ps qs : List (List Char)}, laterParts ps = laterParts qs → ps = qs
  | [], [], _ => rfl
  | [], _ :: _, h => absurd h.symm (List.cons_ne_nil _ _)
  | _ :: _, [], h => absurd h (List.cons_ne_nil _ _)
  | p :: ps, q :: qs, h => by
    obtain ⟨rfl, rests⟩ := escapePart_append_inj (endsPart_laterParts ps) (endsPart_laterParts qs)
      (List.cons.inj h).2
    rw [laterParts_injective rests]

/-- **The id determines its parts.**  There has to be one: no part and one empty part have one
text. -/
theorem joinParts_injective {ps qs : List (List Char)} (hp : ps ≠ []) (hq : qs ≠ [])
    (h : joinParts ps = joinParts qs) : ps = qs := by
  obtain ⟨p, ps, rfl⟩ := List.exists_cons_of_ne_nil hp
  obtain ⟨q, qs, rfl⟩ := List.exists_cons_of_ne_nil hq
  rw [joinParts_cons, joinParts_cons] at h
  obtain ⟨rfl, rests⟩ := escapePart_append_inj (endsPart_laterParts ps) (endsPart_laterParts qs) h
  rw [laterParts_injective rests]

/-! ## 2. Values -/

/-- Types whose values have texts of their own. -/
inductive DataType.Spelled : DataType → Prop where
  | boolean : Spelled .boolean
  | int32 : Spelled .int32
  | int64 : Spelled .int64
  | utf8 : Spelled .utf8
  | binary : Spelled .binary

theorem boolText_injective {a b : Bool} (h : Scalar.boolText a = Scalar.boolText b) : a = b := by
  cases a <;> cases b <;> first | rfl | exact absurd h (by decide)

theorem hexByte_injective {x y : UInt8} (h : Scalar.hexByte x = Scalar.hexByte y) : x = y := by
  obtain ⟨high, low⟩ : Json.hexDigit (x.toNat / 16) = Json.hexDigit (y.toNat / 16) ∧
      Json.hexDigit (x.toNat % 16) = Json.hexDigit (y.toNat % 16) := by
    simpa only [Scalar.hexByte, List.cons.injEq, and_true, Json.hexDigit, Nat.mod_mod] using h
  have hx := x.toNat_lt
  have hy := y.toNat_lt
  have quotients := Json.hexDigit_injective _ (by omega) _ (by omega) high
  have remainders := Json.hexDigit_injective _ (by omega) _ (by omega) low
  exact UInt8.toNat_inj.1 (by omega)

theorem hexBytes_injective : ∀ {a b : List UInt8},
    a.flatMap Scalar.hexByte = b.flatMap Scalar.hexByte → a = b
  | [], [], _ => rfl
  | [], _ :: _, h => absurd h.symm (List.cons_ne_nil _ _)
  | _ :: _, [], h => absurd h (List.cons_ne_nil _ _)
  | x :: a, y :: b, h => by
    rw [List.flatMap_cons, List.flatMap_cons] at h
    obtain ⟨first, rest⟩ := List.append_inj h rfl
    rw [hexByte_injective first, hexBytes_injective rest]

namespace Scalar

/-- **A key text of a known type determines the value.** -/
theorem keyText_injective {type : DataType} (spelled : type.Spelled) {a b : Scalar}
    (ha : a.dataType? = some type) (hb : b.dataType? = some type) (h : a.keyText = b.keyText) :
    a = b := by
  cases spelled <;> cases a <;> cases ha <;> cases b <;> cases hb
  case boolean a b => exact congrArg bool (boolText_injective h)
  case int32 a b =>
    exact congrArg int32 (Int32.toInt_inj.1 (Layout.integerText_injective (String.ofList_injective h)))
  case int64 a b =>
    exact congrArg int64 (Int64.toInt_inj.1 (Layout.integerText_injective (String.ofList_injective h)))
  case utf8 a b => exact congrArg text h
  case binary a b => exact congrArg binary (hexBytes_injective (String.ofList_injective h))

end Scalar

/-! ## 3. Keys -/

theorem Scalar.isNull_iff {v : Scalar} : v.isNull = true ↔ v = .null := by
  cases v <;> simp [isNull]

theorem documentId_eq_ok {key : List Scalar} {id : String} : documentId key = .ok id ↔
    key ≠ [] ∧ (∀ v ∈ key, v ≠ .null) ∧
      String.ofList (joinParts (key.map fun v => v.keyText.toList)) = id := by
  have plain : key.any Scalar.isNull = false ↔ ∀ v ∈ key, v ≠ .null := by
    simp only [List.any_eq_false, Scalar.isNull_iff, ne_eq]
  unfold documentId
  split
  · next empty => exact ⟨nofun, fun h => absurd (List.isEmpty_iff.1 empty) h.1⟩
  · next filled =>
    split
    · next null => exact ⟨nofun, fun h => absurd (plain.2 h.2.1) (ne_false_of_eq_true null)⟩
    · next full =>
      have values := plain.1 (Bool.eq_false_iff.2 full)
      rw [Except.ok.injEq]
      exact ⟨fun h => ⟨mt List.isEmpty_iff.2 filled, values, h⟩, fun h => h.2.2⟩

/-- Values with texts of their own, of one type where they stand at one place, are told apart by
their texts. -/
theorem eq_of_keyTexts : ∀ {key key' : List Scalar},
    (∀ p ∈ key.zip key', ∃ type : DataType, type.Spelled ∧ p.1.dataType? = some type ∧
      p.2.dataType? = some type) →
    key.map Scalar.keyText = key'.map Scalar.keyText → key = key'
  | [], [], _, _ => rfl
  | [], _ :: _, _, h => absurd h.symm (List.cons_ne_nil _ _)
  | _ :: _, [], _, h => absurd h (List.cons_ne_nil _ _)
  | a :: key, b :: key', typed, h => by
    obtain ⟨first, rest⟩ := List.cons.inj h
    obtain ⟨type, spelled, ha, hb⟩ := typed (a, b) List.mem_cons_self
    have heads : a = b := Scalar.keyText_injective spelled ha hb first
    rw [heads, eq_of_keyTexts (fun p hp => typed p (List.mem_cons_of_mem _ hp)) rest]

/-- One id, one list of texts. -/
theorem keyTexts_of_documentId {key key' : List Scalar} {id : String}
    (h : documentId key = .ok id) (h' : documentId key' = .ok id) :
    key.map Scalar.keyText = key'.map Scalar.keyText := by
  obtain ⟨filled, -, written⟩ := documentId_eq_ok.1 h
  obtain ⟨filled', -, written'⟩ := documentId_eq_ok.1 h'
  have parts := joinParts_injective (mt List.map_eq_nil_iff.1 filled)
    (mt List.map_eq_nil_iff.1 filled') (String.ofList_injective (written.trans written'.symm))
  refine (List.map_inj_right fun _ _ => String.toList_injective).1 ?_
  rw [List.map_map, List.map_map]
  exact parts

/-- A value with a text of its own: a boolean, an integer, a text or a byte string. -/
def Scalar.Spelled (v : Scalar) : Prop :=
  ∃ type : DataType, type.Spelled ∧ v.dataType? = some type

/-- A key of such values has an id. -/
theorem exists_documentId {key : List Scalar} (filled : key ≠ [])
    (spelled : ∀ v ∈ key, v.Spelled) : ∃ id, documentId key = .ok id := by
  refine ⟨_, documentId_eq_ok.2 ⟨filled, ?_, rfl⟩⟩
  rintro v hv rfl
  obtain ⟨type, -, none⟩ := spelled _ hv
  cases none

/-- **Ids do not collide.**  Two keys of any lengths, whose values have texts of their own and are
alike where both have one, have ids, and one id only if they are one key.  The values may hold the
separator and the escape character, and may be empty; the keys have at least one value each. -/
theorem documentIds_apart {key key' : List Scalar} (filled : key ≠ []) (filled' : key' ≠ [])
    (spelled : ∀ v ∈ key, v.Spelled) (spelled' : ∀ v ∈ key', v.Spelled)
    (alike : ∀ p ∈ key.zip key', p.1.dataType? = p.2.dataType?) :
    ∃ id id', documentId key = .ok id ∧ documentId key' = .ok id' ∧ (id = id' ↔ key = key') := by
  obtain ⟨id, h⟩ := exists_documentId filled spelled
  obtain ⟨id', h'⟩ := exists_documentId filled' spelled'
  refine ⟨id, id', h, h', ?_, ?_⟩
  · rintro rfl
    refine eq_of_keyTexts (fun p hp => ?_) (keyTexts_of_documentId h h')
    obtain ⟨type, own, typed⟩ := spelled p.1 (List.of_mem_zip hp).1
    exact ⟨type, own, typed, (alike p hp).symm.trans typed⟩
  · rintro rfl
    exact Except.ok.inj (h.symm.trans h')

/-- Keys of three values and of two, with escape characters and separators in them, and one of the
values empty. -/
theorem documentIds_apart_separators :
    ∃ id id', documentId [.text "a\\", .text "", .binary [255]] = .ok id ∧
      documentId [.text "a", .text "\\|"] = .ok id' ∧ id ≠ id' := by
  have text : ∀ s, (Scalar.text s).Spelled := fun s => ⟨.utf8, .utf8, rfl⟩
  have binary : ∀ bytes, (Scalar.binary bytes).Spelled := fun bytes => ⟨.binary, .binary, rfl⟩
  have filled : [Scalar.text "a\\", .text "", .binary [255]] ≠ [] := List.cons_ne_nil _ _
  have filled' : [Scalar.text "a", .text "\\|"] ≠ [] := List.cons_ne_nil _ _
  obtain ⟨id, id', h, h', apart⟩ := documentIds_apart filled filled' (by simp [text, binary])
    (by simp [text]) (by simp [Scalar.dataType?])
  exact ⟨id, id', h, h', fun same => absurd (apart.1 same) (by decide)⟩

/-- The value of a property in a document, read at its type. -/
def Property.read? (p : Property) (document : Json) : Option Scalar :=
  Scalar.ofJsonAs? p.dataType (document.propertyNode p.jsonName)

namespace EntityType

variable {t : EntityType} {document : Json}

theorem keyValue_eq_ok {p : Property} {v : Scalar} :
    t.keyValue document p = .ok v ↔ p.read? document = some v := by
  unfold keyValue Property.read?
  split
  · next s hs => rw [hs, Except.ok.injEq, Option.some.injEq]
  · next hs => simp only [hs, reduceCtorEq]

theorem keyValues_eq_ok {key : List Scalar} : t.keyValues document = .ok key ↔
    ∃ properties, t.keyProperties = .ok properties ∧
      properties.mapM (t.keyValue document) = .ok key := by
  simp only [keyValues, bind_eq_ok, RunError.lift_eq_ok]

/-- The values of a key are those of its properties. -/
theorem forall₂_of_mapM_keyValue : ∀ {properties : List Property} {key : List Scalar},
    properties.mapM (t.keyValue document) = .ok key →
    List.Forall₂ (fun p v => p.read? document = some v) properties key
  | [], _, h => by
    rw [mapM_nil_eq_ok.1 h]
    exact .nil
  | p :: rest, _, h => by
    obtain ⟨v, values, hv, hvalues, rfl⟩ := mapM_cons_eq_ok.1 h
    exact .cons (keyValue_eq_ok.1 hv) (forall₂_of_mapM_keyValue hvalues)

end EntityType

end DocQuery
