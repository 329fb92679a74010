/-
# What a table stores is read back

A table reads a cell by the GROUP its column's type belongs to, and a document's member is read at
the type itself.  The two agree except on the cells that `DataType.Misreads` names: integers of 64
bits in a column of 32, and JSON that is no list of bytes in a column of bytes.  These are stored
without a fault and are not read back (`DataType.readable_iff_of_readCell?`).

A column goes to the first property that has its header as EITHER name.  The property that has it
as its own name, which is the one that queries mean, comes second to any that stands earlier and
has it as its name in documents; the cell is then stored under the header and not where queries
look (`EntityType.column?_jsonName_iff`).

`table_cells_readable_iff` takes the two halves together for every accepted cell: where it is
stored, and what is read there.  A number without a finite value is stored as null, which every
type reads (`DataType.readable_of_readCell?`); an empty cell is null as well.
`cells_stored_and_misread` has a cell for each way in which it fails.
-/
import DocQuery.Proofs.EntityData
import DocQuery.Proofs.SerializedModels
import DocQuery.Table

namespace DocQuery

/-! ## 1. Integers and lists of bytes -/

namespace Json

theorem asInt64?_ofInt {n : Int} (word : fitsInt64 n = true) : asInt64? (.ofInt n) = some n :=
  if_pos word

theorem isNull_canonical (j : Json) : j.canonical.isNull = j.isNull := by
  cases j <;> rfl

theorem canonical_eq_ofInt_iff {j : Json} {n : Int} : j.canonical = .ofInt n ↔ j = .ofInt n := by
  cases j with
  | array items | object members => constructor <;> (intro h; cases h)
  | _ => exact Iff.rfl

theorem canonicalItems_eq_bytes_iff : ∀ {items : List Json} {bytes : List UInt8},
    canonicalItems items = bytes.map (fun b => .ofInt b.toNat) ↔
      items = bytes.map fun b => .ofInt b.toNat
  | [], [] => Iff.rfl
  | [], _ :: _ | _ :: _, [] => by simp [canonicalItems]
  | j :: items, b :: bytes => by
    simp only [canonicalItems, List.map_cons, List.cons.injEq]
    exact and_congr canonical_eq_ofInt_iff canonicalItems_eq_bytes_iff

/-- There is nothing to sort in a list of bytes. -/
theorem canonical_eq_binary_iff {j : Json} {bytes : List UInt8} :
    j.canonical = (Scalar.binary bytes).toJson ↔ j = (Scalar.binary bytes).toJson := by
  cases j with
  | array items =>
    simp only [canonical, Scalar.toJson, array.injEq]
    exact canonicalItems_eq_bytes_iff
  | _ => constructor <;> (intro h; cases h)

end Json

namespace Scalar

variable {j : Json}

theorem isSome_ofJsonAs?_of_isNull (type : DataType) (null : j.isNull = true) :
    (ofJsonAs? type j).isSome := by
  unfold ofJsonAs?
  rw [if_pos null]
  rfl

theorem isSome_ofJsonAs?_int32_iff {n : Int} (word : fitsInt64 n = true) :
    (ofJsonAs? .int32 (.ofInt n)).isSome ↔ fitsInt32 n = true := by
  have read : ofJsonAs? .int32 (.ofInt n) = (Json.asInt64? (.ofInt n)).bind fun n =>
      if fitsInt32 n then some (.int32 (.ofInt n)) else none := rfl
  rw [read, Json.asInt64?_ofInt word, Option.bind_some]
  split_ifs with fits
  · exact iff_of_true rfl fits
  · exact iff_of_false Bool.false_ne_true fits

/-- Bytes are null or a list of numbers that bytes hold. -/
theorem isSome_ofJsonAs?_binary_iff :
    (ofJsonAs? .binary j).isSome ↔ j.isNull = true ∨ ∃ bytes, j = (Scalar.binary bytes).toJson := by
  constructor
  · intro readable
    obtain ⟨a, read⟩ := Option.isSome_iff_exists.1 readable
    by_cases null : j.isNull = true
    · exact .inl null
    · have written : a.toJson = j := toJson_of_ofJsonAs? .binary read
      rw [ofJsonAs?, if_neg null] at read
      obtain ⟨items, -, read⟩ := Option.bind_eq_some_iff.1 read
      obtain ⟨bytes, -, rfl⟩ := Option.map_eq_some_iff.1 read
      exact .inr ⟨bytes, written.symm⟩
  · rintro (null | ⟨bytes, rfl⟩)
    · exact isSome_ofJsonAs?_of_isNull _ null
    · have read : ofJsonAs? .binary (Scalar.binary bytes).toJson =
          ((bytes.map fun b => Json.ofInt b.toNat).mapM byte?).map .binary := rfl
      rw [read, mapM_byte?]
      rfl

end Scalar

/-! ## 2. Cells -/

namespace DataType

/-- The cells that a type accepts and that are not values of it. -/
inductive Misreads : DataType → String → Prop where
  /-- An integer, but wider than 32 bits. -/
  | wide {cell : String} {n : Int} (integer : integer? cell.toList = some n)
      (large : fitsInt32 n = false) : Misreads .int32 cell
  /-- JSON, but neither null nor a list of bytes. -/
  | notBytes {cell : String} {j : Json} (parsed : Json.parse? cell = some j)
      (present : j.isNull = false) (other : ∀ bytes, j ≠ (Scalar.binary bytes).toJson) :
      Misreads .binary cell

variable {type : DataType} {cell : String} {value : Json}

/-- An empty cell is no integer and no JSON. -/
theorem not_misreads_empty (type : DataType) : ¬ type.Misreads "" := by
  rintro (⟨integer, -⟩ | ⟨parsed, -, -⟩)
  · cases integer
  · cases parsed

theorem readable_int32_iff (read : readCell? .int32 cell = some value) :
    (Scalar.ofJsonAs? .int32 value).isSome ↔ ¬ Misreads .int32 cell := by
  obtain ⟨n, integer, read⟩ := Option.bind_eq_some_iff.1 read
  obtain ⟨word, stored⟩ := Option.ite_none_right_eq_some.1 read
  cases stored
  rw [Scalar.isSome_ofJsonAs?_int32_iff word]
  constructor
  · rintro fits ⟨same, large⟩
    cases integer.symm.trans same
    exact Bool.false_ne_true (large.symm.trans fits)
  · intro held
    by_contra large
    exact held (.wide integer (Bool.eq_false_iff.2 large))

theorem readable_binary_iff (read : readCell? .binary cell = some value) :
    (Scalar.ofJsonAs? .binary value).isSome ↔ ¬ Misreads .binary cell := by
  obtain ⟨j, parsed, rfl⟩ := Option.map_eq_some_iff.1 read
  simp only [Scalar.isSome_ofJsonAs?_binary_iff, Json.isNull_canonical,
    Json.canonical_eq_binary_iff]
  constructor
  · intro readable misread
    cases misread with
    | notBytes same present other =>
      cases parsed.symm.trans same
      rcases readable with null | ⟨bytes, list⟩
      · exact Bool.false_ne_true (present.symm.trans null)
      · exact other bytes list
  · intro held
    by_contra unreadable
    obtain ⟨present, other⟩ := not_or.1 unreadable
    exact held (.notBytes parsed (Bool.eq_false_iff.2 present) (not_exists.1 other))

/-- **The other types read back whatever they accept.**  A number without a finite value is stored
as null, which every type reads. -/
theorem readable_of_readCell? (wide : type ≠ .int32) (bytes : type ≠ .binary)
    (read : type.readCell? cell = some value) : (Scalar.ofJsonAs? type value).isSome := by
  have word (integers : readCell? .int64 cell = some value) :
      (Scalar.ofJsonAs? .int64 value).isSome := by
    obtain ⟨n, -, read⟩ := Option.bind_eq_some_iff.1 integers
    obtain ⟨word, stored⟩ := Option.ite_none_right_eq_some.1 read
    cases stored
    have typed : Scalar.ofJsonAs? .int64 (.ofInt n) =
        (Json.asInt64? (.ofInt n)).map fun n => .int64 (.ofInt n) := rfl
    rw [typed, Json.asInt64?_ofInt word]
    rfl
  cases type with
  | int32 => exact absurd rfl wide
  | binary => exact absurd rfl bytes
  | boolean =>
    obtain ⟨b, -, rfl⟩ := Option.map_eq_some_iff.1 read
    rfl
  | int64 | date64 => exact word read
  | float32 | float64 | decimal128 =>
    obtain ⟨x, -, rfl⟩ := Option.map_eq_some_iff.1 read
    cases x <;> rfl
  | utf8 =>
    cases read
    rfl
  | object =>
    rw [Scalar.ofJsonAs?]
    split_ifs <;> rfl

/-- **What a cell stores is read back except where the type misreads it.** -/
theorem readable_iff_of_readCell? (read : type.readCell? cell = some value) :
    (Scalar.ofJsonAs? type value).isSome ↔ ¬ type.Misreads cell := by
  by_cases wide : type = .int32
  · subst wide
    exact readable_int32_iff read
  · by_cases bytes : type = .binary
    · subst bytes
      exact readable_binary_iff read
    · refine iff_of_true (readable_of_readCell? wide bytes read) ?_
      rintro ⟨⟩
      · exact wide rfl
      · exact bytes rfl

end DataType

/-! ## 3. Columns -/

/-- A column with this header may hold the property. -/
def Property.Heads (p : Property) (header : String) : Prop := p.name = header ∨ p.jsonName = header

namespace EntityType

variable {t : EntityType} {header cell name : String} {value : Json} {p q : Property}

/-- The property of a column is the first that the header names in either way. -/
theorem column?_eq_some_iff : t.column? header = some p ↔
    p.Heads header ∧ ∃ before after, t.properties = before ++ p :: after ∧
      ∀ r ∈ before, ¬ r.Heads header := by
  simp [column?, List.find?_eq_some_iff_append, Property.Heads]

theorem property?_eq_some_iff : t.property? header = some p ↔
    p.name = header ∧ ∃ before after, t.properties = before ++ p :: after ∧
      ∀ r ∈ before, r.name ≠ header := by
  simp [property?, List.find?_eq_some_iff_append]

theorem exists_column? (heads : ∃ p ∈ t.properties, p.Heads header) :
    ∃ p, t.column? header = some p := by
  obtain ⟨p, member, heads⟩ := heads
  refine Option.isSome_iff_exists.1 (List.find?_isSome.2 ⟨p, member, ?_⟩)
  simpa [Property.Heads] using heads

/-- **The member that a cell gives**, for a column of a property: null, or the cell as a value of
the property's type. -/
theorem readCell_eq_ok_iff (column : t.column? header = some p) :
    t.readCell header cell = .ok (name, value) ↔
      name = p.jsonName ∧ (cell = "" ∧ value = .null ∨
        cell ≠ "" ∧ p.dataType.readCell? cell = some value) := by
  simp only [readCell, column]
  by_cases empty : cell = ""
  · subst empty
    simp [@eq_comm _ p.jsonName, @eq_comm _ Json.null]
  · cases p.dataType.readCell? cell <;>
      simp [empty, @eq_comm _ p.jsonName, @eq_comm _ value]

/-- **A column's cells are stored where its property is read** if the property stores them under the
header anyway, or if no property before it does. -/
theorem column?_jsonName_iff {before after : List Property} (column : t.column? header = some p)
    (split : t.properties = before ++ q :: after) (named : q.name = header)
    (first : ∀ r ∈ before, r.name ≠ header) :
    p.jsonName = q.jsonName ↔ q.jsonName = header ∨ ∀ r ∈ before, r.jsonName ≠ header := by
  by_cases taken : ∃ r ∈ before, r.jsonName = header
  · -- The first such property has the column, and it has the header as its name in documents.
    obtain ⟨r, earlier, stored⟩ := taken
    have within : before.find? (fun p => p.name == header || p.jsonName == header) = some p := by
      have found : (before.find? fun p => p.name == header || p.jsonName == header).isSome :=
        List.find?_isSome.2 ⟨r, earlier, by simp [stored]⟩
      rw [column?, split, List.find?_append] at column
      rwa [Option.or_of_isSome found] at column
    have heads : p.Heads header := (column?_eq_some_iff.1 column).1
    have under : p.jsonName = header := heads.resolve_left (first p (List.mem_of_find?_eq_some within))
    rw [under, eq_comm]
    exact ⟨.inl, fun place => place.resolve_right fun free => free r earlier stored⟩
  · -- Nothing stands before the property of that name, so the column is its own.
    have free : ∀ r ∈ before, r.jsonName ≠ header := fun r earlier stored =>
      taken ⟨r, earlier, stored⟩
    have own : t.column? header = some q := column?_eq_some_iff.2
      ⟨.inl named, before, after, split, fun r earlier heads =>
        heads.elim (first r earlier) (free r earlier)⟩
    cases own.symm.trans column
    exact iff_of_true rfl (.inr free)

end EntityType

/-- **The cells of a table are read back** at the type of the property that their column holds,
except those that the type misreads.  They are stored where the property named by the header is
read, except where a property before it has the header as its name in documents and it has not. -/
theorem table_cells_readable_iff {t : EntityType} {header cell name : String} {value : Json}
    (heads : ∃ p ∈ t.properties, p.Heads header)
    (accepted : t.readCell header cell = .ok (name, value)) :
    (∃ p ∈ t.properties, t.column? header = some p ∧ p.Heads header ∧ name = p.jsonName ∧
      ((Scalar.ofJsonAs? p.dataType value).isSome ↔ ¬ p.dataType.Misreads cell)) ∧
    ∀ q, t.property? header = some q → ∃ before after, t.properties = before ++ q :: after ∧
      (∀ r ∈ before, r.name ≠ header) ∧
      (name = q.jsonName ↔ q.jsonName = header ∨ ∀ r ∈ before, r.jsonName ≠ header) := by
  obtain ⟨p, column⟩ := EntityType.exists_column? heads
  obtain ⟨rfl, cellRead⟩ := (EntityType.readCell_eq_ok_iff column).1 accepted
  obtain ⟨headed, before, after, split, -⟩ := EntityType.column?_eq_some_iff.1 column
  constructor
  · refine ⟨p, by simp [split], column, headed, rfl, ?_⟩
    rcases cellRead with ⟨rfl, rfl⟩ | ⟨-, read⟩
    · exact iff_of_true (Scalar.isSome_ofJsonAs?_of_isNull _ rfl) (DataType.not_misreads_empty _)
    · exact DataType.readable_iff_of_readCell? read
  · intro q property
    obtain ⟨named, before, after, split, first⟩ := EntityType.property?_eq_some_iff.1 property
    exact ⟨before, after, split, first, EntityType.column?_jsonName_iff column split named first⟩

/-- A narrow integer, a list of bytes, and two texts whose names cross. -/
def crossedNames : EntityType where
  name := "Note"
  container := "notes"
  properties := [
    ⟨"Id", .int32, false, "id", none⟩,
    ⟨"Seal", .binary, true, "seal", none⟩,
    ⟨"Code", .utf8, true, "Label", none⟩,
    ⟨"Label", .utf8, true, "label", none⟩]
  key := ["Id"]
  partitionKey := none
  embedded := []

/-- A narrow column reads back what fits 32 bits, and the header `Label` is the name in documents of
a property that stands before the one with this name. -/
theorem table_cells_readable_iff_crossedNames :
    (Scalar.ofJsonAs? .int32 (.ofInt 7)).isSome ∧
    ¬ (Scalar.ofJsonAs? .int32 (.ofInt 3000000000)).isSome ∧
    ∃ before label after, crossedNames.property? "Label" = some label ∧
      crossedNames.properties = before ++ label :: after ∧ ∃ r ∈ before, r.jsonName = "Label" := by
  have narrow : crossedNames.readCell "Id" "7" = .ok ("id", .ofInt 7) := by rfl
  have wide : crossedNames.readCell "Id" "3000000000" = .ok ("id", .ofInt 3000000000) := by rfl
  have crossed : crossedNames.readCell "Label" "x" = .ok ("Label", .string "x") := by rfl
  have number : ∃ p ∈ crossedNames.properties, p.Heads "Id" := ⟨_, .head _, .inl rfl⟩
  have label : ∃ p ∈ crossedNames.properties, p.Heads "Label" :=
    ⟨_, .tail _ (.tail _ (.head _)), .inr rfl⟩
  refine ⟨?_, ?_, ?_⟩
  · obtain ⟨⟨p, -, column, -, -, readable⟩, -⟩ := table_cells_readable_iff number narrow
    cases column
    have seven : integer? "7".toList = some 7 := by decide
    refine readable.2 ?_
    rintro ⟨integer, large⟩
    cases seven.symm.trans integer
    exact absurd large (by decide)
  · obtain ⟨⟨p, -, column, -, -, readable⟩, -⟩ := table_cells_readable_iff number wide
    cases column
    have integer : integer? "3000000000".toList = some 3000000000 := by decide
    exact fun read => readable.1 read (.wide integer (by decide))
  · obtain ⟨-, placed⟩ := table_cells_readable_iff label crossed
    obtain ⟨before, after, split, -, place⟩ := placed _ rfl
    refine ⟨before, _, after, rfl, split, ?_⟩
    by_contra free
    have same : "Label" = "label" :=
      place.2 (.inr fun r earlier stored => free ⟨r, earlier, stored⟩)
    exact absurd same (by decide)

/-- A cell too wide for its column, a text where bytes are read, and a cell stored apart from the
property that its header names. -/
theorem cells_stored_and_misread :
    crossedNames.readCell "Id" "3000000000" = .ok ("id", .ofInt 3000000000) ∧
    Scalar.ofJsonAs? .int32 (.ofInt 3000000000) = none ∧
    crossedNames.readCell "Seal" "\"ab\"" = .ok ("seal", .string "ab") ∧
    Scalar.ofJsonAs? .binary (.string "ab") = none ∧
    crossedNames.readCell "Label" "x" = .ok ("Label", .string "x") ∧
    (crossedNames.property? "Label").map (·.jsonName) = some "label" := by
  refine ⟨by rfl, by decide, by rfl, by rfl, by rfl, by rfl⟩

end DocQuery
