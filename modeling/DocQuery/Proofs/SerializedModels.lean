/-
# The serialized form of scalars, parameters and models

Each encoding is `Written` for its decoder: names, scalars, parameters, and the records of a
model.

A scalar is if it is `Scalar.Portable`, that is, no finite float.  A finite float is written with
its digits, and whether these are read back as the same float is a question about decimals, not
about the format; what is not finite is written by its name (`Double.exists_name`) and comes back.

Names are the values of enumerations, which are told apart by their texts (`written_named`).
Records have one field for each member, found by name, so the lemma of a record lists the lemmas
of its members in the order of the fields.
-/
import DocQuery.Proofs.CodecReading

namespace DocQuery

open Codec Json

variable {w : Json}

/-! ## 1. Types -/

@[simp] theorem DataType.exact_encode (t : DataType) : t.encode.Exact := exact_string _

theorem DataType.written_encode (t : DataType) :
    Written (w := w) (plain DataType.decode?) t.encode t :=
  written_named (fun t => by cases t <;> rfl) t

theorem TypeMapping.written_encode (m : TypeMapping) :
    Written (w := w) TypeMapping.decode? m.encode m := by
  refine .record (by simp) (by simp) fun f holds => ?_
  refine bind_eq_some_of (holds.required rfl m.dataType.written_encode) ?_
  exact bind_eq_some_of (holds.required rfl (written_text _)) rfl

/-- A type mapping that may be missing. -/
theorem written_mapping (m : Option TypeMapping) :
    WrittenOption (w := w) TypeMapping.decode? (optionally TypeMapping.encode m) m :=
  .optionally TypeMapping.written_encode (fun _ => rfl) m

@[simp] theorem exact_mapping (m : Option TypeMapping) : (optionally TypeMapping.encode m).Exact :=
  (written_mapping (w := .null) m).exact

/-! ## 2. Scalars and parameters -/

/-- Floating point numbers are written with their digits, which say less than their value; what is
not finite is written by its name. -/
def Scalar.Portable : Scalar → Prop
  | .float32 x | .float64 x => x.finite? = none
  | _ => True

/-- What is not finite is written by its name. -/
theorem Double.exists_name (number : Finite → Number) : ∀ {x : Double}, x.finite? = none →
    ∃ name, x.encode number = .string name ∧ Double.decode? (.string name) = some x
  | .nan, _ => ⟨_, rfl, rfl⟩
  | .infinite true, _ => ⟨_, rfl, rfl⟩
  | .infinite false, _ => ⟨_, rfl, rfl⟩

theorem Double.toSingle_of_finite?_eq_none : ∀ {x : Double}, x.finite? = none → x.toSingle = x
  | .nan, _ => rfl
  | .infinite _, _ => rfl

namespace Scalar

theorem int32?_ofInt (n : Int32) : int32? (.ofInt n.toInt) = some n := by
  have low := n.le_toInt
  have high := n.toInt_lt
  have word : fitsInt64 n.toInt = true := by simp [fitsInt64]; omega
  have fits : fitsInt32 n.toInt = true := by simp [fitsInt32]; omega
  simp [int32?, asInt64?, ofInt, word, fits]

theorem int64?_ofInt (n : Int64) : int64? (.ofInt n.toInt) = some n := by
  have low := n.le_toInt
  have high := n.toInt_lt
  have word : fitsInt64 n.toInt = true := by simp [fitsInt64]; omega
  simp [int64?, asInt64?, ofInt, word]

theorem byte?_ofInt (b : UInt8) : byte? (.ofInt b.toNat) = some b := by
  simp [byte?, asNat?, ofInt, b.toNat_lt]

theorem mapM_byte? (bytes : List UInt8) :
    (bytes.map fun b => Json.ofInt b.toNat).mapM byte? = some bytes := by
  induction bytes with
  | nil => rfl
  | cons b rest ih =>
    rw [List.map_cons, List.mapM_cons]
    exact bind_eq_some_of (byte?_ofInt b) (bind_eq_some_of ih rfl)

/-- Only the tag of null has no data. -/
theorem decode?_variant {tag : String} {data : Json} (h : data.isNull = false) :
    decode? (variant tag data) = ofVariant? tag data := by
  have tagged : tag? (variant tag data) = none := by
    cases data <;> first | rfl | cases h
  change (if tag? (variant tag data) = some "Null" then _ else ofVariant? tag data) = _
  rw [tagged, if_neg (by simp)]

theorem decode?_encode {s : Scalar} (h : s.Portable) : decode? s.encode = some s := by
  cases s with
  | null => rfl
  | bool b => rfl
  | int32 n => rw [encode, decode?_variant rfl, ofVariant?, int32?_ofInt]; rfl
  | int64 n => rw [encode, decode?_variant rfl, ofVariant?, int64?_ofInt]; rfl
  | float32 x =>
    obtain ⟨name, written, read⟩ := Double.exists_name .single h
    rw [encode, written, decode?_variant rfl, ofVariant?, read, Option.map_some,
      Double.toSingle_of_finite?_eq_none h]
  | float64 x =>
    obtain ⟨name, written, read⟩ := Double.exists_name .double h
    rw [encode, written, decode?_variant rfl, ofVariant?, read, Option.map_some]
  | text t => rfl
  | binary bytes =>
    rw [encode, decode?_variant rfl, ofVariant?, asArray?, Option.bind_some, mapM_byte?]
    rfl

theorem exact_encode {s : Scalar} (h : s.Portable) : s.encode.Exact := by
  cases s with
  | null => exact exact_string _
  | bool b => simp [encode]
  | int32 n =>
    have low := n.le_toInt
    have high := n.toInt_lt
    simp only [encode, exact_variant, exact_ofInt, IsWord]
    omega
  | int64 n =>
    have low := n.le_toInt
    have high := n.toInt_lt
    simp only [encode, exact_variant, exact_ofInt, IsWord]
    omega
  | float32 x =>
    obtain ⟨name, written, -⟩ := Double.exists_name .single h
    simp [encode, written]
  | float64 x =>
    obtain ⟨name, written, -⟩ := Double.exists_name .double h
    simp [encode, written]
  | text t => simp [encode]
  | binary bytes =>
    simp only [encode, exact_variant, exact_array, List.forall_mem_map, exact_ofInt, IsWord]
    intro b _
    have := b.toNat_lt
    omega

theorem written_encode {s : Scalar} (h : s.Portable) :
    Written (w := w) (plain decode?) s.encode s :=
  written_plain (exact_encode h) (decode?_encode h)

end Scalar

namespace ParameterValue

def Portable : ParameterValue → Prop
  | .scalar s => s.Portable
  | .collection items => ∀ s ∈ items, s.Portable

theorem written_encode : ∀ {v : ParameterValue}, v.Portable → Written (w := w) decode? v.encode v
  | .scalar _, h => .variant ((Scalar.written_encode h).map _)
  | .collection _, h => .variant ((Written.listOf fun s hs => Scalar.written_encode (h s hs)).map _)

end ParameterValue

namespace Parameters

def Portable (p : Parameters) : Prop := ∀ e ∈ p.entries, e.2.Portable

theorem written_encode {p : Parameters} (h : p.Portable) : Written (w := w) decode? p.encode p :=
  .dictionaryOf fun e he => ParameterValue.written_encode (h e he)

end Parameters

/-! ## 3. Models -/

theorem Property.written_encode (p : Property) : Written (w := w) Property.decode? p.encode p := by
  refine .record (by simp) (by simp) fun f holds => ?_
  refine bind_eq_some_of (holds.required rfl (written_text _)) ?_
  refine bind_eq_some_of (holds.required rfl p.dataType.written_encode) ?_
  refine bind_eq_some_of (holds.required rfl (written_flag _)) ?_
  refine bind_eq_some_of (holds.required rfl (written_text _)) ?_
  exact bind_eq_some_of (holds.optionalDefaulted rfl (written_mapping _)) rfl

theorem Navigation.written_encode (n : Navigation) :
    Written (w := w) Navigation.decode? n.encode n := by
  refine .record (by simp) (by simp) fun f holds => ?_
  refine bind_eq_some_of (holds.required rfl (written_text _)) ?_
  refine bind_eq_some_of (holds.required rfl (written_text _)) ?_
  refine bind_eq_some_of (holds.required rfl (written_text _)) ?_
  exact bind_eq_some_of (holds.required rfl (written_flag _)) rfl

theorem EntityType.written_encode (t : EntityType) :
    Written (w := w) EntityType.decode? t.encode t := by
  have properties : Written (w := w) _ (listOf Property.encode t.properties) _ :=
    .listOf fun p _ => p.written_encode
  have partitionKey : WrittenOption (w := w) (plain text?) _ t.partitionKey :=
    .optionally written_text (fun _ => rfl) t.partitionKey
  have embedded : Written (w := w) _ (listOf Navigation.encode t.embedded) _ :=
    .listOf fun n _ => n.written_encode
  refine .record (by simp) (by simp [properties.exact, partitionKey.exact, embedded.exact])
    fun f holds => ?_
  refine bind_eq_some_of (holds.required rfl (written_text _)) ?_
  refine bind_eq_some_of (holds.required rfl (written_text _)) ?_
  refine bind_eq_some_of (holds.required rfl properties) ?_
  refine bind_eq_some_of (holds.required rfl (written_texts _)) ?_
  refine bind_eq_some_of (holds.optionalDefaulted rfl partitionKey) ?_
  exact bind_eq_some_of (holds.defaulted rfl embedded []) rfl

theorem Model.written_encode (m : Model) : Written (w := w) Model.decode? m.encode m := by
  have types : Written (w := w) _ (dictionaryOf EntityType.encode m.entityTypes) _ :=
    .dictionaryOf fun e _ => e.2.written_encode
  refine .record (by simp) (by simp [types.exact]) fun f holds => ?_
  exact bind_eq_some_of (holds.required rfl types) rfl

end DocQuery
