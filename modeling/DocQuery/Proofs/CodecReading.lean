/-
# Decoding what was encoded

An encoding `j` of a value `a` is `Written` for a decoder when the reader gives `j` back from its
text and the decoder gives `a` back from `j`, wherever it stands.  The two halves belong together:
a number of more than 64 bits would be decoded from its encoding, but not be read back from the
text.

* Lists, maps and optional values are written when their parts are; null is kept for a value that
  is missing, so an encoding that may be missing is not null itself (`WrittenOption`).
* A variant is written when its data is, for the decoder that its tag selects (`Written.variant`).
* A record is decoded one field after the other, each found by its name (`Fields.Holds`); it is
  written when its members are and have different names (`Written.record`).

Each type of the format then has one lemma with the shape of its decoder.
-/
import DocQuery.Codec.Plan
import DocQuery.Proofs.JsonReading
import Mathlib.Data.List.Forall2

namespace DocQuery

namespace Json

/-! ## 1. Exact values -/

@[simp] theorem exact_null : Exact .null := by rw [Exact]; trivial

@[simp] theorem exact_bool (b : Bool) : Exact (.bool b) := by rw [Exact]; trivial

@[simp] theorem exact_string (s : String) : Exact (.string s) := by rw [Exact]; trivial

@[simp] theorem exact_ofInt {n : Int} : Exact (.ofInt n) ↔ IsWord n := by rw [ofInt, Exact]

@[simp] theorem exact_array {items : List Json} :
    Exact (.array items) ↔ ∀ j ∈ items, j.Exact := by
  rw [Exact]
  induction items with
  | nil => simp [ExactItems]
  | cons j rest ih => simp [ExactItems, ih]

@[simp] theorem exact_object {members : List (String × Json)} :
    Exact (.object members) ↔ ∀ m ∈ members, m.2.Exact := by
  rw [Exact]
  induction members with
  | nil => simp [ExactMembers]
  | cons m rest ih => simp [ExactMembers, ih]

end Json

namespace Codec

open Json

variable {α β : Type} {w : Json}

@[simp] theorem exact_variant {tag : String} {data : Json} :
    (variant tag data).Exact ↔ data.Exact := by
  simp [variant]

@[simp] theorem exact_textList (names : List String) : (textList names).Exact := by
  simp [textList]

/-! ## 2. Written values -/

/-- The encoding `j` of `a` is read back from its text and decoded as `a`. -/
structure Written (decode : Part w → Option α) (j : Json) (a : α) : Prop where
  exact : j.Exact
  decoded : ∀ p : Part w, p.1 = j → decode p = some a

/-- The encoding of a value that may be missing; null is kept for its absence. -/
inductive WrittenOption (decode : Part w → Option α) : Json → Option α → Prop where
  | none : WrittenOption decode .null none
  | some {j : Json} {a : α} (h : Written decode j a) (present : j.isNull = false) :
    WrittenOption decode j (some a)

theorem bind_eq_some_of {x : Option α} {f : α → Option β} {a : α} {b : β} (hx : x = some a)
    (hf : f a = some b) : x >>= f = some b := by
  rw [hx]
  exact hf

section Plain

variable {decode : Json → Option α} {j : Json} {a : α}

theorem written_plain (exact : j.Exact) (h : decode j = some a) :
    Written (w := w) (plain decode) j a :=
  ⟨exact, fun p hp => by rw [plain, hp, h]⟩

theorem written_text (s : String) : Written (w := w) (plain text?) (.string s) s :=
  written_plain (exact_string s) rfl

theorem written_flag (b : Bool) : Written (w := w) (plain flag?) (.bool b) b :=
  written_plain (exact_bool b) rfl

/-- Positions are words of 64 bits. -/
theorem written_nat {n : Nat} (word : n < 0x10000000000000000) :
    Written (w := w) (plain nat?) (.ofInt n) n := by
  refine written_plain (exact_ofInt.2 ⟨by omega, by omega⟩) ?_
  simp [nat?, asNat?, ofInt]

/-- A value written by its name, when the names can be read back. -/
theorem written_named {all : List α} {name : α → String}
    (found : ∀ a, all.find? (fun b => name b == name a) = some a) (a : α) :
    Written (w := w) (plain (named? all name)) (.string (name a)) a :=
  written_plain (exact_string _) (found a)

end Plain

/-! ## 3. Lists, maps and variants -/

theorem exists_items {items : List Json} {p : Part w} (h : p.1 = .array items) :
    ∃ parts, items? p = some parts ∧ parts.map Subtype.val = items := by
  obtain ⟨j, smaller⟩ := p
  subst h
  refine ⟨_, rfl, ?_⟩
  rw [List.map_map]
  exact List.attach_map_subtype_val items

theorem exists_members {members : List (String × Json)} {p : Part w} (h : p.1 = .object members) :
    ∃ parts, members? p = some parts ∧ parts.map (fun m => (m.1, m.2.1)) = members := by
  obtain ⟨j, smaller⟩ := p
  subst h
  refine ⟨_, rfl, ?_⟩
  rw [List.map_map]
  exact List.attach_map_subtype_val members

theorem mapM_of_written {decode : Part w → Option α} : ∀ {parts : List (Part w)} {items : List Json}
    {as : List α}, parts.map Subtype.val = items → List.Forall₂ (Written decode) items as →
    parts.mapM decode = some as
  | [], _, _, rfl, .nil => rfl
  | p :: parts, _, _, rfl, .cons ha rest => by
    rw [List.mapM_cons]
    exact bind_eq_some_of (ha.decoded p rfl) (bind_eq_some_of (mapM_of_written rfl rest) rfl)

theorem exact_of_forall {decode : Part w → Option α} {items : List Json} {as : List α}
    (h : List.Forall₂ (Written decode) items as) : ∀ j ∈ items, j.Exact := by
  induction h with
  | nil => simp
  | cons ha _ ih => exact List.forall_mem_cons.2 ⟨ha.exact, ih⟩

theorem Written.list {decode : Part w → Option α} {items : List Json} {as : List α}
    (h : List.Forall₂ (Written decode) items as) : Written (list? decode) (.array items) as := by
  refine ⟨exact_array.2 (exact_of_forall h), fun p hp => ?_⟩
  obtain ⟨parts, hparts, values⟩ := exists_items hp
  exact bind_eq_some_of hparts (mapM_of_written values h)

theorem Written.listOf {decode : Part w → Option α} {encode : α → Json} {as : List α}
    (h : ∀ a ∈ as, Written decode (encode a) a) : Written (list? decode) (listOf encode as) as := by
  refine .list ?_
  induction as with
  | nil => exact .nil
  | cons a as ih =>
    obtain ⟨ha, rest⟩ := List.forall_mem_cons.1 h
    exact .cons ha (ih rest)

theorem written_texts (names : List String) : Written (w := w) texts? (textList names) names :=
  Written.listOf fun s _ => written_text s

theorem Written.pair {first : Part w → Option α} {second : Part w → Option β} {i j : Json} {a : α}
    {b : β} (ha : Written first i a) (hb : Written second j b) :
    Written (pair? first second) (.array [i, j]) (a, b) := by
  refine ⟨by simp [ha.exact, hb.exact], fun p hp => ?_⟩
  obtain ⟨parts, hparts, values⟩ := exists_items hp
  match parts, values with
  | [x, y], values =>
    obtain ⟨rfl, rfl⟩ : x.1 = i ∧ y.1 = j := by simpa using values
    rw [pair?, hparts]
    exact bind_eq_some_of (ha.decoded x rfl) (bind_eq_some_of (hb.decoded y rfl) rfl)

theorem mapM_members {decode : Part w → Option α} {encode : α → Json} :
    ∀ {parts : List (String × Part w)} {entries : List (String × α)},
    parts.map (fun m => (m.1, m.2.1)) = entries.map (fun e => (e.1, encode e.2)) →
    (∀ e ∈ entries, Written decode (encode e.2) e.2) →
    (parts.mapM fun m => (decode m.2).map fun a => (m.1, a)) = some entries
  | [], [], _, _ => rfl
  | m :: parts, (name, a) :: entries, same, h => by
    rw [List.map_cons, List.map_cons, List.cons.injEq, Prod.mk.injEq] at same
    obtain ⟨⟨hname, value⟩, rest⟩ := same
    obtain ⟨ha, hrest⟩ := List.forall_mem_cons.1 h
    rw [List.mapM_cons, ha.decoded m.2 value, hname]
    exact bind_eq_some_of rfl (bind_eq_some_of (mapM_members rest hrest) rfl)

theorem Written.dictionaryOf {decode : Part w → Option α} {encode : α → Json} {d : Dictionary α}
    (h : ∀ e ∈ d.entries, Written decode (encode e.2) e.2) :
    Written (dictionary? decode) (dictionaryOf encode d) d := by
  refine ⟨exact_object.2 fun m hm => ?_, fun p hp => ?_⟩
  · obtain ⟨e, he, rfl⟩ := List.mem_map.1 hm
    exact (h e he).exact
  · obtain ⟨parts, hparts, values⟩ := exists_members hp
    have read : (parts.mapM fun m => (decode m.2).map fun a => (m.1, a)) = some d.entries :=
      mapM_members values h
    rw [dictionary?, hparts, Option.bind_some, read, Option.map_some, Dictionary.ofList_entries]

theorem exists_variant {tag : String} {data : Json} {p : Part w} (h : p.1 = variant tag data) :
    ∃ part : Part w, variant? p = some (tag, part) ∧ part.1 = data := by
  obtain ⟨parts, hparts, values⟩ := exists_members h
  match parts, values with
  | [m], values =>
    obtain ⟨rfl, rfl⟩ : m.1 = tag ∧ m.2.1 = data := by simpa using values
    exact ⟨m.2, by rw [variant?, hparts], rfl⟩

/-- A variant is written when its data is, for the decoder that its tag selects. -/
theorem Written.variant {tag : String} {data : Json} {read : String × Part w → Option α} {a : α}
    (h : Written (fun part => read (tag, part)) data a) :
    Written (fun p => variant? p >>= read) (Codec.variant tag data) a := by
  refine ⟨exact_variant.2 h.exact, fun p hp => ?_⟩
  obtain ⟨part, hpart, value⟩ := exists_variant hp
  exact bind_eq_some_of hpart (h.decoded part value)

/-- A decoder of values that opens a variant and reads its data. -/
theorem written_tagged {decode : Json → Option α} {tag : String} {data : Json} {a : α}
    {read : Part (Codec.variant tag data) → Option α} (h : Written read data a)
    (opens : ∀ smaller, decode (Codec.variant tag data) = read ⟨data, smaller⟩) :
    Written (w := w) (plain decode) (Codec.variant tag data) a := by
  have smaller : sizeOf data < sizeOf (Codec.variant tag data) := by
    simp only [variant, object.sizeOf_spec, List.cons.sizeOf_spec, Prod.mk.sizeOf_spec]
    omega
  exact written_plain (exact_variant.2 h.exact) ((opens smaller).trans (h.decoded _ rfl))

theorem Written.map {decode : Part w → Option α} {j : Json} {a : α} (f : α → β)
    (h : Written decode j a) : Written (fun p => decode p >>= fun x => pure (f x)) j (f a) :=
  ⟨h.exact, fun p hp => bind_eq_some_of (h.decoded p hp) rfl⟩

/-! ## 4. Optional values -/

theorem WrittenOption.exact {decode : Part w → Option α} {j : Json} {o : Option α}
    (h : WrittenOption decode j o) : j.Exact := by
  cases h with
  | none => exact exact_null
  | some h _ => exact h.exact

theorem WrittenOption.optionally {decode : Part w → Option α} {encode : α → Json}
    (h : ∀ a, Written decode (encode a) a) (present : ∀ a, (encode a).isNull = false) :
    ∀ o : Option α, WrittenOption decode (optionally encode o) o
  | .none => .none
  | .some a => .some (h a) (present a)

/-! ## 5. Records -/

/-- The fields of a record hold its members. -/
structure Fields.Holds (f : Fields w) (members : List (String × Json)) : Prop where
  values : f.values.map (fun m => (m.1, m.2.1)) = members
  named : f.positional = false

namespace Fields.Holds

variable {f : Fields w} {members : List (String × Json)} {name : String} {j : Json} {a : α}
  {o : Option α} {decode : Part w → Option α}

theorem find? (holds : f.Holds members) (place : members.lookup name = some j) :
    ∃ p : Part w, f.find? name = some p ∧ p.1 = j := by
  have lookup : ∀ values : List (String × Part w),
      (values.map fun m => (m.1, m.2.1)).lookup name = (values.lookup name).map Subtype.val := by
    intro values
    induction values with
    | nil => rfl
    | cons m rest ih =>
      rw [List.map_cons, List.lookup_cons, List.lookup_cons, ih]
      cases name == m.1 <;> rfl
  rw [← holds.values, lookup] at place
  exact Option.map_eq_some_iff.1 place

theorem required (holds : f.Holds members) (place : members.lookup name = some j)
    (h : Written decode j a) : f.required name decode = some a := by
  obtain ⟨p, found, value⟩ := holds.find? place
  exact bind_eq_some_of found (h.decoded p value)

theorem optional (holds : f.Holds members) (place : members.lookup name = some j)
    (h : WrittenOption decode j o) : f.optional name decode = some o := by
  obtain ⟨p, found, value⟩ := holds.find? place
  rw [Fields.optional, found]
  cases h with
  | none => simp [value, isNull]
  | some h present => simp [value, present, h.decoded p value]

theorem optionalDefaulted (holds : f.Holds members) (place : members.lookup name = some j)
    (h : WrittenOption decode j o) : f.optionalDefaulted name decode = some o := by
  obtain ⟨p, found, value⟩ := holds.find? place
  rw [Fields.optionalDefaulted, found]
  cases h with
  | none => simp [value, isNull]
  | some h present => simp [value, present, h.decoded p value]

theorem defaulted (holds : f.Holds members) (place : members.lookup name = some j)
    (h : Written decode j a) (default : α) : f.defaulted name default decode = some a := by
  obtain ⟨p, found, value⟩ := holds.find? place
  rw [Fields.defaulted, found]
  exact h.decoded p value

/-- A field that holds a variant. -/
theorem variant {tag : String} {data : Json} (holds : f.Holds members) (name : String)
    (place : members.lookup name = some (Codec.variant tag data)) :
    ∃ part : Part w, f.required name variant? = some (tag, part) ∧ part.1 = data := by
  obtain ⟨p, found, value⟩ := holds.find? place
  obtain ⟨part, hpart, hdata⟩ := exists_variant value
  exact ⟨part, bind_eq_some_of found hpart, hdata⟩

end Fields.Holds

theorem exists_fields {names : List String} {members : List (String × Json)} {p : Part w}
    (h : p.1 = .object members) (distinct : (members.map Prod.fst).Nodup) :
    ∃ f, fields? names p = some f ∧ f.Holds members := by
  obtain ⟨parts, hparts, values⟩ := exists_members h
  have once : ∀ name : String, (parts.filter fun m => m.1 == name).length ≤ 1 := by
    intro name
    have : (parts.map Prod.fst).Nodup := by
      rw [← values, List.map_map] at distinct
      exact distinct
    have count := List.nodup_iff_count.1 this name
    rwa [List.count, List.countP_map, List.countP_eq_length_filter] at count
  refine ⟨⟨parts, false⟩, ?_, values, rfl⟩
  unfold fields?
  rw [hparts]
  simp only
  rw [if_pos (by simpa using fun name _ => once name)]

/-- A record whose members have different names is read field by field. -/
theorem Written.record {names : List String} {members : List (String × Json)}
    {read : Fields w → Option α} {a : α} (distinct : (members.map Prod.fst).Nodup)
    (exact : ∀ m ∈ members, m.2.Exact) (h : ∀ f : Fields w, f.Holds members → read f = some a) :
    Written (fun p => fields? names p >>= read) (.object members) a := by
  refine ⟨exact_object.2 exact, fun p hp => ?_⟩
  obtain ⟨f, hf, holds⟩ := exists_fields hp distinct
  exact bind_eq_some_of hf (h f holds)

end Codec

end DocQuery
