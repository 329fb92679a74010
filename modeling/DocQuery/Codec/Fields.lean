/-
# Records and variants in JSON

The conventions of the serialized form.  A record is an object with its fields as members, or an
array of the field values in declared order.  A variant with data is an object with the tag as its
only member, one without data the tag as a string (or with null as its data).

A part of a value is handed out together with the proof that it is smaller, which is what makes
decoders of recursive types well-founded.
-/
import DocQuery.Json.Writer

namespace DocQuery.Codec

/-- A value smaller than `w`. -/
abbrev Part (w : Json) := { j : Json // sizeOf j < sizeOf w }

/-- Decodes a part without regard to its size. -/
def plain {α : Type} {w : Json} (decode : Json → Option α) (p : Part w) : Option α := decode p.1

/-! ## 1. Parts -/

/-- The items of an array. -/
def items? {w : Json} (p : Part w) : Option (List (Part w)) :=
  match h : p.1 with
  | .array items => some (items.attach.map fun x => ⟨x.1, by
      have := p.2
      have := List.sizeOf_lt_of_mem x.2
      simp only [h, Json.array.sizeOf_spec] at *
      omega⟩)
  | _ => none

/-- The members of an object. -/
def members? {w : Json} (p : Part w) : Option (List (String × Part w)) :=
  match h : p.1 with
  | .object members => some (members.attach.map fun x => (x.1.1, ⟨x.1.2, by
      have := p.2
      have := List.sizeOf_lt_of_mem x.2
      have : sizeOf x.1 = 1 + sizeOf x.1.1 + sizeOf x.1.2 := by cases x.1; rfl
      simp only [h, Json.object.sizeOf_spec] at *
      omega⟩))
  | _ => none

/-- A value as a part of the array that holds only it. -/
def whole (j : Json) : Part (.array [j]) := ⟨j, by simp; omega⟩

/-! ## 2. Fields of a record -/

structure Fields (w : Json) where
  values : List (String × Part w)
  /-- Whether the fields came from an array, where only defaulted ones may be absent. -/
  positional : Bool

/-- The fields of a record.  A declared field may not be repeated and an array may not be longer
than the declaration; unknown members are ignored. -/
def fields? {w : Json} (names : List String) (p : Part w) : Option (Fields w) :=
  match members? p, items? p with
  | some members, _ =>
    if names.all fun name => (members.filter fun m => m.1 == name).length ≤ 1 then
      some ⟨members, false⟩
    else none
  | none, some items =>
    if items.length ≤ names.length then some ⟨names.zip items, true⟩ else none
  | none, none => none

namespace Fields

variable {α : Type} {w : Json}

def find? (f : Fields w) (name : String) : Option (Part w) := f.values.lookup name

/-- A field that has to be present. -/
def required (f : Fields w) (name : String) (decode : Part w → Option α) : Option α :=
  (f.find? name).bind decode

/-- A field that may be null, or absent from an object. -/
def optional (f : Fields w) (name : String) (decode : Part w → Option α) : Option (Option α) :=
  match f.find? name with
  | none => if f.positional then none else some none
  | some p => if p.1.isNull then some none else (decode p).map some

/-- A field with a default for its absence; null is not absence. -/
def defaulted (f : Fields w) (name : String) (default : α) (decode : Part w → Option α) :
    Option α :=
  match f.find? name with
  | none => some default
  | some p => decode p

/-- A field that may be null or absent. -/
def optionalDefaulted (f : Fields w) (name : String) (decode : Part w → Option α) :
    Option (Option α) :=
  match f.find? name with
  | none => some none
  | some p => if p.1.isNull then some none else (decode p).map some

end Fields

/-! ## 3. Variants -/

/-- The tag of a variant without data. -/
def tag? (j : Json) : Option String :=
  match j with
  | .string tag => some tag
  | .object [(tag, .null)] => some tag
  | _ => none

/-- The tag and data of a variant. -/
def variant? {w : Json} (p : Part w) : Option (String × Part w) :=
  match members? p with
  | some [m] => some m
  | _ => none

def variant (tag : String) (data : Json) : Json := .object [(tag, data)]

/-- One of finitely many values, by name. -/
def named? {α : Type} (all : List α) (name : α → String) (j : Json) : Option α :=
  (tag? j).bind fun tag => all.find? fun a => name a == tag

/-! ## 4. Plain values -/

variable {α : Type} {w : Json}

def text? (j : Json) : Option String := j.asString?

def flag? (j : Json) : Option Bool := j.asBool?

def nat? (j : Json) : Option Nat := j.asNat?

def list? (decode : Part w → Option α) (p : Part w) : Option (List α) :=
  (items? p).bind fun items => items.mapM decode

def texts? : Part w → Option (List String) := list? (plain text?)

/-- An array of two. -/
def pair? {β : Type} (first : Part w → Option α) (second : Part w → Option β) (p : Part w) :
    Option (α × β) :=
  match items? p with
  | some [a, b] => do return (← first a, ← second b)
  | _ => none

/-- A map from names; the last of repeated names counts. -/
def dictionary? (decode : Part w → Option α) (p : Part w) : Option (Dictionary α) :=
  (members? p).bind fun members =>
    (members.mapM fun m => (decode m.2).map fun a => (m.1, a)).map Dictionary.ofList

def optionally (encode : α → Json) : Option α → Json
  | none => .null
  | some a => encode a

def listOf (encode : α → Json) (items : List α) : Json := .array (items.map encode)

def textList (items : List String) : Json := .array (items.map Json.string)

def dictionaryOf (encode : α → Json) (d : Dictionary α) : Json := .ofDictionary (d.map encode)

end DocQuery.Codec
