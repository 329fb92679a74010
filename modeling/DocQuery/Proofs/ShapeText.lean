/-
# The text of a shape determines the shape

A cached plan is found by the text of a serialized query, so two queries with one text would share
a plan.  `ShapedQuery.eq_of_text` excludes that: the text determines the query and its shaper,
node for node, as far as it determines the constants in them.

* What one text has in common with another is `Json.Alike`: shape, strings, booleans, and the
  texts of the numbers.
* An encoding is `Faithful` when alike values come from equal originals.  Records, lists and maps
  are faithful when their parts are, and names when they can be read back (`faithful_name`).
* Expressions and selects, and shapers with their fields, are gone through by mutual recursion.
  Two different constructors are never alike, for they have different tags.

Constants are left to a hypothesis (`Legible`), since a float is as determined as its digits are:
the text of a constant determines it, a finite float as far as its digits do
(`Scalar.eq_of_alike`).
-/
import DocQuery.Codec.Query
import DocQuery.Proofs.JsonText

namespace DocQuery

namespace Json

/-! ## 1. Likeness of plain values -/

@[simp] theorem alike_null {j : Json} : Alike .null j ↔ j = .null := by
  cases j <;> simp [Alike]

@[simp] theorem alike_bool {a b : Bool} : Alike (.bool a) (.bool b) ↔ a = b := by rw [Alike]

@[simp] theorem alike_string {a b : String} : Alike (.string a) (.string b) ↔ a = b := by rw [Alike]

@[simp] theorem alike_array {a b : List Json} :
    Alike (.array a) (.array b) ↔ AlikeItems a b := by rw [Alike]

@[simp] theorem alike_object {a b : List (String × Json)} :
    Alike (.object a) (.object b) ↔ AlikeMembers a b := by rw [Alike]

theorem not_alike_object_null {a : List (String × Json)} : ¬ Alike (.object a) .null := by
  simp [Alike]

@[simp] theorem alikeItems_nil : AlikeItems [] [] := by simp [AlikeItems]

@[simp] theorem alikeItems_nil_cons {b : Json} {bs : List Json} : ¬ AlikeItems [] (b :: bs) := by
  simp [AlikeItems]

@[simp] theorem alikeItems_cons_nil {a : Json} {as : List Json} : ¬ AlikeItems (a :: as) [] := by
  simp [AlikeItems]

@[simp] theorem alikeItems_cons {a b : Json} {as bs : List Json} :
    AlikeItems (a :: as) (b :: bs) ↔ Alike a b ∧ AlikeItems as bs := by rw [AlikeItems]

@[simp] theorem alikeMembers_nil : AlikeMembers [] [] := by simp [AlikeMembers]

@[simp] theorem alikeMembers_nil_cons {b : String × Json} {bs : List (String × Json)} :
    ¬ AlikeMembers [] (b :: bs) := by simp [AlikeMembers]

@[simp] theorem alikeMembers_cons_nil {a : String × Json} {as : List (String × Json)} :
    ¬ AlikeMembers (a :: as) [] := by simp [AlikeMembers]

@[simp] theorem alikeMembers_cons {m n : String} {a b : Json} {as bs : List (String × Json)} :
    AlikeMembers ((m, a) :: as) ((n, b) :: bs) ↔ m = n ∧ Alike a b ∧ AlikeMembers as bs := by
  rw [AlikeMembers]

@[simp] theorem alike_ofInt {m n : Int} : Alike (.ofInt m) (.ofInt n) ↔ m = n := by
  rw [ofInt, ofInt, Alike]
  exact ⟨Layout.integerText_injective, fun h => by rw [h]⟩

end Json

/-! ## 2. Faithful encodings -/

namespace Codec

open Json

variable {α : Type}

@[simp] theorem alike_variant {s t : String} {a b : Json} :
    Alike (variant s a) (variant t b) ↔ s = t ∧ Alike a b := by
  simp [variant]

@[simp] theorem not_alike_string_variant {s t : String} {a : Json} :
    ¬ Alike (.string s) (variant t a) := by
  simp [variant, Alike]

@[simp] theorem not_alike_variant_string {s t : String} {a : Json} :
    ¬ Alike (variant t a) (.string s) := by
  simp [variant, Alike]

@[simp] theorem not_alike_variant_null {t : String} {a : Json} : ¬ Alike (variant t a) .null :=
  not_alike_object_null

/-- Alike encodings come from equal values. -/
def Faithful (encode : α → Json) : Prop := ∀ a b, Alike (encode a) (encode b) → a = b

theorem faithful_string : Faithful Json.string := fun _ _ h => alike_string.1 h

/-- Values written by their names, when the names can be read back. -/
theorem faithful_name {name : α → String} (read : String → Option α)
    (h : ∀ a, read (name a) = some a) : Faithful fun a => Json.string (name a) := by
  intro a b hab
  exact Option.some.inj ((h a).symm.trans ((congrArg read (alike_string.1 hab)).trans (h b)))

theorem Faithful.optionally {encode : α → Json} (h : Faithful encode)
    (written : ∀ a, ¬ Alike (encode a) .null) : Faithful (optionally encode) := by
  intro a b hab
  rcases a with _ | a <;> rcases b with _ | b
  · rfl
  · have hb : encode b = .null := alike_null.1 hab
    exact absurd (by rw [hb, alike_null]) (written b)
  · exact absurd hab (written a)
  · rw [h a b hab]

/-- Alike arrays, whose items come from equal values. -/
theorem eq_of_alikeItems_map {encode : α → Json} : ∀ (as bs : List α),
    (∀ a ∈ as, ∀ b ∈ bs, Alike (encode a) (encode b) → a = b) →
    AlikeItems (as.map encode) (bs.map encode) → as = bs
  | [], [], _, _ => rfl
  | [], _ :: _, _, h => absurd h alikeItems_nil_cons
  | _ :: _, [], _, h => absurd h alikeItems_cons_nil
  | a :: as, b :: bs, hencode, h => by
    obtain ⟨hab, htail⟩ := alikeItems_cons.1 h
    rw [hencode a List.mem_cons_self b List.mem_cons_self hab,
      eq_of_alikeItems_map as bs (fun x hx y hy =>
        hencode x (List.mem_cons_of_mem _ hx) y (List.mem_cons_of_mem _ hy)) htail]

theorem Faithful.listOf {encode : α → Json} (h : Faithful encode) : Faithful (listOf encode) :=
  fun as bs hab => eq_of_alikeItems_map as bs (fun a _ b _ => h a b) (alike_array.1 hab)

theorem faithful_textList : Faithful textList := faithful_string.listOf

theorem Faithful.members {encode : α → Json} (h : Faithful encode) : ∀ as bs : List (String × α),
    AlikeMembers (as.map fun e => (e.1, encode e.2)) (bs.map fun e => (e.1, encode e.2)) → as = bs
  | [], [], _ => rfl
  | [], _ :: _, hab => absurd hab alikeMembers_nil_cons
  | _ :: _, [], hab => absurd hab alikeMembers_cons_nil
  | (m, a) :: as, (n, b) :: bs, hab => by
    obtain ⟨rfl, hhead, htail⟩ := alikeMembers_cons.1 hab
    rw [h a b hhead, h.members as bs htail]

theorem Faithful.dictionaryOf {encode : α → Json} (h : Faithful encode) :
    Faithful (dictionaryOf encode) := by
  intro a b hab
  obtain ⟨as, _⟩ := a
  obtain ⟨bs, _⟩ := b
  obtain rfl := h.members as bs (alike_object.1 hab)
  rfl

end Codec

open Codec Json

/-! ## 3. Types and models -/

theorem DataType.faithful_encode : Faithful DataType.encode :=
  faithful_name DataType.ofName? fun t => by cases t <;> decide

theorem BinaryOp.faithful_encode : Faithful BinaryOp.encode :=
  faithful_name (fun s => BinaryOp.all.find? fun op => op.name == s) fun op => by
    cases op <;> decide

theorem UnaryOp.faithful_encode : Faithful UnaryOp.encode :=
  faithful_name (fun s => [UnaryOp.not, .negate, .isNull, .isNotNull].find? fun op => op.name == s)
    fun op => by cases op <;> decide

theorem SetOperator.faithful_encode : Faithful SetOperator.encode :=
  faithful_name (fun s => [SetOperator.union, .intersect, .except].find? fun op => op.name == s)
    fun op => by cases op <;> decide

theorem TypeMapping.faithful_encode : Faithful TypeMapping.encode := by
  intro ⟨t, s⟩ ⟨t', s'⟩ h
  simp only [encode, alike_object, alikeMembers_cons, alike_string] at h
  rw [DataType.faithful_encode t t' h.2.1, h.2.2.2.1]

/-- A mapping that may be missing. -/
theorem faithful_mapping : Faithful (optionally TypeMapping.encode) :=
  TypeMapping.faithful_encode.optionally fun _ => not_alike_object_null

theorem CollectionParameter.faithful_encode : Faithful CollectionParameter.encode := by
  intro ⟨n, t, m⟩ ⟨n', t', m'⟩ h
  simp only [encode, alike_object, alikeMembers_cons, alike_string] at h
  rw [h.2.1, DataType.faithful_encode t t' h.2.2.2.1, faithful_mapping m m' h.2.2.2.2.2.1]

theorem Property.faithful_encode : Faithful Property.encode := by
  intro ⟨n, t, l, j, m⟩ ⟨n', t', l', j', m'⟩ h
  simp only [encode, alike_object, alikeMembers_cons, alike_string, alike_bool] at h
  obtain ⟨-, hn, -, ht, -, hl, -, hj, -, hm, -⟩ := h
  rw [hn, DataType.faithful_encode t t' ht, hl, hj, faithful_mapping m m' hm]

theorem Navigation.faithful_encode : Faithful Navigation.encode := by
  intro ⟨n, t, j, c⟩ ⟨n', t', j', c'⟩ h
  simp only [encode, alike_object, alikeMembers_cons, alike_string, alike_bool] at h
  obtain ⟨-, hn, -, ht, -, hj, -, hc, -⟩ := h
  rw [hn, ht, hj, hc]

theorem EntityType.faithful_encode : Faithful EntityType.encode := by
  intro ⟨n, c, ps, k, pk, e⟩ ⟨n', c', ps', k', pk', e'⟩ h
  simp only [encode, alike_object, alikeMembers_cons, alike_string] at h
  obtain ⟨-, hn, -, hc, -, hps, -, hk, -, hpk, -, he, -⟩ := h
  have text : ∀ a, ¬ Alike (.string a) .null := by simp [Alike]
  rw [hn, hc, Property.faithful_encode.listOf ps ps' hps, faithful_textList k k' hk,
    faithful_string.optionally text pk pk' hpk, Navigation.faithful_encode.listOf e e' he]

theorem PointLookup.faithful_encode : Faithful PointLookup.encode := by
  intro ⟨c, t, ps⟩ ⟨c', t', ps'⟩ h
  simp only [encode, alike_object, alikeMembers_cons, alike_string] at h
  obtain ⟨-, hc, -, ht, -, hps, -⟩ := h
  rw [hc, EntityType.faithful_encode t t' ht, faithful_string.dictionaryOf ps ps' hps]

/-! ## 4. Constants -/

/-- Constants that are known by their texts: alike encodings of a constant of `as` and one of `bs`
come from one constant. -/
def Legible (as bs : List Scalar) : Prop :=
  ∀ a ∈ as, ∀ b ∈ bs, Alike a.encode b.encode → a = b

namespace Legible

variable {as bs cs ds : List Scalar}

theorem mono (h : Legible cs ds) (has : ∀ a ∈ as, a ∈ cs) (hbs : ∀ b ∈ bs, b ∈ ds) :
    Legible as bs :=
  fun a ha b hb => h a (has a ha) b (hbs b hb)

theorem left (h : Legible (as ++ cs) (bs ++ ds)) : Legible as bs :=
  h.mono (fun _ => List.mem_append_left _) (fun _ => List.mem_append_left _)

theorem right (h : Legible (as ++ cs) (bs ++ ds)) : Legible cs ds :=
  h.mono (fun _ => List.mem_append_right _) (fun _ => List.mem_append_right _)

theorem eq {a b : Scalar} (h : Legible [a] [b]) (hab : Alike a.encode b.encode) : a = b :=
  h a List.mem_cons_self b List.mem_cons_self hab

end Legible

/-- Encoded floats are alike only if they are equal, finite ones as far as their digits say so. -/
theorem Double.eq_of_alike {number : Finite → Number} : ∀ {x y : Double},
    (∀ m n, x = .finite m → y = .finite n → (number m).write = (number n).write → m = n) →
    Alike (x.encode number) (y.encode number) → x = y
  | .finite m, .finite n, digits, h => by
    simp only [Double.encode, Alike] at h
    rw [digits m n rfl rfl h]
  | .nan, .nan, _, _ => rfl
  | .infinite b, .infinite c, _, h => by
    cases b <;> cases c <;> simp [Double.encode] at h <;> rfl
  | .nan, .infinite b, _, h | .infinite b, .nan, _, h => by
    cases b <;> simp [Double.encode] at h
  | .nan, .finite n, _, h | .finite n, .nan, _, h => by simp [Double.encode, Alike] at h
  | .finite n, .infinite b, _, h | .infinite b, .finite n, _, h => by
    cases b <;> simp [Double.encode, Alike] at h

theorem faithful_bytes : Faithful fun bytes : List UInt8 =>
    Json.array (bytes.map fun b => .ofInt b.toNat) := by
  have byte : Faithful fun b : UInt8 => Json.ofInt b.toNat := by
    intro a b h
    exact UInt8.toNat.inj (Int.ofNat.inj (alike_ofInt.1 h))
  exact byte.listOf

/-- **The text of a constant determines it**, a finite float as far as its digits do. -/
theorem Scalar.eq_of_alike {a b : Scalar}
    (singles : ∀ m n, a = .float32 (.finite m) → b = .float32 (.finite n) →
      (Number.single m).write = (Number.single n).write → m = n)
    (doubles : ∀ m n, a = .float64 (.finite m) → b = .float64 (.finite n) →
      (Number.double m).write = (Number.double n).write → m = n)
    (h : Alike a.encode b.encode) : a = b := by
  cases a <;> cases b <;> simp [encode] at h
  case null.null => rfl
  case bool.bool => rw [h]
  case int32.int32 => rw [Int32.toInt_inj.1 h]
  case int64.int64 => rw [Int64.toInt_inj.1 h]
  case float32.float32 x y =>
    rw [Double.eq_of_alike (fun m n hx hy => singles m n (hx ▸ rfl) (hy ▸ rfl)) h]
  case float64.float64 x y =>
    rw [Double.eq_of_alike (fun m n hx hy => doubles m n (hx ▸ rfl) (hy ▸ rfl)) h]
  case text.text => rw [h]
  case binary.binary x y => rw [faithful_bytes x y (alike_array.2 h)]

/-! ## 5. Expressions, selects and shapers -/

namespace Expr

mutual

/-- The constants of an expression, from left to right. -/
def constants : Expr → List Scalar
  | .column .. | .parameter .. => []
  | .constant value _ _ => [value]
  | .binary _ left right _ => left.constants ++ right.constants
  | .unary _ operand _ => operand.constants
  | .function _ args _ _ _ => constantsOfList args
  | .inList item values => item.constants ++ constantsOfList values
  | .inParameter item _ => item.constants
  | .inSubquery item values => item.constants ++ constantsOfSelect values

def constantsOfList : List Expr → List Scalar
  | [] => []
  | e :: rest => e.constants ++ constantsOfList rest

def constantsOfOption : Option Expr → List Scalar
  | none => []
  | some e => e.constants

def constantsOfItem : ProjectionItem Expr → List Scalar
  | .scalar e => e.constants
  | .entity _ _ => []

def constantsOfProjection : List (Projection Expr) → List Scalar
  | [] => []
  | ⟨item, _⟩ :: rest => constantsOfItem item ++ constantsOfProjection rest

def constantsOfOrderings : List (OrderingTerm Expr) → List Scalar
  | [] => []
  | ⟨e, _⟩ :: rest => e.constants ++ constantsOfOrderings rest

def constantsOfSelect : SelectOf Expr → List Scalar
  | ⟨_, _, projection, predicate, orderings, limit, offset, _⟩ =>
    constantsOfProjection projection ++ (constantsOfOption predicate ++
      (constantsOfOrderings orderings ++ (constantsOfOption limit ++ constantsOfOption offset)))

end

theorem not_alike_encode_null (e : Expr) : ¬ Alike e.encode .null := by
  cases e <;> simp [encode, inVariant]

mutual

/-- **Alike expressions are equal**, when their constants are legible.  The tag of a node gives its
constructor away, so only nodes of one constructor are compared part by part. -/
theorem eq_of_alike : ∀ a b : Expr, Legible a.constants b.constants →
    Alike a.encode b.encode → a = b
  | .column s p t m, b, _, h => by
    cases b <;> simp [encode, inVariant, typed] at h
    obtain ⟨hs, hp, ht, hm⟩ := h
    rw [hs, faithful_textList _ _ hp, DataType.faithful_encode _ _ ht, faithful_mapping _ _ hm]
  | .constant v t m, b, hv, h => by
    cases b <;> simp [encode, inVariant, typed] at h
    obtain ⟨h, ht, hm⟩ := h
    rw [hv.eq h, DataType.faithful_encode _ _ ht, faithful_mapping _ _ hm]
  | .parameter n t m, b, _, h => by
    cases b <;> simp [encode, inVariant, typed] at h
    obtain ⟨hn, ht, hm⟩ := h
    rw [hn, DataType.faithful_encode _ _ ht, faithful_mapping _ _ hm]
  | .binary o l r m, b, hv, h => by
    cases b <;> simp [encode, inVariant] at h
    obtain ⟨ho, hl, hr, hm⟩ := h
    rw [constants, constants] at hv
    rw [BinaryOp.faithful_encode _ _ ho, eq_of_alike l _ hv.left hl, eq_of_alike r _ hv.right hr,
      faithful_mapping _ _ hm]
  | .unary o e m, b, hv, h => by
    cases b <;> simp [encode, inVariant] at h
    obtain ⟨ho, he, hm⟩ := h
    rw [constants, constants] at hv
    rw [UnaryOp.faithful_encode _ _ ho, eq_of_alike e _ hv he, faithful_mapping _ _ hm]
  | .function n as s t m, b, hv, h => by
    cases b <;> simp [encode, inVariant, typed] at h
    obtain ⟨hn, has, hs, ht, hm⟩ := h
    rw [constants, constants] at hv
    rw [hn, eq_of_alikeList as _ hv has, hs, DataType.faithful_encode _ _ ht,
      faithful_mapping _ _ hm]
  | .inList e vs, b, hv, h => by
    cases b <;> simp [encode, inVariant] at h
    obtain ⟨he, hvs⟩ := h
    rw [constants, constants] at hv
    rw [eq_of_alike e _ hv.left he, eq_of_alikeList vs _ hv.right hvs]
  | .inParameter e p, b, hv, h => by
    cases b <;> simp [encode, inVariant] at h
    obtain ⟨he, hp⟩ := h
    rw [constants, constants] at hv
    rw [eq_of_alike e _ hv he, CollectionParameter.faithful_encode _ _ hp]
  | .inSubquery e s, b, hv, h => by
    cases b <;> simp [encode, inVariant] at h
    obtain ⟨he, hs⟩ := h
    rw [constants, constants] at hv
    rw [eq_of_alike e _ hv.left he, eq_of_alikeSelect s _ hv.right hs]

theorem eq_of_alikeList : ∀ as bs : List Expr,
    Legible (constantsOfList as) (constantsOfList bs) →
    AlikeItems (encodeList as) (encodeList bs) → as = bs
  | [], bs, _, h => by
    cases bs <;> simp [encodeList] at h
    rfl
  | a :: as, bs, hv, h => by
    cases bs <;> simp [encodeList] at h
    rw [constantsOfList, constantsOfList] at hv
    rw [eq_of_alike a _ hv.left h.1, eq_of_alikeList as _ hv.right h.2]

theorem eq_of_alikeOption : ∀ a b : Option Expr,
    Legible (constantsOfOption a) (constantsOfOption b) →
    Alike (encodeOption a) (encodeOption b) → a = b
  | none, b, _, h => by
    cases b with
    | none => rfl
    | some b =>
      rw [encodeOption, encodeOption, alike_null] at h
      exact absurd (by rw [h, alike_null]) b.not_alike_encode_null
  | some a, b, hv, h => by
    cases b with
    | none => exact absurd (by simpa only [encodeOption] using h) a.not_alike_encode_null
    | some b =>
      rw [constantsOfOption, constantsOfOption] at hv
      rw [encodeOption, encodeOption] at h
      rw [eq_of_alike a b hv h]

theorem eq_of_alikeItem : ∀ a b : ProjectionItem Expr,
    Legible (constantsOfItem a) (constantsOfItem b) →
    Alike (encodeItem a) (encodeItem b) → a = b
  | .scalar e, b, hv, h => by
    cases b <;> simp [encodeItem] at h
    rw [constantsOfItem, constantsOfItem] at hv
    rw [eq_of_alike e _ hv h]
  | .entity t p, b, _, h => by
    cases b <;> simp [encodeItem] at h
    rw [h.1, faithful_textList _ _ h.2]

theorem eq_of_alikeProjection : ∀ as bs : List (Projection Expr),
    Legible (constantsOfProjection as) (constantsOfProjection bs) →
    AlikeItems (encodeProjection as) (encodeProjection bs) → as = bs
  | [], bs, _, h => by
    cases bs <;> simp [encodeProjection] at h
    rfl
  | ⟨i, n⟩ :: as, bs, hv, h => by
    cases bs <;> simp [encodeProjection] at h
    obtain ⟨⟨hi, hn⟩, has⟩ := h
    rw [constantsOfProjection, constantsOfProjection] at hv
    rw [eq_of_alikeItem i _ hv.left hi, hn, eq_of_alikeProjection as _ hv.right has]

theorem eq_of_alikeOrderings : ∀ as bs : List (OrderingTerm Expr),
    Legible (constantsOfOrderings as) (constantsOfOrderings bs) →
    AlikeItems (encodeOrderings as) (encodeOrderings bs) → as = bs
  | [], bs, _, h => by
    cases bs <;> simp [encodeOrderings] at h
    rfl
  | ⟨e, d⟩ :: as, bs, hv, h => by
    cases bs <;> simp [encodeOrderings] at h
    obtain ⟨⟨he, hd⟩, has⟩ := h
    rw [constantsOfOrderings, constantsOfOrderings] at hv
    rw [eq_of_alike e _ hv.left he, hd, eq_of_alikeOrderings as _ hv.right has]

theorem eq_of_alikeSelect : ∀ a b : SelectOf Expr,
    Legible (constantsOfSelect a) (constantsOfSelect b) →
    Alike (encodeSelect a) (encodeSelect b) → a = b
  | ⟨c, s, ps, w, os, l, o, d⟩, ⟨c', s', ps', w', os', l', o', d'⟩, hv, h => by
    simp [encodeSelect] at h
    obtain ⟨hc, hs, hps, hw, hos, hl, ho, hd⟩ := h
    rw [constantsOfSelect, constantsOfSelect] at hv
    rw [hc, hs, eq_of_alikeProjection ps ps' hv.left hps, eq_of_alikeOption w w' hv.right.left hw,
      eq_of_alikeOrderings os os' hv.right.right.left hos,
      eq_of_alikeOption l l' hv.right.right.right.left hl,
      eq_of_alikeOption o o' hv.right.right.right.right ho, hd]

end

end Expr

namespace Shaper

mutual

/-- The constants of a shaper, from left to right. -/
def constants : Shaper → List Scalar
  | .binding .. | .entity .. => []
  | .record fields => constantsOfFields fields
  | .constant value => [value]

def constantsOfFields : List (String × Shaper) → List Scalar
  | [] => []
  | (_, s) :: rest => s.constants ++ constantsOfFields rest

end

mutual

theorem eq_of_alike : ∀ a b : Shaper, Legible a.constants b.constants →
    Alike a.encode b.encode → a = b
  | .binding i t n, b, _, h => by
    cases b <;> simp [encode] at h
    next index _ _ _ =>
      obtain ⟨hi, ht, hn⟩ := h
      have same : i = index := by omega
      rw [same, DataType.faithful_encode _ _ ht, hn]
  | .entity t i n, b, _, h => by
    cases b <;> simp [encode] at h
    next _ index _ _ =>
      obtain ⟨ht, hi, hn⟩ := h
      have same : i = index := by omega
      rw [ht, same, hn]
  | .record fs, b, hv, h => by
    cases b <;> simp [encode] at h
    rw [constants, constants] at hv
    rw [eq_of_alikeFields fs _ hv h]
  | .constant v, b, hv, h => by
    cases b <;> simp [encode] at h
    rw [hv.eq h]

theorem eq_of_alikeFields : ∀ as bs : List (String × Shaper),
    Legible (constantsOfFields as) (constantsOfFields bs) →
    AlikeItems (encodeFields as) (encodeFields bs) → as = bs
  | [], bs, _, h => by
    cases bs <;> simp [encodeFields] at h
    rfl
  | (n, a) :: as, bs, hv, h => by
    cases bs <;> simp [encodeFields] at h
    obtain ⟨⟨hn, ha⟩, has⟩ := h
    rw [constantsOfFields, constantsOfFields] at hv
    rw [hn, eq_of_alike a _ hv.left ha, eq_of_alikeFields as _ hv.right has]

end

end Shaper

namespace Query

def constants : Query → List Scalar
  | .select s => Expr.constantsOfSelect s
  | .lookup _ => []
  | .setOperation _ left right => Expr.constantsOfSelect left ++ Expr.constantsOfSelect right

theorem eq_of_alike (a b : Query) (hv : Legible a.constants b.constants)
    (h : Alike a.encode b.encode) : a = b := by
  cases a with
  | select s =>
    cases b <;> simp [encode] at h
    rw [Expr.eq_of_alikeSelect s _ hv h]
  | lookup l =>
    cases b <;> simp [encode] at h
    rw [PointLookup.faithful_encode _ _ h]
  | setOperation op l r =>
    cases b <;> simp [encode] at h
    obtain ⟨ho, hl, hr⟩ := h
    rw [SetOperator.faithful_encode _ _ ho, Expr.eq_of_alikeSelect l _ hv.left hl,
      Expr.eq_of_alikeSelect r _ hv.right hr]

end Query

namespace ShapedQuery

def constants (s : ShapedQuery) : List Scalar := s.query.constants ++ s.shaper.constants

/-- **The text of a shape determines the shape**, when its constants are known by their texts. -/
theorem eq_of_text {a b : ShapedQuery} (hv : Legible a.constants b.constants)
    (h : a.encode.text = b.encode.text) : a = b := by
  obtain ⟨q, s⟩ := a
  obtain ⟨q', s'⟩ := b
  have halike := alike_of_text h
  simp only [encode, alike_object, alikeMembers_cons] at halike
  obtain ⟨-, hq, -, hs, -⟩ := halike
  rw [q.eq_of_alike q' hv.left hq, s.eq_of_alike s' hv.right hs]

end ShapedQuery

end DocQuery
