/-
# What the text of an expression determines

A text carries no end mark, so it is taken together with what follows it.  `Expr.spell` is the
text of an expression with a rest behind it, and `Expr.determines` says that equal texts are of
one bare expression and have one rest, for expressions that are written legibly.

An expression is a HEAD with memberships behind it, as `x IN (1) IN (2)` is.  Both halves are
needed, since a membership is written without brackets around its item.

* The first characters of a head tell its kind (`Expr.opening_spell`), so a head meets only heads
  of its kind (`Expr.headDetermines_of_kind`).  A column and a constant that is written as a word
  are told apart by their words, and a comparison and a test for null by what is compared with.
* What follows a head is no part of it: the end, a bracket, a comma, or a blank (`Pauses`).  What
  follows an expression with its memberships is no further membership either (`Ends`).
* Lists are determined by their parts, if these are by what stands behind them
  (`spellOthers_inj`), and memberships by their collections (`Expr.spellMemberships_inj`).

The proof of `Expr.determines` is one recursion over both expressions that takes these together.

**Legible** is plain and clear.  `Expr.IsPlain` excludes what is not written as it stands: names
that are no identifiers, floats, byte strings.  `Expr.IsClear` excludes what looks like something
else: null that is compared with, a minus that is lost, an empty collection.
-/
import DocQuery.Proofs.BareSelects
import DocQuery.Proofs.JsonText

namespace DocQuery

/-! ## 1. Texts with a rest -/

section

variable {α β : Type}

/-- Parts with their own texts, each behind a comma. -/
def spellOthers (text : α → List Char → List Char) : List α → List Char → List Char
  | [], rest => rest
  | a :: as, rest => ',' :: ' ' :: text a (spellOthers text as rest)

/-- A list of parts with commas between them. -/
def spellList (text : α → List Char → List Char) : List α → List Char → List Char
  | [], rest => rest
  | a :: as, rest => text a (spellOthers text as rest)

theorem spellOthers_map (text : β → List Char → List Char) (f : α → β) (rest : List Char) :
    ∀ as : List α, spellOthers text (as.map f) rest = spellOthers (fun a => text (f a)) as rest
  | [] => rfl
  | a :: as => by rw [List.map_cons, spellOthers, spellOthers, spellOthers_map text f rest as]

theorem spellList_map (text : β → List Char → List Char) (f : α → β) (rest : List Char)
    (as : List α) : spellList text (as.map f) rest = spellList (fun a => text (f a)) as rest := by
  cases as with
  | nil => rfl
  | cons a as => rw [List.map_cons, spellList, spellList, spellOthers_map]

variable {text : α → List Char → List Char} {key : α → β} {P Q : α → Prop}
  {Behind : List Char → Prop}

theorem behind_spellOthers (comma : ∀ rest, Behind (',' :: rest)) {r : List Char} (hr : Behind r)
    (as : List α) : Behind (spellOthers text as r) := by
  cases as with
  | nil => exact hr
  | cons a as => exact comma _

/-- Lists are determined by their parts if the parts are by what stands behind them. -/
theorem spellOthers_inj (comma : ∀ rest, Behind (',' :: rest)) (part : ∀ {a a' : α} {r r' : List Char},
    P a → Q a' → Behind r → Behind r' → text a r = text a' r' → key a = key a' ∧ r = r') :
    ∀ {as as' : List α} {r r' : List Char}, (∀ a ∈ as, P a) → (∀ a ∈ as', Q a) → Behind r →
      Behind r' → r.head? ≠ some ',' → r'.head? ≠ some ',' →
      spellOthers text as r = spellOthers text as' r' → as.map key = as'.map key ∧ r = r'
  | [], [], _, _, _, _, _, _, _, _, h => ⟨rfl, h⟩
  | [], _ :: _, _, _, _, _, _, _, ends, _, h => by
    rw [spellOthers, spellOthers] at h
    subst h
    exact absurd rfl ends
  | _ :: _, [], _, _, _, _, _, _, _, ends', h => by
    rw [spellOthers, spellOthers] at h
    subst h
    exact absurd rfl ends'
  | a :: as, a' :: as', r, r', has, has', hr, hr', ends, ends', h => by
    rw [spellOthers, spellOthers] at h
    obtain ⟨first, tail⟩ := part (has a List.mem_cons_self) (has' a' List.mem_cons_self)
      (behind_spellOthers comma hr as) (behind_spellOthers comma hr' as')
      (List.cons.inj (List.cons.inj h).2).2
    obtain ⟨others, rest⟩ := spellOthers_inj comma part (fun x hx => has x (List.mem_cons_of_mem _ hx))
      (fun x hx => has' x (List.mem_cons_of_mem _ hx)) hr hr' ends ends' tail
    exact ⟨by rw [List.map_cons, List.map_cons, first, others], rest⟩

theorem spellList_inj (comma : ∀ rest, Behind (',' :: rest)) (part : ∀ {a a' : α} {r r' : List Char},
    P a → Q a' → Behind r → Behind r' → text a r = text a' r' → key a = key a' ∧ r = r')
    {as as' : List α} (hne : as ≠ []) (hne' : as' ≠ []) {r r' : List Char} (has : ∀ a ∈ as, P a)
    (has' : ∀ a ∈ as', Q a) (hr : Behind r) (hr' : Behind r') (ends : r.head? ≠ some ',')
    (ends' : r'.head? ≠ some ',') (h : spellList text as r = spellList text as' r') :
    as.map key = as'.map key ∧ r = r' := by
  obtain ⟨a, as, rfl⟩ := List.exists_cons_of_ne_nil hne
  obtain ⟨a', as', rfl⟩ := List.exists_cons_of_ne_nil hne'
  obtain ⟨first, tail⟩ := part (has a List.mem_cons_self) (has' a' List.mem_cons_self)
    (behind_spellOthers comma hr as) (behind_spellOthers comma hr' as') h
  obtain ⟨others, rest⟩ := spellOthers_inj comma part (fun x hx => has x (List.mem_cons_of_mem _ hx))
    (fun x hx => has' x (List.mem_cons_of_mem _ hx)) hr hr' ends ends' tail
  exact ⟨by rw [List.map_cons, List.map_cons, first, others], rest⟩

end

/-- The path of a column in brackets. -/
def spellPath : List String → List Char → List Char
  | [], rest => rest
  | name :: path, rest => '[' :: (Json.quote name ++ ']' :: spellPath path rest)

namespace Expr

mutual

/-- The text of an expression with a rest behind it. -/
def spell : Expr → List Char → List Char
  | .column source path _ _, rest => source.toList ++ spellPath path rest
  | .constant value _ _, rest => value.literal ++ rest
  | .parameter name _ _, rest => '@' :: (name.toList ++ rest)
  | .binary op left right _, rest =>
    '(' :: left.spell (' ' :: (op.symbol.toList ++ ' ' :: right.spell (')' :: rest)))
  | .unary .not operand _, rest => 'N' :: 'O' :: 'T' :: ' ' :: '(' :: operand.spell (')' :: rest)
  | .unary .negate operand _, rest => '-' :: operand.spell rest
  | .unary .isNull operand _, rest =>
    '(' :: operand.spell (' ' :: '=' :: ' ' :: 'n' :: 'u' :: 'l' :: 'l' :: ')' :: rest)
  | .unary .isNotNull operand _, rest =>
    '(' :: operand.spell (' ' :: '!' :: '=' :: ' ' :: 'n' :: 'u' :: 'l' :: 'l' :: ')' :: rest)
  | .function name args _ _ _, rest => name.toList ++ '(' :: spellItems args (')' :: rest)
  | .inList item values, rest =>
    item.spell (' ' :: 'I' :: 'N' :: ' ' :: '(' :: spellItems values (')' :: rest))
  | .inParameter .., rest | .inSubquery .., rest => rest

def spellItems : List Expr → List Char → List Char
  | [], rest => rest
  | e :: es, rest => e.spell (spellTail es rest)

def spellTail : List Expr → List Char → List Char
  | [], rest => rest
  | e :: es, rest => ',' :: ' ' :: e.spell (spellTail es rest)

end

theorem spellTail_eq (es : List Expr) (rest : List Char) :
    spellTail es rest = spellOthers spell es rest := by
  induction es with
  | nil => rw [spellTail, spellOthers]
  | cons e es ih => rw [spellTail, spellOthers, ih]

theorem spellItems_eq (es : List Expr) (rest : List Char) :
    spellItems es rest = spellList spell es rest := by
  cases es with
  | nil => rw [spellItems, spellList]
  | cons e es => rw [spellItems, spellList, spellTail_eq]

end Expr

/-! ## 2. Legible expressions -/

/-- The characters of plain identifiers. -/
def isWordChar (c : Char) : Bool := c.isAlphanum || c == '_'

/-- Letters, digits and underscores, the first of them no digit. -/
def isIdentifier (s : String) : Bool :=
  match s.toList with
  | [] => false
  | c :: rest => !c.isDigit && (c :: rest).all isWordChar

namespace Scalar

def integer? : Scalar → Option Int
  | .int32 n => some n.toInt
  | .int64 n => some n.toInt
  | _ => none

/-- Scalars but floats and byte strings. -/
def isPlain : Scalar → Bool
  | .float32 _ | .float64 _ | .binary _ => false
  | _ => true

end Scalar

namespace Expr

mutual

/-- Whether every expression of a tree is as `p` says. -/
def Everywhere (p : Expr → Prop) : Expr → Prop
  | .column source path type mapping => p (.column source path type mapping)
  | .constant value type mapping => p (.constant value type mapping)
  | .parameter name type mapping => p (.parameter name type mapping)
  | .binary op left right mapping =>
    p (.binary op left right mapping) ∧ left.Everywhere p ∧ right.Everywhere p
  | .unary op operand mapping => p (.unary op operand mapping) ∧ operand.Everywhere p
  | .function name args isScoring type mapping =>
    p (.function name args isScoring type mapping) ∧ EverywhereList p args
  | .inList item values =>
    p (.inList item values) ∧ item.Everywhere p ∧ EverywhereList p values
  | .inParameter item values => p (.inParameter item values) ∧ item.Everywhere p
  | .inSubquery item values => p (.inSubquery item values) ∧ item.Everywhere p

def EverywhereList (p : Expr → Prop) : List Expr → Prop
  | [] => True
  | e :: rest => e.Everywhere p ∧ EverywhereList p rest

end

theorem everywhereList_iff {p : Expr → Prop} {es : List Expr} :
    EverywhereList p es ↔ ∀ e ∈ es, e.Everywhere p := by
  induction es with
  | nil => exact ⟨fun _ _ h => absurd h List.not_mem_nil, fun _ => trivial⟩
  | cons e es ih => rw [EverywhereList, List.forall_mem_cons, ih]

mutual

theorem everywhere_and {p q : Expr → Prop} : ∀ e : Expr, e.Everywhere p → e.Everywhere q →
    e.Everywhere fun x => p x ∧ q x
  | .column .., hp, hq | .constant .., hp, hq | .parameter .., hp, hq => ⟨hp, hq⟩
  | .binary _ left right _, hp, hq =>
    ⟨⟨hp.1, hq.1⟩, everywhere_and left hp.2.1 hq.2.1, everywhere_and right hp.2.2 hq.2.2⟩
  | .unary _ operand _, hp, hq => ⟨⟨hp.1, hq.1⟩, everywhere_and operand hp.2 hq.2⟩
  | .function _ args _ _ _, hp, hq => ⟨⟨hp.1, hq.1⟩, everywhereList_and args hp.2 hq.2⟩
  | .inList item values, hp, hq =>
    ⟨⟨hp.1, hq.1⟩, everywhere_and item hp.2.1 hq.2.1, everywhereList_and values hp.2.2 hq.2.2⟩
  | .inParameter item _, hp, hq | .inSubquery item _, hp, hq =>
    ⟨⟨hp.1, hq.1⟩, everywhere_and item hp.2 hq.2⟩

theorem everywhereList_and {p q : Expr → Prop} : ∀ es : List Expr, EverywhereList p es →
    EverywhereList q es → EverywhereList (fun x => p x ∧ q x) es
  | [], _, _ => trivial
  | e :: es, hp, hq => ⟨everywhere_and e hp.1 hq.1, everywhereList_and es hp.2 hq.2⟩

end

/-- Names are plain identifiers and constants are neither floats nor byte strings; collections are
inlined. -/
def IsPlain : Expr → Prop
  | .column source _ _ _ => isIdentifier source
  | .constant value _ _ => value.isPlain
  | .parameter name _ _ => isIdentifier name
  | .function name _ _ _ _ => isIdentifier name
  | .inParameter .. | .inSubquery .. => False
  | _ => True

def isNullConstant : Expr → Bool
  | .constant .null _ _ => true
  | _ => false

/-- What minus may stand in front of: no membership, whose brackets the text leaves out, and no
integer whose negative the evaluator misses.  It misses none of 53 bits (`negatesExactly_of_lt`). -/
def IsNegatable : Expr → Prop
  | .inList .. => False
  | .constant value _ _ => ∀ n, value.integer? = some n → 0 ≤ n → negatesExactly n
  | _ => True

/-- The text does not look like that of something else: a column is not named as a literal, null is
not compared with, minus is not lost, and there are no empty collections. -/
def IsClear : Expr → Prop
  | .column source path _ _ => path = [] → source ∉ ["null", "true", "false"]
  | .binary op _ right _ => op = .equal ∨ op = .notEqual → ¬ right.isNullConstant
  | .unary .negate operand _ => operand.IsNegatable
  | .inList _ values => values ≠ []
  | _ => True

instance : DecidablePred IsPlain
  | .column source _ _ _ => inferInstanceAs (Decidable (isIdentifier source = true))
  | .constant value _ _ => inferInstanceAs (Decidable (value.isPlain = true))
  | .parameter name _ _ => inferInstanceAs (Decidable (isIdentifier name = true))
  | .function name _ _ _ _ => inferInstanceAs (Decidable (isIdentifier name = true))
  | .inParameter .. | .inSubquery .. => inferInstanceAs (Decidable False)
  | .binary .. | .unary .. | .inList .. => inferInstanceAs (Decidable True)

instance : DecidablePred IsNegatable
  | .inList .. => inferInstanceAs (Decidable False)
  | .constant value _ _ =>
    inferInstanceAs (Decidable (∀ n ∈ value.integer?, 0 ≤ n → negatesExactly n = true))
  | .column .. | .parameter .. | .binary .. | .unary .. | .function .. | .inParameter ..
  | .inSubquery .. => inferInstanceAs (Decidable True)

instance : DecidablePred IsClear
  | .column source path _ _ =>
    inferInstanceAs (Decidable (path = [] → source ∉ ["null", "true", "false"]))
  | .binary op _ right _ =>
    inferInstanceAs (Decidable (op = .equal ∨ op = .notEqual → ¬ right.isNullConstant = true))
  | .unary .negate operand _ => inferInstanceAs (Decidable operand.IsNegatable)
  | .unary .not _ _ | .unary .isNull _ _ | .unary .isNotNull _ _ => inferInstanceAs (Decidable True)
  | .inList _ values => inferInstanceAs (Decidable (values ≠ []))
  | .constant .. | .parameter .. | .function .. | .inParameter .. | .inSubquery .. =>
    inferInstanceAs (Decidable True)

section

variable (p : Expr → Prop) [DecidablePred p]

mutual

def decidableEverywhere : ∀ e : Expr, Decidable (e.Everywhere p)
  | .column .. | .constant .. | .parameter .. => inferInstanceAs (Decidable (p _))
  | .binary _ left right _ =>
    have := decidableEverywhere left
    have := decidableEverywhere right
    inferInstanceAs (Decidable (p _ ∧ left.Everywhere p ∧ right.Everywhere p))
  | .unary _ operand _ =>
    have := decidableEverywhere operand
    inferInstanceAs (Decidable (p _ ∧ operand.Everywhere p))
  | .function _ args _ _ _ =>
    have := decidableEverywhereList args
    inferInstanceAs (Decidable (p _ ∧ EverywhereList p args))
  | .inList item values =>
    have := decidableEverywhere item
    have := decidableEverywhereList values
    inferInstanceAs (Decidable (p _ ∧ item.Everywhere p ∧ EverywhereList p values))
  | .inParameter item _ | .inSubquery item _ =>
    have := decidableEverywhere item
    inferInstanceAs (Decidable (p _ ∧ item.Everywhere p))

def decidableEverywhereList : ∀ es : List Expr, Decidable (EverywhereList p es)
  | [] => .isTrue trivial
  | e :: rest =>
    have := decidableEverywhere e
    have := decidableEverywhereList rest
    inferInstanceAs (Decidable (e.Everywhere p ∧ EverywhereList p rest))

end

instance (e : Expr) : Decidable (e.Everywhere p) := decidableEverywhere p e

end

/-- Plain and clear throughout. -/
def Legible (e : Expr) : Prop := e.Everywhere fun x => x.IsPlain ∧ x.IsClear

/-- Not a membership. -/
def IsHead : Expr → Prop
  | .inList .. => False
  | _ => True

/-- The expression that the memberships are about. -/
def head : Expr → Expr
  | .inList item _ => item.head
  | e => e

/-- The collections that the head is looked up in, the innermost first. -/
def memberships : Expr → List (List Expr)
  | .inList item values => item.memberships ++ [values]
  | _ => []

theorem isHead_head : ∀ e : Expr, e.head.IsHead
  | .inList item _ => isHead_head item
  | .column .. | .constant .. | .parameter .. | .binary .. | .unary .. | .function ..
  | .inParameter .. | .inSubquery .. => trivial

theorem IsHead.head_eq {e : Expr} (h : e.IsHead) : e.head = e := by
  cases e with
  | inList => exact h.elim
  | _ => rfl

end Expr

/-! ## 3. What follows an expression -/

/-- The end, a bracket, a comma, or a blank with no bracket behind it. -/
inductive Pauses : List Char → Prop where
  | nil : Pauses []
  | bracket (rest : List Char) : Pauses (')' :: rest)
  | comma (rest : List Char) : Pauses (',' :: rest)
  | blank {c : Char} (bracket : c ≠ '(') (rest : List Char) : Pauses (' ' :: c :: rest)

/-- As `Pauses`, but the blank is not that of a membership either. -/
inductive Ends : List Char → Prop where
  | nil : Ends []
  | bracket (rest : List Char) : Ends (')' :: rest)
  | comma (rest : List Char) : Ends (',' :: rest)
  | blank {c : Char} (bracket : c ≠ '(') (membership : c ≠ 'I') (rest : List Char) :
    Ends (' ' :: c :: rest)

theorem Ends.pauses {r : List Char} : Ends r → Pauses r
  | .nil => .nil
  | .bracket rest => .bracket rest
  | .comma rest => .comma rest
  | .blank h _ rest => .blank h rest

theorem Pauses.stops {p : Char → Bool} (blank : ¬ p ' ') (comma : ¬ p ',') (bracket : ¬ p ')')
    {r : List Char} : Pauses r → Stops p r
  | .nil => stops_nil
  | .bracket rest => stops_cons bracket rest
  | .comma rest => stops_cons comma rest
  | .blank _ rest => stops_cons blank _

theorem Pauses.stops_word {r : List Char} (h : Pauses r) : Stops isWordChar r :=
  h.stops (by decide) (by decide) (by decide)

/-! ## 4. The kind of a head -/

/-- What the first characters of an expression tell. -/
inductive Opening where
  | nothing
  | name
  | call
  | negation
  | quote
  | digits
  | minus
  | parameter
  | group

namespace Opening

/-- The kind of a head that begins with a word, by what follows the word. -/
def ofRest : List Char → Opening
  | '(' :: _ => .call
  | ' ' :: '(' :: _ => .negation
  | _ => .name

def ofText : List Char → Opening
  | [] => .nothing
  | c :: rest =>
    if c = '"' then .quote
    else if c = '@' then .parameter
    else if c = '(' then .group
    else if c = '-' then .minus
    else if c.isDigit then .digits
    else if isWordChar c then ofRest ((c :: rest).dropWhile isWordChar)
    else .nothing

theorem ofRest_of_pauses {r : List Char} (h : Pauses r) : ofRest r = .name := by
  cases h with
  | blank bracket rest =>
    unfold ofRest
    split
    · next h => exact nomatch h
    · next h =>
      cases h
      exact absurd rfl bracket
    · rfl
  | _ => rfl

theorem ofText_word {w : String} (h : isIdentifier w) {r : List Char}
    (stops : Stops isWordChar r) : ofText (w.toList ++ r) = ofRest r := by
  unfold isIdentifier at h
  split at h
  · cases h
  · next c rest hw =>
    simp only [Bool.and_eq_true, Bool.not_eq_true', List.all_eq_true] at h
    obtain ⟨digit, word⟩ := h
    have other : ∀ {d : Char}, ¬ isWordChar d → c ≠ d := by
      rintro d hd rfl
      exact hd (word c List.mem_cons_self)
    have dropped : (c :: (rest ++ r)).dropWhile isWordChar = r := by
      rw [← List.cons_append, List.dropWhile_append_of_pos word]
      cases r with
      | nil => rfl
      | cons d t => rw [List.dropWhile_cons_of_neg (stops d rfl)]
    rw [hw, List.cons_append, ofText, if_neg (other (by decide)), if_neg (other (by decide)),
      if_neg (other (by decide)), if_neg (other (by decide)), if_neg (by simp [digit]),
      if_pos (word c List.mem_cons_self), dropped]

end Opening

def Scalar.opening : Scalar → Opening
  | .text _ => .quote
  | .int32 n => if n.toInt < 0 then .minus else .digits
  | .int64 n => if n.toInt < 0 then .minus else .digits
  | _ => .name

namespace Expr

def opening : Expr → Opening
  | .column .. => .name
  | .constant value _ _ => value.opening
  | .parameter .. => .parameter
  | .binary .. => .group
  | .unary .not _ _ => .negation
  | .unary .negate _ _ => .minus
  | .unary .isNull _ _ | .unary .isNotNull _ _ => .group
  | .function .. => .call
  | .inList item _ => item.opening
  | .inParameter .. | .inSubquery .. => .name

end Expr

theorem opening_integerText (n : Int) (r : List Char) :
    Opening.ofText (Layout.integerText n ++ r) = if n < 0 then .minus else .digits := by
  unfold Layout.integerText
  split
  · rfl
  · cases h : Layout.digitsOf n.natAbs with
    | nil => exact absurd h (Layout.digitsOf_ne_nil _)
    | cons c rest =>
      have digit : c.isDigit = true :=
        Nat.isDigit_of_mem_toDigits (by decide) (by decide) (h ▸ List.mem_cons_self :
          c ∈ Layout.digitsOf n.natAbs)
      have other : ∀ {d : Char}, d.isDigit = false → c ≠ d := by
        rintro d hd rfl
        exact absurd digit (by simp [hd])
      rw [List.cons_append, Opening.ofText, if_neg (other (by decide)), if_neg (other (by decide)),
        if_neg (other (by decide)), if_neg (other (by decide)), if_pos digit]

namespace Expr

theorem stops_spellPath (path : List String) {r : List Char} (h : Pauses r) :
    Stops isWordChar (spellPath path r) ∧ Opening.ofRest (spellPath path r) = .name := by
  cases path with
  | nil => exact ⟨h.stops_word, Opening.ofRest_of_pauses h⟩
  | cons name path => exact ⟨stops_cons (by decide) _, rfl⟩

/-- The first characters of an expression tell the kind of its head. -/
theorem opening_spell : ∀ (e : Expr), e.Legible → ∀ {r : List Char}, Pauses r →
    Opening.ofText (e.spell r) = e.opening
  | .column source path _ _, h, r, hr => by
    obtain ⟨stops, name⟩ := stops_spellPath path hr
    rw [spell, Opening.ofText_word h.1 stops, name, opening]
  | .constant value _ _, h, r, hr => by
    have word : ∀ {w : String}, isIdentifier w → Opening.ofText (w.toList ++ r) = .name :=
      fun hw => (Opening.ofText_word hw hr.stops_word).trans (Opening.ofRest_of_pauses hr)
    rw [spell, opening]
    cases value with
    | null => exact word (w := "null") rfl
    | bool b => cases b with
      | false => exact word (w := "false") rfl
      | true => exact word (w := "true") rfl
    | int32 n =>
      simp only [Scalar.literal, Scalar.keyText, String.toList_ofList, Scalar.opening]
      exact opening_integerText _ _
    | int64 n =>
      simp only [Scalar.literal, Scalar.keyText, String.toList_ofList, Scalar.opening]
      exact opening_integerText _ _
    | text t => rfl
    | float32 x => exact nomatch h.1
    | float64 x => exact nomatch h.1
    | binary bytes => exact nomatch h.1
  | .parameter .., _, r, hr => by
    rw [spell, opening]
    rfl
  | .binary .., _, r, hr => by
    rw [spell, opening]
    rfl
  | .unary .not operand _, _, r, hr => by
    rw [spell, opening]
    exact Opening.ofText_word (w := "NOT") rfl (stops_cons (by decide) _)
  | .unary .negate operand _, _, r, hr => by
    rw [spell, opening]
    rfl
  | .unary .isNull operand _, _, r, hr => by
    rw [spell, opening]
    rfl
  | .unary .isNotNull operand _, _, r, hr => by
    rw [spell, opening]
    rfl
  | .function name args _ _ _, h, r, hr => by
    rw [spell, opening]
    exact Opening.ofText_word h.1.1 (stops_cons (by decide) _)
  | .inList item values, h, r, hr => by
    rw [spell, opening]
    exact opening_spell item h.2.1 (.blank (by decide) _)
  | .inParameter .., h, _, _ => h.1.1.elim
  | .inSubquery .., h, _, _ => h.1.1.elim

theorem opening_ne_nothing : ∀ e : Expr, e.opening ≠ .nothing
  | .constant value _ _ => by
    rw [opening]
    cases value with
    | int32 n | int64 n =>
      show (if _ then _ else _) ≠ _
      split <;> exact Opening.noConfusion
    | _ => exact Opening.noConfusion
  | .unary op _ _ => by cases op <;> exact Opening.noConfusion
  | .inList item _ => opening_ne_nothing item
  | .column .. | .parameter .. | .binary .. | .function .. | .inParameter .. | .inSubquery .. =>
    Opening.noConfusion

/-! ## 5. Heads by their kind -/

/-- The constant that is written as a word. -/
def ofWord (w : String) : Expr :=
  .constant (if w = "null" then .null else .bool (w = "true")) .object none

/-- The test for null that is written as a comparison. -/
def nullTest (op : BinaryOp) (operand : Expr) : Expr :=
  .unary (if op = .equal then .isNull else .isNotNull) operand none

/-- An expression that is written as an operation in brackets: it is one, or it is a test for null. -/
structure Grouped (op : BinaryOp) (left right e : Expr) : Prop where
  leftLegible : left.Legible
  rightLegible : right.Legible
  spelled : ∀ r, e.spell r = (binary op left right none).spell r
  bare : e.bare = .binary op left.bare right.bare none ∧
      (op = .equal ∨ op = .notEqual → ¬ right.isNullConstant) ∨
    right.isNullConstant ∧ (op = .equal ∨ op = .notEqual) ∧ e.bare = nullTest op left.bare

/-- Null, as a test for null is written. -/
def null : Expr := .constant .null .object none

theorem legible_null : null.Legible := ⟨rfl, trivial⟩

theorem grouped_binary {op : BinaryOp} {left right : Expr} {mapping : Option TypeMapping}
    (h : (binary op left right mapping).Legible) : Grouped op left right (.binary op left right mapping)
    where
  leftLegible := h.2.1
  rightLegible := h.2.2
  spelled r := by rw [spell, spell]
  bare := .inl ⟨by rw [Expr.bare], h.1.2⟩

theorem grouped_isNull {operand : Expr} {mapping : Option TypeMapping}
    (h : (unary .isNull operand mapping).Legible) :
    Grouped .equal operand null (.unary .isNull operand mapping) where
  leftLegible := h.2
  rightLegible := legible_null
  spelled r := by
    simp only [spell]
    rfl
  bare := .inr ⟨rfl, .inl rfl, by rw [Expr.bare]; rfl⟩

theorem grouped_isNotNull {operand : Expr} {mapping : Option TypeMapping}
    (h : (unary .isNotNull operand mapping).Legible) :
    Grouped .notEqual operand null (.unary .isNotNull operand mapping) where
  leftLegible := h.2
  rightLegible := legible_null
  spelled r := by
    simp only [spell]
    rfl
  bare := .inr ⟨rfl, .inr rfl, by rw [Expr.bare]; rfl⟩

/-- The heads of each kind.  A column and a constant that is written as a word are told apart by their
words, and a comparison and a test for null by what is compared with. -/
inductive Head : Opening → Expr → Prop where
  | word {e : Expr} {w : String} (path : List String) (identifier : isIdentifier w)
      (spelled : ∀ r, e.spell r = w.toList ++ spellPath path r)
      (bare : e.bare = .column w path .object none ∧ (path = [] → w ∉ ["null", "true", "false"]) ∨
        path = [] ∧ w ∈ ["null", "true", "false"] ∧ e.bare = ofWord w) : Head .name e
  | call (name : String) (args : List Expr) (isScoring : Bool) (type : DataType)
      (mapping : Option TypeMapping) : Head .call (.function name args isScoring type mapping)
  | negation (operand : Expr) (mapping : Option TypeMapping) :
    Head .negation (.unary .not operand mapping)
  | quote (t : String) (type : DataType) (mapping : Option TypeMapping) :
    Head .quote (.constant (.text t) type mapping)
  | digits {value : Scalar} {n : Int} (integer : value.integer? = some n) (nonneg : 0 ≤ n)
      (type : DataType) (mapping : Option TypeMapping) : Head .digits (.constant value type mapping)
  | negative {value : Scalar} {n : Int} (integer : value.integer? = some n) (negative : n < 0)
      (type : DataType) (mapping : Option TypeMapping) : Head .minus (.constant value type mapping)
  | negate (operand : Expr) (mapping : Option TypeMapping) :
    Head .minus (.unary .negate operand mapping)
  | parameter (name : String) (type : DataType) (mapping : Option TypeMapping) :
    Head .parameter (.parameter name type mapping)
  | group {e left right : Expr} {op : BinaryOp} (grouped : Grouped op left right e) : Head .group e

section

variable {value : Scalar} {n : Int}

theorem opening_integer (integer : value.integer? = some n) :
    value.opening = if n < 0 then .minus else .digits := by
  cases value with
  | int32 m | int64 m =>
    cases integer
    rfl
  | _ => exact nomatch integer

theorem head_integer (integer : value.integer? = some n) (type : DataType)
    (mapping : Option TypeMapping) : Head value.opening (.constant value type mapping) := by
  rw [opening_integer integer]
  split
  · next h => exact .negative integer h type mapping
  · next h => exact .digits integer (Int.not_lt.1 h) type mapping

theorem spell_integer (integer : value.integer? = some n) (type : DataType)
    (mapping : Option TypeMapping) (r : List Char) :
    (constant value type mapping).spell r = Layout.integerText n ++ r := by
  cases value with
  | int32 m | int64 m =>
    cases integer
    rw [spell, Scalar.literal, Scalar.keyText, String.toList_ofList] <;> exact nofun
  | _ => exact nomatch integer

theorem bare_integer (integer : value.integer? = some n) (type : DataType)
    (mapping : Option TypeMapping) :
    ∃ m : Int64, m.toInt = n ∧ (constant value type mapping).bare = constant (.int64 m) .object none := by
  cases value with
  | int32 m =>
    cases integer
    exact ⟨m.toInt64, m.toInt_toInt64, by rw [bare, Scalar.widened]⟩
  | int64 m =>
    cases integer
    exact ⟨m, rfl, rfl⟩
  | _ => cases integer

end

/-- Every legible head is of its kind. -/
theorem head_opening {e : Expr} (h : e.Legible) (head : e.IsHead) : Head e.opening e := by
  cases e with
  | column source path type mapping =>
    exact .word path h.1 (fun r => by rw [spell]) (.inl ⟨by rw [bare], h.2⟩)
  | constant value type mapping =>
    have word : ∀ {w : String}, w ∈ ["null", "true", "false"] → isIdentifier w →
        (∀ r, (constant value type mapping).spell r = w.toList ++ spellPath [] r) →
        (constant value type mapping).bare = ofWord w →
        Head .name (constant value type mapping) :=
      fun member identifier spelled bare => .word [] identifier spelled (.inr ⟨rfl, member, bare⟩)
    cases value with
    | null => exact word (w := "null") (by decide) rfl (fun r => by rw [spell]; rfl) rfl
    | bool b => cases b with
      | false => exact word (w := "false") (by decide) rfl (fun r => by rw [spell]; rfl) rfl
      | true => exact word (w := "true") (by decide) rfl (fun r => by rw [spell]; rfl) rfl
    | int32 n => exact head_integer rfl type mapping
    | int64 n => exact head_integer rfl type mapping
    | text t => exact .quote t type mapping
    | float32 x => exact nomatch h.1
    | float64 x => exact nomatch h.1
    | binary bytes => exact nomatch h.1
  | parameter name type mapping => exact .parameter name type mapping
  | binary op left right mapping => exact .group (grouped_binary h)
  | unary op operand mapping => cases op with
    | not => exact .negation operand mapping
    | negate => exact .negate operand mapping
    | isNull => exact .group (grouped_isNull h)
    | isNotNull => exact .group (grouped_isNotNull h)
  | function name args isScoring type mapping => exact .call name args isScoring type mapping
  | inList item values => exact head.elim
  | inParameter item values => exact h.1.1.elim
  | inSubquery item values => exact h.1.1.elim

/-! ## 6. Heads -/

/-- Texts that agree with all that follows them are of one bare expression. -/
def Determines (e : Expr) : Prop := ∀ ⦃e' : Expr⦄ ⦃r r' : List Char⦄, e.Legible → e'.Legible →
  Ends r → Ends r' → e.spell r = e'.spell r' → e.bare = e'.bare ∧ r = r'

/-- Between heads less is asked of what follows them. -/
def HeadDetermines (e : Expr) : Prop := ∀ ⦃e' : Expr⦄ ⦃r r' : List Char⦄, e.Legible → e'.Legible →
  e.IsHead → e'.IsHead → Pauses r → Pauses r' → e.spell r = e'.spell r' → e.bare = e'.bare ∧ r = r'

theorem isWordChar_of_isIdentifier {w : String} (h : isIdentifier w) : ∀ c ∈ w.toList, isWordChar c := by
  unfold isIdentifier at h
  split at h
  · cases h
  · next c rest hw =>
    rw [hw]
    simp only [Bool.and_eq_true, List.all_eq_true] at h
    exact h.2

/-- Words that agree with what follows them, which is no part of a word. -/
theorem word_append_inj {w w' : String} (h : isIdentifier w) (h' : isIdentifier w')
    {r r' : List Char} (stops : Stops isWordChar r) (stops' : Stops isWordChar r')
    (text : w.toList ++ r = w'.toList ++ r') : w = w' ∧ r = r' := by
  obtain ⟨words, rests⟩ := append_inj_of_all (isWordChar_of_isIdentifier h)
    (isWordChar_of_isIdentifier h') stops stops' text
  exact ⟨String.toList_inj.1 words, rests⟩

theorem spellPath_inj : ∀ {path path' : List String} {r r' : List Char}, Pauses r → Pauses r' →
    spellPath path r = spellPath path' r' → path = path' ∧ r = r'
  | [], [], _, _, _, _, h => ⟨rfl, h⟩
  | [], _ :: _, _, _, hr, _, h => by
    rw [spellPath, spellPath] at h
    subst h
    exact nomatch hr
  | _ :: _, [], _, _, _, hr', h => by
    rw [spellPath, spellPath] at h
    subst h
    exact nomatch hr'
  | name :: path, name' :: path', r, r', hr, hr', h => by
    rw [spellPath, spellPath] at h
    obtain ⟨rfl, htail⟩ := Json.quote_append_inj (List.cons.inj h).2
    obtain ⟨rfl, rest⟩ := spellPath_inj hr hr' (List.cons.inj htail).2
    exact ⟨rfl, rest⟩

theorem integerText_append_inj {m n : Int} {r r' : List Char} (hr : Pauses r) (hr' : Pauses r')
    (h : Layout.integerText m ++ r = Layout.integerText n ++ r') : m = n ∧ r = r' := by
  have stops : ∀ {t : List Char}, Pauses t → Stops isNumeral t :=
    fun ht => ht.stops (by decide) (by decide) (by decide)
  obtain ⟨texts, rests⟩ := append_inj_of_all (fun _ => Layout.isNumeral_of_mem_integerText)
    (fun _ => Layout.isNumeral_of_mem_integerText) (stops hr) (stops hr') h
  exact ⟨Layout.integerText_injective texts, rests⟩

theorem spell_ne_bracket {e : Expr} (h : e.Legible) {r : List Char} (hr : Pauses r)
    (t : List Char) : e.spell r ≠ ')' :: t := by
  intro text
  have opening := opening_spell e h hr
  rw [text] at opening
  exact opening_ne_nothing e opening.symm

/-- Lists in brackets are determined by their parts. -/
theorem spellItems_inj {es : List Expr} (ih : ∀ e ∈ es, e.Determines) {es' : List Expr}
    {r r' : List Char} (hes : EverywhereList (fun x => x.IsPlain ∧ x.IsClear) es)
    (hes' : EverywhereList (fun x => x.IsPlain ∧ x.IsClear) es')
    (h : spellItems es (')' :: r) = spellItems es' (')' :: r')) :
    bareList es = bareList es' ∧ r = r' := by
  have legible : ∀ e ∈ es, e.Legible := everywhereList_iff.1 hes
  have legible' : ∀ e ∈ es', e.Legible := everywhereList_iff.1 hes'
  rw [spellItems_eq, spellItems_eq] at h
  have pauses : ∀ (es : List Expr) (r : List Char), Pauses (spellOthers spell es (')' :: r)) :=
    fun es r => behind_spellOthers .comma (.bracket r) es
  cases es with
  | nil => cases es' with
    | nil => exact ⟨rfl, (List.cons.inj h).2⟩
    | cons e' es' =>
      exact absurd h.symm (spell_ne_bracket (legible' e' List.mem_cons_self) (pauses es' r') r)
  | cons e es => cases es' with
    | nil => exact absurd h (spell_ne_bracket (legible e List.mem_cons_self) (pauses es r) r')
    | cons e' es' =>
      have part : ∀ {a a' : Expr} {r r' : List Char}, a.Determines ∧ a.Legible → a'.Legible →
          Ends r → Ends r' → a.spell r = a'.spell r' → a.bare = a'.bare ∧ r = r' :=
        fun ha ha' hr hr' text => ha.1 ha.2 ha' hr hr' text
      obtain ⟨bares, rest⟩ := spellList_inj .comma part (List.cons_ne_nil e es)
        (List.cons_ne_nil e' es') (fun a ha => ⟨ih a ha, legible a ha⟩) legible' (.bracket r)
        (.bracket r') (fun h => nomatch h) (fun h => nomatch h) h
      rw [bareList_eq_map, bareList_eq_map]
      exact ⟨bares, (List.cons.inj rest).2⟩

/-- A head meets only heads of its kind. -/
theorem headDetermines_of_kind {e : Expr} (h : ∀ {e' : Expr} {r r' : List Char}, e.Legible →
    e'.Legible → Head e.opening e' → Pauses r → Pauses r' → e.spell r = e'.spell r' →
    e.bare = e'.bare ∧ r = r') : e.HeadDetermines := by
  intro e' r r' he he' _ head' hr hr' text
  have opening : e'.opening = e.opening := by
    rw [← opening_spell e he hr, text, opening_spell e' he' hr']
  exact h he he' (opening ▸ head_opening he' head') hr hr' text

theorem headDetermines_word {e : Expr} (word : e.opening = .name) : e.HeadDetermines := by
  intro e' r r' he he' head head' hr hr' text
  have opening : e'.opening = .name := by
    rw [← word, ← opening_spell e he hr, text, opening_spell e' he' hr']
  have kind := head_opening he head
  have kind' := head_opening he' head'
  rw [word] at kind
  rw [opening] at kind'
  cases kind with
  | word path identifier spelled bare => cases kind' with
    | word path' identifier' spelled' bare' =>
      rw [spelled, spelled'] at text
      obtain ⟨rfl, behind⟩ := word_append_inj identifier identifier' (stops_spellPath path hr).1
        (stops_spellPath path' hr').1 text
      obtain ⟨rfl, rest⟩ := spellPath_inj hr hr' behind
      refine ⟨?_, rest⟩
      rcases bare with ⟨bare, column⟩ | ⟨rfl, constant, bare⟩
      · rcases bare' with ⟨bare', -⟩ | ⟨hpath, constant, -⟩
        · rw [bare, bare']
        · exact absurd constant (column hpath)
      · rcases bare' with ⟨-, column⟩ | ⟨-, -, bare'⟩
        · exact absurd constant (column rfl)
        · rw [bare, bare']

theorem headDetermines_call {name : String} {args : List Expr} {isScoring : Bool} {type : DataType}
    {mapping : Option TypeMapping} (ih : ∀ e ∈ args, e.Determines) :
    (function name args isScoring type mapping).HeadDetermines := by
  apply headDetermines_of_kind
  intro e' r r' he he' kind hr hr' text
  cases kind with
  | call name' args' isScoring' type' mapping' =>
    rw [spell, spell] at text
    obtain ⟨rfl, rest⟩ := word_append_inj he.1.1 he'.1.1 (stops_cons (by decide) _)
      (stops_cons (by decide) _) text
    obtain ⟨items, rest⟩ := spellItems_inj ih he.2 he'.2 (List.cons.inj rest).2
    exact ⟨by rw [bare, bare, items], rest⟩

theorem headDetermines_not {operand : Expr} {mapping : Option TypeMapping}
    (ih : operand.Determines) : (unary .not operand mapping).HeadDetermines := by
  apply headDetermines_of_kind
  intro e' r r' he he' kind hr hr' text
  cases kind with
  | negation operand' mapping' =>
    rw [spell, spell] at text
    simp only [List.cons.injEq, true_and] at text
    obtain ⟨operands, rest⟩ := ih he.2 he'.2 (.bracket r) (.bracket r') text
    exact ⟨by rw [bare, bare, operands], (List.cons.inj rest).2⟩

theorem headDetermines_text {t : String} {type : DataType} {mapping : Option TypeMapping} :
    (constant (.text t) type mapping).HeadDetermines := by
  apply headDetermines_of_kind
  intro e' r r' he he' kind hr hr' text
  cases kind with
  | quote t' type' mapping' =>
    rw [spell, spell] at text
    obtain ⟨rfl, rest⟩ := Json.quote_append_inj text
    exact ⟨by rw [bare, bare], rest⟩

theorem headDetermines_parameter {name : String} {type : DataType}
    {mapping : Option TypeMapping} : (parameter name type mapping).HeadDetermines := by
  apply headDetermines_of_kind
  intro e' r r' he he' kind hr hr' text
  cases kind with
  | parameter name' type' mapping' =>
    rw [spell, spell] at text
    obtain ⟨rfl, rest⟩ := word_append_inj he.1 he'.1 hr.stops_word hr'.stops_word
      (List.cons.inj text).2
    exact ⟨by rw [bare, bare], rest⟩

/-! ### Numbers and minus -/

theorem bare_eq_of_integer {value value' : Scalar} {n : Int} (integer : value.integer? = some n)
    (integer' : value'.integer? = some n) {type type' : DataType}
    {mapping mapping' : Option TypeMapping} :
    (constant value type mapping).bare = (constant value' type' mapping').bare := by
  obtain ⟨m, hm, bare⟩ := bare_integer integer type mapping
  obtain ⟨m', hm', bare'⟩ := bare_integer integer' type' mapping'
  rw [bare, bare', Int64.toInt_inj.1 (hm.trans hm'.symm)]

theorem IsNegatable.isHead {e : Expr} (h : e.IsNegatable) : e.IsHead := by
  cases e with
  | inList => exact h
  | _ => trivial

theorem integerText_of_neg {n : Int} (h : n < 0) :
    Layout.integerText n = '-' :: Layout.integerText (-n) := by
  rw [Layout.integerText, if_pos h, Layout.integerText, if_neg (by omega), Int.natAbs_neg]

/-- A number in whose text the minus stands in front of the other's. -/
theorem negate_bare_eq_of_integer {operand : Expr} (legible : operand.Legible)
    (negatable : operand.IsNegatable) {r r' : List Char} (hr : Pauses r) (hr' : Pauses r')
    {value : Scalar} {n : Int} (integer : value.integer? = some n) (negative : n < 0)
    (type : DataType) (mapping mapping' : Option TypeMapping)
    (text : operand.spell r = Layout.integerText (-n) ++ r') :
    (unary .negate operand mapping').bare = (constant value type mapping).bare ∧ r = r' := by
  have opening : operand.opening = .digits := by
    rw [← opening_spell operand legible hr, text, opening_integerText, if_neg (by omega)]
  have kind := head_opening legible negatable.isHead
  rw [opening] at kind
  cases kind with
  | digits integer' nonneg type' mapping'' =>
    rw [spell_integer integer'] at text
    obtain ⟨rfl, rest⟩ := integerText_append_inj hr hr' text
    obtain ⟨m, hm, bareValue⟩ := bare_integer integer type mapping
    obtain ⟨m', hm', bareOperand⟩ := bare_integer integer' type' mapping''
    have exactly : 0 ≤ m'.toInt ∧ negatesExactly m'.toInt := by
      rw [hm']
      exact ⟨nonneg, negatable _ integer' nonneg⟩
    have minus : -m' = m := by
      rw [← Int64.toInt_inj, toInt_neg_of_nonneg exactly.1, hm', hm, Int.neg_neg]
    refine ⟨?_, rest⟩
    rw [bareValue, Expr.bare, bareOperand, bareUnary, negated, if_pos exactly, minus]

theorem headDetermines_integer {value : Scalar} {n : Int} (integer : value.integer? = some n)
    {type : DataType} {mapping : Option TypeMapping} :
    (constant value type mapping).HeadDetermines := by
  apply headDetermines_of_kind
  intro e' r r' he he' kind hr hr' text
  rw [spell_integer integer] at text
  rw [opening, opening_integer integer] at kind
  by_cases negative : n < 0
  · rw [if_pos negative] at kind
    cases kind with
    | negative integer' negative' =>
      rw [spell_integer integer'] at text
      obtain ⟨rfl, rest⟩ := integerText_append_inj hr hr' text
      exact ⟨bare_eq_of_integer integer integer', rest⟩
    | negate operand mapping' =>
      rw [integerText_of_neg negative, spell] at text
      obtain ⟨bare, rest⟩ := negate_bare_eq_of_integer he'.2 he'.1.2 hr' hr integer negative type
        mapping mapping' (List.cons.inj text).2.symm
      exact ⟨bare.symm, rest.symm⟩
  · rw [if_neg negative] at kind
    cases kind with
    | digits integer' nonneg =>
      rw [spell_integer integer'] at text
      obtain ⟨rfl, rest⟩ := integerText_append_inj hr hr' text
      exact ⟨bare_eq_of_integer integer integer', rest⟩

theorem headDetermines_negate {operand : Expr} {mapping : Option TypeMapping}
    (ih : operand.head.HeadDetermines) : (unary .negate operand mapping).HeadDetermines := by
  apply headDetermines_of_kind
  intro e' r r' he he' kind hr hr' text
  cases kind with
  | negative integer negative type mapping' =>
    rw [spell_integer integer, integerText_of_neg negative, spell] at text
    exact negate_bare_eq_of_integer he.2 he.1.2 hr hr' integer negative type mapping' mapping
      (List.cons.inj text).2
  | negate operand' mapping' =>
    have same : operand.head = operand := (IsNegatable.isHead he.1.2).head_eq
    rw [same] at ih
    rw [spell, spell] at text
    obtain ⟨operands, rest⟩ := ih he.2 he'.2 (IsNegatable.isHead he.1.2) (IsNegatable.isHead he'.1.2)
      hr hr'
      (List.cons.inj text).2
    exact ⟨by rw [bare, bare, operands], rest⟩

/-! ### Comparisons and tests for null -/

theorem symbol_toList (op : BinaryOp) : ∃ c t, op.symbol.toList = c :: t ∧ c ≠ '(' ∧ c ≠ 'I' := by
  cases op <;> exact ⟨_, _, rfl, by decide, by decide⟩

theorem symbol_noBlank (op : BinaryOp) : ∀ c ∈ op.symbol.toList, (c != ' ') = true := by
  rw [← List.all_eq_true]
  cases op <;> rfl

theorem symbol_injective {op op' : BinaryOp} (h : op.symbol = op'.symbol) : op = op' := by
  cases op <;> cases op' <;> first | rfl | exact absurd h (by decide)

theorem ends_symbol (op : BinaryOp) (rest : List Char) : Ends (' ' :: (op.symbol.toList ++ rest)) := by
  obtain ⟨c, t, h, bracket, membership⟩ := symbol_toList op
  rw [h]
  exact .blank bracket membership _

/-- An operation in brackets is determined by its operands. -/
theorem binary_inj {left right left' right' : Expr} {op op' : BinaryOp}
    (left_determines : left.Determines) (right_determines : right.Determines) (hl : left.Legible)
    (hr : right.Legible) (hl' : left'.Legible) (hr' : right'.Legible) {r r' : List Char}
    (text : (binary op left right none).spell r = (binary op' left' right' none).spell r') :
    op = op' ∧ left.bare = left'.bare ∧ right.bare = right'.bare ∧ r = r' := by
  rw [spell, spell] at text
  obtain ⟨lefts, behind⟩ := left_determines hl hl' (ends_symbol op _) (ends_symbol op' _)
    (List.cons.inj text).2
  obtain ⟨symbols, behind⟩ := append_inj_of_all (symbol_noBlank op) (symbol_noBlank op')
    (stops_cons (by decide) _) (stops_cons (by decide) _) (List.cons.inj behind).2
  obtain ⟨rights, rest⟩ := right_determines hr hr' (.bracket r) (.bracket r') (List.cons.inj behind).2
  exact ⟨symbol_injective (String.toList_inj.1 symbols), lefts, rights, (List.cons.inj rest).2⟩

theorem isNullConstant_bare (e : Expr) : e.bare.isNullConstant = e.isNullConstant := by
  have minus : ∀ e, (negated e).isNullConstant = false := by
    intro e
    unfold negated
    split
    · split <;> rfl
    · rfl
  cases e with
  | unary op operand mapping =>
    rw [bare]
    cases op with
    | negate => exact minus _
    | _ => rfl
  | constant value type mapping => cases value <;> rfl
  | _ => rw [bare]; rfl

theorem headDetermines_group {e left right : Expr} {op : BinaryOp} (group : e.opening = .group)
    (grouped : e.Legible → Grouped op left right e) (left_determines : left.Determines)
    (right_determines : right.Determines) : e.HeadDetermines := by
  apply headDetermines_of_kind
  intro e' r r' he he' kind hr hr' text
  rw [group] at kind
  cases kind with
  | group grouped' =>
    have grouped := grouped he
    rw [grouped.spelled, grouped'.spelled] at text
    obtain ⟨rfl, lefts, rights, rest⟩ := binary_inj left_determines right_determines
      grouped.leftLegible grouped.rightLegible grouped'.leftLegible grouped'.rightLegible text
    have nulls := congrArg isNullConstant rights
    rw [isNullConstant_bare, isNullConstant_bare] at nulls
    refine ⟨?_, rest⟩
    rcases grouped.bare with ⟨bare, compared⟩ | ⟨null, equality, bare⟩
    · rcases grouped'.bare with ⟨bare', -⟩ | ⟨null', equality, -⟩
      · rw [bare, bare', lefts, rights]
      · exact absurd (nulls.trans null') (compared equality)
    · rcases grouped'.bare with ⟨-, compared⟩ | ⟨-, -, bare'⟩
      · exact absurd (nulls.symm.trans null) (compared equality)
      · rw [bare, bare', lefts]

/-! ## 7. Memberships -/

def spellMemberships : List (List Expr) → List Char → List Char
  | [], rest => rest
  | values :: ts, rest =>
    ' ' :: 'I' :: 'N' :: ' ' :: '(' :: spellItems values (')' :: spellMemberships ts rest)

theorem spellMemberships_append (values : List Expr) (rest : List Char) :
    ∀ ts : List (List Expr), spellMemberships (ts ++ [values]) rest = spellMemberships ts
      (' ' :: 'I' :: 'N' :: ' ' :: '(' :: spellItems values (')' :: rest))
  | [] => by rw [List.nil_append, spellMemberships, spellMemberships, spellMemberships]
  | _ :: ts => by
    rw [List.cons_append, spellMemberships, spellMemberships, spellMemberships_append values rest ts]

theorem spell_head : ∀ (e : Expr) (rest : List Char),
    e.spell rest = e.head.spell (spellMemberships e.memberships rest)
  | .inList item values, rest => by
    rw [spell, head, memberships, spellMemberships_append, spell_head item]
  | .column .., _ | .constant .., _ | .parameter .., _ | .binary .., _ | .unary .., _
  | .function .., _ | .inParameter .., _ | .inSubquery .., _ => by
    rw [head, memberships, spellMemberships] <;> exact nofun

theorem bare_head : ∀ e : Expr, e.bare =
    e.memberships.foldl (fun item values => .inList item (bareList values)) e.head.bare
  | .inList item values => by
    rw [bare, head, memberships, List.foldl_append, ← bare_head item]
    rfl
  | .column .. | .constant .. | .parameter .. | .binary .. | .unary .. | .function ..
  | .inParameter .. | .inSubquery .. => by
    rw [head, memberships, List.foldl_nil] <;> exact nofun

theorem Legible.head : ∀ {e : Expr}, e.Legible → e.head.Legible
  | .inList item _, h => Legible.head (e := item) h.2.1
  | .column .., h | .constant .., h | .parameter .., h | .binary .., h | .unary .., h
  | .function .., h | .inParameter .., h | .inSubquery .., h => h

theorem Legible.memberships : ∀ {e : Expr}, e.Legible →
    ∀ values ∈ e.memberships, EverywhereList (fun x => x.IsPlain ∧ x.IsClear) values
  | .inList item values, h, vs, hvs => by
    rcases List.mem_append.1 hvs with hvs | hvs
    · exact Legible.memberships (e := item) h.2.1 vs hvs
    · rw [List.mem_singleton.1 hvs]
      exact h.2.2
  | .column .., _, _, hvs | .constant .., _, _, hvs | .parameter .., _, _, hvs
  | .binary .., _, _, hvs | .unary .., _, _, hvs | .function .., _, _, hvs
  | .inParameter .., _, _, hvs | .inSubquery .., _, _, hvs => absurd hvs List.not_mem_nil

theorem pauses_spellMemberships (ts : List (List Expr)) {r : List Char} (h : Ends r) :
    Pauses (spellMemberships ts r) := by
  cases ts with
  | nil => exact h.pauses
  | cons values ts => exact .blank (by decide) _

/-- Memberships are determined by the collections. -/
theorem spellMemberships_inj : ∀ {ts : List (List Expr)},
    (∀ values ∈ ts, ∀ e ∈ values, e.Determines) → ∀ {ts' : List (List Expr)} {r r' : List Char},
    (∀ values ∈ ts, EverywhereList (fun x => x.IsPlain ∧ x.IsClear) values) →
    (∀ values ∈ ts', EverywhereList (fun x => x.IsPlain ∧ x.IsClear) values) → Ends r → Ends r' →
    spellMemberships ts r = spellMemberships ts' r' → ts.map bareList = ts'.map bareList ∧ r = r'
  | [], _, [], _, _, _, _, _, _, h => ⟨rfl, h⟩
  | [], _, _ :: _, r, _, _, _, hr, _, h => by
    rw [spellMemberships, spellMemberships] at h
    subst h
    cases hr with
    | blank _ membership => exact absurd rfl membership
  | _ :: _, _, [], _, r', _, _, _, hr', h => by
    rw [spellMemberships, spellMemberships] at h
    subst h
    cases hr' with
    | blank _ membership => exact absurd rfl membership
  | values :: ts, ih, values' :: ts', r, r', hts, hts', hr, hr', h => by
    rw [spellMemberships, spellMemberships] at h
    simp only [List.cons.injEq, true_and] at h
    obtain ⟨first, h⟩ := spellItems_inj (ih values List.mem_cons_self) (hts values List.mem_cons_self)
      (hts' values' List.mem_cons_self) h
    obtain ⟨rest, hrs⟩ := spellMemberships_inj (fun x hx => ih x (List.mem_cons_of_mem _ hx))
      (fun x hx => hts x (List.mem_cons_of_mem _ hx)) (fun x hx => hts' x (List.mem_cons_of_mem _ hx))
      hr hr' h
    exact ⟨by rw [List.map_cons, List.map_cons, first, rest], hrs⟩

theorem determines_of_head {e : Expr} (head : e.head.HeadDetermines)
    (collections : ∀ values ∈ e.memberships, ∀ v ∈ values, v.Determines) : e.Determines := by
  intro e' r r' he he' hr hr' text
  rw [spell_head e, spell_head e'] at text
  obtain ⟨heads, behind⟩ := head he.head he'.head e.isHead_head e'.isHead_head
    (pauses_spellMemberships _ hr) (pauses_spellMemberships _ hr') text
  obtain ⟨bares, rest⟩ := spellMemberships_inj collections he.memberships he'.memberships hr hr' behind
  refine ⟨?_, rest⟩
  have folded : ∀ (ts : List (List Expr)) (b : Expr),
      ts.foldl (fun item values => .inList item (bareList values)) b =
        (ts.map bareList).foldl (fun item values => .inList item values) b := by
    intro ts b
    rw [List.foldl_map]
  rw [bare_head e, bare_head e', folded, folded, heads, bares]

theorem determines_null : null.Determines :=
  determines_of_head (headDetermines_word rfl) fun _ h => absurd h List.not_mem_nil

/-! ## 8. All expressions -/

mutual

theorem headDetermines_head : ∀ e : Expr, e.head.HeadDetermines
  | .column .. => headDetermines_word rfl
  | .constant value _ _ => by
    cases value with
    | null => exact headDetermines_word rfl
    | bool b => exact headDetermines_word rfl
    | int32 n => exact headDetermines_integer rfl
    | int64 n => exact headDetermines_integer rfl
    | text t => exact headDetermines_text
    | float32 x => exact fun _ _ _ h => nomatch h.1
    | float64 x => exact fun _ _ _ h => nomatch h.1
    | binary bytes => exact fun _ _ _ h => nomatch h.1
  | .parameter .. => headDetermines_parameter
  | .binary op left right mapping =>
    headDetermines_group rfl grouped_binary
      (determines_of_head (headDetermines_head left) (determines_memberships left))
      (determines_of_head (headDetermines_head right) (determines_memberships right))
  | .unary op operand mapping => by
    have operand_determines :=
      determines_of_head (headDetermines_head operand) (determines_memberships operand)
    cases op with
    | not => exact headDetermines_not operand_determines
    | negate => exact headDetermines_negate (headDetermines_head operand)
    | isNull => exact headDetermines_group rfl grouped_isNull operand_determines determines_null
    | isNotNull => exact headDetermines_group rfl grouped_isNotNull operand_determines determines_null
  | .function name args _ _ _ => headDetermines_call (determines_list args)
  | .inList item _ => headDetermines_head item
  | .inParameter .. => fun _ _ _ h => h.1.1.elim
  | .inSubquery .. => fun _ _ _ h => h.1.1.elim

theorem determines_memberships : ∀ e : Expr, ∀ values ∈ e.memberships, ∀ v ∈ values, v.Determines
  | .inList item values, vs, hvs => by
    rcases List.mem_append.1 hvs with hvs | hvs
    · exact determines_memberships item vs hvs
    · rw [List.mem_singleton.1 hvs]
      exact determines_list values
  | .column .., _, h | .constant .., _, h | .parameter .., _, h | .binary .., _, h | .unary .., _, h
  | .function .., _, h | .inParameter .., _, h | .inSubquery .., _, h => absurd h List.not_mem_nil

theorem determines_list : ∀ es : List Expr, ∀ e ∈ es, e.Determines
  | [], _, h => absurd h List.not_mem_nil
  | first :: rest, e, h => by
    rcases List.mem_cons.1 h with h | h
    · rw [h]
      exact determines_of_head (headDetermines_head first) (determines_memberships first)
    · exact determines_list rest e h

end

/-- **The text of an expression determines it but for what execution does not read.** -/
theorem determines (e : Expr) : e.Determines :=
  determines_of_head e.headDetermines_head e.determines_memberships

end Expr

end DocQuery
